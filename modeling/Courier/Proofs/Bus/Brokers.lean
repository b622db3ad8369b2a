import Courier.Bus.Broker
import Courier.Proofs.Bus.Queues

/-!
# Operations of a broker

What an operation does to the queue of a name, and to all that is in the queues.
A broker that is sound has one queue of a name, and numbers its consumers.
-/

namespace Courier
namespace Bus

open scoped List

namespace Broker

def stockOf (queues : List Queue) : List (String × Copy) :=
  queues.flatMap fun q => q.contents.map fun c => (q.name, c)

def stock (b : Broker) : List (String × Copy) :=
  stockOf b.queues

structure Sound (b : Broker) : Prop where
  names : (b.queues.map Queue.name).Nodup
  queues : ∀ q ∈ b.queues, q.Sound
  ids : ∀ q ∈ b.queues, ∀ e ∈ q.roll, e.1 < b.nextConsumer

theorem sound_empty : ({} : Broker).Sound := by
  constructor
  · exact List.nodup_nil
  · intro q hq
    cases hq
  · intro q hq
    cases hq

/-!
## The queue of a name
-/

theorem mem_of_queue? {b : Broker} {name : String} {q : Queue} (h : b.queue? name = some q) :
    q ∈ b.queues :=
  List.mem_of_find?_eq_some h

theorem name_of_queue? {b : Broker} {name : String} {q : Queue} (h : b.queue? name = some q) :
    q.name = name := by
  simpa using List.find?_some h

theorem queue?_of_mem {b : Broker} (hb : b.Sound) {q : Queue} (h : q ∈ b.queues) :
    b.queue? q.name = some q := by
  cases hfind : b.queue? q.name with
  | none => exact absurd (List.find?_eq_none.mp hfind q h) (by simp)
  | some other =>
      have hname := name_of_queue? hfind
      rw [List.inj_on_of_nodup_map hb.names (mem_of_queue? hfind) h hname]

theorem mem_stock_iff {b : Broker} (hb : b.Sound) {name : String} {c : Copy} :
    (name, c) ∈ b.stock ↔ ∃ q, b.queue? name = some q ∧ c ∈ q.contents := by
  constructor
  · intro h
    rcases List.mem_flatMap.mp h with ⟨q, hq, hmem⟩
    rcases List.mem_map.mp hmem with ⟨_, hc, heq⟩
    cases heq
    exact ⟨q, queue?_of_mem hb hq, hc⟩
  · rintro ⟨q, hq, hc⟩
    rw [← name_of_queue? hq]
    exact List.mem_flatMap.mpr ⟨q, mem_of_queue? hq, List.mem_map_of_mem hc⟩

theorem map_name_updateQueue {f : Queue → Queue} (hf : ∀ q, (f q).name = q.name) (name : String)
    (queues : List Queue) :
    (updateQueue name f queues).map Queue.name = queues.map Queue.name := by
  unfold updateQueue
  rw [List.map_map]
  apply List.map_congr_left
  intro q _
  by_cases h : q.name = name <;> simp [h, hf]

theorem queue?_updateQueue {f : Queue → Queue} (hf : ∀ q, (f q).name = q.name) (b : Broker)
    (n name : String) :
    ({ b with queues := updateQueue n f b.queues } : Broker).queue? name =
      if name = n then (b.queue? name).map f else b.queue? name := by
  have hkept : (fun q => decide (q.name = name)) ∘ (fun q => if q.name = n then f q else q) =
      fun q => decide (q.name = name) := by
    funext q
    by_cases h : q.name = n <;> simp [h, hf]
  have hmap : ({ b with queues := updateQueue n f b.queues } : Broker).queue? name =
      (b.queue? name).map fun q => if q.name = n then f q else q := by
    simp only [queue?, updateQueue, List.find?_map, hkept]
  rw [hmap]
  cases h : b.queue? name with
  | none => simp
  | some q =>
      rw [Option.map_some, name_of_queue? h]
      by_cases hn : name = n <;> simp [hn]

/-- The queue of a name stands among others, which a change under that name leaves alone. -/
theorem exists_split_of_queue? {b : Broker} (hb : b.Sound) {name : String} {q : Queue}
    (h : b.queue? name = some q) :
    ∃ before after, b.queues = before ++ q :: after ∧
      (∀ other ∈ before ++ after, other.name ≠ name) ∧
      ∀ f, updateQueue name f b.queues = before ++ f q :: after := by
  have hname := name_of_queue? h
  rcases List.append_of_mem (mem_of_queue? h) with ⟨before, after, hsplit⟩
  have hnames := hb.names
  simp only [hsplit, List.map_append, List.map_cons] at hnames
  have hnot := (List.nodup_cons.mp (List.nodup_middle.mp hnames)).left
  rw [← List.map_append, hname] at hnot
  have hothers : ∀ other ∈ before ++ after, other.name ≠ name := by
    intro other hother heq
    apply hnot
    rw [← heq]
    exact List.mem_map_of_mem hother
  refine ⟨before, after, hsplit, hothers, ?_⟩
  intro f
  simp only [updateQueue, hsplit, List.map_append, List.map_cons]
  rw [map_ite_of_ne _ (fun other h => hothers other (List.mem_append_left _ h)),
    map_ite_of_ne _ (fun other h => hothers other (List.mem_append_right _ h)), if_pos hname]

theorem updateQueue_of_queue?_none {b : Broker} {name : String} (h : b.queue? name = none)
    (f : Queue → Queue) : updateQueue name f b.queues = b.queues := by
  apply map_ite_of_ne
  intro q hq
  simpa using List.find?_eq_none.mp h q hq

/-!
## Changes of one queue
-/

theorem stockOf_split (before after : List Queue) (q : Queue) :
    stockOf (before ++ q :: after) ~
      (q.contents.map fun c => (q.name, c)) ++ stockOf (before ++ after) := by
  simp only [stockOf, List.flatMap_append, List.flatMap_cons]
  exact List.perm_append_comm_assoc _ _ _

theorem stock_updateQueue (out into : List Copy) {b : Broker} (hb : b.Sound) {name : String}
    {q : Queue} (h : b.queue? name = some q) {f : Queue → Queue} (hf : ∀ q, (f q).name = q.name)
    (hcontents : out ++ (f q).contents ~ into ++ q.contents) :
    (out.map fun c => (name, c)) ++ stockOf (updateQueue name f b.queues) ~
      (into.map fun c => (name, c)) ++ b.stock := by
  rcases exists_split_of_queue? hb h with ⟨before, after, hsplit, _, hupdate⟩
  have hname := name_of_queue? h
  have hmapped := hcontents.map fun c => (name, c)
  rw [List.map_append, List.map_append] at hmapped
  have hold := stockOf_split before after q
  have hnew := stockOf_split before after (f q)
  rw [hname] at hold
  rw [hf, hname] at hnew
  rw [hupdate, stock, hsplit]
  refine (hnew.append_left _).trans ?_
  refine List.Perm.trans ?_ (hold.append_left _).symm
  rw [← List.append_assoc, ← List.append_assoc]
  exact hmapped.append_right _

theorem forall_updateQueue {P : Queue → Prop} {f : Queue → Queue} {queues : List Queue}
    (name : String) (hold : ∀ q ∈ queues, P q) (hnew : ∀ q ∈ queues, P (f q)) :
    ∀ q ∈ updateQueue name f queues, P q := by
  intro q hq
  rcases List.mem_map.mp hq with ⟨old, hmem, rfl⟩
  by_cases h : old.name = name
  · rw [if_pos h]
    exact hnew old hmem
  · rw [if_neg h]
    exact hold old hmem

theorem sound_updateQueue {b b' : Broker} (hb : b.Sound) {name : String} {f : Queue → Queue}
    (hqueues : b'.queues = updateQueue name f b.queues) (hname : ∀ q, (f q).name = q.name)
    (hsound : ∀ q ∈ b.queues, (f q).Sound) (hnext : b.nextConsumer ≤ b'.nextConsumer)
    (hids : ∀ q ∈ b.queues, ∀ e ∈ (f q).roll, e.1 < b'.nextConsumer) : b'.Sound := by
  constructor
  · rw [hqueues, map_name_updateQueue hname]
    exact hb.names
  · rw [hqueues]
    exact forall_updateQueue name hb.queues hsound
  · have hold : ∀ q ∈ b.queues, ∀ e ∈ q.roll, e.1 < b'.nextConsumer := by
      intro q hq e he
      exact Nat.lt_of_lt_of_le (hb.ids q hq e he) hnext
    rw [hqueues]
    exact forall_updateQueue (P := fun q => ∀ e ∈ q.roll, e.1 < b'.nextConsumer) name hold hids

/-!
## Subscribing
-/

def declared (b : Broker) (s : Subscription) : Broker :=
  { b with
    queues :=
      match b.queue? s.queue with
      | some _ => b.queues
      | none => b.queues ++ [Queue.ofSubscription s] }

def joined (b : Broker) (s : Subscription) : Broker :=
  { b with
    queues := updateQueue s.queue (fun q => q.attach s.binding
      { id := b.nextConsumer, exclusive := s.isExclusive }) (b.declared s).queues
    nextConsumer := b.nextConsumer + 1 }

theorem subscribe_of_free {b : Broker} {s : Subscription} (hvalid : s.validate = none)
    (hfree : ∀ q, b.queue? s.queue = some q → refuses q s = false) :
    b.subscribe s = .ok (⟨s.queue, b.nextConsumer⟩, b.joined s) := by
  cases h : b.queue? s.queue with
  | none => simp [subscribe, hvalid, h, joined, declared]
  | some q => simp [subscribe, hvalid, h, hfree q h, joined, declared]

theorem subscribe_of_refused {b : Broker} {s : Subscription} {q : Queue}
    (hvalid : s.validate = none) (hq : b.queue? s.queue = some q) (hrefused : refuses q s = true) :
    b.subscribe s = .error (.queueInUse s.queue) := by
  simp [subscribe, hvalid, hq, hrefused]

theorem subscribe_cases (b : Broker) (s : Subscription) :
    (∃ e, b.subscribe s = .error e) ∨
      (s.validate = none ∧ (∀ q, b.queue? s.queue = some q → refuses q s = false) ∧
        b.subscribe s = .ok (⟨s.queue, b.nextConsumer⟩, b.joined s)) := by
  cases hvalid : s.validate with
  | some e =>
      left
      exact ⟨e, by simp [subscribe, hvalid]⟩
  | none =>
      cases hq : b.queue? s.queue with
      | none =>
          right
          have hfree : ∀ q, b.queue? s.queue = some q → refuses q s = false := by
            intro q h
            rw [hq] at h
            cases h
          exact ⟨rfl, by rwa [hq] at hfree, subscribe_of_free hvalid hfree⟩
      | some q =>
          cases hrefused : refuses q s with
          | true => exact Or.inl ⟨_, subscribe_of_refused hvalid hq hrefused⟩
          | false =>
              right
              have hfree : ∀ q', b.queue? s.queue = some q' → refuses q' s = false := by
                intro q' h
                rw [hq] at h
                cases h
                exact hrefused
              exact ⟨rfl, by rwa [hq] at hfree, subscribe_of_free hvalid hfree⟩

def queueFor (b : Broker) (s : Subscription) : Queue :=
  (b.queue? s.queue).getD (.ofSubscription s)

theorem queue?_declared (b : Broker) (s : Subscription) (name : String) :
    (b.declared s).queue? name =
      if name = s.queue then some (b.queueFor s) else b.queue? name := by
  unfold declared queueFor
  cases h : b.queue? s.queue with
  | some q =>
      by_cases hname : name = s.queue
      · subst hname
        simpa using h
      · simp [hname, queue?]
  | none =>
      by_cases hname : name = s.queue
      · subst hname
        have hnone : b.queues.find? (fun q => decide (q.name = s.queue)) = none := h
        simp [queue?, List.find?_append, hnone, Queue.ofSubscription]
      · have hne : s.queue ≠ name := fun h => hname h.symm
        simp [queue?, List.find?_append, Queue.ofSubscription, hname, hne]

theorem stock_declared (b : Broker) (s : Subscription) : (b.declared s).stock = b.stock := by
  unfold declared stock
  cases h : b.queue? s.queue with
  | some q => rfl
  | none => simp [stockOf, Queue.contents, Queue.buffered, Queue.ofSubscription]

theorem sound_declared {b : Broker} (hb : b.Sound) (s : Subscription) :
    (b.declared s).Sound := by
  unfold declared
  cases h : b.queue? s.queue with
  | some q => exact hb
  | none =>
      have hnew : ∀ q ∈ b.queues, q.name ≠ s.queue := by
        intro q hq
        simpa using List.find?_eq_none.mp h q hq
      constructor
      · simp only [List.map_append, List.map_singleton, List.nodup_append]
        refine ⟨hb.names, List.nodup_singleton _, ?_⟩
        intro name hname other hother heq
        rcases List.mem_map.mp hname with ⟨q, hq, rfl⟩
        exact hnew q hq (heq.trans (List.mem_singleton.mp hother))
      · intro q hq
        rcases List.mem_append.mp hq with hq | hq
        · exact hb.queues q hq
        · rw [List.mem_singleton.mp hq]
          exact Queue.sound_ofSubscription s
      · intro q hq e he
        rcases List.mem_append.mp hq with hq | hq
        · exact hb.ids q hq e he
        · rw [List.mem_singleton.mp hq] at he
          cases he

theorem queue?_joined (b : Broker) (s : Subscription) (name : String) :
    (b.joined s).queue? name =
      if name = s.queue then
        some ((b.queueFor s).attach s.binding
          { id := b.nextConsumer, exclusive := s.isExclusive })
      else b.queue? name := by
  have hupdate := queue?_updateQueue (f := fun q => q.attach s.binding
    { id := b.nextConsumer, exclusive := s.isExclusive })
    (fun q => (Queue.alike_attach q s.binding _).name) (b.declared s) s.queue name
  refine Eq.trans hupdate ?_
  rw [queue?_declared]
  by_cases h : name = s.queue <;> simp [h]

theorem stock_joined {b : Broker} (hb : b.Sound) (s : Subscription) :
    (b.joined s).stock ~ b.stock := by
  have hq : (b.declared s).queue? s.queue = some (b.queueFor s) := by
    rw [queue?_declared, if_pos rfl]
  have hmoved := stock_updateQueue [] [] (sound_declared hb s) hq
    (f := fun q => q.attach s.binding { id := b.nextConsumer, exclusive := s.isExclusive })
    (fun q => (Queue.alike_attach q s.binding _).name)
    (Queue.contents_attach _ _ rfl)
  rw [stock_declared] at hmoved
  exact hmoved

theorem sound_joined {b : Broker} (hb : b.Sound) (s : Subscription) : (b.joined s).Sound := by
  have hdeclared := sound_declared hb s
  refine sound_updateQueue hdeclared (f := fun q => q.attach s.binding
    { id := b.nextConsumer, exclusive := s.isExclusive }) rfl
    (fun q => (Queue.alike_attach q s.binding _).name) ?_ (Nat.le_succ _) ?_
  · intro q hq
    apply Queue.sound_attach (hdeclared.queues q hq)
    intro hmem
    rcases List.mem_map.mp hmem with ⟨e, he, hid⟩
    exact absurd hid (Nat.ne_of_lt (hdeclared.ids q hq e he))
  · intro q hq e he
    rw [Queue.roll_attach] at he
    rcases List.mem_append.mp he with he | he
    · exact Nat.lt_succ_of_lt (hdeclared.ids q hq e he)
    · rw [List.mem_singleton.mp he]
      exact Nat.lt_succ_self _

/-!
## Taking and leaving
-/

theorem take_cases (b : Broker) (ref : ConsumerRef) :
    (∃ q k c, b.queue? ref.queue = some q ∧ q.consumer? ref.id = some k ∧
        k.buffer.head? = some c ∧
        b.take ref = (.copy c,
          { b with queues := updateQueue ref.queue (fun q => q.pop ref.id) b.queues })) ∨
      ((∀ c, (b.take ref).1 ≠ .copy c) ∧ (b.take ref).2 = b) := by
  cases hhead : (b.consumer? ref).bind (fun k => k.buffer.head?) with
  | none =>
      right
      have htake : b.take ref = (if b.closed then .closed else .nothing, b) := by
        simp only [take, hhead]
      rw [htake]
      refine ⟨?_, rfl⟩
      intro c
      cases b.closed <;> simp
  | some c =>
      left
      rcases Option.bind_eq_some_iff.mp hhead with ⟨k, hk, hc⟩
      rcases Option.bind_eq_some_iff.mp hk with ⟨q, hq, hk⟩
      exact ⟨q, k, c, hq, hk, hc, by simp only [take, hhead]⟩

theorem stock_take {b : Broker} (hb : b.Sound) {ref : ConsumerRef} {q : Queue} {k : Consumer}
    {c : Copy} (hq : b.queue? ref.queue = some q) (hk : q.consumer? ref.id = some k)
    (hc : k.buffer.head? = some c) :
    b.stock ~ (ref.queue, c) ::
      stockOf (updateQueue ref.queue (fun q => q.pop ref.id) b.queues) := by
  have hpop := Queue.contents_pop (hb.queues q (mem_of_queue? hq)) hk hc
  have hmoved := stock_updateQueue [c] [] hb hq
    (f := fun q => q.pop ref.id) (fun _ => rfl) hpop.symm
  exact hmoved.symm

theorem sound_pop {b : Broker} (hb : b.Sound) (ref : ConsumerRef) :
    ({ b with queues := updateQueue ref.queue (fun q => q.pop ref.id) b.queues } :
      Broker).Sound := by
  refine sound_updateQueue hb rfl (fun q => rfl) ?_ (Nat.le_refl _) ?_
  · intro q hq
    exact Queue.sound_pop (hb.queues q hq) _
  · intro q hq e he
    rw [Queue.roll_pop] at he
    exact hb.ids q hq e he

def leftBy (b : Broker) (ref : ConsumerRef) : List Copy :=
  ((b.consumer? ref).map Consumer.buffer).getD []

theorem stock_unsubscribe {b : Broker} (hb : b.Sound) (ref : ConsumerRef) :
    b.stock ~ ((b.leftBy ref).map fun c => (ref.queue, c)) ++ (b.unsubscribe ref).stock := by
  cases hq : b.queue? ref.queue with
  | none =>
      have hconsumer : b.consumer? ref = none := by simp [consumer?, hq]
      have hsame := updateQueue_of_queue?_none hq fun q => q.detach ref.id
      simp [leftBy, hconsumer, unsubscribe, stock, hsame]
  | some q =>
      have hconsumer : b.consumer? ref = q.consumer? ref.id := by simp [consumer?, hq]
      have hleft : b.leftBy ref ++ (q.detach ref.id).contents ~ q.contents := by
        unfold leftBy
        rw [hconsumer]
        cases hk : q.consumer? ref.id with
        | none => simp [Queue.detach_of_consumer?_none hk]
        | some k => exact (Queue.contents_detach (hb.queues q (mem_of_queue? hq)) hk).symm
      exact (stock_updateQueue _ [] hb hq (f := fun q => q.detach ref.id) (fun _ => rfl)
        hleft).symm

theorem sound_unsubscribe {b : Broker} (hb : b.Sound) (ref : ConsumerRef) :
    (b.unsubscribe ref).Sound := by
  refine sound_updateQueue hb (f := fun q => q.detach ref.id) rfl (fun q => rfl) ?_
    (Nat.le_refl _) ?_
  · intro q hq
    exact Queue.sound_detach (hb.queues q hq) _
  · intro q hq e he
    rw [Queue.roll_detach] at he
    exact hb.ids q hq e (List.mem_filter.mp he).left

end Broker
end Bus
end Courier
