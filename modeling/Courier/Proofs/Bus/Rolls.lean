import Courier.Proofs.Bus.Requests
import Courier.Proofs.Bus.Waiting

/-!
# Who is at a queue

The roll of a queue tells whether it is active, and changes only when somebody joins the queue or
leaves it: `rollAt_respond`. Only the consumer itself takes copies out of its buffer:
`spared_respond`.
-/

namespace Courier
namespace Bus

def Request.Spares (refs : List ConsumerRef) : Request → Prop
  | .take ref => ref ∉ refs
  | .leave ref => ref ∉ refs
  | _ => True

theorem ConsumerRef.ext {ref other : ConsumerRef} (hqueue : ref.queue = other.queue)
    (hid : ref.id = other.id) : ref = other :=
  (ConsumerRef.mk.injEq _ _ _ _).mpr ⟨hqueue, hid⟩

namespace Queue

/-- A consumer has what it had to take, and what has come since. -/
def Spared (id : Nat) (q q' : Queue) : Prop :=
  ∀ k, q.consumer? id = some k → ∃ k', q'.consumer? id = some k' ∧ k.buffer <+: k'.buffer

section Spared

variable {id : Nat} {q q' q'' : Queue}

theorem Spared.refl (id : Nat) (q : Queue) : Spared id q q :=
  fun k hk => ⟨k, hk, List.prefix_refl _⟩

theorem Spared.trans (h : Spared id q q') (h' : Spared id q' q'') : Spared id q q'' := by
  intro k hk
  rcases h k hk with ⟨k', hk', hbuffer⟩
  rcases h' k' hk' with ⟨k'', hk'', hbuffer'⟩
  exact ⟨k'', hk'', hbuffer.trans hbuffer'⟩

theorem spared_deliver (id : Nat) (q : Queue) (c : Copy) : Spared id q (q.deliver c) := by
  cases haccepts : q.accepts with
  | false =>
      rw [deliver_of_not_accepts haccepts]
      exact .refl id q
  | true =>
      have hgains := gains_deliver haccepts c
      generalize q.deliver c = q' at hgains
      cases hgains with
      | heldBack _ _ => exact .refl id q
      | @handed before after k cursor consumers =>
          intro k₀ hk₀
          have hid : (Consumer.push c k).id = k.id := rfl
          simp only [consumer?, consumers, List.find?_append, List.find?_cons, hid] at hk₀ ⊢
          cases hbefore : before.find? fun k => decide (k.id = id) with
          | some k' =>
              rw [hbefore] at hk₀
              exact ⟨k₀, hk₀, List.prefix_refl _⟩
          | none =>
              rw [hbefore, Option.none_or] at hk₀
              rw [Option.none_or]
              by_cases hmine : k.id = id
              · simp only [hmine, decide_true, Option.some.injEq] at hk₀ ⊢
                subst hk₀
                exact ⟨_, rfl, List.prefix_append _ _⟩
              · simp only [hmine, decide_false] at hk₀ ⊢
                exact ⟨k₀, hk₀, List.prefix_refl _⟩

theorem spared_attach (id : Nat) (q : Queue) (binding : String) (k : Consumer) :
    Spared id q (q.attach binding k) := by
  have hfold : ∀ (held : List Copy) (q : Queue), Spared id q (held.foldl deliver q) := by
    intro held
    induction held with
    | nil => exact fun q => .refl id q
    | cons c rest ih => exact fun q => (spared_deliver id q c).trans (ih (q.deliver c))
  refine Spared.trans ?_ (hfold q.backlog _)
  intro k₀ hk₀
  refine ⟨k₀, ?_, List.prefix_refl _⟩
  unfold consumer? at hk₀ ⊢
  rw [List.find?_append, hk₀, Option.some_or]

theorem spared_detach {other : Nat} (hne : id ≠ other) (q : Queue) :
    Spared id q (q.detach other) := by
  intro k hk
  refine ⟨k, ?_, List.prefix_refl _⟩
  have hsame : (fun k : Consumer => decide (decide (k.id ≠ other) = true ∧
      decide (k.id = id) = true)) = fun k => decide (k.id = id) := by
    funext k
    by_cases h : k.id = id <;> simp [h, hne]
  unfold consumer? at hk ⊢
  rw [detach, List.find?_filter, hsame]
  exact hk

theorem spared_pop {other : Nat} (hne : id ≠ other) (q : Queue) : Spared id q (q.pop other) := by
  intro k hk
  have hid : k.id = id := by simpa using List.find?_some hk
  refine ⟨k, ?_, List.prefix_refl _⟩
  rw [consumer?_pop_eq_map, hk, Option.map_some, if_neg (hid ▸ hne)]

end Spared

theorem exists_consumer?_of_mem_roll {q : Queue} {e : Nat × Bool} (h : e ∈ q.roll) :
    ∃ k, q.consumer? e.1 = some k := by
  rcases List.mem_map.mp h with ⟨k, hk, rfl⟩
  apply Option.isSome_iff_exists.mp
  rw [consumer?, List.find?_isSome]
  exact ⟨k, hk, decide_eq_true rfl⟩

end Queue

namespace Broker

/-!
## Rolls
-/

def rollAt (b : Broker) (name : String) : List (Nat × Bool) :=
  ((b.queue? name).map Queue.roll).getD []

section Rolls

variable {b b' : Broker}

theorem rollAt_of_queue? {name : String} {q : Queue} (h : b.queue? name = some q) :
    b.rollAt name = q.roll := by
  rw [rollAt, h, Option.map_some, Option.getD_some]

theorem exists_queue_of_mem_rollAt {name : String} {e : Nat × Bool} (h : e ∈ b.rollAt name) :
    ∃ q, b.queue? name = some q ∧ e ∈ q.roll := by
  cases hq : b.queue? name with
  | none =>
      rw [rollAt, hq] at h
      cases h
  | some q => exact ⟨q, rfl, rollAt_of_queue? hq ▸ h⟩

theorem exists_consumer?_of_mem_rollAt {ref : ConsumerRef} {exclusive : Bool}
    (h : (ref.id, exclusive) ∈ b.rollAt ref.queue) : ∃ k, b.consumer? ref = some k := by
  rcases exists_queue_of_mem_rollAt h with ⟨q, hq, he⟩
  rw [consumer?, hq]
  exact Queue.exists_consumer?_of_mem_roll he

theorem exists_mem_rollAt_of_consumer? {ref : ConsumerRef} {k : Consumer}
    (h : b.consumer? ref = some k) : ∃ exclusive, (ref.id, exclusive) ∈ b.rollAt ref.queue := by
  rcases Option.bind_eq_some_iff.mp h with ⟨q, hq, hk⟩
  have hid : k.id = ref.id := by simpa using List.find?_some hk
  rw [rollAt_of_queue? hq, ← hid]
  exact ⟨k.exclusive, Queue.mem_roll (List.mem_of_find?_eq_some hk)⟩

theorem mem_activeQueues_iff (hb : b.Sound) (name : String) :
    name ∈ b.activeQueues ↔ ∃ e, e ∈ b.rollAt name := by
  rw [activeQueues, List.mem_mergeSort, List.mem_map]
  constructor
  · rintro ⟨q, hq, rfl⟩
    rcases List.mem_filter.mp hq with ⟨hmem, hactive⟩
    rw [rollAt_of_queue? (queue?_of_mem hb hmem)]
    exact List.exists_mem_of_ne_nil _ ((Queue.isActive_iff_roll q).mp hactive)
  · rintro ⟨e, he⟩
    rcases exists_queue_of_mem_rollAt he with ⟨q, hq, he⟩
    have hactive := (Queue.isActive_iff_roll q).mpr (List.ne_nil_of_mem he)
    exact ⟨q, List.mem_filter.mpr ⟨mem_of_queue? hq, hactive⟩, name_of_queue? hq⟩

theorem Steady.rollAt (h : Steady b b') (name : String) : b'.rollAt name = b.rollAt name := by
  cases hq : b.queue? name with
  | none =>
      cases hq' : b'.queue? name with
      | none => rw [Broker.rollAt, Broker.rollAt, hq, hq']
      | some q' =>
          rcases h.adds hq' with ⟨q, hsome, _⟩
          rw [hq] at hsome
          cases hsome
  | some q =>
      by_cases hroll : q.roll = []
      · cases hq' : b'.queue? name with
        | none =>
            rw [rollAt_of_queue? hq, hroll, Broker.rollAt, hq']
            rfl
        | some q' =>
            rcases h.adds hq' with ⟨q₀, hsome, hsame⟩
            cases hq.symm.trans hsome
            rw [rollAt_of_queue? hq, rollAt_of_queue? hq', hsame]
      · rcases h.keeps hq hroll with ⟨q', hq', _, hsame⟩
        rw [rollAt_of_queue? hq, rollAt_of_queue? hq', hsame]

theorem roll_queueFor_eq (b : Broker) (s : Subscription) :
    (b.queueFor s).roll = b.rollAt s.queue := by
  cases hq : b.queue? s.queue with
  | none =>
      rw [queueFor, Broker.rollAt, hq]
      rfl
  | some q => rw [queueFor, rollAt_of_queue? hq, hq, Option.getD_some]

theorem rollAt_joined (b : Broker) (s : Subscription) (name : String) :
    (b.joined s).rollAt name =
      if name = s.queue then b.rollAt name ++ [(b.nextConsumer, s.isExclusive)]
      else b.rollAt name := by
  by_cases hname : name = s.queue
  · subst hname
    rw [if_pos rfl, rollAt_of_queue? (by rw [queue?_joined, if_pos rfl]), Queue.roll_attach,
      roll_queueFor_eq]
  · rw [if_neg hname, rollAt, rollAt, queue?_joined, if_neg hname]

theorem mem_rollAt_joined {s : Subscription} {name : String} {e : Nat × Bool} :
    e ∈ (b.joined s).rollAt name ↔
      e ∈ b.rollAt name ∨ name = s.queue ∧ e = (b.nextConsumer, s.isExclusive) := by
  rw [rollAt_joined]
  by_cases hname : name = s.queue
  · simp [hname]
  · simp [hname]

theorem rollAt_unsubscribe (b : Broker) (ref : ConsumerRef) (name : String) :
    (b.unsubscribe ref).rollAt name =
      if name = ref.queue then (b.rollAt name).filter fun e => e.1 ≠ ref.id
      else b.rollAt name := by
  rw [rollAt, rollAt, queue?_unsubscribe]
  split
  · cases b.queue? name with
    | none => rfl
    | some q => exact Queue.roll_detach q ref.id
  · rfl

theorem mem_rollAt_unsubscribe {ref : ConsumerRef} {name : String} {e : Nat × Bool} :
    e ∈ (b.unsubscribe ref).rollAt name ↔
      e ∈ b.rollAt name ∧ (name = ref.queue → e.1 ≠ ref.id) := by
  rw [rollAt_unsubscribe]
  by_cases hname : name = ref.queue
  · simp [hname]
  · simp [hname]

theorem rollAt_eq_nil_of_free {s : Subscription} (hexclusive : s.isExclusive = true)
    (hfree : ∀ q, b.queue? s.queue = some q → refuses q s = false) : b.rollAt s.queue = [] := by
  cases hq : b.queue? s.queue with
  | none =>
      rw [rollAt, hq]
      rfl
  | some q =>
      have hidle : q.isActive = false := by simpa [refuses, hexclusive] using hfree q hq
      have hroll := (Queue.isActive_iff_roll q).not.mp (by simp [hidle])
      rw [rollAt_of_queue? hq]
      exact not_not.mp hroll

def attended (b : Broker) : Request → List String
  | .subscribe s =>
    match b.subscribe s with
    | .ok (ref, _) => [ref.queue]
    | .error _ => []
  | .leave ref => [ref.queue]
  | _ => []

/-- By a request somebody joins or leaves, or all who are at a queue stay there. -/
theorem respond_cases (hb : b.Sound) (r : Request) :
    Steady b (b.respond r).2 ∨
      (∃ s, b.attended r = [s.queue] ∧ (b.respond r).2 = b.joined s) ∨
      ∃ ref, b.attended r = [ref.queue] ∧ (b.respond r).2 = b.unsubscribe ref := by
  cases r with
  | subscribe s =>
      simp only [respond]
      rcases b.subscribe_cases s with ⟨e, herror⟩ | ⟨_, _, hjoined⟩
      · rw [herror]
        exact .inl (.refl hb)
      · rw [hjoined]
        exact .inr (.inl ⟨s, by simp only [attended, hjoined], rfl⟩)
  | publish p => exact .inl (steady_publish hb p)
  | take ref => exact .inl (steady_take hb ref)
  | settle queue p how =>
      simp only [respond]
      cases hsettle : b.settle queue p how with
      | ok b' => exact .inl (steady_settle hb hsettle)
      | error e => exact .inl (.refl hb)
  | leave ref => exact .inr (.inr ⟨ref, rfl, rfl⟩)
  | activeQueues => exact .inl (.refl hb)
  | settlements => exact .inl (.refl hb)
  | collect =>
      exact .inl ⟨⟨hb.names, hb.queues, hb.ids⟩, rfl, fun hq _ => ⟨_, hq, rfl, rfl⟩,
        fun hq => ⟨_, hq, rfl⟩⟩

theorem sound_respond (hb : b.Sound) (r : Request) : (b.respond r).2.Sound := by
  rcases respond_cases hb r with hsteady | ⟨s, _, hjoined⟩ | ⟨ref, _, hleft⟩
  · exact hsteady.sound
  · rw [hjoined]
    exact sound_joined hb s
  · rw [hleft]
    exact sound_unsubscribe hb ref

theorem closed_respond (hb : b.Sound) (r : Request) : (b.respond r).2.closed = b.closed := by
  rcases respond_cases hb r with hsteady | ⟨s, _, hjoined⟩ | ⟨ref, _, hleft⟩
  · exact hsteady.closed
  · rw [hjoined]
    rfl
  · rw [hleft]
    rfl

theorem rollAt_respond (hb : b.Sound) {r : Request} {name : String} (h : name ∉ b.attended r) :
    (b.respond r).2.rollAt name = b.rollAt name := by
  rcases respond_cases hb r with hsteady | ⟨s, hattended, hjoined⟩ | ⟨ref, hattended, hleft⟩
  · exact hsteady.rollAt name
  · rw [hattended, List.mem_singleton] at h
    rw [hjoined, rollAt_joined, if_neg h]
  · rw [hattended, List.mem_singleton] at h
    rw [hleft, rollAt_unsubscribe, if_neg h]

end Rolls

/-!
## Buffers
-/

/-- A consumer has what it had to take, and what has come since. -/
structure Spared (ref : ConsumerRef) (b b' : Broker) : Prop where
  sound : b'.Sound
  buffer : ∀ k, b.consumer? ref = some k →
    ∃ k', b'.consumer? ref = some k' ∧ k.buffer <+: k'.buffer

section Spared

variable {ref : ConsumerRef} {b b' b'' : Broker}

theorem Spared.of_queues (hb' : b'.Sound) (h : b'.queues = b.queues) : Spared ref b b' := by
  refine ⟨hb', fun k hk => ⟨k, ?_, List.prefix_refl _⟩⟩
  rw [consumer?, queue?_congr h]
  exact hk

theorem Spared.refl (hb : b.Sound) : Spared ref b b :=
  .of_queues hb rfl

theorem Spared.trans (h : Spared ref b b') (h' : Spared ref b' b'') : Spared ref b b'' := by
  refine ⟨h'.sound, fun k hk => ?_⟩
  rcases h.buffer k hk with ⟨k', hk', hbuffer⟩
  rcases h'.buffer k' hk' with ⟨k'', hk'', hbuffer'⟩
  exact ⟨k'', hk'', hbuffer.trans hbuffer'⟩

theorem Spared.exists_consumer? (h : Spared ref b b') (hthere : ∃ k, b.consumer? ref = some k) :
    ∃ k', b'.consumer? ref = some k' := by
  rcases hthere with ⟨k, hk⟩
  rcases h.buffer k hk with ⟨k', hk', _⟩
  exact ⟨k', hk'⟩

theorem Spared.of_queue? (hb' : b'.Sound)
    (h : ∀ q, b.queue? ref.queue = some q → q.roll ≠ [] →
      ∃ q', b'.queue? ref.queue = some q' ∧ Queue.Spared ref.id q q') : Spared ref b b' := by
  refine ⟨hb', fun k hk => ?_⟩
  rcases Option.bind_eq_some_iff.mp hk with ⟨q, hq, hk⟩
  have hroll : q.roll ≠ [] :=
    List.ne_nil_of_mem (Queue.mem_roll (List.mem_of_find?_eq_some hk))
  rcases h q hq hroll with ⟨q', hq', hspared⟩
  rcases hspared k hk with ⟨k', hk', hbuffer⟩
  exact ⟨k', by simp [consumer?, hq', hk'], hbuffer⟩

theorem spared_updateQueue (hb' : b'.Sound) {name : String} {f : Queue → Queue}
    (hqueues : b'.queues = updateQueue name f b.queues) (hname : ∀ q, (f q).name = q.name)
    (h : ref.queue = name → ∀ q, Queue.Spared ref.id q (f q)) : Spared ref b b' := by
  refine .of_queue? hb' fun q hq _ => ?_
  have hqueue := queue?_updateQueue hname b name ref.queue
  rw [hq, Option.map_some] at hqueue
  have hafter := (queue?_congr (b := { b with queues := updateQueue name f b.queues }) hqueues
    ref.queue).trans hqueue
  by_cases hhere : ref.queue = name
  · rw [if_pos hhere] at hafter
    exact ⟨_, hafter, h hhere q⟩
  · rw [if_neg hhere] at hafter
    exact ⟨q, hafter, .refl _ q⟩

theorem spared_publish (hb : b.Sound) (p : Parcel) : Spared ref b (b.publish p) := by
  refine .of_queue? (sound_publish hb p) fun q hq hroll => ?_
  rcases queue?_publish hb p ref.queue with ⟨n, hpublish, _⟩
  rw [hq, Option.filter_some_pos (Queue.accepts_of_roll hroll), Option.map_some] at hpublish
  refine ⟨_, hpublish, ?_⟩
  split
  · exact Queue.spared_deliver ref.id q _
  · exact .refl ref.id q

theorem spared_joined (hb : b.Sound) (s : Subscription) : Spared ref b (b.joined s) := by
  refine .of_queue? (sound_joined hb s) fun q hq _ => ?_
  by_cases hhere : ref.queue = s.queue
  · refine ⟨_, by rw [queue?_joined, if_pos hhere], ?_⟩
    rw [queueFor, ← hhere, hq, Option.getD_some]
    exact Queue.spared_attach ref.id q _ _
  · exact ⟨q, by rw [queue?_joined, if_neg hhere, hq], .refl ref.id q⟩

theorem spared_settle (hb : b.Sound) {queue : String} {p : Parcel} {how : Settlement}
    (h : b.settle queue p how = .ok b') : Spared ref b b' := by
  have hsound := (steady_settle hb h).sound
  rcases settle_cases h with rfl | ⟨rfl, _, _, rfl⟩
  · exact .of_queues hsound rfl
  · exact spared_updateQueue hsound rfl (fun q => (Queue.alike_deliver q _).name)
      fun _ q => Queue.spared_deliver ref.id q _

theorem spared_take (hb : b.Sound) {other : ConsumerRef} (hne : ref ≠ other) :
    Spared ref b (b.take other).2 := by
  rcases b.take_cases other with ⟨_, _, _, _, _, _, htake⟩ | ⟨_, hsame⟩
  · rw [htake]
    refine spared_updateQueue (sound_pop hb other) rfl (fun _ => rfl) fun hqueue q => ?_
    exact Queue.spared_pop (fun hid => hne (ConsumerRef.ext hqueue hid)) q
  · rw [hsame]
    exact .refl hb

theorem spared_unsubscribe (hb : b.Sound) {other : ConsumerRef} (hne : ref ≠ other) :
    Spared ref b (b.unsubscribe other) := by
  refine spared_updateQueue (sound_unsubscribe hb other) rfl (fun _ => rfl) fun hqueue q => ?_
  exact Queue.spared_detach (fun hid => hne (ConsumerRef.ext hqueue hid)) q

/-- Nobody else takes anything from a consumer. -/
theorem spared_respond (hb : b.Sound) {refs : List ConsumerRef} {r : Request}
    (hspares : r.Spares refs) (hmem : ref ∈ refs) : Spared ref b (b.respond r).2 := by
  cases r with
  | subscribe s =>
      simp only [respond]
      rcases b.subscribe_cases s with ⟨e, herror⟩ | ⟨_, _, hjoined⟩
      · rw [herror]
        exact .refl hb
      · rw [hjoined]
        exact spared_joined hb s
  | publish p => exact spared_publish hb p
  | take other => exact spared_take hb fun h => hspares (h ▸ hmem)
  | settle queue p how =>
      simp only [respond]
      cases hsettle : b.settle queue p how with
      | ok b' => exact spared_settle hb hsettle
      | error e => exact .refl hb
  | leave other => exact spared_unsubscribe hb fun h => hspares (h ▸ hmem)
  | activeQueues => exact .refl hb
  | settlements => exact .refl hb
  | collect => exact .of_queues ⟨hb.names, hb.queues, hb.ids⟩ rfl

end Spared

end Broker
end Bus
end Courier
