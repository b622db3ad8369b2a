import Courier.Proofs.Bus.Deliveries

/-!
# Consumers alone on their queues

A consumer that is alone on a queue stays so while others publish, take and settle, and
while consumers of other queues come and go. Of each parcel that is published it gets one
copy if the queue's binding matches, and none if not.
-/

namespace Courier
namespace Bus

open Routing (topicMatches)

namespace Queue

theorem binding_deliver (q : Queue) (c : Copy) : (q.deliver c).binding = q.binding := by
  unfold deliver
  split
  · split <;> rfl
  · rfl

theorem binding_attach (q : Queue) (binding : String) (k : Consumer) :
    (q.attach binding k).binding = binding := by
  have hfold : ∀ (held : List Copy) (q : Queue), (held.foldl deliver q).binding = q.binding := by
    intro held
    induction held with
    | nil => exact fun q => rfl
    | cons c rest ih => exact fun q => (ih (q.deliver c)).trans (binding_deliver q c)
  exact hfold q.backlog _

theorem deliver_of_single {q : Queue} {k : Consumer} (h : q.consumers = [k]) (c : Copy) :
    (q.deliver c).consumers = [Consumer.push c k] := by
  simp [deliver, h, Nat.mod_one]

theorem exists_single_of_roll {q : Queue} {e : Nat × Bool} (h : q.roll = [e]) :
    ∃ k, q.consumers = [k] ∧ k.id = e.1 := by
  rcases List.map_eq_singleton_iff.mp h with ⟨k, hk, rfl⟩
  exact ⟨k, hk, rfl⟩

theorem consumer?_eq_none {q : Queue} {id : Nat} (h : id ∉ q.roll.map Prod.fst) :
    q.consumer? id = none := by
  apply List.find?_eq_none.mpr
  intro k hk heq
  apply h
  rw [← of_decide_eq_true heq]
  exact List.mem_map_of_mem (f := Prod.fst) (List.mem_map_of_mem hk)

end Queue

namespace Broker

theorem queue?_congr {b b' : Broker} (h : b'.queues = b.queues) (name : String) :
    b'.queue? name = b.queue? name := by
  rw [queue?, queue?, h]

/-!
## Brokers with the same consumers
-/

/-- Queues with consumers keep them, and no queue is new. -/
structure Steady (b b' : Broker) : Prop where
  sound : b'.Sound
  closed : b'.closed = b.closed
  keeps : ∀ {name q}, b.queue? name = some q → q.roll ≠ [] →
    ∃ q', b'.queue? name = some q' ∧ q'.binding = q.binding ∧ q'.roll = q.roll
  adds : ∀ {name q'}, b'.queue? name = some q' → ∃ q, b.queue? name = some q ∧ q'.roll = q.roll

theorem Steady.refl {b : Broker} (hb : b.Sound) : Steady b b where
  sound := hb
  closed := rfl
  keeps := fun hq _ => ⟨_, hq, rfl, rfl⟩
  adds := fun hq => ⟨_, hq, rfl⟩

theorem Steady.trans {b b' b'' : Broker} (h : Steady b b') (h' : Steady b' b'') :
    Steady b b'' where
  sound := h'.sound
  closed := h'.closed.trans h.closed
  keeps := by
    intro name q hq hroll
    rcases h.keeps hq hroll with ⟨q', hq', hbinding, hsame⟩
    rw [← hsame] at hroll
    rcases h'.keeps hq' hroll with ⟨q'', hq'', hbinding', hsame'⟩
    exact ⟨q'', hq'', hbinding'.trans hbinding, hsame'.trans hsame⟩
  adds := by
    intro name q'' hq''
    rcases h'.adds hq'' with ⟨q', hq', hsame'⟩
    rcases h.adds hq' with ⟨q, hq, hsame⟩
    exact ⟨q, hq, hsame'.trans hsame⟩

theorem steady_publish {b : Broker} (hb : b.Sound) (p : Parcel) : Steady b (b.publish p) where
  sound := sound_publish hb p
  closed := by rw [publish_eq]
  keeps := by
    intro name q hq hroll
    rcases queue?_publish hb p name with ⟨n, hpublish, _⟩
    rw [hq, Option.filter_some_pos (Queue.accepts_of_roll hroll), Option.map_some] at hpublish
    refine ⟨_, hpublish, ?_, ?_⟩
    · split
      · exact Queue.binding_deliver q _
      · rfl
    · split
      · exact Queue.roll_deliver q _
      · rfl
  adds := by
    intro name q' hq'
    rcases queue?_publish hb p name with ⟨n, hpublish, _⟩
    rw [hq'] at hpublish
    rcases Option.map_eq_some_iff.mp hpublish.symm with ⟨q, hq, rfl⟩
    refine ⟨q, (Option.filter_eq_some_iff.mp hq).left, ?_⟩
    split
    · exact Queue.roll_deliver q _
    · rfl

theorem steady_updateQueue {b b' : Broker} (hb' : b'.Sound) (hclosed : b'.closed = b.closed)
    {name : String} {f : Queue → Queue} (hqueues : b'.queues = updateQueue name f b.queues)
    (hname : ∀ q, (f q).name = q.name) (hbinding : ∀ q, (f q).binding = q.binding)
    (hroll : ∀ q, (f q).roll = q.roll) : Steady b b' := by
  have hqueue : ∀ other, b'.queue? other =
      if other = name then (b.queue? other).map f else b.queue? other := by
    intro other
    rw [← queue?_updateQueue hname b name other]
    exact queue?_congr hqueues other
  refine ⟨hb', hclosed, ?_, ?_⟩
  · intro other q hq _
    rw [hqueue, hq]
    split
    · exact ⟨f q, rfl, hbinding q, hroll q⟩
    · exact ⟨q, rfl, rfl, rfl⟩
  · intro other q' hq'
    rw [hqueue] at hq'
    split at hq'
    · rcases Option.map_eq_some_iff.mp hq' with ⟨q, hq, rfl⟩
      exact ⟨q, hq, hroll q⟩
    · exact ⟨q', hq', rfl⟩

theorem steady_take {b : Broker} (hb : b.Sound) (ref : ConsumerRef) : Steady b (b.take ref).2 := by
  rcases take_cases b ref with ⟨q, k, c, _, _, _, htake⟩ | ⟨_, hsame⟩
  · rw [htake]
    exact steady_updateQueue (sound_pop hb ref) rfl rfl (fun _ => rfl) (fun _ => rfl)
      fun q => Queue.roll_pop q ref.id
  · rw [hsame]
    exact .refl hb

theorem steady_settle {b b' : Broker} (hb : b.Sound) {queue : String} {p : Parcel}
    {how : Settlement} (h : b.settle queue p how = .ok b') : Steady b b' := by
  rcases settle_cases h with rfl | ⟨rfl, q, _, rfl⟩
  · exact ⟨⟨hb.names, hb.queues, hb.ids⟩, rfl, fun hq _ => ⟨_, hq, rfl, rfl⟩,
      fun hq => ⟨_, hq, rfl⟩⟩
  · exact steady_updateQueue (sound_deliver hb rfl rfl) rfl rfl
      (fun q => (Queue.alike_deliver q _).name) (fun q => Queue.binding_deliver q _)
      fun q => Queue.roll_deliver q _

/-!
## Consumers that are alone, and consumers that are gone
-/

/-- The consumer is alone on a queue of that binding. -/
def Serves (b : Broker) (binding : String) (ref : ConsumerRef) : Prop :=
  ∃ q, b.queue? ref.queue = some q ∧ q.binding = binding ∧ q.roll = [(ref.id, true)]

def Lacks (b : Broker) (ref : ConsumerRef) : Prop :=
  ∀ q, b.queue? ref.queue = some q → ref.id ∉ q.roll.map Prod.fst

theorem Serves.congr {b b' : Broker} {binding : String} {ref : ConsumerRef}
    (h : b.Serves binding ref) (hqueue : b'.queue? ref.queue = b.queue? ref.queue) :
    b'.Serves binding ref := by
  rcases h with ⟨q, hq, hspec⟩
  exact ⟨q, hqueue.trans hq, hspec⟩

theorem Lacks.congr {b b' : Broker} {ref : ConsumerRef} (h : b.Lacks ref)
    (hqueue : b'.queue? ref.queue = b.queue? ref.queue) : b'.Lacks ref :=
  fun q hq => h q (hqueue.symm.trans hq)

theorem Steady.serves {b b' : Broker} (h : Steady b b') {binding : String} {ref : ConsumerRef}
    (hserves : b.Serves binding ref) : b'.Serves binding ref := by
  rcases hserves with ⟨q, hq, hbinding, hroll⟩
  rcases h.keeps hq (by simp [hroll]) with ⟨q', hq', hbinding', hroll'⟩
  exact ⟨q', hq', hbinding'.trans hbinding, hroll'.trans hroll⟩

theorem Steady.lacks {b b' : Broker} (h : Steady b b') {ref : ConsumerRef}
    (hlacks : b.Lacks ref) : b'.Lacks ref := by
  intro q' hq'
  rcases h.adds hq' with ⟨q, hq, hroll⟩
  rw [hroll]
  exact hlacks q hq

theorem queue?_unsubscribe (b : Broker) (ref : ConsumerRef) (name : String) :
    (b.unsubscribe ref).queue? name =
      if name = ref.queue then (b.queue? name).map (fun q => q.detach ref.id)
      else b.queue? name :=
  queue?_updateQueue (f := fun q => q.detach ref.id) (fun _ => rfl) b ref.queue name

theorem serves_unsubscribe {b : Broker} {binding : String} {ref other : ConsumerRef}
    (hne : other.queue ≠ ref.queue) (h : b.Serves binding other) :
    (b.unsubscribe ref).Serves binding other :=
  h.congr (by rw [queue?_unsubscribe, if_neg hne])

theorem lacks_unsubscribe {b : Broker} (ref : ConsumerRef) {other : ConsumerRef}
    (h : b.Lacks other ∨ other = ref) : (b.unsubscribe ref).Lacks other := by
  intro q' hq'
  rw [queue?_unsubscribe] at hq'
  split at hq'
  · rcases Option.map_eq_some_iff.mp hq' with ⟨q, hq, rfl⟩
    intro hmem
    rcases List.mem_map.mp hmem with ⟨e, he, hid⟩
    rw [Queue.roll_detach] at he
    rcases List.mem_filter.mp he with ⟨he, hne⟩
    rcases h with h | rfl
    · exact h q hq (List.mem_map.mpr ⟨e, he, hid⟩)
    · simp [hid] at hne
  · next hne =>
      rcases h with h | rfl
      · exact h q' hq'
      · exact absurd rfl hne

theorem serves_joined {b : Broker} {s : Subscription} (hnew : b.queue? s.queue = none)
    (hexclusive : s.isExclusive = true) :
    (b.joined s).Serves s.binding ⟨s.queue, b.nextConsumer⟩ := by
  refine ⟨_, by rw [queue?_joined, if_pos rfl], Queue.binding_attach _ _ _, ?_⟩
  rw [Queue.roll_attach, queueFor, hnew, hexclusive]
  rfl

/-!
## What a consumer gets
-/

theorem consumer?_of_lacks {b : Broker} {ref : ConsumerRef} (h : b.Lacks ref) :
    b.consumer? ref = none := by
  unfold consumer?
  cases hq : b.queue? ref.queue with
  | none => rfl
  | some q => exact Queue.consumer?_eq_none (h q hq)

theorem consumer?_of_single {b : Broker} {ref : ConsumerRef} {q : Queue} {k : Consumer}
    (hq : b.queue? ref.queue = some q) (hk : q.consumers = [k]) (hid : k.id = ref.id) :
    b.consumer? ref = some k := by
  unfold consumer?
  rw [hq]
  simp [Queue.consumer?, hk, hid]

theorem consumer?_publish {b : Broker} (hb : b.Sound) {binding : String} {ref : ConsumerRef}
    (h : b.Serves binding ref) (p : Parcel) :
    ∃ k serial, b.consumer? ref = some k ∧
      (b.publish p).consumer? ref = some { k with
        buffer := k.buffer ++ if topicMatches binding p.subject then [⟨serial, p⟩] else [] } := by
  rcases h with ⟨q, hq, rfl, hroll⟩
  rcases Queue.exists_single_of_roll hroll with ⟨k, hconsumers, hid⟩
  rcases queue?_publish hb p ref.queue with ⟨serial, hpublish, _⟩
  have haccepts : q.accepts = true := Queue.accepts_of_roll (by simp [hroll])
  rw [hq, Option.filter_some_pos haccepts, Option.map_some] at hpublish
  refine ⟨k, serial, consumer?_of_single hq hconsumers hid, ?_⟩
  cases hmatches : topicMatches q.binding p.subject with
  | true =>
      rw [if_pos hmatches] at hpublish
      exact consumer?_of_single hpublish (Queue.deliver_of_single hconsumers _) hid
  | false =>
      rw [if_neg (by simp [hmatches])] at hpublish
      rw [if_neg Bool.false_ne_true, List.append_nil]
      exact consumer?_of_single hpublish hconsumers hid

end Broker
end Bus
end Courier
