import Courier.Proofs.Bus.Consumers

/-!
# Copies that wait for a consumer

How many copies a consumer has not taken yet. Taking, settling and leaving at one queue make
no difference to the consumers of others, and neither do parcels that go past a queue.
-/

namespace Courier
namespace Bus

open Routing (topicMatches)

namespace Queue

def waitingFor (q : Queue) (id : Nat) : Nat :=
  ((q.consumer? id).map fun k => k.buffer.length).getD 0

theorem waitingFor_deliver_le (q : Queue) (c : Copy) (id : Nat) :
    (q.deliver c).waitingFor id ≤ q.waitingFor id + 1 := by
  cases haccepts : q.accepts with
  | false =>
      rw [deliver_of_not_accepts haccepts]
      exact Nat.le_succ _
  | true =>
      have hgains := gains_deliver haccepts c
      generalize q.deliver c = q' at hgains
      cases hgains with
      | heldBack _ _ => exact Nat.le_succ _
      | @handed before after k cursor consumers =>
          unfold waitingFor consumer?
          simp only [consumers, List.find?_append, List.find?_cons]
          cases before.find? fun k => k.id = id with
          | some k' => exact Nat.le_succ _
          | none =>
              have hid : (Consumer.push c k).id = k.id := rfl
              rw [hid]
              by_cases hk : k.id = id
              · simp [hk, Consumer.push]
              · simp [hk]

theorem consumer?_pop_eq_map (q : Queue) (other id : Nat) :
    (q.pop other).consumer? id = (q.consumer? id).map fun k =>
      if k.id = other then { k with buffer := k.buffer.drop 1 } else k := by
  have hsame : ((fun k : Consumer => decide (k.id = id)) ∘ fun k : Consumer =>
      if k.id = other then { k with buffer := k.buffer.drop 1 } else k) =
        fun k => decide (k.id = id) := by
    funext k
    by_cases h : k.id = other <;> simp [h]
  unfold consumer?
  rw [pop, List.find?_map, hsame]

theorem consumer?_pop {q : Queue} {id : Nat} {k : Consumer} (hk : q.consumer? id = some k) :
    (q.pop id).consumer? id = some { k with buffer := k.buffer.drop 1 } := by
  have hid : k.id = id := by simpa using List.find?_some hk
  rw [consumer?_pop_eq_map, hk, Option.map_some, if_pos hid]

end Queue

namespace Broker

def waitingFor (b : Broker) (ref : ConsumerRef) : Nat :=
  ((b.consumer? ref).map fun k => k.buffer.length).getD 0

theorem waitingFor_of_queue? {b : Broker} {ref : ConsumerRef} {q : Queue}
    (h : b.queue? ref.queue = some q) : b.waitingFor ref = q.waitingFor ref.id := by
  simp [waitingFor, consumer?, h, Queue.waitingFor]

theorem waitingFor_congr {b b' : Broker} {ref : ConsumerRef}
    (h : b'.consumer? ref = b.consumer? ref) : b'.waitingFor ref = b.waitingFor ref := by
  rw [waitingFor, waitingFor, h]

def Passes (b : Broker) (subjects : String → Prop) (name : String) : Prop :=
  ∀ q, b.queue? name = some q → ∀ subject, subjects subject →
    topicMatches q.binding subject = false

theorem consumer?_publish_of_passes {b : Broker} (hb : b.Sound) {subjects : String → Prop}
    {p : Parcel} (hp : subjects p.subject) {ref : ConsumerRef} (h : b.Passes subjects ref.queue) :
    (b.publish p).consumer? ref = b.consumer? ref := by
  rcases queue?_publish hb p ref.queue with ⟨n, hpublish, _⟩
  unfold consumer?
  rw [hpublish]
  cases hq : b.queue? ref.queue with
  | none => rfl
  | some q =>
      cases haccepts : q.accepts with
      | true =>
          rw [Option.filter_some_pos haccepts, Option.map_some,
            if_neg (by simp [h q hq p.subject hp])]
      | false =>
          -- A queue that is cleared away has no consumers.
          rw [Option.filter_some_neg (by simp [haccepts])]
          simp [Queue.consumer?, (Queue.idle_of_not_accepts haccepts).left]

/-- What a pipeline at a queue may do to a broker, publishing parcels of some subjects only. -/
structure Tame (subjects : String → Prop) (name : String) (b b' : Broker) : Prop where
  sound : b'.Sound
  closed : b'.closed = b.closed
  bindings : ∀ {other q'}, b'.queue? other = some q' →
    ∃ q, b.queue? other = some q ∧ q'.binding = q.binding
  consumers : ∀ ref, ref.queue ≠ name → b.Passes subjects ref.queue →
    b'.consumer? ref = b.consumer? ref

section Tame

variable {subjects : String → Prop} {name : String} {b b' b'' : Broker}

theorem Tame.passes (h : Tame subjects name b b') {other : String}
    (hpasses : b.Passes subjects other) : b'.Passes subjects other := by
  intro q' hq'
  rcases h.bindings hq' with ⟨q, hq, hbinding⟩
  rw [hbinding]
  exact hpasses q hq

theorem Tame.refl (hb : b.Sound) : Tame subjects name b b where
  sound := hb
  closed := rfl
  bindings := fun hq => ⟨_, hq, rfl⟩
  consumers := fun _ _ _ => rfl

theorem Tame.trans (h : Tame subjects name b b') (h' : Tame subjects name b' b'') :
    Tame subjects name b b'' where
  sound := h'.sound
  closed := h'.closed.trans h.closed
  bindings := by
    intro other q'' hq''
    rcases h'.bindings hq'' with ⟨q', hq', hbinding'⟩
    rcases h.bindings hq' with ⟨q, hq, hbinding⟩
    exact ⟨q, hq, hbinding'.trans hbinding⟩
  consumers := by
    intro ref hne hpasses
    rw [h'.consumers ref hne (h.passes hpasses), h.consumers ref hne hpasses]

theorem tame_updateQueue (hb' : b'.Sound) (hclosed : b'.closed = b.closed) {f : Queue → Queue}
    (hqueues : b'.queues = updateQueue name f b.queues) (hname : ∀ q, (f q).name = q.name)
    (hbinding : ∀ q, (f q).binding = q.binding) : Tame subjects name b b' := by
  have hqueue : ∀ other, b'.queue? other =
      if other = name then (b.queue? other).map f else b.queue? other := by
    intro other
    rw [← queue?_updateQueue hname b name other]
    exact queue?_congr hqueues other
  refine ⟨hb', hclosed, ?_, ?_⟩
  · intro other q' hq'
    rw [hqueue] at hq'
    split at hq'
    · rcases Option.map_eq_some_iff.mp hq' with ⟨q, hq, rfl⟩
      exact ⟨q, hq, hbinding q⟩
    · exact ⟨q', hq', rfl⟩
  · intro ref hne _
    rw [consumer?, consumer?, hqueue, if_neg hne]

theorem tame_take (hb : b.Sound) (ref : ConsumerRef) :
    Tame subjects ref.queue b (b.take ref).2 := by
  rcases take_cases b ref with ⟨q, k, c, _, _, _, htake⟩ | ⟨_, hsame⟩
  · rw [htake]
    exact tame_updateQueue (sound_pop hb ref) rfl rfl (fun _ => rfl) fun _ => rfl
  · rw [hsame]
    exact .refl hb

theorem tame_publish (hb : b.Sound) {p : Parcel} (hp : subjects p.subject) :
    Tame subjects name b (b.publish p) where
  sound := sound_publish hb p
  closed := by rw [publish_eq]
  bindings := by
    intro other q' hq'
    rcases queue?_publish hb p other with ⟨n, hpublish, _⟩
    rw [hq'] at hpublish
    rcases Option.map_eq_some_iff.mp hpublish.symm with ⟨q, hq, rfl⟩
    refine ⟨q, (Option.filter_eq_some_iff.mp hq).left, ?_⟩
    split
    · exact Queue.binding_deliver q _
    · rfl
  consumers := fun _ _ hpasses => consumer?_publish_of_passes hb hp hpasses

theorem tame_settle (hb : b.Sound) {p : Parcel} {how : Settlement}
    (h : b.settle name p how = .ok b') : Tame subjects name b b' := by
  rcases settle_cases h with rfl | ⟨rfl, q, _, rfl⟩
  · exact ⟨⟨hb.names, hb.queues, hb.ids⟩, rfl, fun hq => ⟨_, hq, rfl⟩, fun _ _ _ => rfl⟩
  · exact tame_updateQueue (sound_deliver hb rfl rfl) rfl rfl
      (fun q => (Queue.alike_deliver q _).name) fun q => Queue.binding_deliver q _

theorem tame_unsubscribe (hb : b.Sound) (ref : ConsumerRef) :
    Tame subjects ref.queue b (b.unsubscribe ref) :=
  tame_updateQueue (sound_unsubscribe hb ref) rfl rfl (fun _ => rfl) fun _ => rfl

end Tame

/-!
## At the consumer's own queue
-/

theorem consumer?_take {b b' : Broker} {ref : ConsumerRef} {c : Copy}
    (h : b.take ref = (.copy c, b')) : ∃ k rest, b.consumer? ref = some k ∧
      k.buffer = c :: rest ∧ b'.consumer? ref = some { k with buffer := rest } ∧
      b'.settled = b.settled := by
  rcases take_cases b ref with ⟨q, k, c', hq, hk, hc, htake⟩ | ⟨hnone, _⟩
  · rw [htake] at h
    cases h
    have hupdate := queue?_updateQueue (f := fun q => q.pop ref.id) (fun _ => rfl) b ref.queue
      ref.queue
    rw [if_pos rfl, hq, Option.map_some] at hupdate
    rcases List.head?_eq_some_iff.mp hc with ⟨rest, hbuffer⟩
    refine ⟨k, rest, by simp [consumer?, hq, hk], hbuffer, ?_, rfl⟩
    have hpop := Queue.consumer?_pop hk
    rw [hbuffer, List.drop_one, List.tail_cons] at hpop
    simp [consumer?, hupdate, hpop]
  · exact absurd (congrArg Prod.fst h) (hnone c)

theorem waitingFor_take {b : Broker} {ref : ConsumerRef} {c : Copy} {b' : Broker}
    (h : b.take ref = (.copy c, b')) : b'.waitingFor ref + 1 = b.waitingFor ref := by
  rcases consumer?_take h with ⟨k, rest, hk, hbuffer, hafter, _⟩
  simp [waitingFor, hk, hafter, hbuffer]

theorem waitingFor_settle_le {b b' : Broker} {ref : ConsumerRef} {p : Parcel} {how : Settlement}
    (h : b.settle ref.queue p how = .ok b') :
    b'.waitingFor ref ≤ b.waitingFor ref + if how = .nack true then 1 else 0 := by
  rcases settle_cases h with rfl | ⟨rfl, q, hq, rfl⟩
  · exact Nat.le_add_right _ _
  · have hupdate := queue?_updateQueue (f := fun q => q.deliver ⟨b.nextSerial, p⟩)
      (fun q => (Queue.alike_deliver q _).name) b ref.queue ref.queue
    rw [if_pos rfl, hq, Option.map_some] at hupdate
    rw [waitingFor_of_queue? hq, if_pos rfl]
    refine Nat.le_trans (Nat.le_of_eq (waitingFor_of_queue? hupdate)) ?_
    exact Queue.waitingFor_deliver_le q _ ref.id

end Broker
end Bus
end Courier
