import Courier.Proofs.Bus.Exclusivity

/-!
# Requests to a bus

All that a bus can be asked for, and what it answers. Two buses are told apart by
their answers only, so that machines which keep their queues in different ways can
be compared.

A bus that keeps answering stays regular, and machines that answer alike step by step
answer every run of requests alike.
-/

namespace Courier
namespace Bus

inductive Request where
  | subscribe (s : Subscription)
  | publish (p : Parcel)
  | take (ref : ConsumerRef)
  /-- To settle a delivery of a parcel from a queue. -/
  | settle (queue : String) (p : Parcel) (how : Settlement)
  | leave (ref : ConsumerRef)
  | activeQueues
  | settlements
  | collect
deriving DecidableEq, Repr

inductive Answer where
  | done
  | joined (ref : ConsumerRef)
  | refused (e : TopologyError)
  | taken (p : Option Parcel)
  | failed (e : Error)
  | activeQueues (names : List String)
  | settlements (settled : List Settled)
  | collected (parcels : List Parcel)
deriving DecidableEq, Repr

namespace Broker

def Taken.parcel? : Taken → Option Parcel
  | .copy c => some c.parcel
  | _ => none

def respond (b : Broker) : Request → Answer × Broker
  | .subscribe s =>
    match b.subscribe s with
    | .ok (ref, b') => (.joined ref, b')
    | .error e => (.refused e, b)
  | .publish p => (.done, b.publish p)
  | .take ref => (.taken (b.take ref).1.parcel?, (b.take ref).2)
  | .settle queue p how =>
    match b.settle queue p how with
    | .ok b' => (.done, b')
    | .error e => (.failed e, b)
  | .leave ref => (.done, b.unsubscribe ref)
  | .activeQueues => (.activeQueues b.activeQueues, b)
  | .settlements => (.settlements b.settled, b)
  | .collect => (.collected b.collect.1, b.collect.2)

end Broker

/-!
## Runs of requests
-/

section Runs

variable {σ τ : Type}

def after (respond : σ → Request → Answer × σ) (s : σ) (requests : List Request) : σ :=
  requests.foldl (fun s r => (respond s r).2) s

def answers (respond : σ → Request → Answer × σ) : σ → List Request → List Answer
  | _, [] => []
  | s, r :: rest => (respond s r).1 :: answers respond (respond s r).2 rest

theorem after_append (respond : σ → Request → Answer × σ) (s : σ)
    (first second : List Request) :
    after respond s (first ++ second) = after respond (after respond s first) second :=
  List.foldl_append

theorem answers_append (respond : σ → Request → Answer × σ) (s : σ)
    (first second : List Request) :
    answers respond s (first ++ second) =
      answers respond s first ++ answers respond (after respond s first) second := by
  induction first generalizing s with
  | nil => rfl
  | cons r rest ih => exact congrArg _ (ih _)

/-- A relation that answering keeps, of machines that answer alike. -/
def Simulates (respond : σ → Request → Answer × σ) (respond' : τ → Request → Answer × τ)
    (related : σ → τ → Prop) : Prop :=
  ∀ s t r, related s t →
    (respond s r).1 = (respond' t r).1 ∧ related (respond s r).2 (respond' t r).2

variable {respond : σ → Request → Answer × σ} {respond' : τ → Request → Answer × τ}
  {related : σ → τ → Prop}

theorem Simulates.after (h : Simulates respond respond' related) {s : σ} {t : τ}
    (hst : related s t) (requests : List Request) :
    related (after respond s requests) (after respond' t requests) := by
  induction requests generalizing s t with
  | nil => exact hst
  | cons r rest ih => exact ih (h s t r hst).right

theorem Simulates.answers (h : Simulates respond respond' related) {s : σ} {t : τ}
    (hst : related s t) (requests : List Request) :
    answers respond s requests = answers respond' t requests := by
  induction requests generalizing s t with
  | nil => rfl
  | cons r rest ih =>
      rcases h s t r hst with ⟨hanswer, hnext⟩
      exact List.cons_eq_cons.mpr ⟨hanswer, ih hnext⟩

end Runs

/-!
## Regular brokers
-/

namespace Broker

/-- What holds of the broker of a bus at any time. -/
structure Regular (b : Broker) : Prop where
  sound : b.Sound
  isOpen : b.closed = false
  narrow : ∀ q ∈ b.queues, q.Narrow

theorem regular_empty : ({} : Broker).Regular where
  sound := sound_empty
  isOpen := rfl
  narrow := nofun

theorem regular_of_turn {t t' : Traffic} {a : Act} (h : t.broker.Regular)
    (hturn : Traffic.Turn t a t') : t'.broker.Regular := by
  have hsound : t.Sound := ⟨h.sound, h.isOpen⟩
  have hafter := Traffic.sound_of_turn hturn hsound
  exact ⟨hafter.broker, hafter.isOpen, Traffic.narrow_of_turn hturn hsound h.narrow⟩

variable {b : Broker}

theorem regular_respond (h : b.Regular) (r : Request) : (b.respond r).2.Regular := by
  cases r with
  | subscribe s =>
      have hturn := regular_of_turn h (Traffic.turn_subscribe ⟨b, []⟩ s)
      simp only [Traffic.step] at hturn
      simp only [respond]
      cases hsubscribe : b.subscribe s with
      | error e => exact h
      | ok joined =>
          rw [hsubscribe] at hturn
          exact hturn
  | publish p => exact regular_of_turn (t := ⟨b, []⟩) h (.published p)
  | take ref =>
      have hturn := regular_of_turn h (Traffic.turn_next ⟨b, []⟩ ref)
      rcases b.take_cases ref with ⟨q, k, c, _, _, _, htake⟩ | ⟨_, hsame⟩
      · simp only [Traffic.step, htake] at hturn
        simp only [respond, htake]
        exact hturn
      · simp only [respond, hsame]
        exact h
  | settle queue p how =>
      have hturn := regular_of_turn h
        (Traffic.turn_settle (t := ⟨b, [(queue, ⟨0, p⟩)]⟩) h.isOpen 0 how)
      simp only [Traffic.step, Traffic.delivery?, List.find?_cons, decide_true] at hturn
      simp only [respond]
      cases hsettle : b.settle queue p how with
      | error e => exact h
      | ok b' =>
          rw [hsettle] at hturn
          exact hturn
  | leave ref => exact regular_of_turn (t := ⟨b, []⟩) h (.left ref)
  | activeQueues => exact h
  | settlements => exact h
  | collect => exact ⟨⟨h.sound.names, h.sound.queues, h.sound.ids⟩, h.isOpen, h.narrow⟩

theorem regular_after (h : b.Regular) (requests : List Request) :
    (after respond b requests).Regular := by
  induction requests generalizing b with
  | nil => exact h
  | cons r rest ih => exact ih (regular_respond h r)

end Broker
end Bus
end Courier
