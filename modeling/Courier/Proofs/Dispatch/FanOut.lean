import Courier.Proofs.Dispatch.Enrollment
import Courier.Proofs.Dispatch.Retries
import Mathlib.Data.List.Induction

/-!
# Every instance gets its own copy

Instances of the service on one bus are started, left to work and shut down, in any order
and with the moves of their pipelines interleaved in any way, while parcels are published.
The main statement is `fansOut_run`: a parcel whose subject matches an operation's binding
comes once to that operation's pipeline in each instance, and to no other pipeline.
-/

namespace Courier
namespace Dispatch
namespace FanOut

open Bus (Copy Parcel TopologyError)
open Routing (normal topicMatches)

inductive Event where
  | start (exchange instanceId : String) (node : Node)
  | publish (p : Parcel)
  | move (place : Fleet.Place)
  | wait (ms : Nat)
  /-- The pipelines go on, as they are scheduled, while time passes. -/
  | sleep (ms : Nat)
  | shutdown (name : String) (grace : Nat)

def moveAt (f : Fleet) (place : Fleet.Place) : Fleet :=
  match f.nodes[place.node]? with
  | none => f
  | some n =>
    match n.pipelines[place.pipeline]? with
    | none => f
    | some p =>
      match Fleet.step? ⟨f, n, p⟩ with
      | none => f
      | some r => r.put place

namespace Event

/-- Why a start is refused, if it is, and the fleet after the event. -/
def apply (f : Fleet) : Event → Option TopologyError × Fleet
  | .start exchange instanceId node => f.start exchange instanceId node
  | .publish p => (none, { f with broker := f.broker.publish p })
  | .move place => (none, moveAt f place)
  | .wait ms => (none, { f with now := f.now + ms })
  | .sleep ms => (none, f.sleep ms)
  | .shutdown name grace => (none, (f.shutdown name grace).2)

def instances : Event → List String
  | .start _ instanceId _ => [instanceId]
  | _ => []

def exchanges : Event → List String
  | .start exchange _ _ => [exchange]
  | _ => []

end Event

def instances (events : List Event) : List String :=
  events.flatMap Event.instances

def run (events : List Event) : Fleet :=
  events.foldl (fun f e => (e.apply f).2) {}

theorem run_snoc (events : List Event) (e : Event) :
    run (events ++ [e]) = (e.apply (run events)).2 :=
  List.foldl_append

/-- The instances' names differ as segments, and each is started on a named exchange. -/
structure Distinct (events : List Event) : Prop where
  instances : ((instances events).map normal).Nodup
  exchanges : ∀ exchange ∈ events.flatMap Event.exchanges, Text.isBlank exchange = false

theorem instances_append (events more : List Event) :
    instances (events ++ more) = instances events ++ instances more :=
  List.flatMap_append

theorem Distinct.of_append {events more : List Event} (h : Distinct (events ++ more)) :
    Distinct events := by
  constructor
  · have hids := h.instances
    rw [instances_append, List.map_append] at hids
    exact (List.nodup_append.mp hids).left
  · intro exchange hmem
    refine h.exchanges exchange ?_
    rw [List.flatMap_append]
    exact List.mem_append_left _ hmem

/-!
## What events keep
-/

variable {ids : List String}

theorem enrolled_moveAt (hids : (ids.map normal).Nodup) {f : Fleet} (h : f.Enrolled ids)
    (place : Fleet.Place) : (moveAt f place).Enrolled ids := by
  unfold moveAt
  split
  · exact h
  · next n hn =>
      split
      · exact h
      · next p hp =>
          rcases Fleet.At.seated ⟨hn, hp⟩ with ⟨hseated, hput⟩
          split
          · exact h
          · next r hstep => exact (Fleet.enrolled_step hids hstep hseated (hput.symm ▸ h)).right

theorem enrolled_apply {f : Fleet} (h : f.Enrolled ids) (e : Event)
    (hids : ((ids ++ e.instances).map normal).Nodup)
    (hexchanges : ∀ exchange ∈ e.exchanges, Text.isBlank exchange = false) :
    (e.apply f).1 = none ∧ (e.apply f).2.Enrolled (ids ++ e.instances) := by
  cases e with
  | start exchange instanceId node =>
      have hnew : normal instanceId ∉ ids.map normal := by
        rw [List.map_append] at hids
        intro hmem
        exact (List.nodup_append.mp hids).right.right _ hmem _ (List.mem_singleton.mpr rfl) rfl
      exact Fleet.enrolled_start hnew h (hexchanges exchange (List.mem_singleton.mpr rfl)) node
  | publish p =>
      simp only [Event.instances, List.append_nil]
      exact ⟨rfl, Fleet.enrolled_publish h p⟩
  | move place =>
      simp only [Event.instances, List.append_nil] at hids ⊢
      exact ⟨rfl, enrolled_moveAt hids h place⟩
  | wait ms =>
      simp only [Event.instances, List.append_nil]
      exact ⟨rfl, h.of_steady (.refl h.sound) rfl rfl⟩
  | sleep ms =>
      simp only [Event.instances, List.append_nil] at hids ⊢
      exact ⟨rfl, Fleet.enrolled_sleep hids h ms⟩
  | shutdown name grace =>
      simp only [Event.instances, List.append_nil] at hids ⊢
      exact ⟨rfl, Fleet.enrolled_shutdown hids h name grace⟩

theorem enrolled_snoc {events : List Event} {e : Event} (h : Distinct (events ++ [e]))
    (hrun : (run events).Enrolled (instances events)) :
    (e.apply (run events)).1 = none ∧
      (run (events ++ [e])).Enrolled (instances (events ++ [e])) := by
  have hlast : instances [e] = e.instances := List.flatMap_singleton _ _
  have hids := h.instances
  rw [run_snoc]
  rw [instances_append, hlast] at hids ⊢
  refine enrolled_apply hrun e hids ?_
  intro exchange hmem
  refine h.exchanges exchange ?_
  rw [List.flatMap_append, List.flatMap_singleton]
  exact List.mem_append_right _ hmem

theorem enrolled_run {events : List Event} (h : Distinct events) :
    (run events).Enrolled (instances events) := by
  induction events using List.reverseRecOn with
  | nil => exact Fleet.enrolled_empty
  | append_singleton events e ih => exact (enrolled_snoc h (ih h.of_append)).right

/-!
## What instances get
-/

/-- The parcel comes to the pipeline once if its subject matches the operation's binding, and
else not at all. -/
def Receives (f : Fleet) (p : Pipeline) (parcel : Parcel) : Prop :=
  ∃ k serial, f.broker.consumer? p.source = some k ∧
    (f.broker.publish parcel).consumer? p.source = some { k with
      buffer := k.buffer ++
        if topicMatches p.operation.bindingPattern parcel.subject then [⟨serial, parcel⟩] else [] }

structure FansOut (events : List Event) : Prop where
  starts : ∀ {done e rest}, events = done ++ e :: rest → (e.apply (run done)).1 = none
  /-- Each instance has one pipeline for each operation, with a queue of its own. -/
  pipelines : (run events).nodes.map Node.queues = (instances events).map instanceQueues
  /-- A pipeline goes on as long as its instance is not shut down. -/
  stays : ∀ n ∈ (run events).nodes, n.cancelled = false → ∀ p ∈ n.pipelines, p.isStopped = false
  receives : ∀ n ∈ (run events).nodes, ∀ p ∈ n.pipelines, p.isStopped = false →
    ∀ parcel, Receives (run events) p parcel
  gone : ∀ n ∈ (run events).nodes, ∀ p ∈ n.pipelines, p.isStopped = true →
    ∀ parcel, ((run events).broker.publish parcel).consumer? p.source = none
  /-- No subject matches the bindings of two operations. -/
  apart : ∀ {op op' : Operation} {subject}, topicMatches op.bindingPattern subject = true →
    topicMatches op'.bindingPattern subject = true → op = op'

/-- Each instance gets its own copy of what is published. -/
theorem fansOut_run {events : List Event} (h : Distinct events) : FansOut events := by
  have hrun := enrolled_run h
  constructor
  · intro done e rest hsplit
    have happend : events = (done ++ [e]) ++ rest := by simpa using hsplit
    have hboth : Distinct (done ++ [e]) := (happend ▸ h).of_append
    exact (enrolled_snoc hboth (enrolled_run hboth.of_append)).left
  · exact hrun.queues
  · intro n hn hcancelled p hp
    cases hstopped : p.isStopped with
    | false => rfl
    | true =>
        rw [((hrun.placed n hn p hp).stopped hstopped).right] at hcancelled
        cases hcancelled
  · intro n hn p hp hruns parcel
    exact Bus.Broker.consumer?_publish hrun.sound ((hrun.placed n hn p hp).runs hruns) parcel
  · intro n hn p hp hstopped parcel
    have hlacks := ((hrun.placed n hn p hp).stopped hstopped).left
    exact Bus.Broker.consumer?_of_lacks
      ((Bus.Broker.steady_publish hrun.sound parcel).lacks hlacks)
  · exact Operation.eq_of_matches

def plainNode (name : String) : Node where
  name := some name
  registry := plainRegistry
  adapters := [{}]
  settings := {}
  sink := .bus

def twoInstances : List Event :=
  [.start "im_message.events" "a 1" (plainNode "a"),
    .start "im_message.events" "b" (plainNode "b"),
    .publish ⟨plainDelivery.subject, [], plainDelivery.payload⟩, .move ⟨0, 0⟩, .sleep 5,
    .shutdown "a" 5]

theorem fansOut_twoInstances : Distinct twoInstances ∧ FansOut twoInstances := by
  have hdistinct : Distinct twoInstances := by
    constructor
    · decide +kernel
    · decide +kernel
  exact ⟨hdistinct, fansOut_run hdistinct⟩

end FanOut
end Dispatch
end Courier
