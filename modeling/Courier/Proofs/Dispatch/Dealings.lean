import Courier.Proofs.Dispatch.Enrollment
import Courier.Proofs.Dispatch.Settling

/-!
# What pipelines deal with

A pipeline takes copies, calls adapters, offers dead letters, settles deliveries and in the
end leaves its queue. Beside the counted outcomes and where it stands itself, a move changes
nothing but what it deals with: `exists_done_step`, and `exists_done_moves` for many moves.
-/

namespace Courier
namespace Dispatch

open Bus (Broker Copy)
open Provider (Adapter)

/-- What a pipeline has to do with the world outside of it. -/
inductive Dealing where
  | took (copy : Copy)
  | called (job : Job)
  | about (copy : Copy) (deed : Deed)
  | left

namespace Fleet

def settlingOf (r : Running) (copy : Copy) (d : Bus.Delivery) (o : Outcome) : List Dealing :=
  (settling (letterSink r.node.sink r.pipeline.operation) r.pipeline.operation r.fleet.timeText d
    o r.fleet.broker).1.map (.about copy)

def beginningOf (r : Running) (copy : Copy) : List Dealing :=
  let delivery := Bus.Delivery.ofParcel r.fleet.freshId copy.parcel
  match jobOf r.node.registry r.fleet.clock r.pipeline.operation delivery with
  | .error why => settlingOf r copy delivery (.skipped why)
  | .ok _ => []

def dealings (r : Running) : List Dealing :=
  match r.pipeline.state with
  | .stopped => []
  | .idle =>
    if r.node.cancelled then [.left]
    else
      match r.fleet.broker.take r.pipeline.source with
      | (.copy c, broker) =>
        .took c :: beginningOf { r with fleet := { r.fleet with broker := broker } } c
      | (.closed, _) => [.left]
      | (.nothing, _) => []
  | .handling h =>
    match h.stage with
    | .ready _ => [.called h.job]
    | .finished o => settlingOf r h.copy h.delivery o
    | _ => []

def dealt : Nat → Running → List Dealing
  | 0, _ => []
  | fuel + 1, r =>
    match step? r with
    | none => []
    | some r' => dealings r ++ dealt fuel r'

/-- What a dealing does to the bus and to the adapters of the pipeline's node. -/
def perform (r : Running) (world : Broker × List Adapter) : Dealing → Broker × List Adapter
  | .took _ => ((world.1.take r.pipeline.source).2, world.2)
  | .called job => (world.1, (sendByScript world.2 job).2)
  | .about _ (.offered letter _) =>
    ((letterSink r.node.sink r.pipeline.operation world.1 letter).2, world.2)
  | .about copy (.settled how) =>
    ((Deed.settled how).perform r.pipeline.source.queue copy.parcel world.1, world.2)
  | .left => (world.1.unsubscribe r.pipeline.source, world.2)

/-- The pipeline after dealings, with the outcomes counted and the state that it has come to. -/
def Running.done (r : Running) (ds : List Dealing) (counted : List (Operation × String))
    (state : PipelineState) : Running :=
  let world := ds.foldl (perform r) (r.fleet.broker, r.node.adapters)
  { fleet := { r.fleet with broker := world.1, counted := counted }
    node := { r.node with adapters := world.2 }
    pipeline := { r.pipeline with state := state } }

theorem done_nil (r : Running) : r.done [] r.fleet.counted r.pipeline.state = r := rfl

theorem done_done (r : Running) (ds more : List Dealing)
    (counted counted' : List (Operation × String)) (state state' : PipelineState) :
    (r.done ds counted state).done more counted' state' = r.done (ds ++ more) counted' state' := by
  have hperform : perform (r.done ds counted state) = perform r := by
    funext world d
    cases d with
    | about copy deed => cases deed <;> rfl
    | took copy => rfl
    | called job => rfl
    | left => rfl
  simp only [Running.done, List.foldl_append] at hperform ⊢
  rw [hperform]

theorem foldl_settlingOf (r : Running) (copy : Copy) (d : Bus.Delivery) (o : Outcome) :
    (settlingOf r copy d o).foldl (perform r) (r.fleet.broker, r.node.adapters) =
      ((settle r copy d o).fleet.broker, r.node.adapters) := by
  rw [broker_settle]
  unfold settlingOf settling
  cases o.deadLetter? r.pipeline.operation r.fleet.timeText d with
  | none => rfl
  | some letter => rfl

theorem sendLetter_frame (f : Fleet) (sink : Sink) (op : Operation) (d : Bus.Delivery)
    (o : Outcome) : (sendLetter f sink op d o).2 =
      { f with broker := (sendLetter f sink op d o).2.broker } := by
  unfold sendLetter
  split <;> rfl

theorem done_settlingOf (r : Running) (copy : Copy) (d : Bus.Delivery) (o : Outcome) :
    settle r copy d o = r.done (settlingOf r copy d o)
      ((r.pipeline.operation, o.label) :: r.fleet.counted) .idle := by
  have hfleet : (settle r copy d o).fleet =
      { r.fleet with
        broker := (settle r copy d o).fleet.broker
        counted := (r.pipeline.operation, o.label) :: r.fleet.counted } := by
    unfold settle
    simp only
    rw [sendLetter_frame]
  simp only [Running.done, foldl_settlingOf]
  rw [← hfleet]
  rfl

theorem exists_done_begin (r : Running) (copy : Copy) :
    ∃ counted state, begin r copy = r.done (beginningOf r copy) counted state := by
  unfold begin beginningOf
  simp only
  cases jobOf r.node.registry r.fleet.clock r.pipeline.operation
      (Bus.Delivery.ofParcel r.fleet.freshId copy.parcel) with
  | error why => exact ⟨_, _, done_settlingOf r copy _ _⟩
  | ok job => exact ⟨_, _, rfl⟩

theorem exists_done_step {r r' : Running} (h : step? r = some r') :
    ∃ counted state, r' = r.done (dealings r) counted state := by
  unfold step? at h
  unfold dealings
  cases hstate : r.pipeline.state with
  | stopped => simp [hstate] at h
  | idle =>
      simp only [hstate] at h ⊢
      split at h
      · next hcancelled =>
          cases h
          rw [if_pos hcancelled]
          exact ⟨_, _, rfl⟩
      · next hcancelled =>
          rw [if_neg hcancelled]
          rcases htake : r.fleet.broker.take r.pipeline.source with ⟨taken, broker⟩
          cases taken with
          | copy c =>
              simp only [htake, Option.some.injEq] at h ⊢
              subst h
              rcases exists_done_begin { r with fleet := { r.fleet with broker := broker } } c with
                ⟨counted, state, hbegin⟩
              refine ⟨counted, state, hbegin.trans ?_⟩
              have htaken : { r with fleet := { r.fleet with broker := broker } } =
                  r.done [.took c] r.fleet.counted r.pipeline.state := by
                simp only [Running.done, List.foldl_cons, List.foldl_nil, perform, htake]
              rw [htaken, done_done]
              rfl
          | closed =>
              simp only [htake, Option.some.injEq] at h ⊢
              subst h
              exact ⟨_, _, rfl⟩
          | nothing => simp [htake] at h
  | handling inHand =>
      simp only [hstate] at h ⊢
      cases hstage : inHand.stage with
      | finished o =>
          simp only [hstage, Option.some.injEq] at h
          subst h
          exact ⟨_, _, done_settlingOf r inHand.copy inHand.delivery o⟩
      | ready attempt =>
          simp only [hstage, Stage.step?, Option.map_some, Option.some.injEq] at h
          subst h
          exact ⟨_, _, rfl⟩
      | sending attempt since answer =>
          simp only [hstage, Stage.step?, Option.map_map, Option.map_eq_some_iff] at h
          rcases h with ⟨result, _, rfl⟩
          exact ⟨_, _, rfl⟩
      | pausing attempt resumeAt =>
          simp only [hstage, Stage.step?] at h
          split at h
          · cases h
            exact ⟨_, _, rfl⟩
          · split at h
            · cases h
              exact ⟨_, _, rfl⟩
            · cases h

theorem exists_done_moves (fuel : Nat) (r : Running) :
    ∃ counted state, moves fuel r = r.done (dealt fuel r) counted state := by
  induction fuel generalizing r with
  | zero => exact ⟨_, _, (done_nil r).symm⟩
  | succ fuel ih =>
      unfold moves dealt
      cases hstep : step? r with
      | none => exact ⟨_, _, (done_nil r).symm⟩
      | some r' =>
          rcases exists_done_step hstep with ⟨counted, state, hr'⟩
          rcases ih r' with ⟨counted', state', hmoves⟩
          refine ⟨counted', state', hmoves.trans ?_⟩
          rw [hr', done_done]

end Fleet
end Dispatch
end Courier
