import Courier.Proofs.Bus.Rolls
import Courier.Proofs.Dispatch.Lodging

/-!
# Dispatchers that are being started

A dispatcher subscribes its pipelines one by one, and each goes to work as soon as it has its
queue, while others use the bus too. The first subscription that is refused cancels all that are
there, before anybody else makes a move. `stands_of_runs` says what holds of such a start at any
time, however its steps and those of others are interleaved.
-/

namespace Courier
namespace Dispatch

open Bus (Broker ConsumerRef Copy Request TopologyError)
open Fleet (Running Frame Moved step? subscriptionOf)

/-!
## What a pipeline leaves to others
-/

/-- Taking and leaving, which a pipeline does as a consumer of its queue. -/
def Dealing.IsConsuming : Dealing → Prop
  | .took _ => True
  | .left => True
  | _ => False

namespace Fleet

open Bus.Broker (Spared)

theorem spared_perform {ref : ConsumerRef} {b : Broker} (hb : b.Sound) (r : Running)
    (adapters : List Provider.Adapter) {d : Dealing}
    (h : d.IsConsuming → ref ≠ r.pipeline.source) : Spared ref b (perform r (b, adapters) d).1 := by
  cases d with
  | took copy => exact Bus.Broker.spared_take hb (h trivial)
  | called job => exact .refl hb
  | left => exact Bus.Broker.spared_unsubscribe hb (h trivial)
  | about copy deed =>
      cases deed with
      | settled how =>
          simp only [perform, Deed.perform]
          cases hsettle : b.settle r.pipeline.source.queue copy.parcel how with
          | ok b' => exact Bus.Broker.spared_settle hb hsettle
          | error e => exact .refl hb
      | offered letter taken =>
          simp only [perform, letterSink]
          cases r.node.sink with
          | bus => exact Bus.Broker.spared_publish hb _
          | broken => exact .refl hb

theorem spared_done {ref : ConsumerRef} {r : Running} (hb : r.fleet.broker.Sound)
    {ds : List Dealing} (h : ∀ d ∈ ds, d.IsConsuming → ref ≠ r.pipeline.source)
    (counted : List (Operation × String)) (state : PipelineState) :
    Spared ref r.fleet.broker (r.done ds counted state).fleet.broker := by
  unfold Running.done
  simp only
  generalize r.node.adapters = adapters
  generalize hbroker : r.fleet.broker = b at hb ⊢
  clear hbroker
  induction ds generalizing b adapters with
  | nil => exact .refl hb
  | cons d rest ih =>
      rcases List.forall_mem_cons.mp h with ⟨hd, hrest⟩
      have hfirst := spared_perform hb r adapters hd
      exact hfirst.trans (ih hrest _ _ hfirst.sound)

theorem spared_step {ref : ConsumerRef} {r r' : Running} (hb : r.fleet.broker.Sound)
    (hstep : step? r = some r') (h : ∀ d ∈ dealings r, d.IsConsuming → ref ≠ r.pipeline.source) :
    Spared ref r.fleet.broker r'.fleet.broker := by
  rcases exists_done_step hstep with ⟨counted, state, rfl⟩
  exact spared_done hb h counted state

theorem not_isConsuming_of_handling {r : Running} {h : InHand}
    (hstate : r.pipeline.state = .handling h) : ∀ d ∈ dealings r, ¬ d.IsConsuming := by
  intro d hd
  simp only [dealings, hstate] at hd
  split at hd
  · cases List.mem_singleton.mp hd
    exact id
  · rcases List.mem_map.mp hd with ⟨deed, _, rfl⟩
    exact id
  · cases hd

theorem step_of_cancelled {r r' : Running} (hcancelled : r.node.cancelled = true)
    (hstep : step? r = some r') : r'.pipeline.isStopped = true ∨
      ∃ h, r.pipeline.state = .handling h ∧
        ∀ h', r'.pipeline.state = .handling h' → h'.copy = h.copy := by
  unfold step? at hstep
  cases hstate : r.pipeline.state with
  | stopped => simp [hstate] at hstep
  | idle =>
      simp only [hstate, hcancelled, if_true, Option.some.injEq] at hstep
      subst hstep
      exact .inl rfl
  | handling inHand =>
      refine .inr ⟨inHand, rfl, ?_⟩
      simp only [hstate] at hstep
      split at hstep
      · next o _ =>
          cases hstep
          have hidle : (settle r inHand.copy inHand.delivery o).pipeline.state = .idle := rfl
          intro h' hh'
          rw [hidle] at hh'
          cases hh'
      · rcases Option.map_eq_some_iff.mp hstep with ⟨⟨stage, adapters⟩, _, rfl⟩
        intro h' hh'
        cases hh'
        rfl

end Fleet

/-!
## Starts
-/

/--
A dispatcher that is being started: its node with the pipelines that it has so far, the
operations that are still to be subscribed, and why its start has failed, if it has.
-/
structure Launch where
  fleet : Fleet
  node : Node
  rest : List Operation
  fault : Option TopologyError := none

namespace Launch

def ofNode (f : Fleet) (node : Node) : Launch where
  fleet := f
  node := { node with cancelled := false, pipelines := [] }
  rest := Operation.all

def seat (l : Launch) (op : Operation) (source : ConsumerRef) (broker : Broker) : Launch :=
  { l with
    fleet := { l.fleet with broker := broker }
    node := { l.node with
      pipelines := l.node.pipelines ++ [{ operation := op, source := source }] }
    rest := l.rest.tail }

/-- Subscribes the next operation. A refusal cancels what there is, and ends the start. -/
def subscribe (exchange id : String) (l : Launch) : Launch :=
  match l.rest with
  | [] => l
  | op :: _ =>
    match l.fleet.broker.subscribe (subscriptionOf exchange id op) with
    | .error e =>
      { l with node := { l.node with cancelled := true }, rest := [], fault := some e }
    | .ok (source, broker) => l.seat op source broker

def At (l : Launch) (i : Nat) (p : Pipeline) : Prop :=
  l.node.pipelines[i]? = some p

def sources (l : Launch) : List ConsumerRef :=
  l.node.pipelines.map Pipeline.source

def put (i : Nat) (r : Running) (l : Launch) : Launch :=
  { l with
    fleet := r.fleet
    node := { r.node with pipelines := r.node.pipelines.set i r.pipeline } }

def answer (r : Request) (l : Launch) : Launch :=
  { l with fleet := { l.fleet with broker := (l.fleet.broker.respond r).2 } }

/-- What happens next, with the queues that others join or leave by it. -/
inductive Step (exchange id : String) (l : Launch) : List String → Launch → Prop where
  | subscribes : Step exchange id l [] (l.subscribe exchange id)
  | moves {i : Nat} {p : Pipeline} {r : Running} (here : l.At i p)
      (step : step? ⟨l.fleet, l.node, p⟩ = some r) : Step exchange id l [] (l.put i r)
  /-- Others do not take or leave in the names of the pipelines. -/
  | others (r : Request) (spares : r.Spares l.sources) :
      Step exchange id l (l.fleet.broker.attended r) (l.answer r)
  /-- Time passes, and anything becomes of the rest of the world. -/
  | passes (f : Fleet) (adapters : List Provider.Adapter) (same : f.broker = l.fleet.broker) :
      Step exchange id l [] { l with fleet := f, node := { l.node with adapters := adapters } }

inductive Runs (exchange id : String) (l : Launch) : List String → Launch → Prop where
  | none : Runs exchange id l [] l
  | more {attended next : List String} {l' l'' : Launch} (runs : Runs exchange id l attended l')
      (step : Step exchange id l' next l'') : Runs exchange id l (attended ++ next) l''

/-!
## What a launch has
-/

/-- What holds of a launch that began on the bus `b`, where others attended queues since. -/
structure Stands (id : String) (b : Broker) (attended : List String) (l : Launch) : Prop where
  sound : l.fleet.broker.Sound
  isOpen : l.fleet.broker.closed = false
  operations : l.node.pipelines.map Pipeline.operation <+: Operation.all
  named : ∀ {i p}, l.At i p → p.source.queue = p.operation.queueName id
  present : ∀ {i p}, l.At i p → p.isStopped = false →
    ∃ k, l.fleet.broker.consumer? p.source = some k
  /-- There was nobody at the queue that it came to. -/
  unclaimed : ∀ {i p}, l.At i p → p.source.queue ∉ attended → b.rollAt p.source.queue = []
  rolls : ∀ name, name ∉ attended → ∀ e, e ∈ l.fleet.broker.rollAt name ↔
    e ∈ b.rollAt name ∨
      ∃ i p, l.At i p ∧ p.isStopped = false ∧ p.source.queue = name ∧ e = (p.source.id, true)
  /-- As long as nothing is refused, all that was subscribed runs. -/
  going : l.fault = none → l.node.cancelled = false ∧
    (∀ {i p}, l.At i p → p.isStopped = false) ∧
    l.node.pipelines.map Pipeline.operation ++ l.rest = Operation.all
  ended : l.fault ≠ none → l.node.cancelled = true ∧ l.rest = []

section Stands

variable {id : String} {b : Broker} {attended : List String} {l : Launch}

theorem Stands.index_eq (h : Stands id b attended l) {i j : Nat} {p p' : Pipeline}
    (hp : l.At i p) (hp' : l.At j p') (hqueue : p.source.queue = p'.source.queue) : i = j := by
  have hall : Operation.all.Nodup := by decide
  have hnodup : (l.node.pipelines.map Pipeline.operation).Nodup :=
    hall.sublist h.operations.sublist
  have hsame : p.operation = p'.operation := by
    rw [h.named hp, h.named hp'] at hqueue
    exact (Operation.eq_of_queueName_eq hqueue).left
  have hi : (l.node.pipelines.map Pipeline.operation)[i]? = some p.operation := by
    rw [List.getElem?_map, hp, Option.map_some]
  have hj : (l.node.pipelines.map Pipeline.operation)[j]? = some p'.operation := by
    rw [List.getElem?_map, hp', Option.map_some]
  rcases List.getElem?_eq_some_iff.mp hi with ⟨hlength, _⟩
  exact (List.getElem?_inj hlength hnodup).mp (by rw [hi, hj, hsame])

theorem stands_ofNode {f : Fleet} (hb : f.broker.Regular) (id : String) (node : Node) :
    Stands id f.broker [] (ofNode f node) where
  sound := hb.sound
  isOpen := hb.isOpen
  operations := List.nil_prefix
  named := nofun
  present := nofun
  unclaimed := nofun
  rolls := by
    intro name _ e
    constructor
    · exact .inl
    · rintro (he | ⟨i, p, hat, _⟩)
      · exact he
      · cases hat
  going := fun _ => ⟨rfl, nofun, rfl⟩
  ended := fun h => absurd rfl h

theorem cases_at_seat {op : Operation} {source : ConsumerRef} {broker : Broker} {i : Nat}
    {p : Pipeline} (h : (l.seat op source broker).At i p) :
    l.At i p ∨ p = { operation := op, source := source } := by
  unfold At seat at h
  rw [List.getElem?_append] at h
  split at h
  · exact .inl h
  · exact .inr (List.mem_singleton.mp (List.mem_of_getElem? h))

theorem at_seat_of_at (op : Operation) (source : ConsumerRef) (broker : Broker) {i : Nat}
    {p : Pipeline} (h : l.At i p) : (l.seat op source broker).At i p := by
  rcases List.getElem?_eq_some_iff.mp h with ⟨hlength, _⟩
  exact (List.getElem?_append_left hlength).trans h

theorem at_seat_self (l : Launch) (op : Operation) (source : ConsumerRef) (broker : Broker) :
    (l.seat op source broker).At l.node.pipelines.length { operation := op, source := source } :=
  List.getElem?_concat_length

theorem map_operation_seat {op : Operation} {rest : List Operation} (hrest : l.rest = op :: rest)
    (source : ConsumerRef) (broker : Broker) :
    (l.seat op source broker).node.pipelines.map Pipeline.operation ++
        (l.seat op source broker).rest = l.node.pipelines.map Pipeline.operation ++ l.rest := by
  simp only [seat, List.map_append, List.append_assoc, hrest]
  rfl

section Free

variable (h : Stands id b attended l) {exchange : String} {op : Operation}
  (hfree : ∀ q, l.fleet.broker.queue? (op.queueName id) = some q →
    Broker.refuses q (subscriptionOf exchange id op) = false)
include h

include hfree in
theorem unclaimed_of_free (hname : op.queueName id ∉ attended) :
    b.rollAt (op.queueName id) = [] := by
  have hexclusive : (subscriptionOf exchange id op).isExclusive = true := rfl
  have hempty : l.fleet.broker.rollAt (op.queueName id) = [] :=
    Bus.Broker.rollAt_eq_nil_of_free hexclusive hfree
  apply List.eq_nil_iff_forall_not_mem.mpr
  intro e he
  have hthere := (h.rolls _ hname e).mpr (.inl he)
  exact List.not_mem_nil (hempty ▸ hthere)

theorem rolls_seat (exchange : String) (op : Operation) {name : String} (hname : name ∉ attended)
    (e : Nat × Bool) :
    e ∈ (l.fleet.broker.joined (subscriptionOf exchange id op)).rollAt name ↔
      e ∈ b.rollAt name ∨ ∃ i p,
        (l.seat op ⟨op.queueName id, l.fleet.broker.nextConsumer⟩
          (l.fleet.broker.joined (subscriptionOf exchange id op))).At i p ∧
          p.isStopped = false ∧ p.source.queue = name ∧ e = (p.source.id, true) := by
  refine Bus.Broker.mem_rollAt_joined.trans ?_
  rw [h.rolls name hname e]
  constructor
  · rintro ((he | ⟨i, p, hat, hp, hqueue, rfl⟩) | ⟨rfl, rfl⟩)
    · exact .inl he
    · exact .inr ⟨i, p, at_seat_of_at _ _ _ hat, hp, hqueue, rfl⟩
    · exact .inr ⟨_, _, at_seat_self l _ _ _, rfl, rfl, rfl⟩
  · rintro (he | ⟨i, p, hat, hp, rfl, rfl⟩)
    · exact .inl (.inl he)
    · rcases cases_at_seat hat with hold | rfl
      · exact .inl (.inr ⟨i, p, hold, hp, rfl, rfl⟩)
      · exact .inr ⟨rfl, rfl⟩

include hfree in
theorem stands_seat {rest : List Operation} (hrest : l.rest = op :: rest) :
    Stands id b attended (l.seat op ⟨op.queueName id, l.fleet.broker.nextConsumer⟩
      (l.fleet.broker.joined (subscriptionOf exchange id op))) := by
  have hnofault : l.fault = none := by
    by_contra hfault
    rw [(h.ended hfault).right] at hrest
    cases hrest
  rcases h.going hnofault with ⟨hcancelled, hruns, hall⟩
  have hall' := (map_operation_seat hrest ⟨op.queueName id, l.fleet.broker.nextConsumer⟩
    (l.fleet.broker.joined (subscriptionOf exchange id op))).trans hall
  constructor
  · exact Bus.Broker.sound_joined h.sound _
  · exact h.isOpen
  · exact ⟨_, hall'⟩
  · intro i p hat
    rcases cases_at_seat hat with hold | rfl
    · exact h.named hold
    · rfl
  · intro i p hat hp
    rcases cases_at_seat hat with hold | rfl
    · exact (Bus.Broker.spared_joined h.sound _).exists_consumer? (h.present hold hp)
    · exact Bus.Broker.exists_consumer?_of_mem_rollAt
        (Bus.Broker.mem_rollAt_joined.mpr (.inr ⟨rfl, rfl⟩))
  · intro i p hat hname
    rcases cases_at_seat hat with hold | rfl
    · exact h.unclaimed hold hname
    · exact unclaimed_of_free h hfree hname
  · exact fun name hname e => rolls_seat h exchange op hname e
  · intro _
    refine ⟨hcancelled, ?_, hall'⟩
    intro i p hat
    rcases cases_at_seat hat with hold | rfl
    · exact hruns hold
    · rfl
  · exact fun hfault => absurd hnofault hfault

end Free

theorem stands_subscribe (h : Stands id b attended l) (exchange : String) :
    Stands id b attended (l.subscribe exchange id) := by
  unfold subscribe
  split
  · exact h
  · next op rest hrest =>
      rcases l.fleet.broker.subscribe_cases (subscriptionOf exchange id op) with
        ⟨e, herror⟩ | ⟨_, hfree, hjoined⟩
      · rw [herror]
        exact { h with going := nofun, ended := fun _ => ⟨rfl, rfl⟩ }
      · rw [hjoined]
        exact stands_seat h hfree hrest

section Move

variable {i : Nat} {p : Pipeline} {r : Running} (here : l.At i p)
  (hstep : step? ⟨l.fleet, l.node, p⟩ = some r)
include here hstep

theorem at_put_iff {j : Nat} {p' : Pipeline} :
    (l.put i r).At j p' ↔ j = i ∧ p' = r.pipeline ∨ j ≠ i ∧ l.At j p' := by
  rcases List.getElem?_eq_some_iff.mp here with ⟨hlength, _⟩
  have hpipelines : r.node.pipelines = l.node.pipelines := (Fleet.frame_of_step hstep).pipelines
  unfold At put
  simp only [hpipelines]
  by_cases hj : j = i
  · subst hj
    simp [List.getElem?_set_self hlength, eq_comm]
  · simp [List.getElem?_set_ne (Ne.symm hj), hj]

theorem map_operation_put :
    (l.put i r).node.pipelines.map Pipeline.operation =
      l.node.pipelines.map Pipeline.operation := by
  have hframe := Fleet.frame_of_step hstep
  have hpipelines : r.node.pipelines = l.node.pipelines := hframe.pipelines
  have hsame : (l.node.pipelines.map Pipeline.operation)[i]? = some r.pipeline.operation := by
    rw [List.getElem?_map, here, hframe.operation, Option.map_some]
  rcases List.getElem?_eq_some_iff.mp hsame with ⟨hlength, hget⟩
  simp only [put, hpipelines, List.map_set]
  rw [← hget]
  exact List.set_getElem_self hlength

/-- The others take nothing from a pipeline. -/
theorem Stands.spared (h : Stands id b attended l) {j : Nat} {p' : Pipeline} (hat : l.At j p')
    (hne : j ≠ i) : Bus.Broker.Spared p'.source l.fleet.broker r.fleet.broker := by
  refine Fleet.spared_step h.sound hstep fun _ _ _ hsource => hne ?_
  exact h.index_eq hat here (congrArg ConsumerRef.queue hsource)

theorem rolls_put (h : Stands id b attended l) {name : String} (hname : name ∉ attended)
    (e : Nat × Bool) : e ∈ r.fleet.broker.rollAt name ↔ e ∈ b.rollAt name ∨
      ∃ j p', (l.put i r).At j p' ∧ p'.isStopped = false ∧ p'.source.queue = name ∧
        e = (p'.source.id, true) := by
  have hran := Fleet.isStopped_of_step hstep
  cases Fleet.moved_step h.sound h.isOpen hstep with
  | goes frame steady same =>
      rw [steady.rollAt name, h.rolls name hname e]
      constructor
      · rintro (he | ⟨j, p', hat, hruns, rfl, rfl⟩)
        · exact .inl he
        · by_cases hj : j = i
          · subst hj
            cases here.symm.trans hat
            refine .inr ⟨j, r.pipeline, (at_put_iff here hstep).mpr (.inl ⟨rfl, rfl⟩),
              same.trans hran, ?_, ?_⟩
            · rw [frame.source]
            · rw [frame.source]
          · exact .inr ⟨j, p', (at_put_iff here hstep).mpr (.inr ⟨hj, hat⟩), hruns, rfl, rfl⟩
      · rintro (he | ⟨j, p', hat, hruns, rfl, rfl⟩)
        · exact .inl he
        · rcases (at_put_iff here hstep).mp hat with ⟨rfl, rfl⟩ | ⟨_, hold⟩
          · rw [frame.source]
            exact .inr ⟨j, p, here, hran, rfl, rfl⟩
          · exact .inr ⟨j, p', hold, hruns, rfl, rfl⟩
  | stops frame broker stopped cancelled =>
      rw [broker, Bus.Broker.mem_rollAt_unsubscribe, h.rolls name hname e]
      constructor
      · rintro ⟨he | ⟨j, p', hat, hruns, rfl, rfl⟩, hother⟩
        · exact .inl he
        · have hj : j ≠ i := by
            rintro rfl
            cases here.symm.trans hat
            exact hother rfl rfl
          exact .inr ⟨j, p', (at_put_iff here hstep).mpr (.inr ⟨hj, hat⟩), hruns, rfl, rfl⟩
      · rintro (he | ⟨j, p', hat, hruns, rfl, rfl⟩)
        · -- Nobody was at the pipeline's queue before it, so it takes nobody else off the roll.
          refine ⟨.inl he, ?_⟩
          rintro rfl
          rw [h.unclaimed here hname] at he
          cases he
        · rcases (at_put_iff here hstep).mp hat with ⟨_, rfl⟩ | ⟨hj, hold⟩
          · rw [stopped] at hruns
            cases hruns
          · exact ⟨.inr ⟨j, p', hold, hruns, rfl, rfl⟩,
              fun hqueue => absurd (h.index_eq hold here hqueue) hj⟩

theorem present_put (h : Stands id b attended l) {j : Nat} {p' : Pipeline}
    (hat : (l.put i r).At j p') (hruns : p'.isStopped = false) :
    ∃ k, r.fleet.broker.consumer? p'.source = some k := by
  rcases (at_put_iff here hstep).mp hat with ⟨rfl, rfl⟩ | ⟨hne, hold⟩
  · cases Fleet.moved_step h.sound h.isOpen hstep with
    | goes frame steady same =>
        rcases h.present here (same.symm.trans hruns) with ⟨k, hk⟩
        rcases Bus.Broker.exists_mem_rollAt_of_consumer? hk with ⟨exclusive, hmem⟩
        rw [← steady.rollAt] at hmem
        rw [frame.source]
        exact Bus.Broker.exists_consumer?_of_mem_rollAt hmem
    | stops frame broker stopped cancelled =>
        rw [stopped] at hruns
        cases hruns
  · exact (h.spared here hstep hold hne).exists_consumer? (h.present hold hruns)

theorem stands_put (h : Stands id b attended l) : Stands id b attended (l.put i r) := by
  have hframe := Fleet.frame_of_step hstep
  have hmoved := Fleet.moved_step h.sound h.isOpen hstep
  have hbefore : ∀ {j p'}, (l.put i r).At j p' →
      ∃ p₀, l.At j p₀ ∧ p'.operation = p₀.operation ∧ p'.source = p₀.source := by
    intro j p' hat
    rcases (at_put_iff here hstep).mp hat with ⟨rfl, rfl⟩ | ⟨_, hold⟩
    · exact ⟨p, here, hframe.operation, hframe.source⟩
    · exact ⟨p', hold, rfl, rfl⟩
  have hcancelled : (l.put i r).node.cancelled = l.node.cancelled := hframe.cancelled
  constructor
  · cases hmoved with
    | goes frame steady same => exact steady.sound
    | stops frame broker stopped cancelled =>
        rw [put, broker]
        exact Bus.Broker.sound_unsubscribe h.sound _
  · cases hmoved with
    | goes frame steady same => exact steady.closed.trans h.isOpen
    | stops frame broker stopped cancelled =>
        rw [put, broker]
        exact h.isOpen
  · rw [map_operation_put here hstep]
    exact h.operations
  · intro j p' hat
    rcases hbefore hat with ⟨p₀, hold, hoperation, hsource⟩
    rw [hoperation, hsource]
    exact h.named hold
  · exact present_put here hstep h
  · intro j p' hat hname
    rcases hbefore hat with ⟨p₀, hold, _, hsource⟩
    rw [hsource] at hname ⊢
    exact h.unclaimed hold hname
  · exact fun name hname e => rolls_put here hstep h hname e
  · intro hfault
    rcases h.going hfault with ⟨hlive, hruns, hall⟩
    refine ⟨hcancelled.trans hlive, ?_, ?_⟩
    · intro j p' hat
      rcases (at_put_iff here hstep).mp hat with ⟨_, rfl⟩ | ⟨_, hold⟩
      · cases hmoved with
        | goes frame steady same => exact same.trans (hruns here)
        | stops frame broker stopped cancelled =>
            rw [hlive] at cancelled
            cases cancelled
      · exact hruns hold
    · rw [map_operation_put here hstep]
      exact hall
  · exact fun hfault => ⟨hcancelled.trans (h.ended hfault).left, (h.ended hfault).right⟩

end Move

theorem stands_answer (h : Stands id b attended l) {r : Request} (hspares : r.Spares l.sources) :
    Stands id b (attended ++ l.fleet.broker.attended r) (l.answer r) where
  sound := Bus.Broker.sound_respond h.sound r
  isOpen := (Bus.Broker.closed_respond h.sound r).trans h.isOpen
  operations := h.operations
  named := h.named
  present := by
    intro i p hat hruns
    have hmem : p.source ∈ l.sources := List.mem_map_of_mem (List.mem_of_getElem? hat)
    exact (Bus.Broker.spared_respond h.sound hspares hmem).exists_consumer? (h.present hat hruns)
  unclaimed := fun hat hname => h.unclaimed hat fun hmem => hname (List.mem_append_left _ hmem)
  rolls := by
    intro name hname e
    rw [List.mem_append, not_or] at hname
    rw [answer, Bus.Broker.rollAt_respond h.sound hname.right]
    exact h.rolls name hname.left e
  going := h.going
  ended := h.ended

theorem stands_step (h : Stands id b attended l) {exchange : String} {next : List String}
    {l' : Launch} (hstep : Step exchange id l next l') : Stands id b (attended ++ next) l' := by
  cases hstep with
  | subscribes =>
      rw [List.append_nil]
      exact stands_subscribe h exchange
  | moves here step =>
      rw [List.append_nil]
      exact stands_put here step h
  | others r spares => exact stands_answer h spares
  | passes f adapters same =>
      rw [List.append_nil]
      exact { h with
        sound := same ▸ h.sound
        isOpen := same ▸ h.isOpen
        present := same ▸ h.present
        rolls := same ▸ h.rolls }

theorem stands_of_runs (h : Stands id b attended l) {exchange : String} {more : List String}
    {l' : Launch} (hruns : Runs exchange id l more l') : Stands id b (attended ++ more) l' := by
  induction hruns with
  | none =>
      rw [List.append_nil]
      exact h
  | more _ step ih =>
      rw [← List.append_assoc]
      exact stands_step ih step

end Stands

end Launch
end Dispatch
end Courier
