import Courier.Bus.Broker
import Courier.Dispatch.Handling

/-!
# Dispatchers on one bus

A dispatcher runs one pipeline for each operation. A pipeline takes deliveries
from a queue of its own, one at a time, and settles each before the next. On one
bus any number of dispatchers run on one clock, which moves from one time that
something waits for to the next.
-/

namespace Courier
namespace Dispatch

open Bus (Broker ConsumerRef Copy)
open Provider (Adapter Handle Registry)

/-- Where dead letters go: to the bus itself, or nowhere. -/
inductive Sink where
  | bus
  | broken
deriving DecidableEq, Repr, Inhabited

structure InHand where
  copy : Copy
  delivery : Bus.Delivery
  job : Job
  stage : Stage

inductive PipelineState where
  | idle
  | handling (h : InHand)
  | stopped

structure Pipeline where
  operation : Operation
  source : ConsumerRef
  state : PipelineState := .idle
  turn : Nat := 0

def Pipeline.isStopped (p : Pipeline) : Bool :=
  match p.state with
  | .stopped => true
  | _ => false

structure Node where
  name : Option String
  registry : Registry Handle
  adapters : List Adapter
  settings : Settings
  sink : Sink
  cancelled : Bool := false
  shutDown : Bool := false
  pipelines : List Pipeline := []

def Node.isStopped (n : Node) : Bool :=
  n.pipelines.all Pipeline.isStopped

structure Fleet where
  broker : Broker := {}
  nodes : List Node := []
  now : Nat := 0
  turn : Nat := 0
  /-- The outcomes counted, latest first. -/
  counted : List (Operation × String) := []
  /-- Whether someone beside the dispatchers holds the bus. -/
  held : Bool := true
  /-- What stands for the identifiers and times that are made up. -/
  freshId : String := ""
  timeText : String := ""
  clock : Int64 := 0

namespace Fleet

/-! ## One pipeline -/

/-- A pipeline with the node and the bus that it runs on. -/
structure Running where
  fleet : Fleet
  node : Node
  pipeline : Pipeline

/-- Publishes the dead letter of an outcome; whether there was one that was taken. -/
def sendLetter (f : Fleet) (sink : Sink) (op : Operation) (d : Bus.Delivery) (o : Outcome) :
    Bool × Fleet :=
  match o.deadLetter? op f.timeText d, sink with
  | some letter, .bus =>
    (true, { f with broker := f.broker.publish (letter.toParcel op.deadLetterSubject) })
  | _, _ => (false, f)

def settle (r : Running) (copy : Copy) (d : Bus.Delivery) (o : Outcome) : Running :=
  let op := r.pipeline.operation
  let f := { r.fleet with counted := (op, o.label) :: r.fleet.counted }
  let (taken, f) := sendLetter f r.node.sink op d o
  let broker :=
    match f.broker.settle r.pipeline.source.queue copy.parcel (o.settlement taken) with
    | .ok broker => broker
    | .error _ => f.broker
  { r with
    fleet := { f with broker := broker }
    pipeline := { r.pipeline with state := .idle } }

def stop (r : Running) : Running :=
  { r with
    fleet := { r.fleet with broker := r.fleet.broker.unsubscribe r.pipeline.source }
    pipeline := { r.pipeline with state := .stopped } }

/-- Begins to handle a copy, or settles it at once when it is passed over. -/
def begin (r : Running) (copy : Copy) : Running :=
  let delivery := Bus.Delivery.ofParcel r.fleet.freshId copy.parcel
  match jobOf r.node.registry r.fleet.clock r.pipeline.operation delivery with
  | .error why => settle r copy delivery (.skipped why)
  | .ok job =>
    { r with
      pipeline := { r.pipeline with state := .handling ⟨copy, delivery, job, .ready 1⟩ } }

/-- One move of a pipeline, or `none` while it waits or when it has stopped. -/
def step? (r : Running) : Option Running :=
  match r.pipeline.state with
  | .stopped => none
  | .idle =>
    if r.node.cancelled then some (stop r)
    else
      match r.fleet.broker.take r.pipeline.source with
      | (.copy c, broker) => some (begin { r with fleet := { r.fleet with broker := broker } } c)
      | (.closed, _) => some (stop r)
      | (.nothing, _) => none
  | .handling h =>
    match h.stage with
    | .finished o => some (settle r h.copy h.delivery o)
    | stage =>
      (Stage.step? r.node.settings sendByScript h.job r.fleet.now r.node.cancelled
          r.node.adapters stage).map fun (stage, adapters) =>
        { r with
          node := { r.node with adapters := adapters }
          pipeline := { r.pipeline with state := .handling { h with stage := stage } } }

def moves : Nat → Running → Running
  | 0, r => r
  | fuel + 1, r =>
    match step? r with
    | none => r
    | some r => moves fuel r

def moveBound (r : Running) : Nat :=
  let waiting := ((r.fleet.broker.consumer? r.pipeline.source).map fun k => k.buffer.length).getD 0
  (waiting + 2) * (Stage.moveBound r.node.settings + 3)

def poll (r : Running) : Running :=
  let r := moves (moveBound r) r
  { r with
    fleet := { r.fleet with turn := r.fleet.turn + 1 }
    pipeline := { r.pipeline with turn := r.fleet.turn } }

/-! ## All pipelines -/

/-- When a pipeline can go on, if it is known: at a time already past when it can now. -/
def readyTime (f : Fleet) (n : Node) (p : Pipeline) : Option Nat :=
  match p.state with
  | .stopped => none
  | .idle =>
    let waiting := (f.broker.consumer? p.source).any fun k => !k.buffer.isEmpty
    if n.cancelled || f.broker.closed || waiting then some 0 else none
  | .handling h =>
    match h.stage with
    | .finished _ => some 0
    | .pausing attempt resumeAt =>
      if n.cancelled then some 0 else Stage.wakeTime n.settings (.pausing attempt resumeAt)
    | stage => Stage.wakeTime n.settings stage

/-- Of pipelines that can go on, the ones with copies to take come first, by copy. -/
def order (f : Fleet) (p : Pipeline) : Nat × Nat :=
  match p.state with
  | .idle =>
    let head := (f.broker.consumer? p.source).bind fun k => k.buffer.head?
    (0, (head.map Copy.serial).getD 0)
  | _ => (1, p.turn)

def precedes (a b : Nat × Nat) : Bool :=
  a.1 < b.1 || (a.1 == b.1 && a.2 ≤ b.2)

structure Place where
  node : Nat
  pipeline : Nat
deriving DecidableEq

def places (f : Fleet) : List (Place × Node × Pipeline) :=
  f.nodes.zipIdx.flatMap fun (n, i) =>
    n.pipelines.zipIdx.map fun (p, j) => (⟨i, j⟩, n, p)

def next? (f : Fleet) : Option (Place × Node × Pipeline) :=
  let ready := f.places.filter fun (_, n, p) => (f.readyTime n p).any (· ≤ f.now)
  ready.foldl (fun best x =>
    match best with
    | none => some x
    | some b => if precedes (f.order b.2.2) (f.order x.2.2) then some b else some x) none

/-- The bus is gone when nobody holds it: neither its owner nor a pipeline's sink. -/
def closeIfDropped (f : Fleet) : Fleet :=
  if f.held || f.nodes.any (fun n => n.sink = .bus && !n.isStopped) then f
  else { f with broker := f.broker.close }

def pollAt (f : Fleet) (at' : Place) (n : Node) (p : Pipeline) : Fleet :=
  let r := poll ⟨f, n, p⟩
  let node := { r.node with pipelines := r.node.pipelines.set at'.pipeline r.pipeline }
  closeIfDropped { r.fleet with nodes := r.fleet.nodes.set at'.node node }

def runReady : Nat → Fleet → Fleet
  | 0, f => f
  | fuel + 1, f =>
    match f.next? with
    | none => f
    | some (at', n, p) => runReady fuel (f.pollAt at' n p)

def turnBound (f : Fleet) : Nat :=
  let copies := (f.broker.queues.flatMap (·.consumers.flatMap (·.buffer))).length
  4 * (copies + f.places.length + 1)

def runNow (f : Fleet) : Fleet :=
  runReady f.turnBound f

def nextTime (f : Fleet) : Option Nat :=
  (f.places.filterMap fun (_, n, p) => f.readyTime n p).min?

/-- Lets time pass up to a given time, or until a condition holds; pipelines that wait for
that very time are left for later. Gives whether the condition came to hold. -/
def runUntil (stop : Fleet → Bool) (time : Nat) : Nat → Fleet → Bool × Fleet
  | 0, f => (false, { f with now := time })
  | fuel + 1, f =>
    let f := f.runNow
    if stop f then (true, f)
    else
      match f.nextTime with
      | none => (false, { f with now := time })
      | some t =>
        if t < time then runUntil stop time fuel { f with now := max f.now t }
        else (false, { f with now := time })

/-- The clock moves at least a millisecond with each turn. -/
def passTime (stop : Fleet → Bool) (ms : Nat) (f : Fleet) : Bool × Fleet :=
  runUntil stop (f.now + ms) (ms + 1) f

def sleep (f : Fleet) (ms : Nat) : Fleet :=
  if ms = 0 then f else (f.passTime (fun _ => false) ms).2

/-! ## Starting and stopping -/

def subscriptionOf (exchange instanceId : String) (op : Operation) : Bus.Subscription :=
  Bus.Subscription.fanOut (op.queueName instanceId) exchange op.bindingPattern

/-- Subscribes a pipeline for each operation, up to the first that is refused. -/
def subscribeAll (exchange instanceId : String) :
    List Operation → Broker → List Pipeline → Option Bus.TopologyError × Broker × List Pipeline
  | [], broker, pipelines => (none, broker, pipelines)
  | op :: rest, broker, pipelines =>
    match broker.subscribe (subscriptionOf exchange instanceId op) with
    | .error e => (some e, broker, pipelines)
    | .ok (source, broker) =>
      subscribeAll exchange instanceId rest broker
        (pipelines ++ [{ operation := op, source := source }])

/--
Starts a dispatcher. If a subscription is refused, the pipelines subscribed
before are cancelled.
-/
def start (f : Fleet) (exchange instanceId : String) (node : Node) :
    Option Bus.TopologyError × Fleet :=
  let (error, broker, pipelines) := subscribeAll exchange instanceId Operation.all f.broker []
  let forget (n : Node) : Node := if n.name = node.name then { n with name := none } else n
  match error with
  | some e =>
    (some e,
      { f with
        broker := broker
        nodes := f.nodes ++
          [{ node with name := none, cancelled := true, pipelines := pipelines }] })
  | none =>
    (none,
      { f with
        broker := broker
        nodes := f.nodes.map forget ++ [{ node with pipelines := pipelines }] })

def node? (f : Fleet) (name : String) : Option Node :=
  f.nodes.find? fun n => n.name = some name

def updateNode (f : Fleet) (name : String) (g : Node → Node) : Fleet :=
  { f with nodes := f.nodes.map fun n => if n.name = some name then g n else n }

def hasStopped (name : String) (f : Fleet) : Bool :=
  (f.node? name).all Node.isStopped

/--
Cancels a dispatcher and waits for its pipelines to stop, at most so long.
Whether they stopped in time.
-/
def shutdown (f : Fleet) (name : String) (grace : Nat) : Bool × Fleet :=
  let f := f.updateNode name fun n => { n with cancelled := true, shutDown := true }
  if f.hasStopped name then (true, f)
  else if grace = 0 then (false, f)
  else f.passTime (hasStopped name) grace

/-- Gives up the bus; it goes when no dispatcher holds it either. -/
def dropBus (f : Fleet) : Fleet :=
  closeIfDropped { f with held := false }

end Fleet
end Dispatch
end Courier
