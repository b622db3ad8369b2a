import Courier.Bus.Queue
import Courier.Routing.Topic

/-!
# The broker

An in-process bus. A published parcel is copied into every queue whose binding
matches its subject. Queues that go with their last consumer are cleared away
when something is published.
-/

namespace Courier
namespace Bus

structure ConsumerRef where
  queue : String
  id : Nat
deriving DecidableEq, Repr, Inhabited

structure Settled where
  queue : String
  subject : String
  settlement : Settlement
deriving DecidableEq, Repr, Inhabited

structure Broker where
  queues : List Queue := []
  /-- What was published and not yet collected, in order. -/
  published : List Parcel := []
  settled : List Settled := []
  nextConsumer : Nat := 0
  nextSerial : Nat := 0
  /-- Whether the bus is gone; consumers still take what they have buffered. -/
  closed : Bool := false
deriving DecidableEq, Repr, Inhabited

namespace Broker

def queue? (b : Broker) (name : String) : Option Queue :=
  b.queues.find? fun q => q.name = name

def updateQueue (name : String) (f : Queue → Queue) (queues : List Queue) : List Queue :=
  queues.map fun q => if q.name = name then f q else q

/-- Copies a parcel into every matching queue, numbering the copies. -/
def route (p : Parcel) : Nat → List Queue → List Queue × Nat
  | serial, [] => ([], serial)
  | serial, q :: rest =>
    if Routing.topicMatches q.binding p.subject then
      let (queues, next) := route p (serial + 1) rest
      (q.deliver ⟨serial, p⟩ :: queues, next)
    else
      let (queues, next) := route p serial rest
      (q :: queues, next)

def publish (b : Broker) (p : Parcel) : Broker :=
  let kept := b.queues.filter fun q => !q.isAbandoned
  let (queues, serial) := route p b.nextSerial kept
  { b with queues := queues, nextSerial := serial, published := b.published ++ [p] }

def refuses (q : Queue) (s : Subscription) : Bool :=
  (q.exclusive || s.isExclusive) && q.isActive

/-- Adds a consumer to a queue, which is made if there is none of that name. -/
def subscribe (b : Broker) (s : Subscription) : Except TopologyError (ConsumerRef × Broker) :=
  match s.validate with
  | some e => .error e
  | none =>
    let ref : ConsumerRef := ⟨s.queue, b.nextConsumer⟩
    let consumer : Consumer := { id := ref.id, exclusive := s.isExclusive }
    let queues :=
      match b.queue? s.queue with
      | some _ => b.queues
      | none => b.queues ++ [Queue.ofSubscription s]
    if (b.queue? s.queue).any fun q => refuses q s then .error (.queueInUse s.queue)
    else
      .ok (ref,
        { b with
          queues := updateQueue s.queue (fun q => q.attach s.binding consumer) queues
          nextConsumer := b.nextConsumer + 1 })

def consumer? (b : Broker) (ref : ConsumerRef) : Option Consumer :=
  b.queue? ref.queue >>= fun q => q.consumer? ref.id

inductive Taken where
  | copy (c : Copy)
  | nothing
  | closed
deriving DecidableEq, Repr

def take (b : Broker) (ref : ConsumerRef) : Taken × Broker :=
  match (b.consumer? ref).bind fun k => k.buffer.head? with
  | some c => (.copy c, { b with queues := updateQueue ref.queue (fun q => q.pop ref.id) b.queues })
  | none => (if b.closed then .closed else .nothing, b)

def unsubscribe (b : Broker) (ref : ConsumerRef) : Broker :=
  { b with queues := updateQueue ref.queue (fun q => q.detach ref.id) b.queues }

/--
Settles a copy that was taken from a queue. To put it back makes a new copy in
the same queue, if that still exists.
-/
def settle (b : Broker) (queue : String) (p : Parcel) (s : Settlement) : Except Error Broker :=
  if b.closed then .error (.settle ["bus dropped"])
  else
    let b : Broker := { b with settled := b.settled ++ [⟨queue, p.subject, s⟩] }
    match s, b.queue? queue with
    | .nack true, some _ =>
      .ok { b with
        queues := updateQueue queue (fun q => q.deliver ⟨b.nextSerial, p⟩) b.queues
        nextSerial := b.nextSerial + 1 }
    | _, _ => .ok b

def collect (b : Broker) : List Parcel × Broker :=
  (b.published, { b with published := [] })

def activeQueues (b : Broker) : List String :=
  ((b.queues.filter Queue.isActive).map Queue.name).mergeSort fun a c => decide (a ≤ c)

/-- What was settled, by queue; within a queue in the order of settling. -/
def settledByQueue (b : Broker) : List Settled :=
  b.settled.mergeSort fun a c => decide (a.queue ≤ c.queue)

def close (b : Broker) : Broker := { b with closed := true }

end Broker
end Bus
end Courier
