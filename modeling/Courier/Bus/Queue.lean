import Courier.Bus.Delivery

/-!
# Queues

A queue holds copies of the parcels routed to it until consumers take them. Each
copy goes to one consumer, in turn; while there is none, a queue that is kept
holds the copies back for the next consumer.
-/

namespace Courier
namespace Bus

/-- A copy of a parcel in a queue; copies are numbered as they are made. -/
structure Copy where
  serial : Nat
  parcel : Parcel
deriving DecidableEq, Repr, Inhabited

structure Consumer where
  id : Nat
  exclusive : Bool
  /-- The copies it has not yet taken, in order. -/
  buffer : List Copy := []
deriving DecidableEq, Repr, Inhabited

structure Queue where
  name : String
  binding : String
  exclusive : Bool
  autoDelete : Bool
  cursor : UInt64 := 0
  consumers : List Consumer := []
  /-- Copies held back for the next consumer, in order. -/
  backlog : List Copy := []
deriving DecidableEq, Repr, Inhabited

namespace Queue

def ofSubscription (s : Subscription) : Queue :=
  { name := s.queue, binding := s.binding, exclusive := s.exclusiveQueue,
    autoDelete := s.autoDelete }

def isActive (q : Queue) : Bool := !q.consumers.isEmpty

/-- Whether a queue goes with its last consumer, and that has left. -/
def isAbandoned (q : Queue) : Bool := q.autoDelete && q.consumers.isEmpty

def Consumer.push (c : Copy) (k : Consumer) : Consumer :=
  { k with buffer := k.buffer ++ [c] }

/-- Hands a copy to the consumer whose turn it is, or holds it back if there is none. -/
def deliver (q : Queue) (c : Copy) : Queue :=
  if q.consumers.isEmpty then
    if q.autoDelete then q else { q with backlog := q.backlog ++ [c] }
  else
    { q with
      consumers := q.consumers.modify (q.cursor.toNat % q.consumers.length) (Consumer.push c)
      cursor := q.cursor + 1 }

/-- Adds a consumer, who gets what was held back. -/
def attach (q : Queue) (binding : String) (k : Consumer) : Queue :=
  let held := q.backlog
  held.foldl deliver
    { q with binding := binding, consumers := q.consumers ++ [k], backlog := [] }

def detach (q : Queue) (id : Nat) : Queue :=
  { q with consumers := q.consumers.filter fun k => k.id ≠ id }

def consumer? (q : Queue) (id : Nat) : Option Consumer :=
  q.consumers.find? fun k => k.id = id

def pop (q : Queue) (id : Nat) : Queue :=
  { q with
    consumers := q.consumers.map fun k =>
      if k.id = id then { k with buffer := k.buffer.drop 1 } else k }

end Queue
end Bus
end Courier
