import Courier.Text.Blank

/-!
# Subscriptions

What a subscriber asks of the bus: an exchange, a queue with its lifetime, and
the binding that routes messages to the queue.
-/

namespace Courier
namespace Bus

inductive ExchangeKind where
  | topic
  | fanout
  | direct
deriving DecidableEq, Repr, Inhabited

def ExchangeKind.name : ExchangeKind → String
  | .topic => "topic"
  | .fanout => "fanout"
  | .direct => "direct"

structure Exchange where
  name : String
  kind : ExchangeKind := .topic
  durable : Bool := true
deriving DecidableEq, Repr

structure Subscription where
  exchange : Exchange
  queue : String
  binding : String
  /-- Only the declaring subscriber uses the queue. -/
  exclusiveQueue : Bool
  /-- The queue goes with its last consumer. -/
  autoDelete : Bool
  durable : Bool
  exclusiveConsumer : Bool
deriving DecidableEq, Repr

inductive TopologyError where
  | missingQueue
  | missingBinding (queue : String)
  | missingExchange (queue : String)
  | queueInUse (queue : String)
  | unsupported (what : String)
deriving DecidableEq, Repr

def TopologyError.message : TopologyError → String
  | .missingQueue => "subscriber queue name must not be empty"
  | .missingBinding queue => "queue `" ++ queue ++ "` has no binding pattern"
  | .missingExchange queue => "queue `" ++ queue ++ "` has no exchange"
  | .queueInUse queue => "queue `" ++ queue ++ "` is exclusive to another consumer"
  | .unsupported what => "transport does not support " ++ what

namespace Subscription

/-- A queue of one instance alone, so that each instance gets its own copy. -/
def fanOut (queue exchange binding : String) : Subscription :=
  { exchange := { name := exchange }
    queue := queue
    binding := binding
    exclusiveQueue := true
    autoDelete := true
    durable := false
    exclusiveConsumer := true }

def validate (s : Subscription) : Option TopologyError :=
  if Text.isBlank s.queue then some .missingQueue
  else if Text.isBlank s.binding then some (.missingBinding s.queue)
  else if Text.isBlank s.exchange.name then some (.missingExchange s.queue)
  else none

/-- Whether the subscriber asks to be alone on the queue. -/
def isExclusive (s : Subscription) : Bool :=
  s.exclusiveQueue || s.exclusiveConsumer

end Subscription
end Bus
end Courier
