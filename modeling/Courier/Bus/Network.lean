import Courier.Bus.Delivery
import Courier.Routing.Topic

/-!
# Buses over a network

How subscriptions and parcels are put to a network broker, which has subjects
and queue groups but neither exchanges nor queues of its own. An exclusive queue
becomes a plain subscription, so that each instance sees every message; a shared
queue becomes a group that shares the messages. Nothing is kept while no one is
subscribed, so durable queues are refused.
-/

namespace Courier
namespace Bus

structure NetworkSubscription where
  subject : String
  /-- The group that shares the messages, if there is one. -/
  group : Option String
deriving DecidableEq, Repr

namespace Subscription

/-- The subject of a subscription; exchanges make no difference to it. -/
def networkSubject (s : Subscription) : String :=
  Routing.bracketPattern s.binding

def overNetwork (s : Subscription) : Except TopologyError NetworkSubscription :=
  match s.validate with
  | some e => .error e
  | none =>
    if s.durable then .error (.unsupported ("durable queue `" ++ s.queue ++ "` on core NATS"))
    else .ok ⟨s.networkSubject, if s.exclusiveQueue then none else some s.queue⟩

end Subscription

/-- Headers with several values for a name keep the first. -/
def Headers.ofPairs (pairs : List (String × String)) : Headers :=
  pairs.foldl (fun headers (name, value) => headers.orInsert name value) []

/-- The delivery of a message from the network; it needs no settlement. -/
def Delivery.ofNetwork (freshId subject : String) (pairs : List (String × String))
    (payload : Text.Bytes) : Delivery :=
  .ofParcel freshId { subject := subject, headers := .ofPairs pairs, payload := payload }

end Bus
end Courier
