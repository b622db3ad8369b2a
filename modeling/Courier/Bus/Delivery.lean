import Courier.Bus.Topology
import Courier.Causes
import Courier.Text.Utf8
import Courier.Json.Value

/-!
# Deliveries

Messages on the bus, deliveries of them to a consumer, and how a consumer
settles a delivery.
-/

namespace Courier

namespace Bus

open Text (Bytes)

/-- Headers, each name once, in order of names. -/
abbrev Headers := List (String × String)

def messageIdHeader : String := "Nats-Msg-Id"

def routingKeyHeader : String := "routing_key"

structure Parcel where
  subject : String
  headers : Headers := []
  payload : Bytes
deriving DecidableEq, Repr, Inhabited

def Headers.orInsert (name value : String) (headers : Headers) : Headers :=
  match headers.lookup name with
  | some _ => headers
  | none => Json.insertKey name value headers

def Headers.messageId? (headers : Headers) : Option String :=
  (headers.lookup messageIdHeader).filter fun id => !Text.isBlank id

structure Delivery where
  subject : String
  metadata : Headers
  payload : Bytes
  id : String
deriving DecidableEq, Repr, Inhabited

namespace Delivery

/--
The delivery of a parcel. Its routing key is the subject unless a header says
otherwise, and `freshId` identifies it where the publisher gave no identifier.
-/
def ofParcel (freshId : String) (p : Parcel) : Delivery :=
  let metadata := p.headers.orInsert routingKeyHeader p.subject
  { subject := p.subject
    metadata := metadata
    payload := p.payload
    id := metadata.messageId?.getD freshId }

def header? (d : Delivery) (name : String) : Option String :=
  d.metadata.lookup name

end Delivery

inductive Settlement where
  | ack
  | nack (requeue : Bool)
deriving DecidableEq, Repr, Inhabited

def Settlement.name : Settlement → String
  | .ack => "ack"
  | .nack false => "nack"
  | .nack true => "nack+requeue"

inductive Error where
  | publish (causes : Causes)
  | subscribe (causes : Causes)
  | settle (causes : Causes)
  | topology (e : TopologyError)
deriving DecidableEq, Repr

def Error.message : Error → String
  | .publish causes => causes.outermost
  | .subscribe causes => "subscribe failed: " ++ causes.outermost
  | .settle causes => "acknowledgement failed: " ++ causes.outermost
  | .topology e => e.message

end Bus
end Courier
