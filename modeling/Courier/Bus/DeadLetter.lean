import Courier.Bus.Delivery
import Courier.Json.Record

/-!
# Dead letters

Records of commands that were given up, with the payload as it came: its value
if it is JSON, and else its text with malformed octets replaced.
-/

namespace Courier
namespace Bus

open Json (Value Decode)
open Text (Bytes)

structure Fault where
  code : String
  message : String
deriving DecidableEq, Repr, Inhabited

structure DeadLetter where
  operation : String
  provider : Option String := none
  routingKey : String
  messageId : String
  attempts : UInt32 := 0
  time : String
  fault : Fault
  envelope : Value
deriving Repr, Inhabited

def envelopeOf (payload : Bytes) : Value :=
  match Value.ofBytes? payload with
  | some v => v
  | none => .string (Text.Utf8.decodeLossy payload)

namespace Fault

open Json Json.Decode

def encode (f : Fault) : Value :=
  .object [("code", .string f.code), ("message", .string f.message)]

def decode : Decode Fault :=
  record ["code", "message"] fun
    | [code, message] => do
      return {
        code := ← code.required string
        message := ← message.required string }
    | _ => none

instance : Json.Codec Fault := ⟨encode, decode⟩

end Fault

namespace DeadLetter

open Json Json.Decode

/-- How deeply an envelope may be nested: the record holds it. -/
def envelopeDepth : Nat := Value.depthLimit - 1

def encode (r : DeadLetter) : Value :=
  .object [("operation", .string r.operation),
    ("provider", (r.provider.map Value.string).getD .null),
    ("routing_key", .string r.routingKey), ("msg_id", .string r.messageId),
    ("attempts", .ofInt r.attempts.toNat), ("ts", .string r.time),
    ("error", r.fault.encode), ("envelope", r.envelope)]

def decode : Decode DeadLetter :=
  record ["operation", "provider", "routing_key", "msg_id", "attempts", "ts", "error",
      "envelope"] fun
    | [operation, provider, routingKey, messageId, attempts, time, fault, envelope] => do
      return {
        operation := ← operation.required string
        provider := ← provider.withDefault none (nullable string)
        routingKey := ← routingKey.required string
        messageId := ← messageId.required string
        attempts := ← attempts.required uint32
        time := ← time.required string
        fault := ← fault.required Fault.decode
        envelope := ← envelope.required (value envelopeDepth) }
    | _ => none

def toParcel (r : DeadLetter) (subject : String) : Parcel :=
  { subject := subject
    headers := [(messageIdHeader, r.messageId)]
    payload := r.encode.toBytes }

instance : Json.Codec DeadLetter := ⟨encode, decode⟩

end DeadLetter
end Bus
end Courier
