import Courier.Gateway.Request
import Courier.Provider.Error
import Courier.Rpc.Error

/-!
# Inbound text

Text events that arrive as webhooks and are forwarded to the gateway, in the
name of the contact who sent them.
-/

namespace Courier
namespace Provider

open Json (Decode Document)
open Text (Bytes)

structure InboundText where
  senderId : String
  senderName : Option String := none
  text : String := ""
  domainId : Int64 := 0
deriving DecidableEq, Repr, Inhabited

namespace InboundText

open Json.Decode in
def decodeSender : Decode (String × Option String) :=
  record ["id", "name"] fun
    | [id, name] => do
      return (← id.required string, ← name.withDefault none (nullable string))
    | _ => none

open Json.Decode in
def decode : Decode InboundText :=
  record ["sender", "text", "domain_id"] fun
    | [sender, text, domainId] => do
      let (senderId, senderName) ← sender.required decodeSender
      return {
        senderId := senderId
        senderName := senderName
        text := ← text.withDefault "" string
        domainId := ← domainId.withDefault 0 int64 }
    | _ => none

def sender (key : String) (e : InboundText) : Peer :=
  let peer : Peer := Peer.withIdentity { id := Identifier.nil, kind := .contact } e.senderId key
  match e.senderName with
  | none => peer
  | some name => peer.withName name

def toRequest (key : String) (e : InboundText) : Gateway.TextRequest :=
  { sender := e.sender key
    recipient := { id := Identifier.nil, kind := .contact }
    body := e.text
    domainId := e.domainId }

end InboundText

def invalidPayload : Error :=
  (Error.permanent "invalid_payload" "webhook body is not an inbound text event").withCause

/-- What a webhook body asks to be forwarded; an event without text asks for nothing. -/
def inboundRequest (key : String) (body : Bytes) : Except Error (Option Gateway.TextRequest) :=
  match Document.ofBytes? body >>= InboundText.decode with
  | none => .error invalidPayload
  | some e => .ok (if e.text.isEmpty then none else some (e.toRequest key))

def ofGatewayError (e : Rpc.Error) : Error :=
  (if e.isRetryable then Error.retryable "gateway_unavailable" e.message
    else Error.permanent "gateway_rejected" e.message).withCause

/--
Takes a webhook body and forwards its text by a given call. The state is what the
call goes on in.
-/
def forwardInbound {σ β : Type} (key : String) (body : Bytes)
    (call : Gateway.TextRequest → σ → Except Rpc.Error β × σ) (s : σ) :
    Except Error Unit × σ :=
  match inboundRequest key body with
  | .error e => (.error e, s)
  | .ok none => (.ok (), s)
  | .ok (some request) =>
    match call request s with
    | (.ok _, s) => (.ok (), s)
    | (.error e, s) => (.error (ofGatewayError e), s)

end Provider
end Courier
