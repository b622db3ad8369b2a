import Courier.Gateway.Request
import Courier.Gateway.Status
import Courier.Rpc.Call

/-!
# Exchanges with the gateway

A request is posted to an endpoint of the gateway. What comes of the exchange is
classified: a failure in transit, or a status that says the gateway is not
available, is transient; any other answer ends the call.
-/

namespace Courier
namespace Gateway

open Json (Value Decode Document)
open Rpc (CallError CallRules Call Endpoint Reply Resolve Shared)
open Text (Bytes)

def serviceName : String := "im-gateway-service"

structure Method where
  service : String
  name : String
deriving DecidableEq, Repr

namespace Method

def path (m : Method) : String := "v1/" ++ m.service ++ "/" ++ m.name

def sendText : Method := ⟨"message", "SendText"⟩
def sendImage : Method := ⟨"message", "SendImage"⟩
def sendFile : Method := ⟨"message", "SendFile"⟩
def token : Method := ⟨"account", "Token"⟩
def inspect : Method := ⟨"account", "Inspect"⟩
def logout : Method := ⟨"account", "Logout"⟩
def registerDevice : Method := ⟨"account", "RegisterDevice"⟩
def unregisterDevice : Method := ⟨"account", "UnregisterDevice"⟩
def search : Method := ⟨"contacts", "Search"⟩

end Method

structure Post where
  url : String
  headers : List (String × String)
  body : Bytes
deriving DecidableEq, Repr

inductive Exchange where
  /-- No request could be made of it. -/
  | unsendable (message : String)
  /-- There was no response. -/
  | lost (causes : Causes)
  /-- The response broke off after its status. -/
  | cutShort (status : UInt16)
  | response (status : UInt16) (body : Bytes)
deriving DecidableEq, Repr

/-- Whether a status says that the gateway is not available. -/
def isUnavailable (status : UInt16) : Bool :=
  status == 502 || status == 503 || status == 504

def isSuccess (status : UInt16) : Bool := 200 ≤ status && status < 300

def undecodable : String := "error decoding response body"

def invalidBody : String := "invalid response body: " ++ undecodable

namespace Exchange

variable {α : Type}

def refusal (status : UInt16) (text : String) : CallError :=
  if isUnavailable status then .transient ["HTTP " ++ statusText status ++ ": " ++ text]
  else .application (some status) text

/-- What an exchange means for the attempt that made it. -/
def outcome (decode : Decode α) : Exchange → Except CallError α
  | .unsendable message => .error (.application none message)
  | .lost causes => .error (.transient causes)
  | .cutShort status =>
    if isSuccess status then .error (.application (some status) invalidBody)
    else .error (refusal status "")
  | .response status body =>
    if isSuccess status then
      match Document.ofBytes? body >>= decode with
      | some x => .ok x
      | none => .error (.application (some status) invalidBody)
    else .error (refusal status (Text.Utf8.decodeLossy body))

end Exchange

/-- What comes of a post and after how many milliseconds, by its number in the call. -/
abbrev Network := Nat → Post → Option Nat × Exchange

def replies {α : Type} (network : Network) (m : Method) (body : Value)
    (headers : List (String × String)) (decode : Decode α) : Nat → Endpoint → Reply α :=
  fun i endpoint =>
    let (after, exchange) := network i ⟨endpoint.url m.path, headers, body.toBytes⟩
    ⟨after, exchange.outcome decode⟩

structure Client (δ : Type) where
  rules : CallRules
  resolve : Resolve δ
  shared : Shared δ
  now : Nat := 0
  network : Network

namespace Client

variable {δ α : Type}

def call (c : Client δ) (m : Method) (body : Value) (headers : List (String × String))
    (decode : Decode α) : Except Rpc.Error α × Client δ :=
  let (call, shared, now) :=
    Call.execute c.rules c.resolve (replies c.network m body headers decode) c.now c.shared
  let result := (call.result?).getD (.error (.breakerOpen c.rules.service))
  (result, { c with shared := shared, now := now })

def post {β : Type} [Json.Codec α] [Json.Codec β] (m : Method) (c : Client δ) (r : α) :
    Except Rpc.Error β × Client δ :=
  c.call m (Json.Codec.encode r) [] Json.Codec.decode

def postText (c : Client δ) (r : TextBody) : Except Rpc.Error Sent × Client δ :=
  c.post .sendText r

def postImage (c : Client δ) (r : ImageBody) : Except Rpc.Error Sent × Client δ :=
  c.post .sendImage r

def postDocument (c : Client δ) (r : DocumentBody) : Except Rpc.Error Sent × Client δ :=
  c.post .sendFile r

def sendText (c : Client δ) (r : TextRequest) : Except Rpc.Error Forwarded × Client δ :=
  let (sent, c) := c.postText r.toBody
  (sent.map (forwardedTo r.recipient), c)

def sendImage (c : Client δ) (r : ImageRequest) : Except Rpc.Error Forwarded × Client δ :=
  let (sent, c) := c.postImage r.toBody
  (sent.map (forwardedTo r.recipient), c)

def sendDocument (c : Client δ) (r : DocumentRequest) : Except Rpc.Error Forwarded × Client δ :=
  let (sent, c) := c.postDocument r.toBody
  (sent.map (forwardedTo r.recipient), c)

def token (c : Client δ) (r : TokenBody) : Except Rpc.Error Authorization × Client δ :=
  c.post .token r

def inspect (c : Client δ) (headers : List (String × String)) :
    Except Rpc.Error Authorization × Client δ :=
  c.call .inspect (Empty.encode {}) headers Authorization.decode

def logout (c : Client δ) (headers : List (String × String)) :
    Except Rpc.Error Empty × Client δ :=
  c.call .logout (Empty.encode {}) headers Empty.decode

def registerDevice (c : Client δ) (r : DeviceBody) (headers : List (String × String)) :
    Except Rpc.Error Empty × Client δ :=
  c.call .registerDevice r.encode headers Empty.decode

def unregisterDevice (c : Client δ) (r : DeviceRemoval) (headers : List (String × String)) :
    Except Rpc.Error Empty × Client δ :=
  c.call .unregisterDevice r.encode headers Empty.decode

def search (c : Client δ) (q : ContactQuery) : Except Rpc.Error ContactPage × Client δ :=
  c.post .search q

def credentialsOf (a : Authorization) : Except Rpc.Error Credentials :=
  match a.contact with
  | some contact => .ok ⟨contact.id, contact.subject, contact.issuer, contact.name⟩
  | none => .error (.application none "identity inspection returned no contact")

def identify (c : Client δ) (headers : List (String × String)) :
    Except Rpc.Error Credentials × Client δ :=
  if headers.isEmpty then (.error (.invalidRequest "no credentials to inspect"), c)
  else
    let (authorization, c) := c.inspect headers
    (authorization >>= credentialsOf, c)

end Client
end Gateway
end Courier
