import Courier.Metrics
import Courier.Provider.Error
import Courier.Provider.Registry
import Courier.Webhook.Path

/-!
# Webhook ingress

A request is posted under a provider's name, and its body is handed to the
provider's receiver, whole and once. A body is read part by part, and no further
once it is too great. What receivers do is left to the state they are in.
-/

namespace Courier
namespace Webhook

open Provider (Registry)
open Text (Bytes)

def greatestBody : Nat := 4 * 1024 * 1024

/-- A body as it arrives, in parts; it may break off after them. -/
structure Body where
  parts : List Bytes
  broken : Bool := false
deriving DecidableEq, Repr

/-- What was read of a body: the parts taken, and the whole of it if it came to its end. -/
structure Reading where
  taken : List Bytes := []
  whole : Option Bytes := none
deriving DecidableEq, Repr

/-- Takes parts up to the first that is too great for the room that is left. -/
def gather (broken : Bool) : Nat → List Bytes → Reading
  | _, [] => { whole := if broken then none else some [] }
  | room, part :: rest =>
    if room < part.length then { taken := [part] }
    else
      let reading := gather broken (room - part.length) rest
      { taken := part :: reading.taken, whole := reading.whole.map (part ++ ·) }

def Body.read (b : Body) : Reading :=
  gather b.broken greatestBody b.parts

structure Request where
  method : String
  target : String
  body : Body
deriving DecidableEq, Repr

structure Response where
  status : Nat
  body : String := ""
  allow : Option String := none
  contentType : Option String := none
deriving DecidableEq, Repr

namespace Response

def plainText : String := "text/plain; charset=utf-8"

def text (status : Nat) (body : String) : Response :=
  { status := status, body := body, contentType := some plainText }

def notAllowed (allow : String) : Response :=
  { status := 405, allow := some allow }

end Response

/-- How a receiver takes a body, from the state that receivers are in. -/
abbrev Receive (σ α : Type) := σ → α → Bytes → Except Provider.Error Unit × σ

inductive Deed (α : Type) where
  | took (part : Bytes)
  | handed (receiver : α) (body : Bytes)
deriving DecidableEq, Repr

structure Delivered (σ α : Type) where
  response : Response
  deeds : List (Deed α) := []
  state : σ

def Response.ofResult : Except Provider.Error Unit → Response
  | .ok () => { status := 200 }
  | .error e => .text 500 e.message

variable {σ α : Type}

def deliver (registry : Registry α) (receive : Receive σ α) (provider : String) (body : Body)
    (s : σ) : Delivered σ α :=
  match registry.receiver? provider with
  | none => { response := .text 404 "provider not found", state := s }
  | some receiver =>
    let reading := body.read
    let took := reading.taken.map Deed.took
    match reading.whole with
    | none => { response := .text 400 "invalid request body", deeds := took, state := s }
    | some bytes =>
      let (result, s) := receive s receiver bytes
      { response := .ofResult result, deeds := took ++ [.handed receiver bytes], state := s }

/-- Names that are not registered stay out of the counters. -/
def counterOf (provider : String) (r : Response) : Metrics.Counter :=
  Metrics.webhook (if r.status = 404 then "unknown" else provider) (toString r.status)

/-- Answers a request; gives the counters raised as well. -/
def answer (registry : Registry α) (receive : Receive σ α) (r : Request) (s : σ) :
    Response × List Metrics.Counter × σ :=
  match routeOf r.target with
  | .unknown => ({ status := 404 }, [], s)
  | .health =>
    if r.method = "GET" then (.text 200 "ok", [], s)
    else if r.method = "HEAD" then (.text 200 "", [], s)
    else (.notAllowed "GET,HEAD", [], s)
  | .malformed =>
    if r.method = "POST" then
      (.text 400 "Invalid URL: Invalid UTF-8 in `provider`", [], s)
    else (.notAllowed "POST", [], s)
  | .provider name =>
    if r.method = "POST" then
      let d := deliver registry receive name r.body s
      (d.response, [counterOf name d.response], d.state)
    else (.notAllowed "POST", [], s)

def answerAll (registry : Registry α) (receive : Receive σ α) :
    List Request → σ → List Response × List Metrics.Counter × σ
  | [], s => ([], [], s)
  | r :: rest, s =>
    let (response, counters, s) := answer registry receive r s
    let (responses, more, s) := answerAll registry receive rest s
    (response :: responses, counters ++ more, s)

end Webhook
end Courier
