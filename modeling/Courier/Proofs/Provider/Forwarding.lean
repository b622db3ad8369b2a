import Courier.Gateway.Exchange
import Courier.Proofs.Gateway.Bodies
import Courier.Proofs.Rpc.Execution
import Courier.Provider.Inbound

/-!
# Forwarding inbound text

A webhook body that is no inbound text event is refused, an event without text is passed over,
and any other is forwarded by one call to the gateway, in the name of the contact who sent it.
The result tells of the call whether it succeeded, and if it did not, whether another one may.

The main statement is that this holds of every body, whatever the gateway answers, and that the
call is a resilient one, whose posts carry the text of the event and the identity of its sender.
-/

namespace Courier

/-!
## Texts on the wire
-/

namespace Gateway

open Json (Document)
open Rpc (Call Endpoint)

def textPost (endpoint : Endpoint) (r : TextBody) : Post :=
  ⟨endpoint.url "v1/message/SendText", [], r.encode.toBytes⟩

theorem decode_textPost (endpoint : Endpoint) (r : TextBody) :
    Document.ofBytes? (textPost endpoint r).body >>= TextBody.decode = some r :=
  faithful_textBody.ofBytes? r

variable {δ : Type}

/--
A text is given to the gateway by one resilient call of its method for texts: each attempt
posts the text to the endpoint that it found, and the call comes to an answer.
-/
def CallsOnce (c : Client δ) (r : TextBody) (answer : Except Rpc.Error Sent) (later : Client δ) :
    Prop :=
  ∃ call shared now,
    Call.execute c.rules c.resolve
        (fun i endpoint =>
          ⟨(c.network i (textPost endpoint r)).1,
            (c.network i (textPost endpoint r)).2.outcome Sent.decode⟩)
        c.now c.shared = (call, shared, now) ∧
      call.result? = some answer ∧ later = { c with shared := shared, now := now }

theorem callsOnce_postText (c : Client δ) (r : TextBody) :
    CallsOnce c r (c.postText r).1 (c.postText r).2 := by
  rcases Call.exists_returns_execute c.rules c.resolve
    (replies c.network .sendText r.encode [] Sent.decode) c.now c.shared with
    ⟨call, shared, now, k, log, result, hexecute, hreturns⟩
  have hpost : c.postText r = (result, { c with shared := shared, now := now }) := by
    simp only [Client.postText, Client.post, Client.call, Json.Codec.encode, Json.Codec.decode,
      hexecute, hreturns.result?_eq, Option.getD_some]
  rw [hpost]
  exact ⟨call, shared, now, hexecute, hreturns.result?_eq, rfl⟩

end Gateway

namespace Provider

open Gateway (CallsOnce Client Forwarded Sent TextBody TextRequest forwardedTo textPost)
open Json (Document Value)
open Text (Bytes)

variable {σ δ : Type}

/-!
## Noting the calls
-/

/-- How a gateway takes a text, from the state that it is in. -/
abbrev TakeText (σ : Type) := TextBody → σ → Except Rpc.Error Sent × σ

def message (take : TakeText σ) (r : TextRequest) (s : σ) : Except Rpc.Error Forwarded × σ :=
  ((take r.toBody s).1.map (forwardedTo r.recipient), (take r.toBody s).2)

/-- A gateway that keeps the texts it is given, in order. -/
def noting (take : TakeText σ) : TakeText (σ × List TextBody) :=
  fun r s => ((take r s.1).1, (take r s.1).2, s.2 ++ [r])

structure Taken (σ : Type) where
  result : Except Error Unit
  /-- The texts that were given to the gateway, in order. -/
  given : List TextBody
  gateway : σ

def takeInbound (key : String) (body : Bytes) (take : TakeText σ) (s : σ) : Taken σ :=
  let (result, s, given) := forwardInbound key body (message (noting take)) (s, [])
  ⟨result, given, s⟩

/-- Noting the calls changes nothing else. -/
theorem forwardInbound_message (key : String) (body : Bytes) (take : TakeText σ) (s : σ) :
    forwardInbound key body (message take) s =
      ((takeInbound key body take s).result, (takeInbound key body take s).gateway) := by
  unfold takeInbound forwardInbound
  cases inboundRequest key body with
  | error e => rfl
  | ok request? =>
      cases request? with
      | none => rfl
      | some request =>
          simp only [message, noting]
          cases (take request.toBody s).1 <;> rfl

/-!
## What is forwarded
-/

namespace InboundText

def ofBytes? (body : Bytes) : Option InboundText :=
  Document.ofBytes? body >>= decode

/-- The text of an event for the gateway, to the contact who is its sender under a key. -/
def forGateway (key : String) (e : InboundText) : TextBody :=
  ⟨.contact { subject := e.senderId, issuer := key }, e.text⟩

theorem toBody_toRequest (key : String) (e : InboundText) :
    (e.toRequest key).toBody = e.forGateway key := by
  rcases e with ⟨senderId, senderName, text, domainId⟩
  cases senderName <;> rfl

end InboundText

/-!
## What is told of a call
-/

/-- A call ended because the gateway could not be reached or was not available. -/
inductive Unavailable : Rpc.Error → Prop where
  | breakerOpen (target : String) : Unavailable (.breakerOpen target)
  | transient (target : String) (attempts : Nat) (causes : Causes) :
      Unavailable (.transient target attempts causes)
  | discovery (e : Rpc.DiscoveryError) : Unavailable (.discovery e)

theorem isRetryable_iff {e : Rpc.Error} : e.isRetryable = true ↔ Unavailable e := by
  constructor
  · intro h
    cases e with
    | breakerOpen target => exact .breakerOpen target
    | transient target attempts causes => exact .transient target attempts causes
    | discovery e => exact .discovery e
    | application status message => cases h
    | invalidRequest message => cases h
  · intro h
    cases h <;> rfl

/-- The result is an error with a code, and with or without hope for another attempt. -/
def FailsAs (result : Except Error Unit) (code : String) (retryable : Bool) : Prop :=
  ∃ e, result = .error e ∧ e.code = code ∧ e.isRetryable = retryable

theorem failsAs_error {e : Error} {code : String} {retryable : Bool} :
    FailsAs (.error e) code retryable ↔ e.code = code ∧ e.isRetryable = retryable := by
  constructor
  · rintro ⟨e, ⟨⟩, h⟩
    exact h
  · intro h
    exact ⟨e, rfl, h⟩

theorem not_failsAs_ok {code : String} {retryable : Bool} : ¬ FailsAs (.ok ()) code retryable := by
  rintro ⟨e, ⟨⟩, _⟩

theorem failsAs_of_unavailable {e : Rpc.Error} (h : Unavailable e) :
    FailsAs (.error (ofGatewayError e)) "gateway_unavailable" true := by
  rw [failsAs_error, ofGatewayError, if_pos (isRetryable_iff.mpr h)]
  exact ⟨rfl, rfl⟩

theorem failsAs_of_not_unavailable {e : Rpc.Error} (h : ¬ Unavailable e) :
    FailsAs (.error (ofGatewayError e)) "gateway_rejected" false := by
  rw [failsAs_error, ofGatewayError, if_neg (fun hretry => h (isRetryable_iff.mp hretry))]
  exact ⟨rfl, rfl⟩

theorem FailsAs.code_eq {result : Except Error Unit} {code code' : String}
    {retryable retryable' : Bool} (h : FailsAs result code retryable)
    (h' : FailsAs result code' retryable') : code = code' := by
  rcases h with ⟨e, rfl, hcode, _⟩
  rcases h' with ⟨e', ⟨⟩, hcode', _⟩
  rw [← hcode, hcode']

structure Reports (called : Except Rpc.Error Sent) (result : Except Error Unit) : Prop where
  /-- It does not matter whether the id that the gateway gave can be read. -/
  succeeds : result = .ok () ↔ ∃ id, called = .ok ⟨id⟩
  unavailable : FailsAs result "gateway_unavailable" true ↔
    ∃ e, called = .error e ∧ Unavailable e
  rejected : FailsAs result "gateway_rejected" false ↔
    ∃ e, called = .error e ∧ ¬ Unavailable e
  explains : ∀ e, called = .error e → ∃ e', result = .error e' ∧ e'.text = e.message

theorem reports_ok (sent : Sent) : Reports (.ok sent) (.ok ()) := by
  constructor
  · exact iff_of_true rfl ⟨sent.id, rfl⟩
  · refine iff_of_false not_failsAs_ok ?_
    rintro ⟨e, ⟨⟩, _⟩
  · refine iff_of_false not_failsAs_ok ?_
    rintro ⟨e, ⟨⟩, _⟩
  · rintro e ⟨⟩

theorem reports_error (e : Rpc.Error) : Reports (.error e) (.error (ofGatewayError e)) := by
  have hne : "gateway_unavailable" ≠ "gateway_rejected" := by decide
  constructor
  · refine iff_of_false (by rintro ⟨⟩) ?_
    rintro ⟨id, ⟨⟩⟩
  · constructor
    · intro h
      refine ⟨e, rfl, ?_⟩
      by_contra hnot
      exact hne (h.code_eq (failsAs_of_not_unavailable hnot))
    · rintro ⟨e, ⟨⟩, h⟩
      exact failsAs_of_unavailable h
  · constructor
    · intro h
      refine ⟨e, rfl, ?_⟩
      intro hunavailable
      exact hne ((failsAs_of_unavailable hunavailable).code_eq h)
    · rintro ⟨e, ⟨⟩, h⟩
      exact failsAs_of_not_unavailable h
  · rintro e ⟨⟩
    refine ⟨_, rfl, ?_⟩
    unfold ofGatewayError
    split <;> rfl

def resultOf (called : Except Rpc.Error Sent) : Except Error Unit :=
  (called.map fun _ => ()).mapError ofGatewayError

theorem reports_resultOf (called : Except Rpc.Error Sent) : Reports called (resultOf called) := by
  cases called with
  | ok sent => exact reports_ok sent
  | error e => exact reports_error e

/-!
## What comes of a body
-/

/-- What comes of an event, or of a body that is none, with a gateway that is in a state. -/
inductive Takes (key : String) (take : TakeText σ) (s : σ) :
    Option InboundText → Taken σ → Prop where
  | refused {result : Except Error Unit} (fails : FailsAs result "invalid_payload" false) :
      Takes key take s none ⟨result, [], s⟩
  | silent {e : InboundText} (text_eq : e.text = "") : Takes key take s (some e) ⟨.ok (), [], s⟩
  | forwarded {e : InboundText} {result : Except Error Unit} (text_ne : e.text ≠ "")
      (reports : Reports (take (e.forGateway key) s).1 result) :
      Takes key take s (some e)
        ⟨result, [e.forGateway key], (take (e.forGateway key) s).2⟩

theorem inboundRequest_of_none {key : String} {body : Bytes}
    (h : InboundText.ofBytes? body = none) : inboundRequest key body = .error invalidPayload := by
  unfold inboundRequest
  rw [InboundText.ofBytes?] at h
  rw [h]

theorem inboundRequest_of_some {key : String} {body : Bytes} {e : InboundText}
    (h : InboundText.ofBytes? body = some e) :
    inboundRequest key body = .ok (if e.text = "" then none else some (e.toRequest key)) := by
  unfold inboundRequest
  rw [InboundText.ofBytes?] at h
  simp only [h, String.isEmpty_iff]

theorem takeInbound_of_text {key : String} {body : Bytes} {e : InboundText}
    (h : InboundText.ofBytes? body = some e) (htext : e.text ≠ "") (take : TakeText σ) (s : σ) :
    takeInbound key body take s =
      ⟨resultOf (take (e.forGateway key) s).1, [e.forGateway key],
        (take (e.forGateway key) s).2⟩ := by
  simp only [takeInbound, forwardInbound, inboundRequest_of_some h, if_neg htext, message, noting,
    InboundText.toBody_toRequest, List.nil_append]
  cases (take (e.forGateway key) s).1 <;> rfl

theorem takes_takeInbound (key : String) (body : Bytes) (take : TakeText σ) (s : σ) :
    Takes key take s (InboundText.ofBytes? body) (takeInbound key body take s) := by
  cases hbody : InboundText.ofBytes? body with
  | none =>
      simp only [takeInbound, forwardInbound, inboundRequest_of_none hbody]
      exact .refused ⟨invalidPayload, rfl, rfl, rfl⟩
  | some e =>
      by_cases htext : e.text = ""
      · simp only [takeInbound, forwardInbound, inboundRequest_of_some hbody, if_pos htext]
        exact .silent htext
      · rw [takeInbound_of_text hbody htext]
        exact .forwarded htext (reports_resultOf _)

/-- How a webhook body is forwarded, to whatever gateway and to one that is called. -/
structure ForwardingLaw (key : String) (body : Bytes) : Prop where
  takes : ∀ {σ : Type} (take : TakeText σ) (s : σ),
    Takes key take s (InboundText.ofBytes? body) (takeInbound key body take s)
  noted : ∀ {σ : Type} (take : TakeText σ) (s : σ),
    forwardInbound key body (message take) s =
      ((takeInbound key body take s).result, (takeInbound key body take s).gateway)
  sent : ∀ {δ : Type} (c : Client δ),
    forwardInbound key body (fun r c => c.sendText r) c =
      ((takeInbound key body (fun r c => c.postText r) c).result,
        (takeInbound key body (fun r c => c.postText r) c).gateway)
  called : ∀ {δ : Type} (c : Client δ) (r : TextBody),
    CallsOnce c r (c.postText r).1 (c.postText r).2
  posted : ∀ endpoint (e : InboundText), (textPost endpoint (e.forGateway key)).body =
    Value.toBytes (.object
      [("to", .object
        [("contact", .object [("sub", .string e.senderId), ("iss", .string key)])]),
      ("body", .string e.text)])
  carried : ∀ endpoint r,
    Document.ofBytes? (textPost endpoint r).body >>= TextBody.decode = some r

theorem forwardingLaw_forwardInbound (key : String) (body : Bytes) : ForwardingLaw key body where
  takes := takes_takeInbound key body
  noted := forwardInbound_message key body
  sent c := forwardInbound_message key body (fun r (c : Client _) => c.postText r) c
  called := Gateway.callsOnce_postText
  posted _ _ := rfl
  carried := Gateway.decode_textPost

/-- The id that the gateway answers with need not be one. -/
example :
    let body := Text.Utf8.encode "[[\"wa-100\", \"Ann\"], \"hi\", 7]"
    let taken := takeInbound "whatsapp" body (fun _ s => (.ok ⟨"no id"⟩, s)) ()
    taken.result.isOk ∧ taken.given = [⟨.contact ⟨"wa-100", "whatsapp"⟩, "hi"⟩] := by
  decide +kernel

end Provider
end Courier
