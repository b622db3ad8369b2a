import Courier.Proofs.Webhook.Paths
import Courier.Webhook.Ingress

/-!
# The law of webhook ingress

A webhook for a provider without a receiver is refused unread. Else its body is read part by
part; only a whole body that is not too great is handed on, once and in one piece, and the
receiver decides the answer. Each webhook is counted once, under the name of a receiver or under
none.

The main statement is `ingressLaw`.
-/

namespace Courier
namespace Webhook

open Provider (Registry)
open Text (Bytes)

/-!
## Reading a body
-/

/-- However a body is cut into parts, it is read whole if it ends and there is room for it. -/
theorem whole_gather (broken : Bool) (room : Nat) (parts : List Bytes) :
    (gather broken room parts).whole =
      if broken = true ∨ room < parts.flatten.length then none else some parts.flatten := by
  induction parts generalizing room with
  | nil => cases broken <;> rfl
  | cons part rest ih =>
      have hlength : (part :: rest).flatten.length = part.length + rest.flatten.length := by
        rw [List.flatten_cons, List.length_append]
      -- Parts that fit take their length off both sides of the comparison.
      by_cases hpart : room < part.length
      · have htooGreat : broken = true ∨ room < (part :: rest).flatten.length :=
          Or.inr (by omega)
        simp only [gather, if_pos hpart, if_pos htooGreat]
      · have hiff : (broken = true ∨ room < (part :: rest).flatten.length) ↔
            (broken = true ∨ room - part.length < rest.flatten.length) :=
          or_congr_right (by omega)
        simp only [gather, if_neg hpart, ih, hiff]
        split
        · rfl
        · rw [Option.map_some, List.flatten_cons]

theorem taken_gather_prefix (broken : Bool) (room : Nat) (parts : List Bytes) :
    (gather broken room parts).taken <+: parts := by
  induction parts generalizing room with
  | nil => exact List.prefix_rfl
  | cons part rest ih =>
      by_cases hpart : room < part.length
      · simp only [gather, if_pos hpart]
        exact List.prefix_append [part] rest
      · simp only [gather, if_neg hpart]
        exact (List.prefix_cons_inj part).mpr (ih _)

theorem taken_gather_of_room {room : Nat} {parts : List Bytes}
    (h : parts.flatten.length ≤ room) (broken : Bool) :
    (gather broken room parts).taken = parts := by
  induction parts generalizing room with
  | nil => rfl
  | cons part rest ih =>
      rw [List.flatten_cons, List.length_append] at h
      simp only [gather, if_neg (by omega : ¬ room < part.length)]
      rw [ih (by omega)]

variable {σ α : Type} {registry : Registry α} {receive : Receive σ α}

/-!
## One webhook
-/

structure Ingress (registry : Registry α) (receive : Receive σ α) (name : String) (body : Body)
    (s : σ) (d : Delivered σ α) : Prop where
  missing : registry.receiver? name = none →
    d = { response := .text 404 "provider not found", deeds := [], state := s }
  unreadable : ∀ receiver, registry.receiver? name = some receiver →
    body.broken = true ∨ greatestBody < body.parts.flatten.length →
    ∃ taken, taken <+: body.parts ∧
      d = { response := .text 400 "invalid request body", deeds := taken.map .took, state := s }
  handed : ∀ receiver, registry.receiver? name = some receiver → body.broken = false →
    body.parts.flatten.length ≤ greatestBody →
    d.deeds = body.parts.map .took ++ [.handed receiver body.parts.flatten] ∧
      d.state = (receive s receiver body.parts.flatten).2 ∧
      ((receive s receiver body.parts.flatten).1 = .ok () →
        d.response = { status := 200, body := "" }) ∧
      ∀ e, (receive s receiver body.parts.flatten).1 = .error e →
        d.response = .text 500 e.message

theorem ingress_deliver (registry : Registry α) (receive : Receive σ α) (name : String)
    (body : Body) (s : σ) :
    Ingress registry receive name body s (deliver registry receive name body s) := by
  constructor
  · intro hnone
    simp only [deliver, hnone]
  · intro receiver hreceiver hbad
    have hwhole : body.read.whole = none := by
      rw [Body.read, whole_gather, if_pos hbad]
    refine ⟨body.read.taken, taken_gather_prefix _ _ _, ?_⟩
    simp only [deliver, hreceiver, hwhole]
  · intro receiver hreceiver hended hroom
    have hwhole : body.read.whole = some body.parts.flatten := by
      rw [Body.read, whole_gather, if_neg]
      rintro (hbroken | hgreat)
      · rw [hended] at hbroken
        cases hbroken
      · exact absurd hroom (Nat.not_le_of_gt hgreat)
    have htaken : body.read.taken = body.parts := taken_gather_of_room hroom _
    simp only [deliver, hreceiver, hwhole, htaken, true_and]
    constructor
    · intro hok
      rw [hok]
      rfl
    · intro e herror
      rw [herror]
      rfl

/-!
## Counting
-/

/-- What a webhook is counted under: a name without a receiver could be anything. -/
def labelOf (registry : Registry α) (name : String) : String :=
  if (registry.receiver? name).isSome then name else "unknown"

theorem labelOf_known (registry : Registry α) (name : String) :
    labelOf registry name = "unknown" ∨
      (registry.receiver? (labelOf registry name)).isSome := by
  unfold labelOf
  split
  next hsome => exact Or.inr hsome
  next => exact Or.inl rfl

theorem status_ofResult (result : Except Provider.Error Unit) :
    (Response.ofResult result).status ≠ 404 := by
  cases result with
  | ok _ => exact (by decide : (200 : Nat) ≠ 404)
  | error e => exact (by decide : (500 : Nat) ≠ 404)

theorem counterOf_deliver (registry : Registry α) (receive : Receive σ α) (name : String)
    (body : Body) (s : σ) :
    counterOf name (deliver registry receive name body s).response =
      Metrics.webhook (labelOf registry name)
        (toString (deliver registry receive name body s).response.status) := by
  cases hreceiver : registry.receiver? name with
  | none => simp [counterOf, deliver, labelOf, hreceiver, Response.text]
  | some receiver =>
      -- With a receiver, no answer has the status by which names are left out of the labels.
      have hstatus : (deliver registry receive name body s).response.status ≠ 404 := by
        cases hwhole : body.read.whole with
        | none => simp [deliver, hreceiver, hwhole, Response.text]
        | some bytes =>
            simp only [deliver, hreceiver, hwhole]
            exact status_ofResult _
      simp only [counterOf, if_neg hstatus, labelOf, hreceiver, Option.isSome_some, if_true]

/-!
## Requests
-/

def Request.provider? (r : Request) : Option String :=
  match routeOf r.target with
  | .provider name => if r.method = "POST" then some name else none
  | _ => none

theorem answer_of_posted (registry : Registry α) (receive : Receive σ α) {r : Request}
    {name : String} (h : r.provider? = some name) (s : σ) :
    answer registry receive r s =
      ((deliver registry receive name r.body s).response,
        [counterOf name (deliver registry receive name r.body s).response],
        (deliver registry receive name r.body s).state) := by
  unfold Request.provider? at h
  split at h
  next name' hroute =>
    split at h
    next hmethod =>
      cases h
      simp only [answer, hroute, if_pos hmethod]
    next => cases h
  next => cases h

theorem answer_of_other (registry : Registry α) (receive : Receive σ α) {r : Request}
    (h : r.provider? = none) (s : σ) : (answer registry receive r s).2 = ([], s) := by
  unfold Request.provider? at h
  cases hroute : routeOf r.target with
  | provider name =>
      simp only [hroute] at h
      split at h
      next => cases h
      next hmethod => simp only [answer, hroute, if_neg hmethod]
  | malformed =>
      simp only [answer, hroute]
      split <;> rfl
  | health =>
      simp only [answer, hroute]
      split
      · rfl
      · split <;> rfl
  | unknown => simp only [answer, hroute]

/-- Requests one after the other, with their answers and the counters raised. -/
inductive Served (registry : Registry α) (receive : Receive σ α) :
    List Request → σ → List Response → List Metrics.Counter → σ → Prop where
  | nil (s : σ) : Served registry receive [] s [] [] s
  | posted {r : Request} {name : String} {d : Delivered σ α} {rest : List Request} {s s' : σ}
      {responses : List Response} {counters : List Metrics.Counter}
      (post : r.provider? = some name) (ingress : Ingress registry receive name r.body s d)
      (further : Served registry receive rest d.state responses counters s') :
      Served registry receive (r :: rest) s (d.response :: responses)
        (Metrics.webhook (labelOf registry name) (toString d.response.status) :: counters) s'
  | other {r : Request} {response : Response} {rest : List Request} {s s' : σ}
      {responses : List Response} {counters : List Metrics.Counter} (other : r.provider? = none)
      (further : Served registry receive rest s responses counters s') :
      Served registry receive (r :: rest) s (response :: responses) counters s'

theorem served_answerAll (registry : Registry α) (receive : Receive σ α)
    (requests : List Request) (s : σ) :
    Served registry receive requests s (answerAll registry receive requests s).1
      (answerAll registry receive requests s).2.1
      (answerAll registry receive requests s).2.2 := by
  induction requests generalizing s with
  | nil => exact .nil s
  | cons r rest ih =>
      cases hprovider : r.provider? with
      | none =>
          have hanswer := answer_of_other registry receive hprovider s
          simp only [answerAll, hanswer, List.nil_append]
          exact .other hprovider (ih s)
      | some name =>
          have hanswer := answer_of_posted registry receive hprovider s
          simp only [answerAll, hanswer, counterOf_deliver, List.singleton_append]
          exact .posted hprovider (ingress_deliver registry receive name r.body s) (ih _)

theorem Served.length_counters {requests : List Request} {s s' : σ} {responses : List Response}
    {counters : List Metrics.Counter}
    (h : Served registry receive requests s responses counters s') :
    counters.length = requests.countP fun r => r.provider?.isSome := by
  induction h with
  | nil s => rfl
  | posted post _ _ ih => rw [List.length_cons, ih, List.countP_cons_of_pos (by rw [post]; rfl)]
  | other other _ ih => rw [ih, List.countP_cons_of_neg (by rw [other]; exact Bool.false_ne_true)]

theorem Served.labels {requests : List Request} {s s' : σ} {responses : List Response}
    {counters : List Metrics.Counter}
    (h : Served registry receive requests s responses counters s') {c : Metrics.Counter}
    (hc : c ∈ counters) :
    ∃ label status, c = Metrics.webhook label status ∧
      (label = "unknown" ∨ (registry.receiver? label).isSome) := by
  induction h with
  | nil s => cases hc
  | posted _ _ _ ih =>
      rcases List.mem_cons.mp hc with rfl | hc
      · exact ⟨_, _, rfl, labelOf_known registry _⟩
      · exact ih hc
  | other _ _ ih => exact ih hc

/-!
## The law
-/

/-- How webhooks are served, for whatever providers and receivers. -/
structure IngressLaw (registry : Registry α) (receive : Receive σ α) : Prop where
  reached : ∀ name body, name ≠ "" → ∃ r : Request, r.provider? = some name ∧ r.body = body
  served : ∀ requests s, Served registry receive requests s
    (answerAll registry receive requests s).1 (answerAll registry receive requests s).2.1
    (answerAll registry receive requests s).2.2
  once : ∀ requests s, (answerAll registry receive requests s).2.1.length =
    requests.countP fun r => r.provider?.isSome
  bounded : ∀ requests s, ∀ c ∈ (answerAll registry receive requests s).2.1,
    ∃ label status, c = Metrics.webhook label status ∧
      (label = "unknown" ∨ (registry.receiver? label).isSome)

theorem ingressLaw (registry : Registry α) (receive : Receive σ α) :
    IngressLaw registry receive := by
  constructor
  · intro name body hname
    refine ⟨{ method := "POST", target := targetOf name, body := body }, ?_, rfl⟩
    simp only [Request.provider?, routeOf_targetOf hname, if_true]
  · exact served_answerAll registry receive
  · exact fun requests s => (served_answerAll registry receive requests s).length_counters
  · exact fun requests s _ hc => (served_answerAll registry receive requests s).labels hc

end Webhook
end Courier
