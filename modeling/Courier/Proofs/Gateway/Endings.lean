import Courier.Gateway.Exchange
import Courier.Proofs.Rpc.Outcomes

/-!
# Endings of exchanges

An exchange with the gateway ends before there is a response, while the response is
read, or with a complete response. How it ends decides what becomes of the attempt
that made it: whether another one follows, what the breaker is told, and what the
call returns.

Every call retries and counts the exchanges that fail before there is a response or
find the gateway not available, unless its next attempt is refused or finds no
endpoint, and ends with any other complete response.

A response that breaks off is judged by its status alone, so it ends the call like a
complete one. The main statement is that calls retry and count every interrupted
exchange exactly when all responses that break off are of a gateway not available.
-/

namespace Courier
namespace Gateway

open Json (Value Decode Document)
open Rpc (Attempt Call CallError CallRules Course CutsOff Endpoint Final Followed Reply
  Settlement)
open Text (Bytes)

variable {α δ : Type}

/-!
## How exchanges end
-/

/-- How the exchange of an attempt ends. -/
inductive Ending where
  | unsendable (message : String)
  | lost (causes : Causes)
  | timedOut
  /-- The connection was lost after the status and before the end of the response. -/
  | brokeOff (status : UInt16)
  | complete (status : UInt16) (body : Bytes)
deriving DecidableEq, Repr

def Exchange.ending : Exchange → Ending
  | .unsendable message => .unsendable message
  | .lost causes => .lost causes
  | .cutShort status => .brokeOff status
  | .response status body => .complete status body

namespace Ending

/-- How an exchange ends that is given up after a time. -/
def within (timeout : Nat) (x : Option Nat × Exchange) : Ending :=
  if x.1.any fun d => d ≤ timeout then x.2.ending else .timedOut

/-- Whether there was no response, or one with a status of a gateway not available. -/
def isTransient : Ending → Bool
  | .unsendable _ => false
  | .lost _ => true
  | .timedOut => true
  | .brokeOff status => isUnavailable status
  | .complete status _ => isUnavailable status

/-- Whether there was no complete response, or one of a gateway not available. -/
def isInterrupted : Ending → Bool
  | .brokeOff _ => true
  | ending => ending.isTransient

/-- What the caller is told of a complete response of an available gateway. -/
def answer? (decode : Decode α) : Ending → Option (Except Rpc.Error α)
  | .complete status body =>
    if isUnavailable status then none
    else if isSuccess status then
      match Document.ofBytes? body >>= decode with
      | some x => some (.ok x)
      | none => some (.error (.application (some status) invalidBody))
    else some (.error (.application (some status) (Text.Utf8.decodeLossy body)))
  | _ => none

end Ending

theorem Ending.isTransient_of_isInterrupted {ending : Ending}
    (h : ending.isInterrupted = true)
    (hbroke : ∀ status, ending = .brokeOff status → isUnavailable status = true) :
    ending.isTransient = true := by
  cases ending with
  | unsendable message => cases h
  | lost causes => rfl
  | timedOut => rfl
  | brokeOff status => exact hbroke status rfl
  | complete status body => exact h

theorem isSuccess_of_isUnavailable {status : UInt16} (h : isUnavailable status = true) :
    isSuccess status = false := by
  simp only [isUnavailable, Bool.or_eq_true, beq_iff_eq] at h
  rcases h with (rfl | rfl) | rfl <;> rfl

theorem Exchange.exists_refusal {status : UInt16} (h : isUnavailable status = true)
    (text : String) : ∃ causes, Exchange.refusal status text = .transient causes :=
  ⟨_, if_pos h⟩

/-- What an attempt comes to, of an exchange that is given up after a time. -/
def outcomeWithin (timeout : Nat) (decode : Decode α) (x : Option Nat × Exchange) :
    Except CallError α :=
  Reply.within timeout ⟨x.1, x.2.outcome decode⟩

/-- An exchange that comes in time ends and counts as it is, any other one as timed out. -/
theorem within_cases (timeout : Nat) (decode : Decode α) (x : Option Nat × Exchange) :
    Ending.within timeout x = x.2.ending ∧
        outcomeWithin timeout decode x = x.2.outcome decode ∨
      Ending.within timeout x = .timedOut ∧
        ∃ causes, outcomeWithin timeout decode x = .error (.transient causes) := by
  unfold Ending.within outcomeWithin Reply.within
  split
  · exact .inl ⟨rfl, rfl⟩
  · exact .inr ⟨rfl, _, rfl⟩

theorem Exchange.outcome_of_isTransient (decode : Decode α) {exchange : Exchange}
    (h : exchange.ending.isTransient = true) :
    ∃ causes, exchange.outcome decode = .error (.transient causes) := by
  cases exchange with
  | unsendable message => cases h
  | lost causes => exact ⟨causes, rfl⟩
  | cutShort status =>
      rcases exists_refusal h "" with ⟨causes, hcauses⟩
      simp only [outcome, isSuccess_of_isUnavailable h, hcauses]
      exact ⟨causes, rfl⟩
  | response status body =>
      rcases exists_refusal h (Text.Utf8.decodeLossy body) with ⟨causes, hcauses⟩
      simp only [outcome, isSuccess_of_isUnavailable h, hcauses]
      exact ⟨causes, rfl⟩

theorem Exchange.final_of_answer? {decode : Decode α} {exchange : Exchange}
    {answer : Except Rpc.Error α} (h : exchange.ending.answer? decode = some answer) :
    Final (exchange.outcome decode) answer := by
  cases exchange with
  | unsendable message => cases h
  | lost causes => cases h
  | cutShort status => cases h
  | response status body =>
      simp only [ending, Ending.answer?] at h
      by_cases hunavailable : isUnavailable status = true
      · rw [if_pos hunavailable] at h
        cases h
      rw [if_neg hunavailable] at h
      by_cases hsuccess : isSuccess status = true
      · rw [if_pos hsuccess] at h
        simp only [outcome, if_pos hsuccess]
        cases hdecode : Document.ofBytes? body >>= decode with
        | none =>
            rw [hdecode] at h
            cases h
            exact .application _ _
        | some value =>
            rw [hdecode] at h
            cases h
            exact .ok value
      · rw [if_neg hsuccess] at h
        cases h
        simp only [outcome, if_neg hsuccess, refusal, if_neg hunavailable]
        exact .application _ _

theorem Exchange.final_of_brokeOff (decode : Decode α) {exchange : Exchange} {status : UInt16}
    (h : exchange.ending = .brokeOff status) (havailable : isUnavailable status = false) :
    ∃ message, Final (exchange.outcome decode)
      (.error (.application (some status) message)) := by
  cases exchange with
  | unsendable message => cases h
  | lost causes => cases h
  | response status body => cases h
  | cutShort status =>
      cases h
      simp only [outcome]
      split
      · exact ⟨_, .application _ _⟩
      · rw [refusal, havailable, if_neg Bool.false_ne_true]
        exact ⟨_, .application _ _⟩

theorem exists_transient_of_isTransient {timeout : Nat} (decode : Decode α)
    {x : Option Nat × Exchange} (h : (Ending.within timeout x).isTransient = true) :
    ∃ causes, outcomeWithin timeout decode x = .error (.transient causes) := by
  rcases within_cases timeout decode x with ⟨hending, houtcome⟩ | ⟨-, hcauses⟩
  · rw [houtcome]
    rw [hending] at h
    exact x.2.outcome_of_isTransient decode h
  · exact hcauses

theorem final_of_answer? {timeout : Nat} {decode : Decode α} {x : Option Nat × Exchange}
    {answer : Except Rpc.Error α} (h : (Ending.within timeout x).answer? decode = some answer) :
    Final (outcomeWithin timeout decode x) answer := by
  rcases within_cases timeout decode x with ⟨hending, houtcome⟩ | ⟨hending, -⟩
  · rw [houtcome]
    rw [hending] at h
    exact Exchange.final_of_answer? h
  · rw [hending] at h
    cases h

/-- A response that breaks off after the status of an available gateway ends the call. -/
theorem exists_final_of_brokeOff {timeout : Nat} (decode : Decode α)
    {x : Option Nat × Exchange} {status : UInt16}
    (h : Ending.within timeout x = .brokeOff status) (havailable : isUnavailable status = false) :
    ∃ message, Final (outcomeWithin timeout decode x)
      (.error (.application (some status) message)) := by
  rcases within_cases timeout decode x with ⟨hending, houtcome⟩ | ⟨hending, -⟩
  · rw [houtcome]
    exact x.2.final_of_brokeOff decode (hending.symm.trans h) havailable
  · rw [hending] at h
    cases h

/-!
## What endings decide
-/

/--
How the endings of exchanges decide the course of a call, given which of them fail
an attempt, and with which results a call may be cut off before its budget is spent.
-/
structure Classifies (fails : Ending → Bool) (cutsOff : Except Rpc.Error α → Prop)
    (rules : CallRules) (decode : Decode α) (endings : List Ending) (told : List Settlement)
    (result : Except Rpc.Error α) : Prop where
  bounded : endings.length ≤ rules.retry.attempts
  told_once : told.length = endings.length
  counted : ∀ (i : Nat) (ending : Ending), endings[i]? = some ending → fails ending = true →
    told[i]? = some .fail
  retried : ∀ (i : Nat) (ending : Ending), endings[i]? = some ending → fails ending = true →
    Followed cutsOff rules (i + 1) endings.length result
  uncounted : ∀ (i : Nat) (ending : Ending) (answer : Except Rpc.Error α),
    endings[i]? = some ending → ending.answer? decode = some answer → told[i]? = some .succeed
  ended : ∀ (i : Nat) (ending : Ending) (answer : Except Rpc.Error α),
    endings[i]? = some ending → ending.answer? decode = some answer →
      i + 1 = endings.length ∧ result = answer

theorem Classifies.of_imp {fails fails' : Ending → Bool} {cutsOff : Except Rpc.Error α → Prop}
    {rules : CallRules} {decode : Decode α} {endings : List Ending} {told : List Settlement}
    {result : Except Rpc.Error α}
    (h : Classifies fails cutsOff rules decode endings told result)
    (himp : ∀ ending ∈ endings, fails' ending = true → fails ending = true) :
    Classifies fails' cutsOff rules decode endings told result := by
  refine ⟨h.bounded, h.told_once, ?_, ?_, h.uncounted, h.ended⟩
  · intro i ending hi hfails
    exact h.counted i ending hi (himp ending (List.mem_of_getElem? hi) hfails)
  · intro i ending hi hfails
    exact h.retried i ending hi (himp ending (List.mem_of_getElem? hi) hfails)

section Course

variable {rules : CallRules} {network : Network} {m : Method} {body : Value}
  {headers : List (String × String)} {decode : Decode α} {now : Nat} {log : List (Attempt α)}
  {result : Except Rpc.Error α}

theorem outcomes_getElem?
    (h : Course rules (replies network m body headers decode) 0 now log result) (i : Nat) :
    (Rpc.Log.outcomes rules.timeout log)[i]? = (Rpc.Log.endpoints log)[i]?.map fun endpoint =>
      outcomeWithin rules.timeout decode
        (network i ⟨endpoint.url m.path, headers, body.toBytes⟩) := by
  rw [h.outcomes_eq, List.getElem?_mapIdx, Nat.zero_add]
  rfl

theorem length_outcomes_eq
    (h : Course rules (replies network m body headers decode) 0 now log result) :
    (Rpc.Log.outcomes rules.timeout log).length = (Rpc.Log.endpoints log).length := by
  rw [h.outcomes_eq, List.length_mapIdx]

theorem exists_exchange_of_course
    (h : Course rules (replies network m body headers decode) 0 now log result) {i : Nat}
    {ending : Ending}
    (hi : ((Rpc.Log.endpoints log).mapIdx fun i endpoint => Ending.within rules.timeout
      (network i ⟨endpoint.url m.path, headers, body.toBytes⟩))[i]? = some ending) :
    ∃ x, Ending.within rules.timeout x = ending ∧
      (Rpc.Log.outcomes rules.timeout log)[i]? = some (outcomeWithin rules.timeout decode x) := by
  rw [List.getElem?_mapIdx, Option.map_eq_some_iff] at hi
  rcases hi with ⟨endpoint, hendpoint, hending⟩
  refine ⟨_, hending, ?_⟩
  rw [outcomes_getElem? h, hendpoint, Option.map_some]

theorem ended_of_brokeOff
    (h : Course rules (replies network m body headers decode) 0 now log result) {i : Nat}
    {status : UInt16}
    (hi : ((Rpc.Log.endpoints log).mapIdx fun i endpoint => Ending.within rules.timeout
      (network i ⟨endpoint.url m.path, headers, body.toBytes⟩))[i]? = some (.brokeOff status))
    (havailable : isUnavailable status = false) :
    i + 1 = (Rpc.Log.endpoints log).length ∧
      ∃ message, result = .error (.application (some status) message) := by
  rcases exists_exchange_of_course h hi with ⟨x, hx, houtcome⟩
  rcases exists_final_of_brokeOff decode hx havailable with ⟨message, hfinal⟩
  rcases h.last_of_final hfinal houtcome with ⟨hlast, hresult⟩
  rw [length_outcomes_eq h] at hlast
  exact ⟨hlast, message, hresult⟩

theorem classifies_of_course
    (h : Course rules (replies network m body headers decode) 0 now log result) :
    Classifies Ending.isTransient (CutsOff rules.service) rules decode
      ((Rpc.Log.endpoints log).mapIdx fun i endpoint =>
        .within rules.timeout (network i ⟨endpoint.url m.path, headers, body.toBytes⟩))
      (Rpc.reports (Rpc.Log.marks rules.timeout log)) result := by
  have hpos : 0 < rules.retry.attempts :=
    Nat.lt_of_lt_of_le Nat.zero_lt_one (Nat.le_max_right _ 1)
  have hlength := length_outcomes_eq h
  have hbounded := h.length_outcomes hpos
  rw [Rpc.Log.reports_marks]
  constructor
  · rw [List.length_mapIdx, ← hlength]
    omega
  · rw [List.length_map, List.length_mapIdx, hlength]
  · intro i ending hi hfails
    rcases exists_exchange_of_course h hi with ⟨x, rfl, houtcome⟩
    rcases exists_transient_of_isTransient decode hfails with ⟨causes, hcauses⟩
    rw [List.getElem?_map, houtcome, hcauses]
    rfl
  · intro i ending hi hfails
    rcases exists_exchange_of_course h hi with ⟨x, rfl, houtcome⟩
    rcases exists_transient_of_isTransient decode hfails with ⟨causes, hcauses⟩
    rw [hcauses] at houtcome
    have hfollowed := h.followed_of_transient houtcome
    rw [Nat.zero_add, Nat.zero_add, hlength] at hfollowed
    rw [List.length_mapIdx]
    exact hfollowed
  · intro i ending answer hi hanswer
    rcases exists_exchange_of_course h hi with ⟨x, rfl, houtcome⟩
    have hfinal := final_of_answer? hanswer
    rw [List.getElem?_map, houtcome]
    generalize outcomeWithin rules.timeout decode x = outcome at hfinal
    cases hfinal <;> rfl
  · intro i ending answer hi hanswer
    rcases exists_exchange_of_course h hi with ⟨x, rfl, houtcome⟩
    rw [List.length_mapIdx, ← hlength]
    exact h.last_of_final (final_of_answer? hanswer) houtcome

end Course

namespace Client

variable (c : Client δ) (m : Method) (body : Value) (headers : List (String × String))
  (decode : Decode α)

def made : Call α :=
  (Call.execute c.rules c.resolve (replies c.network m body headers decode) c.now c.shared).1

/-- How the exchanges of a call end, one for each endpoint that it tried. -/
def endings : List Ending :=
  (c.made m body headers decode).tried.reverse.mapIdx fun i endpoint =>
    .within c.rules.timeout (c.network i ⟨endpoint.url m.path, headers, body.toBytes⟩)

/--
A call keeps a law of classification: the endings of its exchanges decide what the
marks that it leaves tell the breaker, and what it returns.
-/
def Keeps (fails : Ending → Bool) (cutsOff : Except Rpc.Error α → Prop) : Prop :=
  ∃ (k : Nat) (marks : List (Nat × Call.Mark α)),
    Call.Trace c.rules c.resolve (replies c.network m body headers decode) k c.now c.shared {}
      marks (c.call m body headers decode).2.now (c.call m body headers decode).2.shared
      (c.made m body headers decode) ∧
    Classifies fails cutsOff c.rules decode (c.endings m body headers decode)
      (Rpc.reports marks) (c.call m body headers decode).1

theorem exists_course_call : ∃ (k : Nat) (log : List (Attempt α)),
    Call.Trace c.rules c.resolve (replies c.network m body headers decode) k c.now c.shared {}
      (Rpc.Log.marks c.rules.timeout log) (c.call m body headers decode).2.now
      (c.call m body headers decode).2.shared (c.made m body headers decode) ∧
    Course c.rules (replies c.network m body headers decode) 0 c.now log
      (c.call m body headers decode).1 ∧
    c.endings m body headers decode = (Rpc.Log.endpoints log).mapIdx fun i endpoint =>
      .within c.rules.timeout (c.network i ⟨endpoint.url m.path, headers, body.toBytes⟩) := by
  rcases Call.exists_returns_execute c.rules c.resolve
    (replies c.network m body headers decode) c.now c.shared with
    ⟨call, w', later, k, log, result, hexecute, hreturns⟩
  have hmade : c.made m body headers decode = call := by rw [made, hexecute]
  have hcall : c.call m body headers decode =
      (result, { c with shared := w', now := later }) := by
    simp only [Client.call, hexecute, hreturns.result?_eq, Option.getD_some]
  refine ⟨k, log, ?_, ?_, ?_⟩
  · rw [hmade, hcall]
    exact hreturns.trace
  · rw [hcall]
    exact hreturns.course
  · rw [endings, hmade, hreturns.endpoints_eq]

/--
A failure before there is a response, and a response of a gateway that is not
available, are retried and counted; any other complete response ends the call.
-/
theorem keeps_isTransient :
    c.Keeps m body headers decode Ending.isTransient (CutsOff c.rules.service) := by
  rcases exists_course_call c m body headers decode with ⟨k, log, htrace, hcourse, hendings⟩
  refine ⟨k, Rpc.Log.marks c.rules.timeout log, htrace, ?_⟩
  rw [hendings]
  exact classifies_of_course hcourse

/--
Interrupted exchanges are retried and counted, and complete responses of an available
gateway end the call, exactly when no response breaks off after another status than that
of a gateway not available.
-/
theorem keeps_isInterrupted_iff :
    c.Keeps m body headers decode Ending.isInterrupted (CutsOff c.rules.service) ↔
      ∀ status, .brokeOff status ∈ c.endings m body headers decode →
        isUnavailable status = true := by
  constructor
  · rintro ⟨_, marks, -, hclassifies⟩ status hbroke
    refine eq_true_of_ne_false fun havailable => ?_
    rcases List.mem_iff_getElem?.mp hbroke with ⟨i, hi⟩
    have hfollowed := hclassifies.retried i _ hi rfl
    rcases exists_course_call c m body headers decode with ⟨-, log, -, hcourse, hendings⟩
    rw [hendings] at hi hfollowed
    rcases ended_of_brokeOff hcourse hi havailable with ⟨hlast, message, hresult⟩
    -- Nothing follows the last exchange of a call that returns an application error.
    rw [hresult, List.length_mapIdx, hlast] at hfollowed
    cases hfollowed with
    | again more => exact Nat.lt_irrefl _ more
    | cutOff more cut => cases cut
  · intro hbroke
    rcases keeps_isTransient c m body headers decode with ⟨k, marks, htrace, hclassifies⟩
    refine ⟨k, marks, htrace, hclassifies.of_imp ?_⟩
    intro ending hmem hinterrupted
    refine Ending.isTransient_of_isInterrupted hinterrupted ?_
    rintro status rfl
    exact hbroke status hmem

/-- A client of a gateway that answers every post at once in the same way. -/
def steady (exchange : Exchange) : Client Unit where
  rules := { service := serviceName, retry := { maxAttempts := 2 } }
  resolve := .atOnce fun lookups _ => (.ok [⟨"http://gw"⟩], lookups)
  shared := ⟨{ settings := {} }, ()⟩
  network := fun _ _ => (some 0, exchange)

/--
A response that breaks off after a good status is neither retried nor counted, but told
as one that does not decode.
-/
theorem not_keeps_cutShort :
    ¬ (steady (.cutShort 200)).Keeps .inspect (Empty.encode {}) [] Authorization.decode
      Ending.isInterrupted (CutsOff serviceName) := by
  rintro ⟨k, marks, -, h⟩
  have hresult : ((steady (.cutShort 200)).call .inspect (Empty.encode {}) []
      Authorization.decode).1 = .error (.application (some 200) invalidBody) := rfl
  have hfollowed := h.retried 0 _ rfl rfl
  rw [hresult] at hfollowed
  cases hfollowed with
  | again more => exact absurd more (by decide)
  | cutOff more cut => cases cut

end Client
end Gateway
end Courier
