import Courier.Rpc.Call
import Courier.Proofs.Rpc.Breakers

/-!
# Moves of a call

All that one move of a call can be, with the mark it leaves on what is outside of
the call: the breakers, the lookups and the endpoints.

A trace is a run of a call that has everything to itself: its moves and waits in
turn, with the marks of its moves and their times.
-/

namespace Courier
namespace Rpc

variable {α δ : Type}

/-- How a permit is given back after an outcome: an answer of any kind is a success. -/
def Settlement.ofOutcome : Except CallError α → Settlement
  | .ok _ => .succeed
  | .error (.application _ _) => .succeed
  | .error (.transient _) => .fail

namespace Call

def stageAfter (rules : CallRules) (now attempts : Nat) : Except CallError α → Stage α
  | .ok value => .finished (.ok value)
  | .error (.application status message) => .finished (.error (.application status message))
  | .error (.transient causes) =>
    if rules.retry.attempts ≤ attempts then
      .finished (.error (.transient rules.service attempts causes))
    else
      .pausing (now + (rules.retry.backoff attempts (rules.draw attempts)).ceilMilliseconds)

theorem settle_eq (rules : CallRules) (now : Nat) (permit : Permit)
    (outcome : Except CallError α) (w : Shared δ) (c : Call α) :
    settle rules now permit outcome w c =
      ({ c with stage := stageAfter rules now c.attempts outcome },
        { w with breakers := (Settlement.ofOutcome outcome).apply w.breakers now permit }) := by
  cases outcome with
  | ok value => rfl
  | error e =>
      cases e with
      | application status message => rfl
      | transient causes =>
          by_cases hlast : rules.retry.attempts ≤ c.attempts
          · simp [settle, stageAfter, hlast, Settlement.ofOutcome, Settlement.apply]
          · simp [settle, stageAfter, hlast, Settlement.ofOutcome, Settlement.apply]

/-!
## Single moves
-/

inductive Mark (α : Type) where
  | refused
  | admitted (permit : Permit) (lookup : Lookup)
  | called (endpoint : Endpoint) (reply : Reply α)
  | settled (permit : Permit) (how : Settlement)

/-- All that a call can do at a time; the end of a pause leaves no mark. -/
inductive Move (rules : CallRules) (resolve : Resolve δ) (plan : Nat → Endpoint → Reply α)
    (now : Nat) (w : Shared δ) (c : Call α) :
    Option (Mark α) → Shared δ → Call α → Prop where
  | refused {b : Breakers} (stage : c.stage = .ready)
      (ask : w.breakers.acquire now rules.service = (none, b)) :
      Move rules resolve plan now w c (some .refused) { w with breakers := b }
        { c with
          attempts := c.attempts + 1
          stage := .finished (.error (.breakerOpen rules.service)) }
  | admitted {b : Breakers} {permit : Permit} {lookup : Lookup} {lookups : δ}
      (stage : c.stage = .ready)
      (ask : w.breakers.acquire now rules.service = (some permit, b))
      (look : resolve w.lookups rules.service = (lookup, lookups)) :
      Move rules resolve plan now w c (some (.admitted permit lookup)) ⟨b, lookups⟩
        { c with attempts := c.attempts + 1, stage := .looking permit now lookup }
  | unlocated {permit : Permit} {since : Nat} {lookup : Lookup} {e : DiscoveryError}
      (stage : c.stage = .looking permit since lookup) (due : since + lookup.after ≤ now)
      (found : endpointOf rules.service lookup.found = .error e) :
      Move rules resolve plan now w c (some (.settled permit .release))
        { w with breakers := Settlement.release.apply w.breakers now permit }
        { c with stage := .finished (.error (.discovery e)) }
  | called {permit : Permit} {since : Nat} {lookup : Lookup} {endpoint : Endpoint}
      (stage : c.stage = .looking permit since lookup) (due : since + lookup.after ≤ now)
      (found : endpointOf rules.service lookup.found = .ok endpoint) :
      Move rules resolve plan now w c
        (some (.called endpoint (plan c.tried.length endpoint))) w
        { c with
          tried := endpoint :: c.tried
          stage := .calling permit now (plan c.tried.length endpoint) }
  | settled {permit : Permit} {since : Nat} {reply : Reply α} {outcome : Except CallError α}
      (stage : c.stage = .calling permit since reply)
      (answer : answerBy rules.timeout since now reply = some outcome) :
      Move rules resolve plan now w c (some (.settled permit (.ofOutcome outcome)))
        { w with breakers := (Settlement.ofOutcome outcome).apply w.breakers now permit }
        { c with stage := stageAfter rules now c.attempts outcome }
  | resumed {resumeAt : Nat} (stage : c.stage = .pausing resumeAt) (due : resumeAt ≤ now) :
      Move rules resolve plan now w c none w { c with stage := .ready }

variable {rules : CallRules} {resolve : Resolve δ} {plan : Nat → Endpoint → Reply α}
  {now : Nat} {w w' : Shared δ} {c c' : Call α}

theorem step?_of_move {mark : Option (Mark α)} (h : Move rules resolve plan now w c mark w' c') :
    step? rules resolve plan now w c = some (c', w') := by
  cases h with
  | refused stage hask => simp only [step?, stage, ask, hask]
  | admitted stage hask look => simp only [step?, stage, ask, hask, look]
  | unlocated stage due found =>
      simp only [step?, stage, if_pos due, connect, found]
      rfl
  | called stage due found => simp only [step?, stage, if_pos due, connect, found]
  | settled stage answer => simp only [step?, stage, answer, Option.map_some, settle_eq]
  | resumed stage due => simp only [step?, stage, if_pos due]

theorem exists_move_of_step? (h : step? rules resolve plan now w c = some (c', w')) :
    ∃ mark, Move rules resolve plan now w c mark w' c' := by
  unfold step? at h
  cases stage : c.stage with
  | ready =>
      simp only [stage, Option.some.injEq] at h
      unfold ask at h
      cases hask : w.breakers.acquire now rules.service with
      | mk permit b =>
          cases permit with
          | none =>
              simp only [hask] at h
              cases h
              exact ⟨_, .refused stage hask⟩
          | some permit =>
              cases hlook : resolve w.lookups rules.service with
              | mk lookup lookups =>
                  simp only [hask, hlook] at h
                  cases h
                  exact ⟨_, .admitted stage hask hlook⟩
  | looking permit since lookup =>
      by_cases due : since + lookup.after ≤ now
      · simp only [stage, if_pos due, Option.some.injEq] at h
        unfold connect at h
        cases found : endpointOf rules.service lookup.found with
        | error e =>
            simp only [found] at h
            cases h
            exact ⟨_, .unlocated stage due found⟩
        | ok endpoint =>
            simp only [found] at h
            cases h
            exact ⟨_, .called stage due found⟩
      · simp only [stage, if_neg due] at h
        cases h
  | calling permit since reply =>
      simp only [stage, Option.map_eq_some_iff] at h
      rcases h with ⟨outcome, answer, h⟩
      rw [settle_eq] at h
      cases h
      exact ⟨_, .settled stage answer⟩
  | pausing resumeAt =>
      by_cases due : resumeAt ≤ now
      · simp only [stage, if_pos due] at h
        cases h
        exact ⟨_, .resumed stage due⟩
      · simp only [stage, if_neg due] at h
        cases h
  | finished result =>
      simp only [stage] at h
      cases h

/-!
## Runs of a call alone
-/

/-- A run of so many moves and waits, with the marks that its moves leave. -/
inductive Trace (rules : CallRules) (resolve : Resolve δ) (plan : Nat → Endpoint → Reply α) :
    Nat → Nat → Shared δ → Call α → List (Nat × Mark α) → Nat → Shared δ → Call α → Prop where
  | done {now : Nat} {w : Shared δ} {c : Call α} : Trace rules resolve plan 0 now w c [] now w c
  | move {k now later : Nat} {w w₁ w' : Shared δ} {c c₁ c' : Call α} {mark : Option (Mark α)}
      {marks : List (Nat × Mark α)} (first : Move rules resolve plan now w c mark w₁ c₁)
      (rest : Trace rules resolve plan k now w₁ c₁ marks later w' c') :
      Trace rules resolve plan (k + 1) now w c
        ((mark.map fun m => (now, m)).toList ++ marks) later w' c'
  | wait {k now t later : Nat} {w w' : Shared δ} {c c' : Call α} {marks : List (Nat × Mark α)}
      (still : step? rules resolve plan now w c = none) (wake : wakeTime rules c = some t)
      (rest : Trace rules resolve plan k (max now t) w c marks later w' c') :
      Trace rules resolve plan (k + 1) now w c marks later w' c'

theorem Trace.trans {k k' later latest : Nat} {w'' : Shared δ} {c'' : Call α}
    {marks marks' : List (Nat × Mark α)}
    (first : Trace rules resolve plan k now w c marks later w' c')
    (second : Trace rules resolve plan k' later w' c' marks' latest w'' c'') :
    Trace rules resolve plan (k + k') now w c (marks ++ marks') latest w'' c'' := by
  induction first with
  | done =>
      rw [Nat.zero_add]
      exact second
  | move first _ ih =>
      rw [List.append_assoc, Nat.add_right_comm]
      exact .move first (ih second)
  | wait still wake _ ih =>
      rw [Nat.add_right_comm]
      exact .wait still wake (ih second)

theorem alone_of_trace {k later : Nat} {marks : List (Nat × Mark α)}
    (h : Trace rules resolve plan k now w c marks later w' c') (fuel : Nat) :
    alone rules resolve plan (k + fuel) now w c = alone rules resolve plan fuel later w' c' := by
  induction h with
  | done => rw [Nat.zero_add]
  | move first _ ih =>
      rw [Nat.add_right_comm, alone, step?_of_move first]
      exact ih
  | wait still wake _ ih =>
      rw [Nat.add_right_comm, alone, still]
      simp only [wake]
      exact ih

theorem alone_of_finished {result : Except Error α} (h : c.stage = .finished result)
    (fuel : Nat) : alone rules resolve plan fuel now w c = (c, w, now) := by
  cases fuel with
  | zero => rfl
  | succ fuel => simp only [alone, step?, wakeTime, h]

end Call
end Rpc
end Courier
