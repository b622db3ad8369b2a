import Courier.Proofs.Rpc.Execution

/-!
# Outcomes of calls to endpoints

What one outcome means for the rest of a call, by its place among all outcomes, and
what the breaker is told of it.

The main statements are that a failure in transit is followed by another call to an
endpoint, unless the budget is spent or the next attempt does not get that far, and
that the breaker is told of every call to an endpoint once and of nothing else.
-/

namespace Courier
namespace Rpc

variable {α : Type}

/-!
## What the breaker is told
-/

def Call.Mark.report? : Call.Mark α → Option Settlement
  | .settled _ .succeed => some .succeed
  | .settled _ .fail => some .fail
  | _ => none

def reports (marks : List (Nat × Call.Mark α)) : List Settlement :=
  marks.filterMap fun m => m.2.report?

theorem Call.Mark.report?_settled (permit : Permit) (outcome : Except CallError α) :
    (Call.Mark.settled permit (.ofOutcome outcome) : Call.Mark α).report? =
      some (.ofOutcome outcome) := by
  cases outcome with
  | ok value => rfl
  | error e => cases e <;> rfl

theorem Attempt.reports_marks (timeout : Nat) (a : Attempt α) :
    reports (a.marks timeout) = ((a.outcome? timeout).map Settlement.ofOutcome).toList := by
  cases a with
  | refused began => rfl
  | unlocated began permit lookup => rfl
  | called began permit lookup endpoint reply =>
      have hsettled := Call.Mark.report?_settled permit (reply.within timeout)
      simp only [reports, Attempt.marks, Attempt.outcome?, List.filterMap_cons,
        List.filterMap_nil, hsettled]
      rfl

theorem Log.reports_marks (timeout : Nat) (log : List (Attempt α)) :
    reports (Log.marks timeout log) = (Log.outcomes timeout log).map Settlement.ofOutcome := by
  induction log with
  | nil => rfl
  | cons a log ih =>
      have hmarks : Log.marks timeout (a :: log) = a.marks timeout ++ Log.marks timeout log :=
        List.flatMap_cons
      have happend : reports (a.marks timeout ++ Log.marks timeout log) =
          reports (a.marks timeout) ++ reports (Log.marks timeout log) :=
        List.filterMap_append
      rw [hmarks, happend, ih, Attempt.reports_marks]
      cases houtcome : a.outcome? timeout with
      | none => simp [Log.outcomes, houtcome]
      | some outcome => simp [Log.outcomes, houtcome]

/-!
## What follows an outcome
-/

/-- The results of calls whose last attempt has called no endpoint. -/
inductive CutsOff (service : String) : Except Error α → Prop where
  | refused : CutsOff service (.error (.breakerOpen service))
  | unlocated (e : DiscoveryError) : CutsOff service (.error (.discovery e))

/--
What follows a failure in transit, of so many calls to endpoints that are made up to
it and in all: another one, the end of the budget, or an attempt that is cut off.
-/
inductive Followed (cutsOff : Except Error α → Prop) (rules : CallRules) (made all : Nat) :
    Except Error α → Prop where
  | again {result : Except Error α} (more : made < all) :
      Followed cutsOff rules made all result
  | exhausted {causes : Causes} (last : made = rules.retry.attempts) :
      Followed cutsOff rules made all (.error (.transient rules.service made causes))
  | cutOff {result : Except Error α} (more : made < rules.retry.attempts)
      (cut : cutsOff result) : Followed cutsOff rules made all result

namespace Course

variable {rules : CallRules} {plan : Nat → Endpoint → Reply α} {n now : Nat}
  {log : List (Attempt α)} {result : Except Error α}

theorem outcomes_cons_eq_mapIdx {a : Attempt α} {outcome : Except CallError α}
    (calls : a.Calls rules plan n now outcome)
    (hrest : Log.outcomes rules.timeout log =
      (Log.endpoints log).mapIdx fun i endpoint =>
        (plan (n + 1 + i) endpoint).within rules.timeout) :
    Log.outcomes rules.timeout (a :: log) =
      (Log.endpoints (a :: log)).mapIdx fun i endpoint =>
        (plan (n + i) endpoint).within rules.timeout := by
  rw [outcomes_cons calls, hrest]
  cases calls with
  | @mk permit lookup endpoint _ found answer =>
      have hendpoints : Log.endpoints
          (.called now permit lookup endpoint (plan n endpoint) :: log) =
          endpoint :: Log.endpoints log := rfl
      simp only [hendpoints, List.mapIdx_cons, Nat.add_zero, answer, Nat.add_assoc,
        Nat.add_comm 1]

theorem outcomes_eq (h : Course rules plan n now log result) :
    Log.outcomes rules.timeout log =
      (Log.endpoints log).mapIdx fun i endpoint =>
        (plan (n + i) endpoint).within rules.timeout := by
  induction h with
  | refused => rfl
  | unlocated found => rfl
  | answered calls final => exact outcomes_cons_eq_mapIdx calls rfl
  | exhausted calls last => exact outcomes_cons_eq_mapIdx calls rfl
  | again calls more rest ih => exact outcomes_cons_eq_mapIdx calls ih

theorem cutsOff_of_outcomes_eq_nil (h : Course rules plan n now log result)
    (hnil : Log.outcomes rules.timeout log = []) : CutsOff rules.service result := by
  cases h with
  | refused => exact .refused
  | unlocated found => exact .unlocated _
  | answered calls final =>
      rw [outcomes_cons calls] at hnil
      cases hnil
  | exhausted calls last =>
      rw [outcomes_cons calls] at hnil
      cases hnil
  | again calls more rest =>
      rw [outcomes_cons calls] at hnil
      cases hnil

theorem followed_of_transient (h : Course rules plan n now log result) {i : Nat}
    {causes : Causes}
    (hi : (Log.outcomes rules.timeout log)[i]? = some (.error (.transient causes))) :
    Followed (CutsOff rules.service) rules (n + (i + 1))
      (n + (Log.outcomes rules.timeout log).length) result := by
  induction h generalizing i with
  | refused => cases hi
  | unlocated found => cases hi
  | answered calls final =>
      rw [outcomes_cons calls] at hi
      cases i with
      | zero =>
          cases hi
          cases final
      | succ i => cases hi
  | exhausted calls last =>
      rw [outcomes_cons calls] at hi
      cases i with
      | zero => exact .exhausted last
      | succ i => cases hi
  | @again n now a _ log result calls more rest ih =>
      rw [outcomes_cons calls] at hi ⊢
      cases i with
      | zero =>
          cases hrest : Log.outcomes rules.timeout log with
          | nil => exact .cutOff more (rest.cutsOff_of_outcomes_eq_nil hrest)
          | cons outcome others =>
              refine .again ?_
              simp only [List.length_cons]
              omega
      | succ i =>
          have hmade : n + 1 + (i + 1) = n + (i + 1 + 1) := by omega
          have hall : n + 1 + (Log.outcomes rules.timeout log).length =
              n + (Log.outcomes rules.timeout log).length.succ := by omega
          rw [← hmade, List.length_cons, ← hall]
          exact ih hi

theorem last_of_final (h : Course rules plan n now log result) {i : Nat}
    {outcome : Except CallError α} {returned : Except Error α} (hfinal : Final outcome returned)
    (hi : (Log.outcomes rules.timeout log)[i]? = some outcome) :
    i + 1 = (Log.outcomes rules.timeout log).length ∧ result = returned := by
  induction h generalizing i with
  | refused => cases hi
  | unlocated found => cases hi
  | answered calls final =>
      rw [outcomes_cons calls] at hi ⊢
      cases i with
      | zero =>
          cases hi
          cases final <;> cases hfinal <;> exact ⟨rfl, rfl⟩
      | succ i => cases hi
  | exhausted calls last =>
      rw [outcomes_cons calls] at hi
      cases i with
      | zero =>
          cases hi
          cases hfinal
      | succ i => cases hi
  | again calls more rest ih =>
      rw [outcomes_cons calls] at hi ⊢
      cases i with
      | zero =>
          cases hi
          cases hfinal
      | succ i =>
          rcases ih hi with ⟨hlast, hresult⟩
          exact ⟨congrArg Nat.succ hlast, hresult⟩

end Course
end Rpc
end Courier
