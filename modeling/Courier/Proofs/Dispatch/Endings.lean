import Courier.Proofs.Dispatch.Retries
import Courier.Proofs.Dispatch.Settling

/-!
# What handling comes to

From each moment on, handling without shutdown comes to one end, and at whatever time it began it
comes to the end of the delivery that is handled by itself: `ends_handle`. So parcels that are
handled in turn have the outcomes that each has alone, with the adapters that the others left.
-/

namespace Courier
namespace Dispatch

open Bus (Copy Parcel)
open Provider (Adapter Handle Registry)

namespace Stage

section Ends

variable {σ : Type} (settings : Settings) (send : Send σ) (job : Job)

/-- From a time and a stage on, handling comes to an outcome at a further time. -/
inductive Ends : Nat → σ → Stage → Outcome → σ → Nat → Prop where
  | finished {now : Nat} {s : σ} {o : Outcome} : Ends now s (.finished o) o s now
  | moves {now t : Nat} {s s' s'' : σ} {stage stage' : Stage} {o : Outcome}
      (step : step? settings send job now false s stage = some (stage', s'))
      (further : Ends now s' stage' o s'' t) : Ends now s stage o s'' t
  | waits {now wake t : Nat} {s s' : σ} {stage : Stage} {o : Outcome}
      (still : step? settings send job now false s stage = none)
      (wakes : wakeTime settings stage = some wake) (further : Ends wake s stage o s' t) :
      Ends now s stage o s' t

variable {settings send job}

theorem step?_eq_none_iff {now : Nat} {s : σ} {stage : Stage} :
    step? settings send job now false s stage = none ↔
      ∀ wake, wakeTime settings stage = some wake → now < wake := by
  cases stage with
  | ready attempt => simp [step?, wakeTime]
  | finished o => simp [step?, wakeTime]
  | pausing attempt resumeAt => simp [step?, wakeTime]
  | sending attempt since answer =>
      simp only [step?, Option.map_eq_none_iff, wakeTime, Option.some.injEq, forall_eq']
      constructor
      · intro hnone
        apply Nat.lt_of_not_le
        intro hle
        unfold answerBy at hnone
        split at hnone
        · cases hnone
        · rw [if_pos (by omega)] at hnone
          cases hnone
      · exact answerBy_of_lt

variable {now t : Nat} {s s' : σ} {stage : Stage} {o : Outcome}

theorem step?_eq_none {wake : Nat} (hwake : wakeTime settings stage = some wake)
    (hnow : now < wake) : step? settings send job now false s stage = none := by
  refine step?_eq_none_iff.mpr fun wake' hwake' => ?_
  cases hwake.symm.trans hwake'
  exact hnow

theorem Ends.le (h : Ends settings send job now s stage o s' t) : now ≤ t := by
  induction h with
  | finished => exact Nat.le_refl _
  | moves _ _ ih => exact ih
  | waits still wakes _ ih =>
      exact Nat.le_trans (Nat.le_of_lt (step?_eq_none_iff.mp still _ wakes)) ih

theorem Ends.eq_of_finished {o' : Outcome}
    (h : Ends settings send job now s (.finished o') o s' t) : o = o' ∧ s' = s ∧ t = now := by
  cases h with
  | finished => exact ⟨rfl, rfl, rfl⟩
  | moves step _ => cases step
  | waits _ wakes _ => cases wakes

theorem Ends.step {stage' : Stage} {s'' : σ} (h : Ends settings send job now s stage o s'' t)
    (hstep : step? settings send job now false s stage = some (stage', s')) :
    Ends settings send job now s' stage' o s'' t := by
  cases h with
  | finished => cases hstep
  | moves step further =>
      cases hstep.symm.trans step
      exact further
  | waits still _ _ =>
      rw [hstep] at still
      cases still

theorem Ends.pass {time wake : Nat} (h : Ends settings send job now s stage o s' t)
    (hwake : wakeTime settings stage = some wake) (hnow : now < wake) (hdue : time ≤ wake) :
    Ends settings send job time s stage o s' t := by
  cases h with
  | finished => cases hwake
  | moves step _ =>
      rw [step?_eq_none hwake hnow] at step
      cases step
  | waits still wakes further =>
      cases hwake.symm.trans wakes
      rcases Nat.lt_or_eq_of_le hdue with hbefore | rfl
      · exact .waits (step?_eq_none hwake hbefore) wakes further
      · exact further

theorem Ends.wake_le {wake : Nat} (h : Ends settings send job now s stage o s' t)
    (hwake : wakeTime settings stage = some wake) : wake ≤ t := by
  cases h with
  | finished => cases hwake
  | moves step further =>
      apply Nat.le_of_not_lt
      intro hlate
      rw [step?_eq_none hwake (Nat.lt_of_le_of_lt further.le hlate)] at step
      cases step
  | waits _ wakes further =>
      cases hwake.symm.trans wakes
      exact further.le

theorem ends_alone {fuel : Nat}
    (h : alone settings send job none fuel now s stage = (.finished o, s', t)) :
    Ends settings send job now s stage o s' t := by
  induction fuel generalizing now s stage with
  | zero =>
      cases h
      exact .finished
  | succ fuel ih =>
      have hnever : (none : Option Nat).any (· ≤ now) = false := rfl
      simp only [alone, hnever] at h
      cases hstep : step? settings send job now false s stage with
      | some next =>
          rw [hstep] at h
          exact .moves hstep (ih h)
      | none =>
          rw [hstep] at h
          cases hwake : wakeTime settings stage with
          | none =>
              simp only [hwake] at h
              cases h
              exact .finished
          | some wake =>
              have hlater := Nat.le_of_lt (step?_eq_none_iff.mp hstep wake hwake)
              simp only [hwake, Option.filter_none, Option.map_none, Option.getD_none,
                Nat.max_eq_right hlater] at h
              exact .waits hstep hwake (ih h)

/-!
## At another time
-/

def later (ms : Nat) : Stage → Stage
  | .ready attempt => .ready attempt
  | .sending attempt since answer => .sending attempt (since + ms) answer
  | .pausing attempt resumeAt => .pausing attempt (resumeAt + ms)
  | .finished o => .finished o

theorem afterAttempt_later (settings : Settings) (now ms : Nat) (job : Job) (attempt : Nat)
    (result : Except Unit Provider.Outcome) :
    afterAttempt settings (now + ms) job attempt result =
      (afterAttempt settings now job attempt result).later ms := by
  have hfailure : ∀ failure, afterFailure settings (now + ms) job attempt failure =
      (afterFailure settings now job attempt failure).later ms := by
    intro failure
    unfold afterFailure
    split
    · simp only [later]
      rw [Nat.add_right_comm]
    · rfl
  cases result with
  | error late => exact hfailure _
  | ok outcome =>
      cases outcome with
      | success => rfl
      | failure e => exact hfailure _
      | panic reason => rfl

theorem answerBy_later (timeout since now ms : Nat) (a : Provider.Answer) :
    answerBy timeout (since + ms) (now + ms) a = answerBy timeout since now a := by
  unfold answerBy
  rw [Nat.add_right_comm since ms a.after, Nat.add_right_comm since ms timeout]
  simp only [Nat.add_le_add_iff_right]

theorem step?_later (now ms : Nat) (s : σ) (stage : Stage) :
    step? settings send job (now + ms) false s (stage.later ms) =
      (step? settings send job now false s stage).map fun next => (next.1.later ms, next.2) := by
  cases stage with
  | ready attempt => rfl
  | finished o => rfl
  | pausing attempt resumeAt =>
      simp only [later, step?, Nat.add_le_add_iff_right, Bool.false_eq_true, if_false]
      split <;> rfl
  | sending attempt since answer =>
      have hsame : later ms (.sending attempt since answer) =
          .sending attempt (since + ms) answer := rfl
      simp only [hsame, step?, answerBy_later, Option.map_map]
      congr 1
      funext result
      simp only [Function.comp_apply, afterAttempt_later]

theorem wakeTime_later {wake : Nat} (ms : Nat)
    (hstill : step? settings send job now false s stage = none)
    (h : wakeTime settings stage = some wake) :
    wakeTime settings (stage.later ms) = some (wake + ms) := by
  cases stage with
  | ready attempt => cases hstill
  | finished o => cases h
  | pausing attempt resumeAt =>
      cases h
      rfl
  | sending attempt since answer =>
      cases h
      simp only [later, wakeTime]
      rw [Nat.add_right_comm]

/-- Handling takes the same way at any time. -/
theorem Ends.later (h : Ends settings send job now s stage o s' t) (ms : Nat) :
    Ends settings send job (now + ms) s (stage.later ms) o s' (t + ms) := by
  induction h with
  | finished => exact .finished
  | @moves now t s s' s'' stage stage' o step _ ih =>
      refine .moves ?_ ih
      rw [step?_later, step]
      rfl
  | @waits now wake t s s' stage o still wakes _ ih =>
      refine .waits ?_ (wakeTime_later ms still wakes) ih
      rw [step?_later, still]
      rfl

end Ends

end Stage

section Handling

variable {σ : Type} {registry : Registry Handle} (settings : Settings) (send : Send σ)
  {clock : Int64} {op : Operation} {d : Bus.Delivery} (adapters : σ)

/-- Whenever handling begins, it comes to what the delivery comes to by itself. -/
theorem ends_handle {job : Job} (h : jobOf registry clock op d = .ok job) (now : Nat) :
    Stage.Ends settings send job now adapters (.ready 1)
      (handle registry settings send clock op d none adapters).outcome
      (handle registry settings send clock op d none adapters).adapters
      (now + (handle registry settings send clock op d none adapters).elapsed) := by
  rcases exists_course settings send none adapters job with ⟨answers, ending, s, t, _, halone⟩
  have hhandle : handle registry settings send clock op d none adapters =
      ⟨ending.outcome settings job.provider, s, t⟩ := by
    simp only [handle, h, halone]
  have hends := (Stage.ends_alone halone).later now
  rw [Nat.zero_add, Nat.add_comm t now] at hends
  rw [hhandle]
  exact hends

theorem settlement_handle_ne (taken : Bool) :
    (handle registry settings send clock op d none adapters).outcome.settlement taken ≠
      .nack true := by
  have hlasting : ∀ provider attempts,
      (handle registry settings send clock op d none adapters).outcome ≠
        .failed provider .cancelled attempts := by
    intro provider attempts houtcome
    rcases exists_fate registry settings send clock op d none adapters with ⟨fate, hmeets, hhas⟩
    rw [houtcome] at hhas
    cases hhas with
    | failed lasting _ _ => exact lasting rfl
    | interrupted _ _ =>
        cases hmeets with
        | interrupted _ _ course =>
            rcases course.exists_last (Nat.le_add_left 1 _) with ⟨_, _, _, _, _, hdecides, _⟩
            cases hdecides
  generalize (handle registry settings send clock op d none adapters).outcome = o at hlasting ⊢
  cases o with
  | handled provider attempts => nofun
  | skipped why => nofun
  | failed provider failure attempts =>
      cases failure with
      | cancelled => exact absurd rfl (hlasting provider attempts)
      | provider e => cases taken <;> nofun
      | timeout ms => cases taken <;> nofun
      | panic reason => cases taken <;> nofun

end Handling

/-!
## One after the other
-/

/-- What a pipeline handles deliveries with, beside the adapters. -/
structure Means where
  registry : Registry Handle
  settings : Settings
  sink : Sink
  operation : Operation
  freshId : String
  timeText : String
  clock : Int64

def parcelsOf (done : List (Copy × Outcome)) : List Parcel :=
  done.map fun e => e.1.parcel

namespace Means

def handle (m : Means) (p : Parcel) (adapters : List Adapter) : Handled (List Adapter) :=
  Dispatch.handle m.registry m.settings sendByScript m.clock m.operation
    (.ofParcel m.freshId p) none adapters

/-- The adapters as they are left when parcels have been handled, one after the other. -/
def leftBy (m : Means) (parcels : List Parcel) (adapters : List Adapter) : List Adapter :=
  parcels.foldl (fun adapters p => (m.handle p adapters).adapters) adapters

def spentOn (m : Means) : List Parcel → List Adapter → Nat
  | [], _ => 0
  | p :: rest, adapters =>
    (m.handle p adapters).elapsed + m.spentOn rest (m.handle p adapters).adapters

variable {m : Means} {adapters : List Adapter}

theorem leftBy_append (parcels more : List Parcel) :
    m.leftBy (parcels ++ more) adapters = m.leftBy more (m.leftBy parcels adapters) :=
  List.foldl_append

theorem spentOn_append (parcels more : List Parcel) :
    m.spentOn (parcels ++ more) adapters =
      m.spentOn parcels adapters + m.spentOn more (m.leftBy parcels adapters) := by
  induction parcels generalizing adapters with
  | nil => exact (Nat.zero_add _).symm
  | cons p rest ih =>
      simp only [List.cons_append, spentOn, ih, Nat.add_assoc]
      rfl

/-- Each outcome is that of the parcel alone, with the adapters that the ones before it left. -/
def Alone (m : Means) (adapters : List Adapter) (done : List (Copy × Outcome)) : Prop :=
  ∀ before e after, done = before ++ e :: after →
    e.2 = (m.handle e.1.parcel (m.leftBy (parcelsOf before) adapters)).outcome

theorem Alone.snoc {done : List (Copy × Outcome)} (h : m.Alone adapters done) {c : Copy}
    {o : Outcome} (ho : o = (m.handle c.parcel (m.leftBy (parcelsOf done) adapters)).outcome) :
    m.Alone adapters (done ++ [(c, o)]) := by
  intro before e after hsplit
  rcases List.eq_nil_or_concat after with rfl | ⟨init, last, rfl⟩
  · rcases List.append_inj' hsplit rfl with ⟨rfl, hlast⟩
    cases hlast
    exact ho
  · rw [List.concat_eq_append, ← List.cons_append, ← List.append_assoc] at hsplit
    exact h _ _ _ (List.append_inj' hsplit rfl).left

end Means

end Dispatch
end Courier
