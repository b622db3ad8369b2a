import Courier.Proofs.Dispatch.Retries
import Courier.Proofs.Dispatch.Settling

/-!
# The number of attempts told

An outcome tells how many attempts were made, and so does the dead letter of a delivery
that failed. The number is that of the calls made, except after a panic: an outcome by
panic tells of one attempt, whichever attempt it was that panicked.

The main statement is `tellsCalls_iff_panickedFirst`.
-/

namespace Courier
namespace Dispatch

open Provider (Answer Handle Registry)

/-!
## Counting calls
-/

section Counting

variable {σ : Type}

/-- Adapters with the number of calls made to them. -/
def counting (send : Send σ) : Send (σ × Nat) :=
  fun s job => ((send s.1 job).1, (send s.1 job).2, s.2 + 1)

theorem step?_counting (settings : Settings) (send : Send σ) (job : Job) (now : Nat)
    (cancelled : Bool) (s : σ × Nat) (stage : Stage) :
    (Stage.step? settings (counting send) job now cancelled s stage).map
        (fun m => (m.1, m.2.1)) =
      Stage.step? settings send job now cancelled s.1 stage := by
  cases stage with
  | ready attempt => rfl
  | sending attempt since answer =>
      simp only [Stage.step?, Option.map_map]
      rfl
  | pausing attempt resumeAt =>
      simp only [Stage.step?]
      by_cases hresume : resumeAt ≤ now
      · simp [hresume]
      · cases cancelled <;> simp [hresume]
  | finished o => rfl

theorem alone_counting (settings : Settings) (send : Send σ) (job : Job)
    (cancelAt : Option Nat) (fuel now : Nat) (s : σ × Nat) (stage : Stage) :
    (fun m : Stage × (σ × Nat) × Nat => (m.1, m.2.1.1, m.2.2))
        (Stage.alone settings (counting send) job cancelAt fuel now s stage) =
      Stage.alone settings send job cancelAt fuel now s.1 stage := by
  induction fuel generalizing now s stage with
  | zero => rfl
  | succ fuel ih =>
      have hstep := step?_counting settings send job now (cancelAt.any (· ≤ now)) s stage
      simp only [Stage.alone]
      cases hcounted : Stage.step? settings (counting send) job now (cancelAt.any (· ≤ now)) s
          stage with
      | some m =>
          rw [hcounted] at hstep
          rw [← hstep]
          exact ih now m.2 m.1
      | none =>
          rw [hcounted] at hstep
          rw [← hstep]
          cases hwake : Stage.wakeTime settings stage with
          | none => rfl
          | some t => exact ih _ s stage

/-- How often adapters are called for a delivery that is handled by itself. -/
def callsFor (registry : Registry Handle) (settings : Settings) (send : Send σ) (clock : Int64)
    (op : Operation) (d : Bus.Delivery) (cancelAt : Option Nat) (adapters : σ) : Nat :=
  (handle registry settings (counting send) clock op d cancelAt (adapters, 0)).adapters.2

theorem outcome_counting (registry : Registry Handle) (settings : Settings) (send : Send σ)
    (clock : Int64) (op : Operation) (d : Bus.Delivery) (cancelAt : Option Nat) (adapters : σ) :
    (handle registry settings (counting send) clock op d cancelAt (adapters, 0)).outcome =
      (handle registry settings send clock op d cancelAt adapters).outcome := by
  cases hjob : jobOf registry clock op d with
  | error why => simp only [handle, hjob]
  | ok job =>
      have halone := alone_counting settings send job cancelAt (2 * Stage.moveBound settings + 2)
        0 (adapters, 0) (.ready 1)
      simp only [handle, hjob]
      rw [← halone]
      cases (Stage.alone settings (counting send) job cancelAt (2 * Stage.moveBound settings + 2)
        0 (adapters, 0) (.ready 1)) with
      | mk stage rest => cases stage <;> rfl

end Counting

/-!
## Attempts along a course
-/

/-- The number of attempts that an ending tells; a panic tells none. -/
def Ending.attempts? : Ending → Option Nat
  | .sent attempts => some attempts
  | .panicked _ => none
  | .exhausted _ attempts => some attempts
  | .interrupted attempts => some attempts

section Courses

variable {σ : Type} {settings : Settings} {send : Send σ} {job : Job} {cancelAt : Option Nat}
  {n now t : Nat} {answers : List Answer} {ending : Ending}

theorem Course.calls {s s' : σ × Nat}
    (h : Course settings (counting send) job cancelAt n now s answers ending s' t) :
    s'.2 = s.2 + answers.length := by
  have hasked := h.asked
  clear h
  induction hasked with
  | nil s => rfl
  | cons first others ih =>
      have hone := congrArg (fun e : Answer × (σ × Nat) => e.2.2) first
      simp only [counting] at hone
      rw [ih, ← hone, List.length_cons]
      omega

/-- Attempts are numbered in turn, up to the one that the ending tells. -/
theorem Course.attempts {s s' : σ}
    (h : Course settings send job cancelAt n now s answers ending s' t)
    (hn : n ≤ settings.maxRetries.toNat + 1) {attempts : Nat}
    (hattempts : ending.attempts? = some attempts) :
    attempts + 1 = n + answers.length ∧ attempts ≤ settings.maxRetries.toNat + 1 := by
  induction h with
  | sent _ _ =>
      cases hattempts
      exact ⟨rfl, hn⟩
  | panicked _ _ => cases hattempts
  | exhausted _ _ _ =>
      cases hattempts
      exact ⟨rfl, hn⟩
  | interrupted _ _ _ _ _ =>
      cases hattempts
      exact ⟨rfl, hn⟩
  | again _ _ left _ _ ih =>
      rcases ih (Nat.succ_le_succ left) hattempts with ⟨hcount, hbound⟩
      rw [List.length_cons]
      exact ⟨by omega, hbound⟩

theorem Course.isRetryable {s s' : σ} {f : Failure} {attempts : Nat}
    (h : Course settings send job cancelAt n now s answers (.exhausted f attempts) s' t) :
    f.isRetryable = true := by
  generalize hending : Ending.exhausted f attempts = ending at h
  induction h with
  | sent _ _ => cases hending
  | panicked _ _ => cases hending
  | interrupted _ _ _ _ _ => cases hending
  | again _ _ _ _ _ ih => exact ih hending
  | exhausted _ failure _ =>
      cases hending
      unfold failureOf? at failure
      split at failure
      · cases failure
        rfl
      · cases failure
        rfl
      · cases failure

end Courses

theorem Ending.attempts?_of_handled {settings : Settings} {ending : Ending} {key provider : String}
    {attempts : Nat} (h : ending.outcome settings key = .handled provider attempts) :
    ending.attempts? = some attempts := by
  cases ending with
  | sent n =>
      cases h
      rfl
  | panicked reason =>
      cases hpolicy : settings.panicPolicy <;> simp [outcome, Outcome.ofPanic, hpolicy] at h
  | exhausted f n => cases h
  | interrupted n => cases h

/-- A failure is told with its number of attempts, a panic as if it were the first. -/
theorem Ending.attempts?_of_failed {settings : Settings} {ending : Ending} {key : String}
    {provider : Option String} {f : Failure} {attempts : Nat}
    (h : ending.outcome settings key = .failed provider f attempts) :
    ending.attempts? = some attempts ∨ ∃ reason, f = .panic reason ∧ attempts = 1 := by
  cases ending with
  | sent n => cases h
  | panicked reason =>
      right
      simp only [outcome, Outcome.ofPanic] at h
      split at h
      · cases h
      · cases h
        exact ⟨reason, rfl, rfl⟩
  | exhausted f n =>
      cases h
      exact Or.inl rfl
  | interrupted n =>
      cases h
      exact Or.inl rfl

theorem ne_panic_of_attempts? {σ : Type} {settings : Settings} {send : Send σ} {job : Job}
    {cancelAt : Option Nat} {n now t attempts : Nat} {s s' : σ} {answers : List Answer}
    {ending : Ending} (hcourse : Course settings send job cancelAt n now s answers ending s' t)
    (hattempts : ending.attempts? = some attempts) (provider : Option String) (reason : String)
    (told : Nat) :
    ending.outcome settings job.provider ≠ .failed provider (.panic reason) told := by
  intro h
  cases ending with
  | sent n => cases h
  | panicked reason => cases hattempts
  | exhausted f n =>
      cases h
      have hretryable := hcourse.isRetryable
      cases hretryable
  | interrupted n => cases h

/-!
## What is told
-/

/-- The outcome of a delivery, and the dead letters offered for it, tell of so many calls. -/
structure TellsCalls {τ : Type} (op : Operation) (d : Bus.Delivery) (sink : LetterSink τ)
    (time : String) (s : τ) (o : Outcome) (calls : Nat) : Prop where
  handled : ∀ provider attempts, o = .handled provider attempts → attempts = calls
  failed : ∀ provider f attempts, o = .failed provider f attempts → attempts = calls
  letter : ∀ letter taken, .offered letter taken ∈ (settling sink op time d o s).1 →
    letter.attempts.toNat = calls

theorem attempts_of_offered {τ : Type} {op : Operation} {d : Bus.Delivery} {sink : LetterSink τ}
    {time : String} {s : τ} {o : Outcome} {letter : Bus.DeadLetter} {taken : Bool}
    (h : .offered letter taken ∈ (settling sink op time d o s).1) :
    ∃ provider f attempts, o = .failed provider f attempts ∧
      letter.attempts = UInt32.ofNat attempts := by
  cases hletter : o.deadLetter? op time d with
  | none => simp [settling, hletter] at h
  | some offered =>
      simp only [settling, hletter, List.mem_cons, Deed.offered.injEq, reduceCtorEq,
        List.not_mem_nil, or_false] at h
      rw [h.left]
      cases o with
      | handled provider attempts => cases hletter
      | skipped why => cases hletter
      | failed provider f attempts =>
          refine ⟨provider, f, attempts, rfl, ?_⟩
          cases f with
          | cancelled => cases hletter
          | provider e =>
              cases hletter
              rfl
          | timeout ms =>
              cases hletter
              rfl
          | panic reason =>
              cases hletter
              rfl

theorem tellsCalls_of_told {τ : Type} {op : Operation} {d : Bus.Delivery} {sink : LetterSink τ}
    {time : String} {s : τ} {o : Outcome} {calls : Nat}
    (hhandled : ∀ provider attempts, o = .handled provider attempts → attempts = calls)
    (hfailed : ∀ provider f attempts, o = .failed provider f attempts →
      attempts = calls ∧ attempts < UInt32.size) :
    TellsCalls op d sink time s o calls where
  handled := hhandled
  failed := fun provider f attempts h => (hfailed provider f attempts h).left
  letter := by
    intro letter taken hletter
    rcases attempts_of_offered hletter with ⟨provider, f, attempts, h, htold⟩
    rcases hfailed provider f attempts h with ⟨hattempts, hsmall⟩
    rw [htold, UInt32.toNat_ofNat_of_lt' hsmall, hattempts]

section Told

variable {σ τ : Type} (registry : Registry Handle) (settings : Settings) (send : Send σ)
  (clock : Int64) (op : Operation) (d : Bus.Delivery) (cancelAt : Option Nat) (adapters : σ)

theorem exists_calls :
    (∃ why, (handle registry settings send clock op d cancelAt adapters).outcome =
        .skipped why) ∨
      ∃ job answers ending s t,
        Course settings (counting send) job cancelAt 1 0 (adapters, 0) answers ending s t ∧
        (handle registry settings send clock op d cancelAt adapters).outcome =
          ending.outcome settings job.provider ∧
        callsFor registry settings send clock op d cancelAt adapters = answers.length := by
  cases hjob : jobOf registry clock op d with
  | error why =>
      left
      rw [handle_of_error registry settings send clock op d cancelAt adapters hjob]
      exact ⟨why, rfl⟩
  | ok job =>
      right
      rcases handle_of_job registry settings (counting send) clock op d cancelAt (adapters, 0)
        hjob with ⟨answers, ending, s, t, hcourse, hhandle⟩
      have houtcome := outcome_counting registry settings send clock op d cancelAt adapters
      rw [hhandle] at houtcome
      have hcalls := hcourse.calls
      rw [Nat.zero_add] at hcalls
      refine ⟨job, answers, ending, s, t, hcourse, houtcome.symm, ?_⟩
      unfold callsFor
      rw [hhandle, hcalls]

/--
The attempts told are the calls made for all deliveries but those that failed by a panic
after the first attempt.
-/
theorem tellsCalls_iff_panickedFirst (sink : LetterSink τ) (time : String) (s : τ)
    (hretries : settings.maxRetries.toNat + 1 < UInt32.size) :
    TellsCalls op d sink time s
        (handle registry settings send clock op d cancelAt adapters).outcome
        (callsFor registry settings send clock op d cancelAt adapters) ↔
      ∀ provider reason attempts,
        (handle registry settings send clock op d cancelAt adapters).outcome =
          .failed provider (.panic reason) attempts →
        callsFor registry settings send clock op d cancelAt adapters = 1 := by
  rcases exists_calls registry settings send clock op d cancelAt adapters with
    ⟨why, hskipped⟩ | ⟨job, answers, ending, s', t, hcourse, houtcome, hcalls⟩
  · rw [hskipped]
    constructor
    · intro _ provider reason attempts h
      cases h
    · intro _
      exact tellsCalls_of_told nofun nofun
  · rw [houtcome, hcalls]
    -- Every ending but a panic tells the number of answers along the course.
    have hcount : ∀ attempts, ending.attempts? = some attempts →
        attempts = answers.length ∧ attempts < UInt32.size := by
      intro attempts h
      rcases hcourse.attempts (Nat.le_add_left 1 _) h with ⟨hlength, hbound⟩
      exact ⟨by omega, by omega⟩
    constructor
    · intro htells provider reason attempts h
      rw [← htells.failed provider _ attempts h]
      rcases Ending.attempts?_of_failed h with htold | ⟨_, _, hone⟩
      · exact absurd h (ne_panic_of_attempts? hcourse htold provider reason attempts)
      · exact hone
    · intro hpanic
      refine tellsCalls_of_told ?_ ?_
      · intro provider attempts h
        exact (hcount attempts (Ending.attempts?_of_handled h)).left
      · intro provider f attempts h
        rcases Ending.attempts?_of_failed h with htold | ⟨reason, rfl, rfl⟩
        · exact hcount attempts htold
        · exact ⟨(hpanic provider reason 1 h).symm, by decide⟩

end Told

def oneRetry : Settings where
  maxRetries := 1
  panicPolicy := .redeliverOnPanic

def takesAll : LetterSink Unit := fun _ _ => (true, ())

/-- A delivery that is given up after a retry tells of both attempts. -/
theorem tellsCalls_plainDelivery :
    oneRetry.maxRetries.toNat + 1 < UInt32.size ∧
      TellsCalls .sendText plainDelivery takesAll "" ()
        (handle plainRegistry oneRetry sendByScript 0 .sendText plainDelivery none
          [{ script := [.unavailable, .rejected] }]).outcome
        (callsFor plainRegistry oneRetry sendByScript 0 .sendText plainDelivery none
          [{ script := [.unavailable, .rejected] }]) := by
  have hretries : oneRetry.maxRetries.toNat + 1 < UInt32.size := by decide
  have houtcome : (handle plainRegistry oneRetry sendByScript 0 .sendText plainDelivery none
      [{ script := [.unavailable, .rejected] }]).outcome =
        .failed (some "whatsapp")
          (.provider (.permanent "platform_rejected" "scripted failure")) 2 := by
    decide +kernel
  refine ⟨hretries, (tellsCalls_iff_panickedFirst _ _ _ _ _ _ _ _ _ _ _ hretries).mpr ?_⟩
  intro provider reason attempts h
  rw [houtcome] at h
  cases h

/-- A panic at the second attempt is told as one attempt, though two calls were made. -/
theorem not_tellsCalls_of_latePanic :
    ¬ TellsCalls .sendText plainDelivery takesAll "" ()
      (handle plainRegistry oneRetry sendByScript 0 .sendText plainDelivery none
        [{ script := [.unavailable, .namedPanic] }]).outcome
      (callsFor plainRegistry oneRetry sendByScript 0 .sendText plainDelivery none
        [{ script := [.unavailable, .namedPanic] }]) := by
  intro h
  have houtcome : (handle plainRegistry oneRetry sendByScript 0 .sendText plainDelivery none
      [{ script := [.unavailable, .namedPanic] }]).outcome =
        .failed (some "whatsapp") (.panic "scripted panic in Text") 1 := by
    decide +kernel
  have hcalls : callsFor plainRegistry oneRetry sendByScript 0 .sendText plainDelivery none
      [{ script := [.unavailable, .namedPanic] }] = 2 := by
    decide +kernel
  rw [houtcome, hcalls] at h
  have hone := h.failed _ _ _ rfl
  cases hone

end Dispatch
end Courier
