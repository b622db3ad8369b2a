import Courier.Dispatch.Handling

/-!
# Courses of attempts

A job is sent, and sent again after a failure or a time-out while attempts are left.
Between attempts shutdown may interrupt. A course tells the answers that came and how
it ended; handling a delivery by itself takes a course, and always comes to its end.
-/

namespace Courier
namespace Dispatch

open Provider (Answer Handle Registry)

/-- What an answer counts for: one that is late is a time-out. -/
def resultOf (settings : Settings) (a : Answer) : Except Unit Provider.Outcome :=
  if a.after ≤ settings.handlerTimeout then .ok a.outcome else .error ()

def waitFor (settings : Settings) (a : Answer) : Nat :=
  min a.after settings.handlerTimeout

/-- The failure that an answer comes to, if it is one that is tried again. -/
def failureOf? (settings : Settings) (a : Answer) : Option Failure :=
  match resultOf settings a with
  | .ok (.failure e) => some (.provider e)
  | .error () => some (.timeout settings.handlerTimeout)
  | _ => none

inductive Ending where
  | sent (attempts : Nat)
  | panicked (reason : String)
  | exhausted (failure : Failure) (attempts : Nat)
  | interrupted (attempts : Nat)

def Ending.outcome (settings : Settings) (provider : String) : Ending → Outcome
  | .sent attempts => .handled provider attempts
  | .panicked reason => .ofPanic settings.panicPolicy (some provider) reason
  | .exhausted failure attempts => .failed (some provider) failure attempts
  | .interrupted attempts => .failed (some provider) .cancelled attempts

section Courses

variable {σ : Type} (settings : Settings) (send : Send σ) (job : Job) (cancelAt : Option Nat)

/--
The attempts from one with a given number on, which begins at a given time. Where
shutdown comes at the very time at which a pause is over, it may go either way.
-/
inductive Course : Nat → Nat → σ → List Answer → Ending → σ → Nat → Prop where
  | sent {n now : Nat} {s s' : σ} {a : Answer} (asked : send s job = (a, s'))
      (success : resultOf settings a = .ok .success) :
      Course n now s [a] (.sent n) s' (now + waitFor settings a)
  | panicked {n now : Nat} {s s' : σ} {a : Answer} {reason : String}
      (asked : send s job = (a, s')) (panic : resultOf settings a = .ok (.panic reason)) :
      Course n now s [a] (.panicked reason) s' (now + waitFor settings a)
  | exhausted {n now : Nat} {s s' : σ} {a : Answer} {f : Failure}
      (asked : send s job = (a, s')) (failure : failureOf? settings a = some f)
      (last : settings.maxRetries.toNat < n) :
      Course n now s [a] (.exhausted f n) s' (now + waitFor settings a)
  | interrupted {n now c : Nat} {s s' : σ} {a : Answer} {f : Failure}
      (asked : send s job = (a, s')) (failure : failureOf? settings a = some f)
      (left : n ≤ settings.maxRetries.toNat) (shutdown : cancelAt = some c)
      (during : c ≤ now + waitFor settings a + settings.retryInterval) :
      Course n now s [a] (.interrupted n) s' (max (now + waitFor settings a) c)
  | again {n now t : Nat} {s s' s'' : σ} {a : Answer} {f : Failure} {rest : List Answer}
      {ending : Ending} (asked : send s job = (a, s')) (failure : failureOf? settings a = some f)
      (left : n ≤ settings.maxRetries.toNat)
      (undisturbed : ∀ c, cancelAt = some c →
        now + waitFor settings a + settings.retryInterval ≤ max (now + waitFor settings a) c)
      (further : Course (n + 1) (now + waitFor settings a + settings.retryInterval) s' rest
        ending s'' t) :
      Course n now s (a :: rest) ending s'' t

end Courses

namespace Stage

section Turns

variable {σ : Type} {settings : Settings} {send : Send σ} {job : Job} {cancelAt : Option Nat}

/-! ## Turns of handling -/

variable (settings send job cancelAt) in
/-- Handling comes from one moment to another in at most so many turns. -/
def Leads (bound : Nat) (m m' : Nat × σ × Stage) : Prop :=
  ∃ turns, turns ≤ bound ∧ ∀ fuel,
    alone settings send job cancelAt (fuel + turns) m.1 m.2.1 m.2.2 =
      alone settings send job cancelAt fuel m'.1 m'.2.1 m'.2.2

theorem Leads.refl (m : Nat × σ × Stage) : Leads settings send job cancelAt 0 m m :=
  ⟨0, Nat.le_refl 0, fun _ => rfl⟩

theorem Leads.trans {bound bound' : Nat} {m m' m'' : Nat × σ × Stage}
    (h : Leads settings send job cancelAt bound m m')
    (h' : Leads settings send job cancelAt bound' m' m'') :
    Leads settings send job cancelAt (bound + bound') m m'' := by
  rcases h with ⟨turns, hle, hturns⟩
  rcases h' with ⟨turns', hle', hturns'⟩
  refine ⟨turns + turns', Nat.add_le_add hle hle', ?_⟩
  intro fuel
  rw [Nat.add_comm turns turns', ← Nat.add_assoc, hturns, hturns']

theorem Leads.mono {bound bound' : Nat} {m m' : Nat × σ × Stage}
    (h : Leads settings send job cancelAt bound m m') (hle : bound ≤ bound') :
    Leads settings send job cancelAt bound' m m' := by
  rcases h with ⟨turns, hturns, heq⟩
  exact ⟨turns, Nat.le_trans hturns hle, heq⟩

theorem leads_of_step {now : Nat} {s s' : σ} {stage stage' : Stage}
    (h : step? settings send job now (cancelAt.any (· ≤ now)) s stage = some (stage', s')) :
    Leads settings send job cancelAt 1 (now, s, stage) (now, s', stage') := by
  refine ⟨1, Nat.le_refl 1, ?_⟩
  intro fuel
  simp only [alone, h]

theorem leads_of_wait {now t : Nat} {s : σ} {stage : Stage}
    (h : step? settings send job now (cancelAt.any (· ≤ now)) s stage = none)
    (hwake : wakeTime settings stage = some t) :
    Leads settings send job cancelAt 1 (now, s, stage)
      (max now (((cancelAt.filter (now < ·)).map (min t)).getD t), s, stage) := by
  refine ⟨1, Nat.le_refl 1, ?_⟩
  intro fuel
  simp only [alone, h, hwake]

theorem leads_of_uncut {now t : Nat} {s : σ} {stage : Stage}
    (h : step? settings send job now (cancelAt.any (· ≤ now)) s stage = none)
    (hwake : wakeTime settings stage = some t) (hlater : now ≤ t)
    (huncut : ∀ c, cancelAt = some c → now < c → t ≤ c) :
    Leads settings send job cancelAt 1 (now, s, stage) (t, s, stage) := by
  have hcut : ((cancelAt.filter (now < ·)).map (min t)).getD t = t := by
    cases cancelAt with
    | none => rfl
    | some c =>
        by_cases hc : now < c
        · simp [Option.filter, hc, Nat.min_eq_left (huncut c rfl hc)]
        · simp [Option.filter, hc]
  have hwait := leads_of_wait h hwake
  rw [hcut, Nat.max_eq_right hlater] at hwait
  exact hwait

theorem leads_of_cut {now t c : Nat} {s : σ} {stage : Stage}
    (h : step? settings send job now (cancelAt.any (· ≤ now)) s stage = none)
    (hwake : wakeTime settings stage = some t) (hcancel : cancelAt = some c) (hlater : now < c)
    (hbefore : c ≤ t) :
    Leads settings send job cancelAt 1 (now, s, stage) (c, s, stage) := by
  have hcut : ((cancelAt.filter (now < ·)).map (min t)).getD t = c := by
    simp [hcancel, Option.filter, hlater, Nat.min_eq_right hbefore]
  have hwait := leads_of_wait h hwake
  rw [hcut, Nat.max_eq_right (Nat.le_of_lt hlater)] at hwait
  exact hwait

theorem alone_finished (fuel now : Nat) (s : σ) (o : Outcome) :
    alone settings send job cancelAt fuel now s (.finished o) = (.finished o, s, now) := by
  cases fuel with
  | zero => rfl
  | succ fuel => rfl

/-! ## One attempt -/

theorem leads_ready (n now : Nat) {s s' : σ} {a : Answer} (hsend : send s job = (a, s')) :
    Leads settings send job cancelAt 1 (now, s, .ready n) (now, s', .sending n now a) := by
  apply leads_of_step
  simp only [step?, hsend]

theorem answerBy_of_lt {since now : Nat} {a : Answer} (h : now < since + waitFor settings a) :
    answerBy settings.handlerTimeout since now a = none := by
  unfold waitFor at h
  unfold answerBy
  rw [if_neg (by omega), if_neg (by omega)]

theorem answerBy_wait (since : Nat) (a : Answer) :
    answerBy settings.handlerTimeout since (since + waitFor settings a) a =
      some (resultOf settings a) := by
  unfold answerBy resultOf waitFor
  by_cases h : a.after ≤ settings.handlerTimeout
  · rw [if_pos (by omega), if_pos h]
  · rw [if_neg (by omega), if_pos (by omega), if_neg h]

/-- Shutdown during an attempt makes no difference to it. -/
theorem leads_sending (n now : Nat) (s : σ) (a : Answer) :
    Leads settings send job cancelAt 3 (now, s, .sending n now a)
      (now + waitFor settings a, s,
        afterAttempt settings (now + waitFor settings a) job n (resultOf settings a)) := by
  have hdone : Leads settings send job cancelAt 1
      (now + waitFor settings a, s, .sending n now a)
      (now + waitFor settings a, s,
        afterAttempt settings (now + waitFor settings a) job n (resultOf settings a)) := by
    apply leads_of_step
    simp only [step?, answerBy_wait, Option.map_some]
  have hnone : ∀ time, time < now + waitFor settings a →
      step? settings send job time (cancelAt.any (· ≤ time)) s (.sending n now a) = none := by
    intro time htime
    simp only [step?, answerBy_of_lt htime, Option.map_none]
  have hwake : wakeTime settings (.sending n now a) = some (now + waitFor settings a) := rfl
  by_cases hnow : waitFor settings a = 0
  · rw [hnow, Nat.add_zero] at hdone ⊢
    exact hdone.mono (by omega)
  · have hfirst := hnone now (by omega)
    -- Shutdown breaks the wait at most once: afterwards it lies in the past.
    by_cases hcut : ∃ c, cancelAt = some c ∧ now < c ∧ c < now + waitFor settings a
    · rcases hcut with ⟨c, hcancel, hlater, hbefore⟩
      have hstop := leads_of_cut hfirst hwake hcancel hlater (Nat.le_of_lt hbefore)
      have hon := leads_of_uncut (hnone c hbefore) hwake (Nat.le_of_lt hbefore) (by
        intro c' hcancel' hlater'
        rw [hcancel] at hcancel'
        cases hcancel'
        exact absurd hlater' (Nat.lt_irrefl c))
      exact (hstop.trans hon).trans hdone
    · have hon := leads_of_uncut hfirst hwake (Nat.le_add_right _ _) (by
        intro c hcancel hlater
        apply Nat.le_of_not_lt
        intro hbefore
        exact hcut ⟨c, hcancel, hlater, hbefore⟩)
      exact (hon.trans hdone).mono (by omega)

/-! ## Between attempts -/

theorem step?_pausing {n now resumeAt : Nat} (s : σ) (hnow : now < resumeAt)
    (hcancel : ∀ c, cancelAt = some c → now < c) :
    step? settings send job now (cancelAt.any (· ≤ now)) s (.pausing n resumeAt) = none := by
  have hnot : cancelAt.any (· ≤ now) = false := by
    cases cancelAt with
    | none => rfl
    | some c =>
        have hc := hcancel c rfl
        simp only [Option.any_some, decide_eq_false_iff_not]
        omega
  simp only [step?, hnot]
  rw [if_neg (by omega)]
  rfl

theorem leads_again {n now resumeAt : Nat} (s : σ) (hlater : now ≤ resumeAt)
    (hundisturbed : ∀ c, cancelAt = some c → resumeAt ≤ max now c) :
    Leads settings send job cancelAt 2 (now, s, .pausing n resumeAt)
      (resumeAt, s, .ready (n + 1)) := by
  have hresume : Leads settings send job cancelAt 1 (resumeAt, s, .pausing n resumeAt)
      (resumeAt, s, .ready (n + 1)) := by
    apply leads_of_step
    simp only [step?, Nat.le_refl, if_true]
  by_cases hnow : now = resumeAt
  · subst hnow
    exact hresume.mono (by omega)
  · have hafter : ∀ c, cancelAt = some c → resumeAt ≤ c := by
      intro c hc
      have hmax := hundisturbed c hc
      omega
    have hnone : step? settings send job now (cancelAt.any (· ≤ now)) s
        (.pausing n resumeAt) = none :=
      step?_pausing s (by omega) fun c hc => Nat.lt_of_lt_of_le (by omega) (hafter c hc)
    have hon := leads_of_uncut hnone rfl hlater fun c hc _ => hafter c hc
    exact hon.trans hresume

theorem leads_interrupted {n now resumeAt c : Nat} (s : σ) (hcancel : cancelAt = some c)
    (hduring : max now c < resumeAt) :
    Leads settings send job cancelAt 2 (now, s, .pausing n resumeAt)
      (max now c, s, .finished (.failed (some job.provider) .cancelled n)) := by
  have hstop : Leads settings send job cancelAt 1 (max now c, s, .pausing n resumeAt)
      (max now c, s, .finished (.failed (some job.provider) .cancelled n)) := by
    apply leads_of_step
    have hcancelled : cancelAt.any (· ≤ max now c) = true := by
      rw [hcancel]
      exact decide_eq_true (Nat.le_max_right now c)
    simp only [step?, hcancelled]
    rw [if_neg (by omega), if_pos trivial]
  by_cases hnow : c ≤ now
  · rw [Nat.max_eq_left hnow] at hstop ⊢
    exact hstop.mono (by omega)
  · rw [Nat.max_eq_right (by omega)] at hstop hduring ⊢
    have hnone : step? settings send job now (cancelAt.any (· ≤ now)) s
        (.pausing n resumeAt) = none := by
      apply step?_pausing s (by omega)
      intro c' hc'
      rw [hcancel] at hc'
      cases hc'
      omega
    have hon := leads_of_cut hnone rfl hcancel (by omega) (Nat.le_of_lt hduring)
    exact hon.trans hstop

/-! ## All attempts -/

theorem afterAttempt_of_failure {now n : Nat} {a : Answer} {f : Failure}
    (h : failureOf? settings a = some f) :
    afterAttempt settings now job n (resultOf settings a) =
      if n ≤ settings.maxRetries.toNat then .pausing n (now + settings.retryInterval)
      else .finished (.failed (some job.provider) f n) := by
  unfold failureOf? at h
  cases hresult : resultOf settings a with
  | error late =>
      rw [hresult] at h
      cases h
      simp [afterAttempt, afterFailure, Failure.isRetryable]
  | ok o =>
      rw [hresult] at h
      cases o with
      | success => cases h
      | panic reason => cases h
      | failure e =>
          cases h
          simp [afterAttempt, afterFailure, Failure.isRetryable]

variable (settings send job cancelAt) in
def Finishes (bound n now : Nat) (s : σ) : Prop :=
  ∃ answers ending s' t, Course settings send job cancelAt n now s answers ending s' t ∧
    Leads settings send job cancelAt bound (now, s, .ready n)
      (t, s', .finished (ending.outcome settings job.provider))

theorem Finishes.mono {bound bound' n now : Nat} {s : σ}
    (h : Finishes settings send job cancelAt bound n now s) (hle : bound ≤ bound') :
    Finishes settings send job cancelAt bound' n now s := by
  rcases h with ⟨answers, ending, s', t, hcourse, hleads⟩
  exact ⟨answers, ending, s', t, hcourse, hleads.mono hle⟩

theorem leads_attempt (n now : Nat) {s s' : σ} {a : Answer} (hsend : send s job = (a, s')) :
    Leads settings send job cancelAt 4 (now, s, .ready n)
      (now + waitFor settings a, s',
        afterAttempt settings (now + waitFor settings a) job n (resultOf settings a)) :=
  (leads_ready n now hsend).trans (leads_sending n now s' a)

theorem finishes_of_none {n now : Nat} {s s' : σ} {a : Answer} (hsend : send s job = (a, s'))
    (hfailure : failureOf? settings a = none) :
    Finishes settings send job cancelAt 4 n now s := by
  have hattempt : Leads settings send job cancelAt 4 (now, s, .ready n) _ :=
    leads_attempt n now hsend
  unfold failureOf? at hfailure
  cases hresult : resultOf settings a with
  | error late =>
      rw [hresult] at hfailure
      cases hfailure
  | ok o =>
      rw [hresult] at hfailure hattempt
      cases o with
      | success => exact ⟨[a], .sent n, s', _, .sent hsend hresult, hattempt⟩
      | panic reason => exact ⟨[a], .panicked reason, s', _, .panicked hsend hresult, hattempt⟩
      | failure e => cases hfailure

theorem finishes_of_last {n now : Nat} {s s' : σ} {a : Answer} {f : Failure}
    (hsend : send s job = (a, s')) (hfailure : failureOf? settings a = some f)
    (hlast : settings.maxRetries.toNat < n) : Finishes settings send job cancelAt 4 n now s := by
  refine ⟨[a], .exhausted f n, s', _, .exhausted hsend hfailure hlast, ?_⟩
  have hattempt : Leads settings send job cancelAt 4 (now, s, .ready n) _ :=
    leads_attempt n now hsend
  rw [afterAttempt_of_failure hfailure, if_neg (by omega)] at hattempt
  exact hattempt

theorem finishes_of_pause {n now bound : Nat} {s s' : σ} {a : Answer} {f : Failure}
    (hsend : send s job = (a, s')) (hfailure : failureOf? settings a = some f)
    (hleft : n ≤ settings.maxRetries.toNat)
    (hnext : ∀ time, Finishes settings send job cancelAt bound (n + 1) time s') :
    Finishes settings send job cancelAt (6 + bound) n now s := by
  have hattempt : Leads settings send job cancelAt 4 (now, s, .ready n) _ :=
    leads_attempt n now hsend
  rw [afterAttempt_of_failure hfailure, if_pos hleft] at hattempt
  -- With both at one time the pause is over first, which a course leaves open.
  by_cases hcut : ∃ c, cancelAt = some c ∧
      max (now + waitFor settings a) c < now + waitFor settings a + settings.retryInterval
  · rcases hcut with ⟨c, hcancel, hduring⟩
    refine ⟨[a], .interrupted n, s', _, .interrupted hsend hfailure hleft hcancel (by omega), ?_⟩
    exact (hattempt.trans (leads_interrupted s' hcancel hduring)).mono (by omega)
  · have hundisturbed : ∀ c, cancelAt = some c →
        now + waitFor settings a + settings.retryInterval ≤ max (now + waitFor settings a) c := by
      intro c hcancel
      apply Nat.le_of_not_lt
      intro hduring
      exact hcut ⟨c, hcancel, hduring⟩
    rcases hnext (now + waitFor settings a + settings.retryInterval) with
      ⟨answers, ending, s'', t, hcourse, hleads⟩
    refine ⟨a :: answers, ending, s'', t,
      .again hsend hfailure hleft hundisturbed hcourse, ?_⟩
    exact (hattempt.trans (leads_again s' (Nat.le_add_right _ _) hundisturbed)).trans hleads

theorem finishes_attempts (left : Nat) {n : Nat} (hn : n + left = settings.maxRetries.toNat + 1)
    (now : Nat) (s : σ) : Finishes settings send job cancelAt (6 * left + 4) n now s := by
  induction left generalizing n now s with
  | zero =>
      rcases hsend : send s job with ⟨a, s'⟩
      cases hfailure : failureOf? settings a with
      | none => exact finishes_of_none hsend hfailure
      | some f => exact finishes_of_last hsend hfailure (by omega)
  | succ left ih =>
      rcases hsend : send s job with ⟨a, s'⟩
      cases hfailure : failureOf? settings a with
      | none => exact (finishes_of_none hsend hfailure).mono (by omega)
      | some f =>
          have hnext := fun time => ih (by omega : n + 1 + left = _) time s'
          exact (finishes_of_pause hsend hfailure (by omega) hnext).mono (by omega)

theorem alone_of_leads {bound fuel : Nat} {m : Nat × σ × Stage} {t : Nat} {s : σ} {o : Outcome}
    (h : Leads settings send job cancelAt bound m (t, s, .finished o)) (hbound : bound ≤ fuel) :
    alone settings send job cancelAt fuel m.1 m.2.1 m.2.2 = (.finished o, s, t) := by
  rcases h with ⟨turns, hturns, heq⟩
  have hfuel : fuel = (fuel - turns) + turns := by omega
  rw [hfuel, heq, alone_finished]

end Turns

end Stage

/-! ## Handling a delivery -/

section Handling

variable {σ : Type} (registry : Registry Handle) (settings : Settings) (send : Send σ)
  (clock : Int64) (op : Operation) (d : Bus.Delivery) (cancelAt : Option Nat) (adapters : σ)

theorem handle_of_error {why : Skip} (h : jobOf registry clock op d = .error why) :
    handle registry settings send clock op d cancelAt adapters = ⟨.skipped why, adapters, 0⟩ := by
  simp only [handle, h]

/-- The attempts of a job take a course, and handling stops where the course ends. -/
theorem exists_course (job : Job) :
    ∃ answers ending s t, Course settings send job cancelAt 1 0 adapters answers ending s t ∧
      Stage.alone settings send job cancelAt (2 * Stage.moveBound settings + 2) 0 adapters
        (.ready 1) = (.finished (ending.outcome settings job.provider), s, t) := by
  have hfinishes : Stage.Finishes settings send job cancelAt _ 1 0 adapters :=
    Stage.finishes_attempts settings.maxRetries.toNat (Nat.add_comm _ _) 0 adapters
  rcases hfinishes with ⟨answers, ending, s, t, hcourse, hleads⟩
  have hbound : 6 * settings.maxRetries.toNat + 4 ≤ 2 * Stage.moveBound settings + 2 := by
    unfold Stage.moveBound
    omega
  exact ⟨answers, ending, s, t, hcourse, Stage.alone_of_leads hleads hbound⟩

theorem handle_of_job {job : Job} (h : jobOf registry clock op d = .ok job) :
    ∃ answers ending s t, Course settings send job cancelAt 1 0 adapters answers ending s t ∧
      handle registry settings send clock op d cancelAt adapters =
        ⟨ending.outcome settings job.provider, s, t⟩ := by
  rcases exists_course settings send cancelAt adapters job with
    ⟨answers, ending, s, t, hcourse, halone⟩
  exact ⟨answers, ending, s, t, hcourse, by simp only [handle, h, halone]⟩

end Handling

end Dispatch
end Courier
