import Courier.Shutdown
import Mathlib.Data.ENat.Lattice

/-!
# Drains under one deadline

A half is waited for until it stops being waited for: when it has ended or the deadline has
passed, whatever comes first. As long as no such moment is overslept, it does not matter when
else the halves are looked at, and the drain is over when the later half has stopped.

The main statement is `drains_iff_hasDeadline`: whatever the halves do, a drain comes to what
it should exactly when the clock can tell its deadline.
-/

namespace Courier
namespace Shutdown

variable {α ε : Type}

/-!
## One half
-/

namespace Half

variable (deadline : Nat) (h : Half α)

def duration : ℕ∞ :=
  h.after.elim ⊤ fun d => d

/-- When a half is not waited for any more. -/
def stop : Nat :=
  (h.after.map (min deadline)).getD deadline

def last : Watch α :=
  if h.after.any (· ≤ deadline) then .ended h.result else .expired

theorem coe_stop : (h.stop deadline : ℕ∞) = min h.duration deadline := by
  unfold stop duration
  cases h.after with
  | none => exact (min_eq_right le_top).symm
  | some d => exact Nat.mono_cast.map_min.trans (min_comm _ _)

theorem inTime_iff : (h.after.any (· ≤ deadline) = true) ↔ h.duration ≤ deadline := by
  unfold duration
  cases h.after with
  | none => simp
  | some d => simp

theorem last_eq_ended_iff {result : α} :
    h.last deadline = .ended result ↔ h.duration ≤ deadline ∧ h.result = result := by
  rw [← inTime_iff, last]
  split
  · next hin => simp [hin]
  · next hout => simp [hout]

end Half

namespace Watch

variable {deadline now : Nat} {h : Half α} {w : Watch α}

/-- What has been seen is right at a time: a half is waited for until it stops, and not after. -/
inductive Tracks (deadline : Nat) (h : Half α) (now : Nat) : Watch α → Prop where
  | waiting : now ≤ h.stop deadline → Tracks deadline h now .waiting
  | stopped : h.stop deadline ≤ now → Tracks deadline h now (h.last deadline)

theorem look_waiting (hnow : now ≤ h.stop deadline) :
    waiting.look deadline now h =
      if h.stop deadline ≤ now then h.last deadline else .waiting := by
  rcases h with ⟨after, result⟩
  cases after with
  | none => simp [look, Half.stop, Half.last]
  | some d =>
      simp only [Half.stop, Option.map_some, Option.getD_some] at hnow
      simp only [look, Half.stop, Half.last, Option.any_some, Option.map_some, Option.getD_some,
        decide_eq_true_eq]
      split_ifs <;> first | rfl | omega

theorem look_last (t : Nat) : (h.last deadline).look deadline t h = h.last deadline := by
  unfold Half.last
  split <;> rfl

theorem Tracks.look_eq (htracks : Tracks deadline h now w) :
    w.look deadline now h = if h.stop deadline ≤ now then h.last deadline else .waiting := by
  cases htracks with
  | waiting hnow => exact look_waiting hnow
  | stopped hstop => rw [look_last, if_pos hstop]

theorem Tracks.wakeTime_look (htracks : Tracks deadline h now w) :
    (w.look deadline now h).wakeTime deadline h =
      if h.stop deadline ≤ now then none else some (h.stop deadline) := by
  rw [htracks.look_eq]
  split
  · unfold Half.last
    split <;> rfl
  · rfl

theorem Tracks.pass (htracks : Tracks deadline h now w) {t : Nat} (hnow : now ≤ t)
    (ht : now < h.stop deadline → t ≤ h.stop deadline) :
    Tracks deadline h t (w.look deadline now h) := by
  rw [htracks.look_eq]
  split
  · next hstop => exact .stopped (Nat.le_trans hstop hnow)
  · next hstop => exact .waiting (ht (Nat.lt_of_not_le hstop))

end Watch

/-!
## Both halves
-/

namespace Draining

variable (grace : Nat) (dispatcher : Half Bool) (server : Half (Except ε Unit))

/--
Both halves are looked at until they are over, at any times, as often as one likes, so long as
nothing new to be seen is overslept.
-/
inductive Runs : Nat → Draining ε → Nat → Draining ε → Prop where
  | done {now : Nat} {d : Draining ε} :
      (d.look grace dispatcher server now).wakeTime grace dispatcher server = none →
        Runs now d now (d.look grace dispatcher server now)
  | again {now wake t finish : Nat} {d e : Draining ε} :
      (d.look grace dispatcher server now).wakeTime grace dispatcher server = some wake →
        now ≤ t → t ≤ wake → Runs t (d.look grace dispatcher server now) finish e →
        Runs now d finish e

/-- What has been seen of both halves is right, and at least one of them may still be waited for. -/
structure Tracks (now : Nat) (d : Draining ε) : Prop where
  ofDispatcher : d.dispatcher.Tracks grace dispatcher now
  ofServer : d.server.Tracks grace server now
  now_le : now ≤ max (dispatcher.stop grace) (server.stop grace)

variable {grace dispatcher server}
variable {now t : Nat} {d e : Draining ε}

theorem tracks_start : Tracks grace dispatcher server 0 {} :=
  ⟨.waiting (Nat.zero_le _), .waiting (Nat.zero_le _), Nat.zero_le _⟩

theorem Tracks.wakeTime_look_eq (h : Tracks grace dispatcher server now d) :
    (d.look grace dispatcher server now).wakeTime grace dispatcher server =
      if dispatcher.stop grace ≤ now then
        if server.stop grace ≤ now then none else some (server.stop grace)
      else if server.stop grace ≤ now then some (dispatcher.stop grace)
      else some (min (dispatcher.stop grace) (server.stop grace)) := by
  unfold wakeTime look
  rw [h.ofDispatcher.wakeTime_look, h.ofServer.wakeTime_look]
  split_ifs <;> rfl

theorem Tracks.wakeTime_look_eq_none_iff (h : Tracks grace dispatcher server now d) :
    (d.look grace dispatcher server now).wakeTime grace dispatcher server = none ↔
      dispatcher.stop grace ≤ now ∧ server.stop grace ≤ now := by
  rw [h.wakeTime_look_eq]
  split_ifs <;> simp [*]

theorem Tracks.pass (h : Tracks grace dispatcher server now d) {wake : Nat}
    (hwake : (d.look grace dispatcher server now).wakeTime grace dispatcher server = some wake)
    (hnow : now ≤ t) (ht : t ≤ wake) :
    Tracks grace dispatcher server t (d.look grace dispatcher server now) := by
  rw [h.wakeTime_look_eq] at hwake
  split_ifs at hwake <;> cases hwake <;>
    exact ⟨h.ofDispatcher.pass hnow (by omega), h.ofServer.pass hnow (by omega), by omega⟩

/-- Every run is over when the later half has stopped, and has then seen all of both. -/
theorem Runs.eq_of_tracks (h : Runs grace dispatcher server now d t e)
    (htracks : Tracks grace dispatcher server now d) :
    t = max (dispatcher.stop grace) (server.stop grace) ∧
      e = ⟨dispatcher.last grace, server.last grace⟩ := by
  induction h with
  | done hdone =>
      rcases htracks.wakeTime_look_eq_none_iff.mp hdone with ⟨hdispatcher, hserver⟩
      constructor
      · exact Nat.le_antisymm htracks.now_le (Nat.max_le.mpr ⟨hdispatcher, hserver⟩)
      · unfold look
        rw [htracks.ofDispatcher.look_eq, htracks.ofServer.look_eq, if_pos hdispatcher,
          if_pos hserver]
  | again hwake hnow ht _ ih => exact ih (htracks.pass hwake hnow ht)

def toStop (grace : Nat) (dispatcher : Half Bool) (server : Half (Except ε Unit)) (now : Nat) :
    Nat :=
  (if now < dispatcher.stop grace then 1 else 0) + if now < server.stop grace then 1 else 0

/-- Looking again when there is something new is a run, if it is done once for each half to stop. -/
theorem Tracks.runs_run {looks : Nat} (h : Tracks grace dispatcher server now d)
    (hlooks : toStop grace dispatcher server now < looks) :
    Runs grace dispatcher server now d (run grace dispatcher server looks now d).2
      (run grace dispatcher server looks now d).1 := by
  induction looks generalizing now d with
  | zero => exact absurd hlooks (Nat.not_lt_zero _)
  | succ looks ih =>
      cases hwake : (d.look grace dispatcher server now).wakeTime grace dispatcher server with
      | none =>
          simp only [run, hwake]
          exact .done hwake
      | some wake =>
          -- At the wake time at least one more half has stopped.
          have hprogress : now ≤ wake ∧ toStop grace dispatcher server wake < looks := by
            have hcases := hwake
            rw [h.wakeTime_look_eq] at hcases
            unfold toStop at hlooks ⊢
            split_ifs at hcases hlooks ⊢ <;> cases hcases <;> omega
          simp only [run, hwake]
          exact .again hwake hprogress.left (Nat.le_refl _)
            (ih (h.pass hwake hprogress.left (Nat.le_refl _)) hprogress.right)

end Draining

/-!
## What a drain comes to
-/

/-- How long a drain takes, and what it comes to. -/
structure DrainLaw (grace : Nat) (dispatcher : Half Bool) (server : Half (Except ε Unit))
    (result : Except ε Drain) (elapsed : Nat) : Prop where
  elapsed_eq : (elapsed : ℕ∞) = max (min dispatcher.duration grace) (min server.duration grace)
  fails_iff : ∀ e, result = .error e ↔ server.duration ≤ grace ∧ server.result = .error e
  dispatcher_iff : ∀ drain, result = .ok drain →
    (drain.dispatcher = true ↔ dispatcher.duration ≤ grace ∧ dispatcher.result = true)
  http_iff : ∀ drain, result = .ok drain → (drain.http = true ↔ server.duration ≤ grace)
  /-- It makes no difference when the halves are looked at, so long as nothing is overslept. -/
  scheduled : ∀ t d, Draining.Runs grace dispatcher server 0 {} t d →
    (d.conclude, t) = (result, elapsed)

section Conclusion

variable {grace : Nat} {dispatcher : Half Bool} {server : Half (Except ε Unit)}

def outcome (grace : Nat) (dispatcher : Half Bool) (server : Half (Except ε Unit)) :
    Except ε Drain :=
  (Draining.mk (dispatcher.last grace) (server.last grace)).conclude

theorem outcome_eq_error_iff {e : ε} : outcome grace dispatcher server = .error e ↔
    server.duration ≤ grace ∧ server.result = .error e := by
  rw [← Half.last_eq_ended_iff]
  unfold outcome Draining.conclude
  cases server.last grace with
  | waiting => simp
  | expired => simp
  | ended served =>
      cases served with
      | error e => simp
      | ok _ => simp

theorem flags_of_outcome {drain : Drain} (h : outcome grace dispatcher server = .ok drain) :
    (drain.dispatcher = true ↔ dispatcher.last grace = .ended true) ∧
      (drain.http = true ↔ ∃ served, server.last grace = .ended served) := by
  unfold outcome Draining.conclude at h
  cases hserver : server.last grace with
  | waiting =>
      rw [hserver] at h
      cases h
      cases dispatcher.last grace <;> simp
  | expired =>
      rw [hserver] at h
      cases h
      cases dispatcher.last grace <;> simp
  | ended served =>
      rw [hserver] at h
      cases served with
      | error e => cases h
      | ok _ =>
          cases h
          cases dispatcher.last grace <;> simp

theorem runs_run_start (grace : Nat) (dispatcher : Half Bool) (server : Half (Except ε Unit)) :
    Draining.Runs grace dispatcher server 0 {}
      (Draining.run grace dispatcher server 3 0 {}).2
      (Draining.run grace dispatcher server 3 0 {}).1 := by
  refine Draining.tracks_start.runs_run ?_
  unfold Draining.toStop
  split_ifs <;> omega

theorem conclude_of_runs {t : Nat} {d : Draining ε}
    (h : Draining.Runs grace dispatcher server 0 {} t d) :
    t = max (dispatcher.stop grace) (server.stop grace) ∧
      d.conclude = outcome grace dispatcher server := by
  rcases h.eq_of_tracks Draining.tracks_start with ⟨ht, rfl⟩
  exact ⟨ht, rfl⟩

end Conclusion

theorem drainLaw_run (grace : Nat) (dispatcher : Half Bool) (server : Half (Except ε Unit)) :
    DrainLaw grace dispatcher server (Draining.run grace dispatcher server 3 0 {}).1.conclude
      (Draining.run grace dispatcher server 3 0 {}).2 := by
  rcases conclude_of_runs (runs_run_start grace dispatcher server) with ⟨helapsed, hresult⟩
  rw [hresult, helapsed]
  constructor
  · rw [← Half.coe_stop, ← Half.coe_stop]
    exact Nat.mono_cast.map_max
  · intro e
    exact outcome_eq_error_iff
  · intro drain hdrain
    rw [(flags_of_outcome hdrain).left, Half.last_eq_ended_iff]
  · intro drain hdrain
    rw [(flags_of_outcome hdrain).right]
    simp only [Half.last_eq_ended_iff, exists_and_left, exists_eq', and_true]
  · intro t d hruns
    rcases conclude_of_runs hruns with ⟨rfl, hconclude⟩
    rw [hconclude]

/-- A drain from a reading of the clock returns, with a result and in a time that keep the law. -/
def Drains (clock grace : Nat) (dispatcher : Half Bool) (server : Half (Except ε Unit)) : Prop :=
  ∃ result elapsed, drainWithin clock grace dispatcher server = some (result, elapsed) ∧
    DrainLaw grace dispatcher server result elapsed

/--
A drain waits for each half until it has ended or used up the time. Only an error of the
server that comes in time makes it fail, and otherwise it tells of each half whether it
stopped in time. So it is exactly as long as the clock can tell the deadline.
-/
theorem drains_iff_hasDeadline (clock grace : Nat) (dispatcher : Half Bool)
    (server : Half (Except ε Unit)) :
    Drains clock grace dispatcher server ↔ HasDeadline clock grace := by
  constructor
  · rintro ⟨result, elapsed, hdrain, -⟩
    unfold drainWithin at hdrain
    split at hdrain
    · next hdeadline => exact hdeadline
    · cases hdrain
  · intro hdeadline
    refine ⟨_, _, ?_, drainLaw_run grace dispatcher server⟩
    rw [drainWithin, if_pos hdeadline]

/-- A grace of as many seconds as 64 bits can hold is longer than what is left of any clock. -/
theorem not_drains_longest :
    ¬ Drains 0 18446744073709551615000 ⟨some 10, true⟩
      (⟨some 10, .ok ()⟩ : Half (Except String Unit)) := by
  rintro ⟨result, elapsed, hdrain, -⟩
  have hnone : drainWithin 0 18446744073709551615000 ⟨some 10, true⟩
      (⟨some 10, .ok ()⟩ : Half (Except String Unit)) = none := if_neg (by decide)
  rw [hnone] at hdrain
  cases hdrain

end Shutdown
end Courier
