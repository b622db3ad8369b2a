import Courier.Proofs.Rpc.Cooldown
import Courier.Proofs.Rpc.Recovery

/-!
# Reports to a closed breaker

A closed breaker is told of calls that were answered and of calls that failed. It should open
when as many of the last reports as its threshold says are failures, none of them older than
the failure window. It keeps a number and the beginning of one window instead of the times of
all failures, and a failure after the end of that window makes it forget those within it,
recent ones too.

The main statement is that failures that should open the breaker do so exactly if a window
begins with the oldest of them.
-/

namespace Courier
namespace Rpc

open Breaker

/-- What a closed breaker was told of a call: when, and whether the call had failed. -/
structure Report where
  time : Nat
  failed : Bool
deriving DecidableEq, Repr

namespace Report

/--
How many failures are counted in the window that runs after some reports, latest first, and
when it began. None runs after an answer.
-/
def tally (window : Nat) : List Report → Option (Nat × Nat)
  | [] => none
  | r :: earlier =>
    if r.failed then
      match tally window earlier with
      | none => some (1, r.time)
      | some (counted, since) =>
        if window < r.time - since then some (1, r.time) else some (counted + 1, since)
    else none

/-- A failure that comes after some reports does not fall into the window of another. -/
def BeginsWindow (window time : Nat) (earlier : List Report) : Prop :=
  ∀ counted since, tally window earlier = some (counted, since) → window < time - since

/-- The last failures, latest first down to the oldest, are as many as open a breaker, and the
oldest still counts. -/
structure Warranted (settings : BreakerSettings) (now : Nat) (recent : List Report)
    (oldest : Report) : Prop where
  count : recent.length + 1 = settings.failureThreshold
  failed : ∀ r ∈ oldest :: recent, r.failed = true
  fresh : now ≤ oldest.time + settings.failureWindow

variable {window : Nat}

theorem exists_of_tally {r : Report} {reports : List Report} {n since : Nat}
    (h : tally window (r :: reports) = some (n, since)) :
    r.time ≤ since + window ∧ ∃ recent oldest earlier,
      r :: reports = recent ++ oldest :: earlier ∧ recent.length + 1 = n ∧
        oldest.time = since ∧ ∀ r ∈ oldest :: recent, r.failed = true := by
  induction reports generalizing r n since with
  | nil =>
      by_cases hfailed : r.failed
      · simp only [tally, hfailed, if_true] at h
        cases h
        exact ⟨Nat.le_add_right _ _, [], r, [], rfl, rfl, rfl, by simpa using hfailed⟩
      · simp [tally, hfailed] at h
  | cons r' earlier ih =>
      by_cases hfailed : r.failed
      · rw [tally, if_pos hfailed] at h
        have hfirst : some (1, r.time) = some (n, since) →
            r.time ≤ since + window ∧ ∃ recent oldest older,
              r :: r' :: earlier = recent ++ oldest :: older ∧ recent.length + 1 = n ∧
                oldest.time = since ∧ ∀ r ∈ oldest :: recent, r.failed = true := by
          intro heq
          cases heq
          exact ⟨Nat.le_add_right _ _, [], r, r' :: earlier, rfl, rfl, rfl, by simpa using hfailed⟩
        cases hbefore : tally window (r' :: earlier) with
        | none =>
            rw [hbefore] at h
            exact hfirst h
        | some running =>
            rcases running with ⟨counted, start⟩
            simp only [hbefore] at h
            split at h
            · exact hfirst h
            · rename_i hwithin
              cases h
              rcases ih hbefore with ⟨_, recent, oldest, older, hsplit, hcount, htime, hall⟩
              refine ⟨by omega, r :: recent, oldest, older, by rw [hsplit]; rfl, ?_, htime, ?_⟩
              · rw [List.length_cons, hcount]
              · intro x hx
                rcases List.mem_cons.mp hx with rfl | hx
                · exact hall x List.mem_cons_self
                · rcases List.mem_cons.mp hx with rfl | hx
                  · exact hfailed
                  · exact hall x (List.mem_cons_of_mem _ hx)
      · simp [tally, hfailed] at h

theorem tally_of_beginsWindow {recent earlier : List Report} {oldest : Report} {now : Nat}
    (hbegins : BeginsWindow window oldest.time earlier)
    (hfailed : ∀ r ∈ oldest :: recent, r.failed = true) (hpast : ∀ r ∈ recent, r.time ≤ now)
    (hfresh : now ≤ oldest.time + window) :
    tally window (recent ++ oldest :: earlier) = some (recent.length + 1, oldest.time) := by
  induction recent with
  | nil =>
      have hoff : oldest.failed = true := hfailed oldest List.mem_cons_self
      rw [List.nil_append, tally, if_pos hoff]
      cases hbefore : tally window earlier with
      | none => rfl
      | some running =>
          simp only [if_pos (hbegins running.1 running.2 hbefore)]
          rfl
  | cons r recent ih =>
      have hshort : tally window (recent ++ oldest :: earlier) =
          some (recent.length + 1, oldest.time) := by
        refine ih ?_ fun x hx => hpast x (List.mem_cons_of_mem _ hx)
        intro x hx
        rcases List.mem_cons.mp hx with rfl | hx
        · exact hfailed x List.mem_cons_self
        · exact hfailed x (List.mem_cons_of_mem _ (List.mem_cons_of_mem _ hx))
      have hr : r.failed = true := hfailed r (List.mem_cons_of_mem _ List.mem_cons_self)
      have htime := hpast r List.mem_cons_self
      rw [List.cons_append, tally, if_pos hr, hshort]
      simp only
      rw [if_neg (by omega), List.length_cons]

theorem beginsWindow_of_tally {recent earlier : List Report} {oldest : Report} {since : Nat}
    (h : tally window (recent ++ oldest :: earlier) = some (recent.length + 1, since)) :
    BeginsWindow window oldest.time earlier := by
  induction recent generalizing since with
  | nil =>
      intro counted start hbefore
      rw [List.nil_append, tally] at h
      simp only [hbefore] at h
      split at h
      · split at h
        · rename_i hover
          exact hover
        · -- A failure in a running window would be at least the second one.
          cases h
          cases earlier with
          | nil => cases hbefore
          | cons r rest =>
              rcases exists_of_tally hbefore with ⟨_, recent, oldest', older, _, hcount, _⟩
              cases hcount
      · cases h
  | cons r recent ih =>
      rw [List.cons_append, tally] at h
      split at h
      · cases hbefore : tally window (recent ++ oldest :: earlier) with
        | none =>
            rw [hbefore] at h
            simp at h
        | some running =>
            rcases running with ⟨counted, start⟩
            simp only [hbefore] at h
            split at h
            · simp at h
            · simp only [List.length_cons, Option.some.injEq, Prod.mk.injEq,
                Nat.add_right_cancel_iff] at h
              rw [h.left] at hbefore
              exact ih hbefore
      · cases h

end Report

/-!
## Reports along a run
-/

/--
The reports since the breaker was last closed, latest first, when a permit is given back. An
answer closes a breaker that is not closed, and a dropped permit tells nothing.
-/
def Settlement.reports (closed : Bool) (now : Nat) (earlier : List Report) :
    Settlement → List Report
  | .succeed => if closed then ⟨now, false⟩ :: earlier else []
  | .fail => if closed then ⟨now, true⟩ :: earlier else earlier
  | .release => earlier

theorem Settlement.past_reports {now : Nat} {earlier : List Report}
    (h : ∀ r ∈ earlier, r.time ≤ now) (closed : Bool) (how : Settlement) :
    ∀ r ∈ how.reports closed now earlier, r.time ≤ now := by
  have hcons : ∀ failed, ∀ r ∈ (⟨now, failed⟩ : Report) :: earlier, r.time ≤ now :=
    fun failed => List.forall_mem_cons.mpr ⟨Nat.le_refl _, h⟩
  cases how with
  | succeed =>
      cases closed with
      | true => exact hcons false
      | false => exact fun r hr => absurd hr List.not_mem_nil
  | fail =>
      cases closed with
      | true => exact hcons true
      | false => exact h
  | release => exact h

namespace Gate

def reportsAfter (g : Gate) (reports : List Report) : Deed → List Report
  | .settle holder how =>
    if g.held holder = none then reports
    else how.reports (g.state.phase = .closed) g.now reports
  | .wait _ => reports
  | .acquire _ => reports

/-- A closed breaker has counted the failures of the window that runs. -/
structure Tallied (g : Gate) (reports : List Report) : Prop where
  past : ∀ r ∈ reports, r.time ≤ g.now
  counted : ∀ {failures since}, g.state = .closed failures since →
    Report.tally g.settings.failureWindow reports =
      if failures = 0 then none else some (failures, since)

theorem tallied_fresh (settings : BreakerSettings) : Tallied { settings := settings } [] where
  past := nofun
  counted := by
    intro failures since h
    cases h
    rfl

theorem tally_failed {settings : BreakerSettings} {now failures since : Nat}
    {reports : List Report}
    (h : Report.tally settings.failureWindow reports =
      if failures = 0 then none else some (failures, since)) :
    Report.tally settings.failureWindow (⟨now, true⟩ :: reports) =
      some ((failureRun settings now failures since).1 + 1,
        (failureRun settings now failures since).2) := by
  rw [Report.tally, if_pos rfl, h]
  unfold failureRun
  by_cases hzero : failures = 0
  · simp [hzero]
  · by_cases hover : settings.failureWindow < now - since <;> simp [hzero, hover]

theorem reportsAfter_of_held {g : Gate} {holder : Nat} {trial : Bool}
    (hheld : g.held holder = some trial) (reports : List Report) (how : Settlement) :
    g.reportsAfter reports (.settle holder how) =
      how.reports (g.state.phase = .closed) g.now reports := by
  rw [reportsAfter, if_neg (by simp [hheld])]

theorem counted_of_closed {settings : BreakerSettings} {now failures since counted start : Nat}
    {trial : Bool} {how : Settlement} {reports : List Report}
    (h : Report.tally settings.failureWindow reports =
      if failures = 0 then none else some (failures, since))
    (hstate : (how.change settings now trial (.closed failures since)).state =
      .closed counted start) :
    Report.tally settings.failureWindow (how.reports true now reports) =
      if counted = 0 then none else some (counted, start) := by
  cases how with
  | succeed =>
      cases hstate
      rfl
  | release =>
      cases hstate
      exact h
  | fail =>
      rw [Settlement.change, fail_closed] at hstate
      split at hstate
      · cases hstate
      · cases hstate
        rw [Settlement.reports, if_pos rfl, tally_failed h, if_neg (Nat.succ_ne_zero _)]

theorem tallied_of_turn {g g' : Gate} {d : Deed} {reports : List Report} (hturn : Turn g d g')
    (h : g.Tallied reports) : g'.Tallied (g.reportsAfter reports d) := by
  cases hturn with
  | waited ms =>
      refine ⟨fun r hr => Nat.le_trans (h.past r hr) (Nat.le_add_right _ ms), ?_⟩
      intro failures since hs
      cases hsome : g.state? with
      | some s =>
          rw [state_of_some (g := { g with now := g.now + ms }) hsome] at hs
          exact h.counted ((state_of_some hsome).trans hs)
      | none =>
          have hbefore : g.state = .closed 0 g.now := by simp [state, hsome, State.fresh]
          have hafter : ({ g with now := g.now + ms } : Gate).state =
              .closed 0 (g.now + ms) := by simp [state, hsome, State.fresh]
          rw [hafter] at hs
          cases hs
          exact (h.counted hbefore).trans rfl
  | turnedAway holder _ => exact h
  | admitted holder failures since _ hclosed =>
      refine ⟨h.past, fun hs => ?_⟩
      cases hs
      exact h.counted hclosed
  | probing holder reopenAt _ _ _ =>
      refine ⟨h.past, fun hs => ?_⟩
      cases hs
  | stray holder how hfree =>
      have hsame : g.reportsAfter reports (.settle holder how) = reports := if_pos hfree
      rw [hsame]
      exact h
  | settled holder how trial hheld =>
      rw [reportsAfter_of_held hheld]
      refine ⟨how.past_reports h.past _, ?_⟩
      intro counted start hafter
      cases hs : g.state with
      | closed failures since =>
          rw [hs] at hafter
          exact counted_of_closed (h.counted hs) hafter
      | opened reopenAt =>
          rw [hs] at hafter
          cases how <;> cases hafter
          rfl
      | halfOpen =>
          rw [hs] at hafter
          cases how <;> cases trial <;> cases hafter <;> rfl

/-!
## Failures that open
-/

/-- A failure opens a closed breaker exactly if it counts enough failures then. -/
theorem opened_iff_tally {g : Gate} {reports : List Report} {holder : Nat} {trial : Bool}
    (h : g.Tallied reports) (hheld : g.held holder = some trial)
    (hclosed : g.state.phase = .closed) :
    (∃ reopenAt, (g.step (.settle holder .fail)).state? = some (.opened reopenAt)) ↔
      ∃ n since, g.settings.failureThreshold ≤ n ∧
        Report.tally g.settings.failureWindow (⟨g.now, true⟩ :: reports) = some (n, since) := by
  cases hs : g.state with
  | opened reopenAt =>
      rw [hs] at hclosed
      cases hclosed
  | halfOpen =>
      rw [hs] at hclosed
      cases hclosed
  | closed failures since =>
      have hstep : (g.step (.settle holder .fail)).state? =
          some (fail g.settings g.now (.closed failures since)).state := by
        rw [step, hheld, hs]
        rfl
      rw [hstep, fail_closed, tally_failed (h.counted hs)]
      constructor
      · rintro ⟨reopenAt, hopen⟩
        split at hopen
        · rename_i hmany
          exact ⟨_, _, hmany, rfl⟩
        · cases hopen
      · rintro ⟨n, start, hmany, heq⟩
        cases heq
        rw [if_pos hmany]
        exact ⟨_, rfl⟩

theorem tally_eq_threshold {settings : BreakerSettings} {g : Gate} {reports : List Report}
    (hsound : g.Sound settings) (h : g.Tallied reports) (hpos : 1 ≤ settings.failureThreshold)
    (hclosed : g.state.phase = .closed) {n since : Nat} (hmany : settings.failureThreshold ≤ n)
    (htally : Report.tally settings.failureWindow (⟨g.now, true⟩ :: reports) = some (n, since)) :
    n = settings.failureThreshold := by
  cases hs : g.state with
  | opened reopenAt =>
      rw [hs] at hclosed
      cases hclosed
  | halfOpen =>
      rw [hs] at hclosed
      cases hclosed
  | closed failures start =>
      have hfew := hsound.counted_state hs
      have hcounted := h.counted hs
      rw [hsound.settings_eq] at hcounted
      rw [tally_failed hcounted, Option.some.injEq, Prod.mk.injEq] at htally
      unfold failureRun at htally
      split at htally <;> simp only at htally <;> omega

end Gate

namespace Traffic

/-- A run of traffic and the reports to the breaker of a target, one act further. -/
def told (target : String) (s : Traffic × List Report) (a : Act) : Traffic × List Report :=
  (s.1.step a, (a.at? target).elim s.2 ((s.1.gate target).reportsAfter s.2))

/-- The reports to the breaker of a target in the course of a run, since it was closed last;
latest first. -/
def reports (t : Traffic) (target : String) (acts : List Act) : List Report :=
  (acts.foldl (told target) (t, [])).2

theorem foldl_told_fst (target : String) (s : Traffic × List Report) (acts : List Act) :
    (acts.foldl (told target) s).1 = s.1.run acts := by
  induction acts generalizing s with
  | nil => rfl
  | cons a rest ih => exact ih (told target s a)

theorem reports_snoc (t : Traffic) (target : String) (acts : List Act) (a : Act) :
    t.reports target (acts ++ [a]) =
      (a.at? target).elim (t.reports target acts)
        (((t.run acts).gate target).reportsAfter (t.reports target acts)) := by
  rw [reports, List.foldl_append, List.foldl_cons, List.foldl_nil, told, foldl_told_fst]
  rfl

theorem tallied_run (settings : BreakerSettings) (target : String) (acts : List Act) :
    (((start settings).run acts).gate target).Tallied ((start settings).reports target acts) := by
  induction acts using List.reverseRecOn with
  | nil => exact Gate.tallied_fresh settings
  | append_singleton acts a ih =>
      rw [run_snoc, reports_snoc, gate_step]
      cases a.at? target with
      | none => exact ih
      | some d => exact Gate.tallied_of_turn (Gate.turn_step _ d) ih

theorem sound_gate_run (settings : BreakerSettings) (target : String) (acts : List Act) :
    (((start settings).run acts).gate target).Sound settings :=
  gate_invariant Gate.sound_of_turn (start settings) target (Gate.sound_fresh settings) acts

theorem settings_gate_run (settings : BreakerSettings) (target : String) (acts : List Act) :
    (((start settings).run acts).gate target).settings = settings :=
  (sound_gate_run settings target acts).settings_eq

theorem phase_of_closed {t : Traffic} {target : String} (h : t.phase? target = some .closed) :
    (t.gate target).state.phase = .closed := by
  rw [phase?_eq, Option.map_eq_some_iff] at h
  rcases h with ⟨s, hs, hphase⟩
  rw [Gate.state_of_some hs]
  exact hphase

theorem reports_failed {t : Traffic} {target : String} {holder : Nat} {acts : List Act}
    {trial : Bool} (hclosed : (t.run acts).phase? target = some .closed)
    (hheld : (t.run acts).held target holder = some trial) :
    t.reports target (acts ++ [.settle target holder .fail]) =
      ⟨(t.run acts).now, true⟩ :: t.reports target acts := by
  rw [reports_snoc]
  simp only [Act.at?, if_true, Option.elim]
  rw [Gate.reportsAfter_of_held (g := gate _ target) hheld, phase_of_closed hclosed]
  rfl

/-!
## When failures open a breaker
-/

def FailsClosed (t : Traffic) (target : String) (holder : Nat) : Prop :=
  t.phase? target = some .closed ∧ t.held target holder ≠ none

instance (t : Traffic) (target : String) (holder : Nat) :
    Decidable (t.FailsClosed target holder) :=
  inferInstanceAs (Decidable (_ ∧ _))

/--
If the last reports to a closed breaker are failures that should open it, it opens exactly if a
failure window begins with the oldest of them.
-/
theorem opened_iff_beginsWindow {settings : BreakerSettings} {acts : List Act} {target : String}
    {holder : Nat} (hfails : ((start settings).run acts).FailsClosed target holder)
    {recent earlier : List Report} {oldest : Report}
    (hreports : (start settings).reports target (acts ++ [.settle target holder .fail]) =
      recent ++ oldest :: earlier)
    (h : Report.Warranted settings ((start settings).run acts).now recent oldest) :
    ((start settings).run (acts ++ [.settle target holder .fail])).phase? target = some .opened ↔
      Report.BeginsWindow settings.failureWindow oldest.time earlier := by
  rcases Option.ne_none_iff_exists'.mp hfails.right with ⟨trial, hheld⟩
  have hclosed := phase_of_closed hfails.left
  have htallied := tallied_run settings target acts
  have hsettings := settings_gate_run settings target acts
  have hopened := Gate.opened_iff_tally htallied hheld hclosed
  rw [hsettings] at hopened
  have hlast := reports_failed hfails.left hheld
  rw [run_snoc, phase?_eq_opened_iff, gate_settle_self, hopened]
  change (∃ n since, _ ∧ Report.tally _ (⟨((start settings).run acts).now, true⟩ :: _) = _) ↔ _
  rw [← hlast, hreports]
  constructor
  · rintro ⟨n, since, hmany, htally⟩
    have hall : Report.tally settings.failureWindow
        (⟨(((start settings).run acts).gate target).now, true⟩ ::
          (start settings).reports target acts) = some (n, since) := by
      change Report.tally _ (⟨((start settings).run acts).now, true⟩ :: _) = _
      rw [← hlast, hreports]
      exact htally
    have hpositive : 1 ≤ settings.failureThreshold := by
      rw [← h.count]
      exact Nat.le_add_left 1 _
    have hn : n = recent.length + 1 := by
      rw [h.count]
      exact Gate.tally_eq_threshold (sound_gate_run settings target acts) htallied hpositive
        hclosed hmany hall
    rw [hn] at htally
    exact Report.beginsWindow_of_tally htally
  · intro hbegins
    refine ⟨recent.length + 1, oldest.time, Nat.le_of_eq h.count.symm, ?_⟩
    refine Report.tally_of_beginsWindow hbegins h.failed ?_ h.fresh
    intro r hr
    have hmem : r ∈ ⟨((start settings).run acts).now, true⟩ ::
        (start settings).reports target acts := by
      rw [← hlast, hreports]
      exact List.mem_append_left _ hr
    rcases List.mem_cons.mp hmem with rfl | hmem
    · exact Nat.le_refl _
    · exact htallied.past r hmem

def failingRun (first second third : Nat) : List Act :=
  [.acquire "gw" 0, .acquire "gw" 1, .acquire "gw" 2, .acquire "gw" 3, .settle "gw" 0 .fail,
    .wait first, .settle "gw" 1 .fail, .wait second, .settle "gw" 2 .fail, .wait third]

/-- The first failure is too old when the second one comes, with which a window begins. -/
theorem opened_of_failingRun :
    ((start { failureThreshold := 3 }).run (failingRun 60001 59000 1000)).FailsClosed "gw" 3 ∧
      (start { failureThreshold := 3 }).reports "gw"
          (failingRun 60001 59000 1000 ++ [.settle "gw" 3 .fail]) =
        [⟨120001, true⟩, ⟨119001, true⟩] ++ ⟨60001, true⟩ :: [⟨0, true⟩] ∧
      Report.Warranted { failureThreshold := 3 } 120001 [⟨120001, true⟩, ⟨119001, true⟩]
        ⟨60001, true⟩ ∧
      ((start { failureThreshold := 3 }).run
        (failingRun 60001 59000 1000 ++ [.settle "gw" 3 .fail])).phase? "gw" = some .opened := by
  have hfails : ((start { failureThreshold := 3 }).run
      (failingRun 60001 59000 1000)).FailsClosed "gw" 3 := by decide
  have hreports : (start { failureThreshold := 3 }).reports "gw"
      (failingRun 60001 59000 1000 ++ [.settle "gw" 3 .fail]) =
        [⟨120001, true⟩, ⟨119001, true⟩] ++ ⟨60001, true⟩ :: [⟨0, true⟩] := by decide
  have hwarranted : Report.Warranted { failureThreshold := 3 } 120001
      [⟨120001, true⟩, ⟨119001, true⟩] ⟨60001, true⟩ := ⟨rfl, by decide, by decide⟩
  refine ⟨hfails, hreports, hwarranted,
    (opened_iff_beginsWindow hfails hreports hwarranted).mpr ?_⟩
  intro counted since htally
  cases htally
  decide

/--
The third failure comes after the end of the first one's window, and the second one, which is
recent, is forgotten with the first. So the last three failures do not open the breaker.
-/
theorem not_opened_of_straddled :
    ¬ ∀ settings acts target holder recent oldest earlier,
      ((start settings).run acts).FailsClosed target holder →
      (start settings).reports target (acts ++ [.settle target holder .fail]) =
        recent ++ oldest :: earlier →
      Report.Warranted settings ((start settings).run acts).now recent oldest →
        ((start settings).run (acts ++ [.settle target holder .fail])).phase? target =
          some .opened := by
  intro h
  have hopened := h { failureThreshold := 3 } (failingRun 50000 11000 1000) "gw" 3
    [⟨62000, true⟩, ⟨61000, true⟩] ⟨50000, true⟩ [⟨0, true⟩] (by decide) (by decide)
    ⟨rfl, by decide, by decide⟩
  exact absurd hopened (by decide)

end Traffic
end Rpc
end Courier
