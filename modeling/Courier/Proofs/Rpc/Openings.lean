import Courier.Proofs.Rpc.Reports

/-!
# Why breakers open

A closed breaker opens for its last reports only: as many failures as its threshold says, with
no answer between them and none too old. Permits that are dropped are no reports.

For calls this is told by what their attempts come to: an attempt that fails in transit is a
failure, one that is answered, be it with an error of the application, is not, and one that
finds no endpoint or is cancelled counts for nothing. The main statement is `opens_for_cause`.
-/

namespace Courier
namespace Rpc

open Breaker

/-- The last reports are the failures that open a breaker. -/
def Report.Cause (settings : BreakerSettings) (now : Nat) (reports : List Report) : Prop :=
  ∃ recent oldest earlier, reports = recent ++ oldest :: earlier ∧
    Report.Warranted settings now recent oldest

namespace Gate

theorem fail_of_opening {g g' : Gate} {d : Deed} (hturn : Turn g d g')
    (hclosed : g.state.phase = .closed) {reopenAt : Nat}
    (hopened : g'.state? = some (.opened reopenAt)) :
    ∃ holder trial, d = .settle holder .fail ∧ g.held holder = some trial := by
  have hsame : g.state? ≠ some (.opened reopenAt) := by
    intro hs
    rw [state_of_some hs] at hclosed
    cases hclosed
  cases hturn with
  | waited ms => exact absurd hopened hsame
  | turnedAway holder _ => exact absurd hopened hsame
  | admitted holder failures since _ _ => cases hopened
  | probing holder r _ _ _ => cases hopened
  | stray holder how _ => exact absurd hopened hsame
  | settled holder how trial hheld =>
      have hafter := Option.some.inj hopened
      cases hs : g.state with
      | opened r =>
          rw [hs] at hclosed
          cases hclosed
      | halfOpen =>
          rw [hs] at hclosed
          cases hclosed
      | closed failures since =>
          rw [hs] at hafter
          cases how with
          | fail => exact ⟨holder, trial, rfl, hheld⟩
          | succeed => cases hafter
          | release => cases hafter

def Made (g : Gate) : Prop :=
  ∀ holder, g.held holder ≠ none → g.state? ≠ none

theorem made_of_turn {g g' : Gate} {d : Deed} (hturn : Turn g d g') (h : g.Made) : g'.Made := by
  cases hturn with
  | waited ms => exact h
  | turnedAway holder _ => exact h
  | admitted holder failures since _ _ => exact fun _ _ => Option.some_ne_none _
  | probing holder reopenAt _ _ _ => exact fun _ _ => Option.some_ne_none _
  | stray holder how _ => exact h
  | settled holder how trial _ => exact fun _ _ => Option.some_ne_none _

end Gate

namespace Traffic

/-- Only a failure moves the breaker of the target from closed to open, and it does so for cause. -/
def OpensForCause (settings : BreakerSettings) (target : String) : Prop :=
  ∀ acts a, ((start settings).run acts).phase? target = some .closed →
    ((start settings).run (acts ++ [a])).phase? target = some .opened →
      (∃ holder, a = .settle target holder .fail) ∧
        Report.Cause settings ((start settings).run acts).now
          ((start settings).reports target (acts ++ [a]))

theorem cause_of_opening {settings : BreakerSettings} (hpos : 1 ≤ settings.failureThreshold)
    (target : String) : OpensForCause settings target := by
  intro acts a hclosed hopened
  have hphase := phase_of_closed hclosed
  have htallied := tallied_run settings target acts
  have hsound := sound_gate_run settings target acts
  rw [run_snoc] at hopened
  rcases (phase?_eq_opened_iff _ _).mp hopened with ⟨reopenAt, hafter⟩
  rcases gate_turn ((start settings).run acts) target a with hsame | ⟨d, hat, hturn⟩
  · rw [hsame] at hafter
    rw [Gate.state_of_some hafter] at hphase
    cases hphase
  · rcases Gate.fail_of_opening hturn hphase hafter with ⟨holder, trial, rfl, hheld⟩
    have ha := Act.eq_settle_of_at? hat
    subst ha
    refine ⟨⟨holder, rfl⟩, ?_⟩
    rw [gate_settle_self] at hafter
    rcases (Gate.opened_iff_tally htallied hheld hphase).mp ⟨reopenAt, hafter⟩ with
      ⟨n, since, hmany, htally⟩
    rw [hsound.settings_eq] at hmany htally
    have hcount := Gate.tally_eq_threshold hsound htallied hpos hphase hmany htally
    rcases Report.exists_of_tally htally with
      ⟨htime, recent, oldest, earlier, hsplit, hlength, hsince, hfailed⟩
    rw [reports_failed hclosed hheld]
    refine ⟨recent, oldest, earlier, hsplit, hlength.trans hcount, hfailed, ?_⟩
    rw [hsince]
    exact htime

theorem phase?_eq_closed_iff {t : Traffic} {target : String}
    (h : (t.gate target).state? ≠ none) :
    t.phase? target = some .closed ↔ (t.gate target).state.phase = .closed := by
  rcases Option.ne_none_iff_exists'.mp h with ⟨s, hs⟩
  rw [phase?_eq, hs, Gate.state_of_some hs, Option.map_some, Option.some.injEq]

end Traffic

variable {δ α : Type}

namespace Flights

/-!
## What attempts come to
-/

/-- The attempt that an event brings to its end after a call to an endpoint: for which target,
and with what outcome. -/
def ended? (w : Flights δ α) : Event α → Option (String × Except CallError α)
  | .move number =>
    (w.find? number).bind fun f =>
      if f.cancelled then none
      else
        match f.call.stage with
        | .calling permit since reply =>
          (Call.answerBy f.rules.timeout since w.now reply).map fun outcome =>
            (permit.target, outcome)
        | _ => none
  | _ => none

/-- Whether an outcome counts as a failure: an application error is an answer. -/
def hasFailed : Except CallError α → Bool
  | .error (.transient _) => true
  | .error (.application _ _) => false
  | .ok _ => false

/-- The reports to a breaker by what an attempt that is let in by it has come to. -/
def reportsOf (closed : Bool) (now : Nat) (earlier : List Report) (outcome : Except CallError α) :
    List Report :=
  if closed then ⟨now, hasFailed outcome⟩ :: earlier
  else if hasFailed outcome then earlier
  else []

/-- Calls in flight and the reports to the breaker of a target, one event further. -/
def told (target : String) (s : Flights δ α × List Report) (e : Event α) :
    Flights δ α × List Report :=
  (s.1.act e,
    match s.1.ended? e with
    | none => s.2
    | some (u, outcome) =>
      if u = target then
        reportsOf (s.1.shared.breakers.phase? target = some .closed) s.1.now s.2 outcome
      else s.2)

/-- The reports to the breaker of a target by what attempts have come to since it was closed
last; latest first. -/
def reports (w : Flights δ α) (target : String) (events : List (Event α)) : List Report :=
  (events.foldl (told target) (w, [])).2

inductive Seen (w : Flights δ α) (e : Event α) : Option Act → Prop where
  | nothing (h : w.ended? e = none) : Seen w e none
  | other {a : Act} (h : w.ended? e = none) (quiet : ∀ target holder how,
      a = .settle target holder how → how = .release) : Seen w e (some a)
  | ended {target : String} {number : Nat} {outcome : Except CallError α}
      (h : w.ended? e = some (target, outcome)) (held : w.held target number ≠ none) :
      Seen w e (some (.settle target number (.ofOutcome outcome)))

theorem ended?_of_stage {w : Flights δ α} {f : Flight α} (hfind : w.find? f.number = some f)
    (hstage : ∀ permit since reply, f.call.stage ≠ .calling permit since reply) :
    w.ended? (.move f.number) = none := by
  rw [ended?, hfind, Option.bind_some]
  split
  · rfl
  · split
    · next permit since reply h => exact absurd h (hstage permit since reply)
    · rfl

theorem ended?_of_calling {w : Flights δ α} {f : Flight α} (hfind : w.find? f.number = some f)
    (hlive : f.cancelled = false) {permit : Permit} {since : Nat} {reply : Reply α}
    (hstage : f.call.stage = .calling permit since reply) :
    w.ended? (.move f.number) =
      (Call.answerBy f.rules.timeout since w.now reply).map fun outcome =>
        (permit.target, outcome) := by
  simp [ended?, hfind, hlive, hstage]

theorem seen_put {w : Flights δ α} {f : Flight α} (hfind : w.find? f.number = some f)
    (hlive : f.cancelled = false) {call : Call α} {shared : Shared δ}
    {mark : Option (Call.Mark α)}
    (h : Call.Move f.rules w.resolve f.plan w.now w.shared f.call mark shared call) :
    ∃ seen, Seen w (.move f.number) seen ∧
      (w.put { f with call := call } shared).traffic =
        seen.elim w.traffic w.traffic.step := by
  have hpermit : ∀ c : Call α, ({ f with call := c } : Flight α).permit? = c.permit? := by
    intro c
    simp [Flight.permit?, hlive]
  have hgrip := Call.grip_of_move h
  have hquiet : ∀ target holder how, Act.acquire f.rules.service f.number =
      .settle target holder how → how = .release := by
    intro target holder how heq
    cases heq
  cases h with
  | refused stage hask =>
      have hended := ended?_of_stage hfind (by simp [stage])
      refine ⟨_, .other hended hquiet, ?_⟩
      refine traffic_put_asked hfind ?_ ?_ ?_
      · exact (hpermit f.call).trans (by simp [Call.permit?, stage])
      · rw [hpermit, hask]
        rfl
      · rw [hask]
  | admitted stage hask look =>
      have hended := ended?_of_stage hfind (by simp [stage])
      refine ⟨_, .other hended hquiet, ?_⟩
      refine traffic_put_asked hfind ?_ ?_ ?_
      · exact (hpermit f.call).trans (by simp [Call.permit?, stage])
      · rw [hpermit, hask]
        rfl
      · rw [hask]
  | @unlocated permit since lookup e stage due found =>
      have hended := ended?_of_stage hfind (by simp [stage])
      refine ⟨_, .other (a := .settle permit.target f.number .release) hended ?_, ?_⟩
      · intro target holder how heq
        cases heq
        rfl
      · refine traffic_put_settled hfind ?_ ?_ rfl
        · exact (hpermit f.call).trans (by simp [Call.permit?, stage])
        · exact (hpermit _).trans rfl
  | called stage due found =>
      refine ⟨_, .nothing (ended?_of_stage hfind (by simp [stage])), ?_⟩
      refine traffic_put_kept hfind ?_ rfl
      exact (hpermit _).trans ((hpermit f.call).trans (by simp [Call.permit?, stage])).symm
  | @settled permit since reply outcome stage answer =>
      have hended := ended?_of_calling hfind hlive stage
      rw [answer, Option.map_some] at hended
      have hholds : f.permit? = some permit :=
        (hpermit f.call).trans (by simp [Call.permit?, stage])
      have hheld : w.held permit.target f.number ≠ none := by
        rw [held_of_find? hfind, Flight.holds_self hholds]
        exact Option.some_ne_none _
      refine ⟨_, .ended hended hheld, ?_⟩
      refine traffic_put_settled hfind hholds ?_ rfl
      exact (hpermit _).trans (Call.permit?_stageAfter f.rules w.now f.call outcome)
  | resumed stage due =>
      refine ⟨_, .nothing (ended?_of_stage hfind (by simp [stage])), ?_⟩
      refine traffic_put_kept hfind ?_ rfl
      exact (hpermit _).trans ((hpermit f.call).trans (by simp [Call.permit?, stage])).symm

theorem exists_seen_move (w : Flights δ α) (number : Nat) :
    ∃ seen, Seen w (.move number) seen ∧
      (w.move number).traffic = seen.elim w.traffic w.traffic.step := by
  cases hfind : w.find? number with
  | none => exact ⟨none, .nothing (by simp [ended?, hfind]), by simp [move, hfind]⟩
  | some f =>
      have hnumber := number_of_find? hfind
      subst hnumber
      cases hlive : f.cancelled with
      | true =>
          have hended : w.ended? (.move f.number) = none := by simp [ended?, hfind, hlive]
          exact ⟨none, .nothing hended, by simp [move, hfind, hlive]⟩
      | false =>
          cases hstep : f.call.step? f.rules w.resolve f.plan w.now w.shared with
          | some moved =>
              rcases moved with ⟨call, shared⟩
              rcases Call.exists_move_of_step? hstep with ⟨mark, hmove⟩
              rw [move_of_step? hfind hlive hstep]
              exact seen_put hfind hlive hmove
          | none =>
              refine ⟨none, .nothing ?_, by simp [move, hfind, hstep]⟩
              cases hstage : f.call.stage with
              | calling permit since reply =>
                  rw [ended?_of_calling hfind hlive hstage]
                  simp only [Call.step?, hstage, Option.map_eq_none_iff] at hstep
                  rw [hstep]
                  rfl
              | ready => exact ended?_of_stage hfind (by simp [hstage])
              | looking permit since lookup => exact ended?_of_stage hfind (by simp [hstage])
              | pausing resumeAt => exact ended?_of_stage hfind (by simp [hstage])
              | finished result => exact ended?_of_stage hfind (by simp [hstage])

theorem exists_seen_abort (w : Flights δ α) (number : Nat) :
    ∃ seen, Seen w (.cancel number) seen ∧
      (w.abort number).traffic = seen.elim w.traffic w.traffic.step := by
  have hsame : ∀ w' : Flights δ α, w'.traffic = w.traffic →
      ∃ seen, Seen w (.cancel number) seen ∧ w'.traffic = seen.elim w.traffic w.traffic.step :=
    fun _ h => ⟨none, .nothing rfl, h⟩
  unfold abort
  cases hfind : w.find? number with
  | none => exact hsame w rfl
  | some f =>
      have hnumber := number_of_find? hfind
      subst hnumber
      by_cases hover : f.cancelled ∨ (f.call.result?).isSome
      · simp only [hover, if_true]
        exact hsame w rfl
      · simp only [hover, if_false]
        have hlive : f.cancelled = false := by
          simpa using fun h => hover (Or.inl h)
        have hgone : ({ f with cancelled := true } : Flight α).permit? = none := by
          simp [Flight.permit?]
        have hpermit : f.permit? = f.call.permit? := by
          simp [Flight.permit?, hlive]
        cases hp : f.call.permit? with
        | none =>
            refine hsame _ (traffic_put_kept hfind ?_ ?_)
            · rw [hgone, hpermit, hp]
            · simp [Call.cancel, hp]
        | some permit =>
            refine ⟨_, .other (a := .settle permit.target f.number .release) rfl ?_, ?_⟩
            · intro target holder how heq
              cases heq
              rfl
            · refine traffic_put_settled hfind (hpermit.trans hp) hgone ?_
              simp only [Call.cancel, hp]
              rfl

theorem exists_seen (w : Flights δ α) (e : Event α) :
    ∃ seen, Seen w e seen ∧ (w.act e).traffic = seen.elim w.traffic w.traffic.step := by
  cases e with
  | wait ms => exact ⟨some (.wait ms), .other rfl nofun, rfl⟩
  | launch rules plan => exact ⟨none, .nothing rfl, traffic_launch w rules plan⟩
  | move number => exact exists_seen_move w number
  | yield number => exact ⟨none, .nothing rfl, traffic_yield w number⟩
  | cancel number => exact exists_seen_abort w number

/-!
## Reports along a run
-/

theorem foldl_told_fst (target : String) (s : Flights δ α × List Report)
    (events : List (Event α)) : (events.foldl (told target) s).1 = s.1.run events := by
  induction events generalizing s with
  | nil => rfl
  | cons e rest ih => exact ih (told target s e)

theorem reports_snoc (w : Flights δ α) (target : String) (events : List (Event α)) (e : Event α) :
    w.reports target (events ++ [e]) =
      (told target (w.run events, w.reports target events) e).2 := by
  rw [reports, List.foldl_append, List.foldl_cons, List.foldl_nil]
  exact congrArg (fun w' => (told target (w', _) e).2) (foldl_told_fst target (w, []) events)

theorem run_snoc (w : Flights δ α) (events : List (Event α)) (e : Event α) :
    w.run (events ++ [e]) = (w.run events).act e :=
  List.foldl_append

theorem reports_ofOutcome (closed : Bool) (now : Nat) (earlier : List Report)
    (outcome : Except CallError α) :
    (Settlement.ofOutcome outcome).reports closed now earlier =
      reportsOf closed now earlier outcome := by
  cases outcome with
  | ok value => cases closed <;> rfl
  | error e =>
      cases e with
      | transient causes => cases closed <;> rfl
      | application status message => cases closed <;> rfl

/-- What an event tells a breaker is what the act tells it that the breakers see. -/
theorem told_of_seen {w : Flights δ α} {e : Event α} {seen : Option Act}
    (h : Seen w e seen) {target : String} (hmade : (w.traffic.gate target).Made)
    (earlier : List Report) :
    (told target (w, earlier) e).2 =
      ((seen.bind (Act.at? target)).elim earlier
        ((w.traffic.gate target).reportsAfter earlier)) := by
  cases h with
  | nothing hended => simp [told, hended]
  | @other a hended quiet =>
      simp only [told, hended, Option.bind_some]
      cases a with
      | wait ms => rfl
      | acquire u holder =>
          by_cases hu : u = target <;> simp [Act.at?, hu, Gate.reportsAfter]
      | settle u holder how =>
          have hrelease := quiet u holder how rfl
          subst hrelease
          by_cases hu : u = target
          · simp only [Act.at?, if_pos hu, Option.elim, Gate.reportsAfter, Settlement.reports]
            exact (ite_self _).symm
          · simp [Act.at?, hu]
  | @ended u number outcome hended held =>
      simp only [told, hended, Option.bind_some]
      by_cases hu : u = target
      · subst hu
        rcases Option.ne_none_iff_exists'.mp held with ⟨trial, hheld⟩
        have hphase := Traffic.phase?_eq_closed_iff (hmade number held)
        simp only [Act.at?, if_true, Option.elim]
        rw [Gate.reportsAfter_of_held (g := w.traffic.gate u) hheld, reports_ofOutcome]
        simp only [← hphase]
        rfl
      · simp [Act.at?, hu]

theorem traffic_snoc {settings : BreakerSettings} {w : Flights δ α} {events : List (Event α)}
    {acts : List Act} {target : String} {e : Event α} {seen : Option Act}
    (hrun : (w.run events).traffic = (Traffic.start settings).run acts)
    (hreports : w.reports target events = (Traffic.start settings).reports target acts)
    (hseen : Seen (w.run events) e seen)
    (hstep : ((w.run events).act e).traffic =
      seen.elim (w.run events).traffic (w.run events).traffic.step) :
    (w.run (events ++ [e])).traffic = (Traffic.start settings).run (acts ++ seen.toList) ∧
      w.reports target (events ++ [e]) =
        (Traffic.start settings).reports target (acts ++ seen.toList) := by
  have hmade : ((w.run events).traffic.gate target).Made := by
    rw [hrun]
    exact Traffic.gate_invariant Gate.made_of_turn (.start settings) target
      (fun _ h => absurd rfl h) acts
  rw [run_snoc, hstep, reports_snoc, told_of_seen hseen hmade, hrun, hreports]
  cases seen with
  | none =>
      rw [Option.toList_none, List.append_nil]
      exact ⟨rfl, rfl⟩
  | some a =>
      rw [Option.toList_some, Traffic.run_snoc, Traffic.reports_snoc]
      exact ⟨rfl, rfl⟩

theorem exists_traffic_reports (settings : BreakerSettings) (resolve : Resolve δ) (lookups : δ)
    (target : String) (events : List (Event α)) :
    ∃ acts,
      ((idle settings resolve lookups).run events).traffic = (Traffic.start settings).run acts ∧
        (idle settings resolve lookups).reports target events =
          (Traffic.start settings).reports target acts := by
  induction events using List.reverseRecOn with
  | nil => exact ⟨[], rfl, rfl⟩
  | append_singleton events e ih =>
      rcases ih with ⟨acts, hrun, hreports⟩
      rcases exists_seen ((idle settings resolve lookups).run events) e with
        ⟨seen, hseen, hstep⟩
      exact ⟨acts ++ seen.toList, traffic_snoc hrun hreports hseen hstep⟩

/-- Only an attempt that fails in transit moves the breaker of the target from closed to open,
and it does so for cause. -/
def OpensForCause (w : Flights δ α) (settings : BreakerSettings) (target : String) : Prop :=
  ∀ events e, (w.run events).shared.breakers.phase? target = some .closed →
    (w.run (events ++ [e])).shared.breakers.phase? target = some .opened →
      (∃ causes, (w.run events).ended? e = some (target, .error (.transient causes))) ∧
        Report.Cause settings (w.run events).now (w.reports target (events ++ [e]))

theorem transient_of_fail {outcome : Except CallError α}
    (h : Settlement.ofOutcome outcome = .fail) :
    ∃ causes, outcome = .error (.transient causes) := by
  cases outcome with
  | ok value => cases h
  | error e =>
      cases e with
      | transient causes => exact ⟨causes, rfl⟩
      | application status message => cases h

end Flights

/-- Breakers open for cause only, whoever holds their permits; for calls in flight this is
whatever they call, and wherever they are cancelled. -/
theorem opens_for_cause (settings : BreakerSettings) (hpos : 1 ≤ settings.failureThreshold)
    (target : String) :
    Traffic.OpensForCause settings target ∧
      ∀ {δ α : Type} (resolve : Resolve δ) (lookups : δ),
        (Flights.idle settings resolve lookups : Flights δ α).OpensForCause settings target := by
  have htraffic := Traffic.cause_of_opening hpos target
  refine ⟨htraffic, ?_⟩
  intro δ α resolve lookups events e hclosed hopened
  rcases Flights.exists_traffic_reports settings resolve lookups target events with
    ⟨acts, hrun, hreports⟩
  rcases Flights.exists_seen ((Flights.idle settings resolve lookups).run events) e with
    ⟨seen, hseen, hstep⟩
  rcases Flights.traffic_snoc hrun hreports hseen hstep with ⟨hrun', hreports'⟩
  have hbefore : ((Traffic.start settings).run acts).phase? target = some .closed := by
    rw [← hrun]
    exact hclosed
  have hafter :
      ((Traffic.start settings).run (acts ++ seen.toList)).phase? target = some .opened := by
    rw [← hrun']
    exact hopened
  cases hseen with
  | nothing _ =>
      rw [Option.toList_none, List.append_nil, hbefore] at hafter
      cases hafter
  | other _ quiet =>
      rcases htraffic acts _ hbefore hafter with ⟨⟨holder, rfl⟩, _⟩
      cases quiet target holder .fail rfl
  | ended hended _ =>
      rcases htraffic acts _ hbefore hafter with ⟨⟨holder, hfail⟩, hcause⟩
      rcases Act.settle.inj hfail with ⟨rfl, rfl, hhow⟩
      rcases Flights.transient_of_fail hhow with ⟨causes, rfl⟩
      rw [hreports']
      refine ⟨⟨causes, hended⟩, ?_⟩
      have hnow : ((Flights.idle settings resolve lookups).run events).now =
          ((Traffic.start settings).run acts).now := congrArg Traffic.now hrun
      rw [hnow]
      exact hcause

/-- Four failures in a row, and the failure of a call that is the first one. -/
theorem cause_of_failingRun :
    let plan : Nat → Endpoint → Reply Unit := fun _ _ => ⟨some 7, .error (.transient ["down"])⟩
    let find : Resolve Unit := .atOnce fun lookups _ => (.ok [⟨"http://gw"⟩], lookups)
    let t := Traffic.start { failureThreshold := 4 }
    let w := Flights.idle { failureThreshold := 1 } find ()
    let acts := Traffic.failingRun 1 2 3
    let events := [.launch { service := "gw" } plan, .move 0, .move 0, .wait 7]
    (t.run acts).phase? "gw" = some .closed ∧
      (t.run (acts ++ [.settle "gw" 3 .fail])).phase? "gw" = some .opened ∧
      Report.Cause { failureThreshold := 4 } 6
        (t.reports "gw" (acts ++ [.settle "gw" 3 .fail])) ∧
      (w.run events).shared.breakers.phase? "gw" = some .closed ∧
      (w.run (events ++ [.move 0])).shared.breakers.phase? "gw" = some .opened ∧
      Report.Cause { failureThreshold := 1 } 7 (w.reports "gw" (events ++ [.move 0])) := by
  intro plan find t w acts events
  have hclosed : (t.run acts).phase? "gw" = some .closed := by decide
  have hopened : (t.run (acts ++ [.settle "gw" 3 .fail])).phase? "gw" = some .opened := by decide
  have hbefore : (w.run events).shared.breakers.phase? "gw" = some .closed := by decide
  have hafter : (w.run (events ++ [.move 0])).shared.breakers.phase? "gw" = some .opened := by
    decide
  have hholders := (opens_for_cause { failureThreshold := 4 } (by decide) "gw").left acts _
    hclosed hopened
  have hcalls := (opens_for_cause { failureThreshold := 1 } (by decide) "gw").right find ()
    events _ hbefore hafter
  exact ⟨hclosed, hopened, hholders.right, hbefore, hafter, hcalls.right⟩

end Rpc
end Courier
