import Courier.Proofs.Rpc.Traffic
import Mathlib.Data.List.Induction

/-!
# Trials of a half-open breaker

A breaker that is half open has one trial in flight. The phase should end with
that trial and with nothing else, and there should be no second trial beside it.

The main statement is that a run keeps to this exactly if no call from before the
breaker opened reports an answer or a failure while the breaker is half open: the
breaker takes any such report for the trial's.
-/

namespace Courier
namespace Rpc

open Breaker

namespace Gate

/-!
## Ends of half-open phases
-/

/-- Only a permit that is given back ends a half-open phase; a dropped one has to be a trial. -/
theorem settle_of_leave {g g' : Gate} {d : Deed} (hturn : Turn g d g')
    (hopen : g.state? = some .halfOpen) (hleft : g'.state? ≠ some .halfOpen) :
    ∃ holder how trial, d = .settle holder how ∧ g.held holder = some trial ∧
      (how = .release → trial = true) := by
  cases hturn with
  | waited ms => exact absurd hopen hleft
  | turnedAway holder _ => exact absurd hopen hleft
  | admitted holder failures since _ hclosed =>
      rw [state_of_some hopen] at hclosed
      cases hclosed
  | probing holder reopenAt _ hopened _ =>
      rw [hopen] at hopened
      cases hopened
  | stray holder how _ => exact absurd hopen hleft
  | settled holder how trial hheld =>
      refine ⟨holder, how, trial, rfl, hheld, ?_⟩
      intro hrelease
      cases trial with
      | true => rfl
      | false =>
          exfalso
          apply hleft
          apply congrArg some
          exact (Settlement.change_halfOpen_iff _ _ _ _ _).mpr
            ⟨state_of_some hopen, hrelease, rfl⟩

theorem held_trial_of_stay {g g' : Gate} {d : Deed} {holder : Nat} (hturn : Turn g d g')
    (hheld : g.held holder = some true) (hopen : g'.state? = some .halfOpen) :
    g'.held holder = some true := by
  cases hturn with
  | waited ms => exact hheld
  | turnedAway h _ => exact hheld
  | admitted h failures since _ _ => cases hopen
  | probing h reopenAt free _ _ =>
      have hne : holder ≠ h := by
        intro heq
        rw [heq, free] at hheld
        cases hheld
      exact (Function.update_of_ne hne _ _).trans hheld
  | stray h how _ => exact hheld
  | settled h how trial hsettled =>
      have hstays := (Settlement.change_halfOpen_iff how _ _ trial _).mp (Option.some.inj hopen)
      have hne : holder ≠ h := by
        intro heq
        rw [heq, hsettled, hstays.right.right] at hheld
        cases hheld
      exact (Function.update_of_ne hne _ _).trans hheld

theorem acquire_of_enter {g g' : Gate} {d : Deed} (hturn : Turn g d g')
    (hout : g.state? ≠ some .halfOpen) (hopen : g'.state? = some .halfOpen) :
    ∃ holder, d = .acquire holder ∧ g'.held holder = some true := by
  cases hturn with
  | waited ms => exact absurd hopen hout
  | turnedAway holder _ => exact absurd hopen hout
  | admitted holder failures since _ _ => cases hopen
  | probing holder reopenAt _ _ _ =>
      exact ⟨holder, rfl, Function.update_self _ _ _⟩
  | stray holder how _ => exact absurd hopen hout
  | settled holder how trial _ =>
      have hstays := (Settlement.change_halfOpen_iff how _ _ trial _).mp (Option.some.inj hopen)
      exact absurd (state?_of_halfOpen hstays.left) hout

/-!
## One trial at a time
-/

/-- There is a trial just when the breaker is half open, and then there is only one. -/
structure OneTrial (g : Gate) : Prop where
  halfOpen : ∀ {holder}, g.held holder = some true → g.state? = some .halfOpen
  unique : ∀ {h h'}, g.held h = some true → g.held h' = some true → h = h'

/-- A deed by which a call from before the breaker opened reports what came of it. -/
def Straggles (g : Gate) (d : Deed) : Prop :=
  ∃ holder how, d = .settle holder how ∧ how ≠ .release ∧ g.state? = some .halfOpen ∧
    g.held holder = some false

theorem oneTrial_of_turn {g g' : Gate} {d : Deed} (hturn : Turn g d g') (h : OneTrial g)
    (hd : ¬ Straggles g d) : OneTrial g' := by
  cases hturn with
  | waited ms => exact ⟨h.halfOpen, h.unique⟩
  | turnedAway holder _ => exact h
  | admitted holder failures since free hclosed =>
      -- A closed breaker has no trial, and the new permit is none.
      have hnone : ∀ k, Function.update g.held holder (some false) k ≠ some true := by
        intro k
        by_cases hk : k = holder
        · subst hk
          rw [Function.update_self]
          exact fun hc => by cases hc
        · rw [Function.update_of_ne hk]
          intro hc
          rw [state_of_some (h.halfOpen hc)] at hclosed
          cases hclosed
      exact ⟨fun hc => absurd hc (hnone _), fun hc _ => absurd hc (hnone _)⟩
  | probing holder reopenAt free hopened _ =>
      -- An open breaker has no trial either, so that the new one is the only one.
      have hself : ∀ k, Function.update g.held holder (some true) k = some true → k = holder := by
        intro k hc
        apply Classical.byContradiction
        intro hk
        rw [Function.update_of_ne hk] at hc
        rw [h.halfOpen hc] at hopened
        cases hopened
      exact ⟨fun _ => rfl, fun ha hb => (hself _ ha).trans (hself _ hb).symm⟩
  | stray holder how _ => exact h
  | settled holder how trial hheld =>
      have hother : ∀ k, Function.update g.held holder none k = some true →
          k ≠ holder ∧ g.held k = some true := by
        intro k hc
        by_cases hk : k = holder
        · subst hk
          rw [Function.update_self] at hc
          cases hc
        · rw [Function.update_of_ne hk] at hc
          exact ⟨hk, hc⟩
      constructor
      · intro k hc
        have hk := hother k hc
        have hopen := h.halfOpen hk.right
        cases trial with
        | true => exact absurd (h.unique hk.right hheld) hk.left
        | false =>
            have hrelease : how = .release := by
              apply Classical.byContradiction
              intro hne
              exact hd ⟨holder, how, rfl, hne, hopen, hheld⟩
            apply congrArg some
            exact (Settlement.change_halfOpen_iff _ _ _ _ _).mpr
              ⟨state_of_some hopen, hrelease, rfl⟩
      · intro k k' hc hc'
        exact h.unique (hother k hc).right (hother k' hc').right

end Gate

namespace Traffic

/-!
## Runs of many targets
-/

/--
What is asked of a run from a state: at no moment a target has two trials that are
not settled, and a half-open phase that a holder's acquisition has begun ends by
what that holder does with the trial it got then.
-/
structure ProbesOnce (t : Traffic) (target : String) (acts : List Act) : Prop where
  single : ∀ done, done <+: acts → ∀ h h', (t.run done).held target h = some true →
    (t.run done).held target h' = some true → h = h'
  own : ∀ before holder during a, before ++ .acquire target holder :: (during ++ [a]) <+: acts →
    (t.run before).phase? target ≠ some .halfOpen →
    (∀ d, d <+: during →
      (((t.run before).step (.acquire target holder)).run d).phase? target = some .halfOpen) →
    (t.run (before ++ .acquire target holder :: (during ++ [a]))).phase? target ≠
      some .halfOpen →
    (∃ how, a = .settle target holder how) ∧
      (((t.run before).step (.acquire target holder)).run during).held target holder = some true

theorem exists_begin_of_halfOpen {t : Traffic} {target : String}
    (hout : t.phase? target ≠ some .halfOpen) (done : List Act)
    (hopen : (t.run done).phase? target = some .halfOpen) :
    ∃ before holder during, done = before ++ .acquire target holder :: during ∧
      (t.run before).phase? target ≠ some .halfOpen ∧
      ∀ d, d <+: during →
        (((t.run before).step (.acquire target holder)).run d).phase? target =
          some .halfOpen := by
  induction done using List.reverseRecOn with
  | nil => exact absurd hopen hout
  | append_singleton done a ih =>
      rw [run_snoc] at hopen
      by_cases hbefore : (t.run done).phase? target = some .halfOpen
      · rcases ih hbefore with ⟨before, holder, during, rfl, hwas, hlasts⟩
        refine ⟨before, holder, during ++ [a], by simp, hwas, ?_⟩
        intro d hd
        rcases List.prefix_concat_iff.mp hd with rfl | hd
        · rw [run_append, run_cons] at hopen
          rw [run_snoc]
          exact hopen
        · exact hlasts d hd
      · -- The breaker was not half open, so that this act has made it so.
        rcases gate_turn (t.run done) target a with hsame | ⟨d, hat, hturn⟩
        · rw [phase?_eq, hsame, ← phase?_eq] at hopen
          exact absurd hopen hbefore
        · have hout' := mt (phase?_eq_halfOpen_iff _ _).mpr hbefore
          have hopen' := (phase?_eq_halfOpen_iff _ _).mp hopen
          rcases Gate.acquire_of_enter hturn hout' hopen' with ⟨holder, rfl, _⟩
          have ha := Act.eq_acquire_of_at? hat
          subst ha
          refine ⟨done, holder, [], rfl, hbefore, ?_⟩
          intro d hd
          rw [List.prefix_nil.mp hd]
          exact hopen

/--
No permit from before the breaker opened is given back with an answer or a failure
while the breaker is half open.
-/
def NoStraggler (t : Traffic) (target : String) (acts : List Act) : Prop :=
  ∀ done holder how, done ++ [.settle target holder how] <+: acts → how ≠ .release →
    (t.run done).phase? target = some .halfOpen → (t.run done).held target holder ≠ some false

theorem oneTrial_start (settings : BreakerSettings) (target : String) :
    Gate.OneTrial ((start settings).gate target) := by
  constructor
  · intro holder h
    cases h
  · intro k k' h _
    cases h

theorem phase?_start_ne_halfOpen (settings : BreakerSettings) (target : String) :
    (start settings).phase? target ≠ some .halfOpen := by
  intro h
  cases (phase?_eq_halfOpen_iff _ _).mp h

/-- Without stragglers there is one trial at most, and only while the breaker is half open. -/
theorem oneTrial_run {t : Traffic} {target : String} {acts : List Act}
    (ht : Gate.OneTrial (t.gate target)) (h : t.NoStraggler target acts) (done : List Act)
    (hdone : done <+: acts) : Gate.OneTrial ((t.run done).gate target) := by
  induction done using List.reverseRecOn with
  | nil => exact ht
  | append_singleton done a ih =>
      have hshort := ih ((List.prefix_append done [a]).trans hdone)
      rw [run_snoc]
      rcases gate_turn (t.run done) target a with hsame | ⟨d, hat, hturn⟩
      · rw [hsame]
        exact hshort
      · apply Gate.oneTrial_of_turn hturn hshort
        rintro ⟨holder, how, rfl, hhow, hopen, hheld⟩
        have ha := Act.eq_settle_of_at? hat
        subst ha
        exact h done holder how hdone hhow ((phase?_eq_halfOpen_iff _ _).mpr hopen) hheld

theorem held_trial_of_lasts {t : Traffic} {target : String} {before during : List Act}
    {holder : Nat} (hout : (t.run before).phase? target ≠ some .halfOpen)
    (hlasts : ∀ d, d <+: during →
      (((t.run before).step (.acquire target holder)).run d).phase? target = some .halfOpen) :
    (((t.run before).step (.acquire target holder)).run during).held target holder =
      some true := by
  have hout' := mt (phase?_eq_halfOpen_iff _ _).mpr hout
  have hin : ∀ d, d <+: during →
      ((((t.run before).step (.acquire target holder)).run d).gate target).state? =
        some .halfOpen :=
    fun d hd => (phase?_eq_halfOpen_iff _ _).mp (hlasts d hd)
  induction during using List.reverseRecOn with
  | nil =>
      have hopen := hin [] (List.prefix_refl [])
      rcases gate_turn (t.run before) target (.acquire target holder) with
        hsame | ⟨d, hat, hturn⟩
      · rw [run_nil, hsame] at hopen
        exact absurd hopen hout'
      · rcases Gate.acquire_of_enter hturn hout' hopen with ⟨k, rfl, hk⟩
        have ha := Act.eq_acquire_of_at? hat
        rw [Act.acquire.injEq] at ha
        have hholder : holder = k := ha.right
        subst hholder
        exact hk
  | append_singleton during a ih =>
      have hshort : ∀ d, d <+: during → d <+: during ++ [a] :=
        fun d hd => hd.trans (List.prefix_append during [a])
      have hheld := ih (fun d hd => hlasts d (hshort d hd)) (fun d hd => hin d (hshort d hd))
      have hopen := hin (during ++ [a]) (List.prefix_refl _)
      rw [run_snoc] at hopen ⊢
      rcases gate_turn (((t.run before).step (.acquire target holder)).run during) target a with
        hsame | ⟨d, _, hturn⟩
      · rw [← gate_held, hsame]
        exact hheld
      · exact Gate.held_trial_of_stay hturn hheld hopen

theorem probesOnce_of_noStraggler {t : Traffic} {target : String} {acts : List Act}
    (ht : Gate.OneTrial (t.gate target)) (h : t.NoStraggler target acts) :
    t.ProbesOnce target acts := by
  constructor
  · intro done hdone k k' hk hk'
    exact (oneTrial_run ht h done hdone).unique hk hk'
  · intro before holder during a hacts hout hlasts hleft
    have hheld := held_trial_of_lasts hout hlasts
    refine ⟨?_, hheld⟩
    have hsplit : before ++ .acquire target holder :: (during ++ [a]) =
        (before ++ .acquire target holder :: during) ++ [a] := by
      simp
    have hmoment : t.run (before ++ .acquire target holder :: during) =
        ((t.run before).step (.acquire target holder)).run during := by
      rw [run_append, run_cons]
    rw [hsplit] at hacts hleft
    rw [run_snoc] at hleft
    have hone := oneTrial_run ht h _ ((List.prefix_append _ [a]).trans hacts)
    have hopen := hlasts during (List.prefix_refl during)
    rw [← hmoment] at hheld hopen
    have hopen' := (phase?_eq_halfOpen_iff _ _).mp hopen
    have hleft' := mt (phase?_eq_halfOpen_iff _ _).mpr hleft
    rcases gate_turn (t.run (before ++ .acquire target holder :: during)) target a with
      hsame | ⟨d, hat, hturn⟩
    · rw [hsame] at hleft'
      exact absurd hopen' hleft'
    · rcases Gate.settle_of_leave hturn hopen' hleft' with ⟨k, how, trial, rfl, hk, hrelease⟩
      have ha := Act.eq_settle_of_at? hat
      subst ha
      cases trial with
      | true =>
          have hkh := hone.unique hk hheld
          exact ⟨how, by rw [hkh]⟩
      | false =>
          exfalso
          have hhow : how ≠ .release := by
            intro hr
            cases hrelease hr
          exact h _ k how hacts hhow hopen hk

theorem noStraggler_of_probesOnce {t : Traffic} {target : String} {acts : List Act}
    (hstart : t.phase? target ≠ some .halfOpen) (h : t.ProbesOnce target acts) :
    t.NoStraggler target acts := by
  intro done k how hacts hhow hopen hheld
  rcases exists_begin_of_halfOpen hstart done hopen with
    ⟨before, holder, during, rfl, hout, hlasts⟩
  have hsplit : before ++ .acquire target holder :: (during ++ [.settle target k how]) =
      (before ++ .acquire target holder :: during) ++ [.settle target k how] := by
    simp
  have hleft : (t.run (before ++ .acquire target holder ::
      (during ++ [.settle target k how]))).phase? target ≠ some .halfOpen := by
    rw [hsplit, run_snoc]
    intro hstays
    rw [phase?_eq_halfOpen_iff, gate_settle_self, Gate.step] at hstays
    simp only [gate_held, hheld] at hstays
    have hkept := (Settlement.change_halfOpen_iff how _ _ false _).mp (Option.some.inj hstays)
    exact hhow hkept.right.left
  rw [← hsplit] at hacts
  rcases h.own before holder during _ hacts hout hlasts hleft with ⟨⟨way, hsettle⟩, htrial⟩
  rw [Act.settle.injEq] at hsettle
  rw [run_append, run_cons, hsettle.right.left, htrial] at hheld
  cases hheld

/-- A run keeps to one probe exactly if no straggler reports while the breaker is half open. -/
theorem probesOnce_iff_noStraggler (settings : BreakerSettings) (target : String)
    (acts : List Act) :
    (start settings).ProbesOnce target acts ↔ (start settings).NoStraggler target acts := by
  constructor
  · exact noStraggler_of_probesOnce (phase?_start_ne_halfOpen settings target)
  · exact probesOnce_of_noStraggler (oneTrial_start settings target)

/--
Two calls are admitted; the first one's failure opens the breaker. After the
cool-down there is a trial, and only then the second call fails, which opens the
breaker again. After another cool-down there is a trial beside the first one.
-/
def stragglingRun : List Act :=
  [.acquire "gw" 0, .acquire "gw" 1, .settle "gw" 0 .fail, .wait 30000, .acquire "gw" 2,
    .settle "gw" 1 .fail, .wait 30000, .acquire "gw" 3]

theorem not_probesOnce_of_straggler :
    ¬ ∀ settings target acts, (start settings).ProbesOnce target acts := by
  intro h
  have hsingle := (h { failureThreshold := 1 } "gw" stragglingRun).single stragglingRun
    (List.prefix_refl stragglingRun) 2 3
  have hfirst : ((start { failureThreshold := 1 }).run stragglingRun).held "gw" 2 =
      some true := by decide
  have hsecond : ((start { failureThreshold := 1 }).run stragglingRun).held "gw" 3 =
      some true := by decide
  exact absurd (hsingle hfirst hsecond) (by decide)

end Traffic
end Rpc
end Courier
