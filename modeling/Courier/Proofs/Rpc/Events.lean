import Courier.Metrics
import Courier.Proofs.Rpc.Traffic
import Mathlib.Data.List.Count

/-!
# Events of breakers

A breaker counts an event whenever it enters a phase, with one exception: a trial that is
dropped takes it from half open to open without a word. So the events that are counted for a
target are the changes of its phase just as long as no trial is dropped while its breaker is
half open.

The main statement is `tellsTruth_iff_dropsNoTrial`.
-/

namespace Courier
namespace Rpc

open Breaker

def Phase.entered (before after : Phase) : List Phase :=
  if after = before then [] else [after]

theorem Phase.entered_self (phase : Phase) : phase.entered phase = [] := if_pos rfl

/-!
## What one operation tells
-/

namespace Breaker

theorem event_acquire (now : Nat) (s : State) :
    (acquire now s).change.event.toList =
      s.phase.entered (acquire now s).change.state.phase := by
  cases s with
  | closed failures since => rfl
  | halfOpen => rfl
  | opened reopenAt =>
      simp only [acquire]
      split <;> rfl

theorem event_fail_closed (settings : BreakerSettings) (now failures since : Nat) :
    (fail settings now (.closed failures since)).event.toList =
      Phase.closed.entered (fail settings now (.closed failures since)).state.phase := by
  rw [fail_closed]
  split <;> rfl

/-- Only a trial that is dropped changes the phase without an event. -/
theorem event_change {how : Settlement} {trial : Bool} {s : State}
    (h : ¬ (how = .release ∧ trial = true ∧ s = .halfOpen)) (settings : BreakerSettings)
    (now : Nat) :
    (how.change settings now trial s).event.toList =
      s.phase.entered (how.change settings now trial s).state.phase := by
  cases how with
  | succeed => cases s <;> rfl
  | fail =>
      cases s with
      | closed failures since => exact event_fail_closed settings now failures since
      | opened reopenAt => rfl
      | halfOpen => rfl
  | release =>
      cases s with
      | closed failures since => rfl
      | opened reopenAt => rfl
      | halfOpen =>
          cases trial with
          | false => rfl
          | true => exact absurd ⟨rfl, rfl, rfl⟩ h

end Breaker

namespace Breakers

/-- The phases that were told of a target, latest first. -/
def told (b : Breakers) (target : String) : List Phase :=
  (b.events.filter fun e => e.1 = target).map Prod.snd

def phaseOf (b : Breakers) (target : String) : Phase :=
  (b.phase? target).getD .closed

theorem told_apply (b : Breakers) (target t : String) (c : Change) :
    (b.apply target c).told t =
      if t = target then c.event.toList ++ b.told t else b.told t := by
  unfold told apply
  cases c.event with
  | none => simp
  | some phase =>
      by_cases h : t = target
      · simp [h]
      · simp [h, Ne.symm h]

theorem phaseOf_apply (b : Breakers) (target t : String) (c : Change) :
    (b.apply target c).phaseOf t = if t = target then c.state.phase else b.phaseOf t := by
  unfold phaseOf phase?
  rw [state?_apply]
  split <;> rfl

theorem phase_stateOrFresh (b : Breakers) (now : Nat) (target : String) :
    (b.stateOrFresh now target).phase = b.phaseOf target := by
  unfold stateOrFresh phaseOf phase?
  cases b.state? target <;> rfl

theorem told_apply_of_event {b : Breakers} (now : Nat) {target t : String} {c : Change}
    (h : t = target →
      c.event.toList = (b.stateOrFresh now target).phase.entered c.state.phase) :
    (b.apply target c).told t =
      (b.phaseOf t).entered ((b.apply target c).phaseOf t) ++ b.told t := by
  rw [told_apply, phaseOf_apply]
  by_cases ht : t = target
  · rw [if_pos ht, if_pos ht, h ht, phase_stateOrFresh, ht]
  · rw [if_neg ht, if_neg ht, Phase.entered_self, List.nil_append]

theorem phase?_of_stateOrFresh_halfOpen {b : Breakers} {now : Nat} {target : String}
    (h : b.stateOrFresh now target = .halfOpen) : b.phase? target = some .halfOpen := by
  rw [phase?]
  cases hs : b.state? target with
  | none =>
      rw [stateOrFresh, hs] at h
      cases h
  | some s =>
      have hopen : s = .halfOpen := by rwa [stateOrFresh, hs] at h
      rw [hopen]
      rfl

end Breakers

/-!
## What a run tells
-/

namespace Traffic

/-- The phases that a target enters in a run, in order. -/
def entered (target : String) : Traffic → List Act → List Phase
  | _, [] => []
  | t, a :: rest =>
    (t.breakers.phaseOf target).entered ((t.step a).breakers.phaseOf target) ++
      entered target (t.step a) rest

/-- An act that drops a trial of a target whose breaker is half open. -/
def DropsTrial (t : Traffic) (target : String) (a : Act) : Prop :=
  ∃ holder, a = .settle target holder .release ∧ t.held target holder = some true ∧
    t.phase? target = some .halfOpen

theorem entered_append (target : String) (t : Traffic) (acts more : List Act) :
    entered target t (acts ++ more) =
      entered target t acts ++ entered target (t.run acts) more := by
  induction acts generalizing t with
  | nil => rfl
  | cons a rest ih => simp only [List.cons_append, entered, run_cons, ih, List.append_assoc]

theorem told_step {t : Traffic} {target : String} {a : Act} (h : ¬ t.DropsTrial target a) :
    (t.step a).breakers.told target =
      (t.breakers.phaseOf target).entered ((t.step a).breakers.phaseOf target) ++
        t.breakers.told target := by
  have hsame : t.breakers.told target =
      (t.breakers.phaseOf target).entered (t.breakers.phaseOf target) ++
        t.breakers.told target := by
    rw [Phase.entered_self, List.nil_append]
  cases a with
  | wait ms => exact hsame
  | acquire u holder =>
      cases hheld : t.held u holder with
      | some trial =>
          simp only [step, hheld]
          exact hsame
      | none =>
          simp only [step, hheld]
          exact Breakers.told_apply_of_event t.now fun _ => event_acquire t.now _
  | settle u holder how =>
      cases hheld : t.held u holder with
      | none =>
          simp only [step, hheld]
          exact hsame
      | some trial =>
          simp only [step, hheld, Settlement.apply_eq]
          refine Breakers.told_apply_of_event t.now ?_
          rintro rfl
          refine event_change ?_ t.breakers.settings t.now
          rintro ⟨rfl, rfl, hopen⟩
          exact h ⟨holder, rfl, hheld, Breakers.phase?_of_stateOrFresh_halfOpen hopen⟩

theorem told_of_dropsTrial {t : Traffic} {target : String} {a : Act}
    (h : t.DropsTrial target a) :
    (t.step a).breakers.told target = t.breakers.told target ∧
      (t.breakers.phaseOf target).entered ((t.step a).breakers.phaseOf target) = [.opened] := by
  rcases h with ⟨holder, rfl, hheld, hphase⟩
  have hopen := (phase?_eq_halfOpen_iff t target).mp hphase
  have hstate : t.breakers.stateOrFresh t.now target = .halfOpen := Gate.state_of_some hopen
  have hbefore : t.breakers.phaseOf target = .halfOpen := by
    rw [← Breakers.phase_stateOrFresh _ t.now, hstate]
    rfl
  simp only [step, hheld, Settlement.apply_eq, hstate, hbefore, Breakers.told_apply,
    Breakers.phaseOf_apply, if_true]
  exact ⟨rfl, rfl⟩

theorem count_told_step_le (t : Traffic) (target : String) (a : Act) (phase : Phase) :
    ((t.step a).breakers.told target).count phase ≤
      ((t.breakers.phaseOf target).entered ((t.step a).breakers.phaseOf target)).count phase +
        (t.breakers.told target).count phase := by
  by_cases h : t.DropsTrial target a
  · rw [(told_of_dropsTrial h).left]
    exact Nat.le_add_left _ _
  · apply Nat.le_of_eq
    rw [told_step h, List.count_append]

theorem count_told_run_le (t : Traffic) (target : String) (acts : List Act) (phase : Phase) :
    ((t.run acts).breakers.told target).count phase ≤
      (entered target t acts).count phase + (t.breakers.told target).count phase := by
  induction acts generalizing t with
  | nil => exact Nat.le_add_left _ _
  | cons a rest ih =>
      have hfirst := count_told_step_le t target a phase
      have hrest := ih (t.step a)
      rw [run_cons, entered, List.count_append]
      omega

/-!
## Runs without dropped trials
-/

def DropsNoTrial (t : Traffic) (target : String) (acts : List Act) : Prop :=
  ∀ done a, done ++ [a] <+: acts → ¬ (t.run done).DropsTrial target a

/-- The last event of a target names its phase, and as long as there is none it is closed. -/
def NamesPhase (t : Traffic) (target : String) : Prop :=
  (t.breakers.told target).head?.getD .closed = t.breakers.phaseOf target

theorem DropsNoTrial.first {t : Traffic} {target : String} {a : Act} {rest : List Act}
    (h : t.DropsNoTrial target (a :: rest)) : ¬ t.DropsTrial target a :=
  h [] a (List.prefix_append [a] rest)

theorem DropsNoTrial.tail {t : Traffic} {target : String} {a : Act} {rest : List Act}
    (h : t.DropsNoTrial target (a :: rest)) : (t.step a).DropsNoTrial target rest := by
  intro done next hdone
  exact h (a :: done) next (List.cons_prefix_cons.mpr ⟨rfl, hdone⟩)

theorem told_run {t : Traffic} {target : String} {acts : List Act}
    (h : t.DropsNoTrial target acts) :
    (t.run acts).breakers.told target =
      (entered target t acts).reverse ++ t.breakers.told target := by
  induction acts generalizing t with
  | nil => rfl
  | cons a rest ih =>
      have hone : ∀ before after : Phase,
          (before.entered after).reverse = before.entered after := by
        intro before after
        unfold Phase.entered
        split <;> rfl
      rw [run_cons, ih h.tail, told_step h.first, entered, List.reverse_append, hone,
        List.append_assoc]

theorem namesPhase_step {t : Traffic} {target : String} {a : Act} (h : ¬ t.DropsTrial target a)
    (hnames : t.NamesPhase target) : (t.step a).NamesPhase target := by
  unfold NamesPhase at hnames ⊢
  rw [told_step h, Phase.entered]
  split
  · next hsame => rw [List.nil_append, hnames, hsame]
  · rfl

theorem namesPhase_run {t : Traffic} {target : String} {acts : List Act}
    (h : t.DropsNoTrial target acts) (hnames : t.NamesPhase target) :
    (t.run acts).NamesPhase target := by
  induction acts generalizing t with
  | nil => exact hnames
  | cons a rest ih => exact ih h.tail (namesPhase_step h.first hnames)

/-!
## Events that tell the truth
-/

theorem breakerEvent_injective :
    Function.Injective fun e : String × Phase => Metrics.breakerEvent e.1 e.2 := by
  have hlabel : ∀ phase other : Phase, phase.label = other.label → phase = other := by
    intro phase other
    cases phase <;> cases other <;> decide
  rintro ⟨target, phase⟩ ⟨u, other⟩ h
  simp only [Metrics.breakerEvent, Metrics.Counter.mk.injEq, List.cons.injEq, Prod.mk.injEq,
    true_and, and_true] at h
  rw [h.left, hlabel _ _ h.right]

/-- How often the event is counted that a target entered a phase. -/
def counted (t : Traffic) (target : String) (phase : Phase) : Nat :=
  (Metrics.breakerEvents t.breakers).count (Metrics.breakerEvent target phase)

theorem counted_eq (t : Traffic) (target : String) (phase : Phase) :
    t.counted target phase = (t.breakers.told target).count phase := by
  have hevents := List.count_map_of_injective t.breakers.events _ breakerEvent_injective
    (target, phase)
  unfold counted Metrics.breakerEvents Breakers.told
  refine hevents.trans ?_
  induction t.breakers.events with
  | nil => rfl
  | cons e rest ih =>
      rcases e with ⟨u, p⟩
      by_cases hu : u = target
      · simp [hu, List.count_cons, ih]
      · simp [hu, ih]

/--
What is asked of the events of a target at the end of a run: each phase is counted as often as
it was entered, and the last event names the phase that the target is in.
-/
structure TellsTruth (settings : BreakerSettings) (target : String) (acts : List Act) : Prop where
  counts : ∀ phase, ((start settings).run acts).counted target phase =
    ((start settings).entered target acts).count phase
  last : ((start settings).run acts).NamesPhase target

theorem told_start (settings : BreakerSettings) (target : String) :
    (start settings).breakers.told target = [] := rfl

theorem dropsNoTrial_of_counts {settings : BreakerSettings} {target : String} {acts : List Act}
    (h : ((start settings).run acts).counted target .opened =
      ((start settings).entered target acts).count .opened) :
    (start settings).DropsNoTrial target acts := by
  rintro done a ⟨rest, rfl⟩ hdrops
  rcases told_of_dropsTrial hdrops with ⟨hsilent, hentered⟩
  -- What is not told once is missing in the count for ever.
  have hbefore := count_told_run_le (start settings) target done .opened
  have hafter := count_told_run_le (((start settings).run done).step a) target rest .opened
  rw [hsilent] at hafter
  rw [told_start, List.count_nil] at hbefore
  rw [counted_eq, entered_append, entered_append, run_append, run_snoc, List.count_append,
    List.count_append, entered, hentered] at h
  simp only [entered, List.append_nil, List.count_singleton_self] at h
  omega

theorem tellsTruth_iff_dropsNoTrial (settings : BreakerSettings) (target : String)
    (acts : List Act) :
    TellsTruth settings target acts ↔ (start settings).DropsNoTrial target acts := by
  constructor
  · intro h
    exact dropsNoTrial_of_counts (h.counts .opened)
  · intro h
    constructor
    · intro phase
      rw [counted_eq, told_run h, told_start, List.append_nil, List.count_reverse]
    · exact namesPhase_run h rfl

/-- A failure opens the breaker, and after the cool-down the trial is dropped. -/
def droppedTrial : List Act :=
  [.acquire "gw" 0, .settle "gw" 0 .fail, .wait 30000, .acquire "gw" 1,
    .settle "gw" 1 .release]

/-- The breaker has opened twice, but the event is counted once and half open was told last. -/
theorem not_tellsTruth_of_droppedTrial :
    ¬ ∀ settings target acts, TellsTruth settings target acts := by
  intro h
  have htold := (h { failureThreshold := 1 } "gw" droppedTrial).counts .opened
  exact absurd htold (by decide)

end Traffic
end Rpc
end Courier
