import Courier.Proofs.Rpc.Traffic
import Mathlib.Data.List.Induction

/-!
# The cool-down of an open breaker

A failure that opens a breaker should shut it for the whole cool-down, whatever the
calls report that were admitted before.

The main statement is that the breaker refuses every call until the cool-down is
over exactly if none of those calls is answered in the meantime: an answer closes
the breaker at once, and a late failure or a dropped permit changes nothing.
-/

namespace Courier
namespace Rpc

open Breaker

namespace Gate

/-!
## Shut gates
-/

/-- The breaker is open, and there will be no trial before a given time. -/
def Shut (deadline : Nat) (g : Gate) : Prop :=
  ∃ reopenAt, g.state? = some (.opened reopenAt) ∧ deadline ≤ reopenAt

theorem admits_of_shut {g : Gate} {deadline : Nat} (h : g.Shut deadline) (hnow : g.now < deadline) :
    g.admits = false := by
  rcases h with ⟨reopenAt, hopened, hle⟩
  have hearly : g.now < reopenAt := Nat.lt_of_lt_of_le hnow hle
  simp [admits, state_of_some hopened, Breaker.acquire, hearly]

theorem admits_of_succeed {g : Gate} {holder : Nat} {trial : Bool}
    (hheld : g.held holder = some trial) : (g.step (.settle holder .succeed)).admits = true := by
  have hclosed : ∃ since, (g.step (.settle holder .succeed)).state = .closed 0 since := by
    rw [step, hheld]
    simp only [state, Option.getD_some, Settlement.change]
    cases g.state?.getD (.fresh g.now) with
    | closed failures since => exact ⟨since, rfl⟩
    | opened reopenAt => exact ⟨g.now, rfl⟩
    | halfOpen => exact ⟨g.now, rfl⟩
  rcases hclosed with ⟨since, hclosed⟩
  rw [admits, hclosed]
  rfl

theorem now_le_of_turn {g g' : Gate} {d : Deed} (hturn : Turn g d g') : g.now ≤ g'.now := by
  cases hturn with
  | waited ms => exact Nat.le_add_right _ ms
  | turnedAway holder _ => exact Nat.le_refl _
  | admitted holder failures since _ _ => exact Nat.le_refl _
  | probing holder reopenAt _ _ _ => exact Nat.le_refl _
  | stray holder how _ => exact Nat.le_refl _
  | settled holder how trial _ => exact Nat.le_refl _

/-- Until its time a shut gate is opened by an answer only. -/
theorem shut_of_turn {g g' : Gate} {d : Deed} {deadline : Nat} (hturn : Turn g d g')
    (h : g.Shut deadline) (hnow : g.now < deadline)
    (hd : ∀ holder, d = .settle holder .succeed → g.held holder = none) : g'.Shut deadline := by
  rcases h with ⟨reopenAt, hopened, hle⟩
  have hstate := state_of_some hopened
  cases hturn with
  | waited ms => exact ⟨reopenAt, hopened, hle⟩
  | turnedAway holder _ => exact ⟨reopenAt, hopened, hle⟩
  | admitted holder failures since _ hclosed =>
      rw [hstate] at hclosed
      cases hclosed
  | probing holder r _ hr hdue =>
      rw [hopened] at hr
      cases hr
      exact absurd (Nat.lt_of_lt_of_le hnow hle) (Nat.not_lt_of_le hdue)
  | stray holder how _ => exact ⟨reopenAt, hopened, hle⟩
  | settled holder how trial hheld =>
      refine ⟨reopenAt, congrArg some ?_, hle⟩
      rw [hstate]
      cases how with
      | succeed =>
          rw [hd holder rfl] at hheld
          cases hheld
      | fail => rfl
      | release => rfl

theorem shut_of_opening {g : Gate} {holder : Nat}
    (hbefore : ∀ reopenAt, g.state? ≠ some (.opened reopenAt))
    (hafter : ∃ reopenAt, (g.step (.settle holder .fail)).state? = some (.opened reopenAt)) :
    (g.step (.settle holder .fail)).Shut (g.now + g.settings.openDuration) := by
  cases hheld : g.held holder with
  | none =>
      rw [step, hheld] at hafter
      rcases hafter with ⟨reopenAt, h⟩
      exact absurd h (hbefore reopenAt)
  | some trial =>
      rw [step, hheld] at hafter ⊢
      refine ⟨g.now + g.settings.openDuration, congrArg some ?_, Nat.le_refl _⟩
      rcases hafter with ⟨reopenAt, h⟩
      have hopen : (Breaker.fail g.settings g.now g.state).state = .opened reopenAt :=
        Option.some.inj h
      change (Breaker.fail g.settings g.now g.state).state = _
      cases hs : g.state with
      | closed failures since =>
          rw [hs] at hopen
          rcases fail_closed_cases g.settings g.now failures since with
            htrip | ⟨counted, start, _, hcounts⟩
          · exact htrip
          · rw [hcounts] at hopen
            cases hopen
      | opened r => exact absurd (state?_of_opened hs) (hbefore r)
      | halfOpen => rfl

end Gate

namespace Traffic

/-!
## Runs after an opening
-/

theorem phase?_eq_opened_iff (t : Traffic) (target : String) :
    t.phase? target = some .opened ↔
      ∃ reopenAt, (t.gate target).state? = some (.opened reopenAt) := by
  rw [phase?_eq, Option.map_eq_some_iff]
  constructor
  · rintro ⟨s, hs, hphase⟩
    cases s with
    | closed failures since => cases hphase
    | opened reopenAt => exact ⟨reopenAt, hs⟩
    | halfOpen => cases hphase
  · rintro ⟨reopenAt, h⟩
    exact ⟨.opened reopenAt, h, rfl⟩

/-- The failure of a holder's call opens the breaker of a target. -/
def Opens (t : Traffic) (target : String) (holder : Nat) : Prop :=
  t.phase? target ≠ some .opened ∧
    (t.step (.settle target holder .fail)).phase? target = some .opened

instance (t : Traffic) (target : String) (holder : Nat) : Decidable (t.Opens target holder) :=
  inferInstanceAs (Decidable (_ ∧ _))

def cooldownEnd (t : Traffic) : Nat := t.now + t.breakers.settings.openDuration

/-- At no moment of a run that comes before a given time would a call be admitted. -/
def RefusesUntil (t : Traffic) (target : String) (deadline : Nat) (acts : List Act) : Prop :=
  ∀ done, done <+: acts → (t.run done).now < deadline → (t.run done).admits target = false

/-- No call that holds a permit is answered before a given time. -/
def UnansweredUntil (t : Traffic) (target : String) (deadline : Nat) (acts : List Act) : Prop :=
  ∀ done holder, done ++ [.settle target holder .succeed] <+: acts →
    (t.run done).now < deadline → (t.run done).held target holder = none

theorem now_le_step (t : Traffic) (a : Act) : t.now ≤ (t.step a).now := by
  -- The clock is the same at every gate.
  rcases gate_turn t "" a with hsame | ⟨d, _, hturn⟩
  · exact Nat.le_of_eq (congrArg Gate.now hsame).symm
  · exact Gate.now_le_of_turn hturn

theorem shut_of_opens {t : Traffic} {target : String} {holder : Nat}
    (h : t.Opens target holder) :
    ((t.step (.settle target holder .fail)).gate target).Shut t.cooldownEnd := by
  have hbefore : ∀ reopenAt, (t.gate target).state? ≠ some (.opened reopenAt) := by
    intro reopenAt hs
    exact h.left ((phase?_eq_opened_iff _ _).mpr ⟨reopenAt, hs⟩)
  have hafter := (phase?_eq_opened_iff _ _).mp h.right
  rw [gate_settle_self] at hafter ⊢
  exact Gate.shut_of_opening hbefore hafter

theorem shut_run {t : Traffic} {target : String} {deadline : Nat} {acts : List Act}
    (ht : (t.gate target).Shut deadline) (h : t.UnansweredUntil target deadline acts)
    (done : List Act) (hdone : done <+: acts) (hnow : (t.run done).now < deadline) :
    ((t.run done).gate target).Shut deadline := by
  induction done using List.reverseRecOn with
  | nil => exact ht
  | append_singleton done a ih =>
      rw [run_snoc] at hnow ⊢
      have hearlier : (t.run done).now < deadline :=
        Nat.lt_of_le_of_lt (now_le_step _ a) hnow
      have hshort := ih ((List.prefix_append done [a]).trans hdone) hearlier
      rcases gate_turn (t.run done) target a with hsame | ⟨d, hat, hturn⟩
      · rw [hsame]
        exact hshort
      · apply Gate.shut_of_turn hturn hshort hearlier
        intro holder hd
        rw [hd] at hat
        have ha := Act.eq_settle_of_at? hat
        subst ha
        exact h done holder hdone hearlier

/--
After a failure has opened a breaker, every call is refused until the cool-down is
over exactly if no call that was in flight then is answered before that.
-/
theorem refusesUntil_iff_unansweredUntil {t : Traffic} {target : String} {holder : Nat}
    (h : t.Opens target holder) (acts : List Act) :
    (t.step (.settle target holder .fail)).RefusesUntil target t.cooldownEnd acts ↔
      (t.step (.settle target holder .fail)).UnansweredUntil target t.cooldownEnd acts := by
  constructor
  · intro hrefuses done k hacts hnow
    cases hheld : ((t.step (.settle target holder .fail)).run done).held target k with
    | none => rfl
    | some trial =>
        exfalso
        have hshut := hrefuses _ hacts
        rw [run_snoc, admits_eq, gate_settle_self,
          Gate.admits_of_succeed (g := gate _ target) hheld] at hshut
        refine absurd (hshut ?_) (by decide)
        rw [step, hheld]
        exact hnow
  · intro hunanswered done hdone hnow
    rw [admits_eq]
    exact Gate.admits_of_shut (shut_run (shut_of_opens h) hunanswered done hdone hnow) hnow

/-- Two calls are admitted; the failure of one will open the breaker. -/
def beforeOpening : Traffic :=
  (start { failureThreshold := 1 }).run [.acquire "gw" 0, .acquire "gw" 1]

theorem refusesUntil_of_dropped :
    beforeOpening.Opens "gw" 0 ∧
      (beforeOpening.step (.settle "gw" 0 .fail)).RefusesUntil "gw" beforeOpening.cooldownEnd
        [.wait 10000, .settle "gw" 1 .release, .wait 19999, .acquire "gw" 2] := by
  have hopens : beforeOpening.Opens "gw" 0 := by decide
  refine ⟨hopens, (refusesUntil_iff_unansweredUntil hopens _).mpr ?_⟩
  intro done holder hprefix _
  have hmem := hprefix.mem (List.mem_append_right done (List.mem_singleton_self _))
  simp at hmem

/-- A call that is answered while the breaker is open closes it, and the next one is admitted. -/
theorem not_refusesUntil_of_answered :
    ¬ ∀ settings before target holder acts, ((start settings).run before).Opens target holder →
      (((start settings).run before).step (.settle target holder .fail)).RefusesUntil target
        ((start settings).run before).cooldownEnd acts := by
  intro h
  have hopens : beforeOpening.Opens "gw" 0 := by decide
  have hrefuses := h { failureThreshold := 1 } _ "gw" 0 [.settle "gw" 1 .succeed] hopens
    [.settle "gw" 1 .succeed] (List.prefix_refl _)
  exact absurd (hrefuses (by decide)) (by decide)

end Traffic
end Rpc
end Courier
