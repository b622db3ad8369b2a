import Courier.Proofs.Rpc.Breakers
import Mathlib.Logic.Function.Basic

/-!
# Traffic over breakers

Holders ask the breakers of any number of targets for permits and give them back,
in any order and at any times. A run is a list of such acts.

What happens at one target is the run of its gate: one breaker with the permits
that it has issued. The main statement is that no act at another target and no
order of such acts makes a difference to it.
-/

namespace Courier
namespace Rpc

open Breaker

/--
Breakers with a clock and the permits that are held. A holder has at most one
permit for a target; who would have two at a time counts as two holders.
-/
structure Traffic where
  breakers : Breakers
  now : Nat := 0
  /-- Whether a holder has a permit for a target, and if so whether it is a trial. -/
  held : String → Nat → Option Bool := fun _ _ => none

inductive Act where
  | wait (ms : Nat)
  | acquire (target : String) (holder : Nat)
  | settle (target : String) (holder : Nat) (how : Settlement)
deriving DecidableEq, Repr

namespace Traffic

def start (settings : BreakerSettings) : Traffic :=
  { breakers := { settings := settings } }

def setHeld (t : Traffic) (target : String) (holder : Nat) (permit : Option Bool) :
    String → Nat → Option Bool :=
  Function.update t.held target (Function.update (t.held target) holder permit)

/-- A holder that has a permit does not ask for another, and one that has none settles none. -/
def step (t : Traffic) : Act → Traffic
  | .wait ms => { t with now := t.now + ms }
  | .acquire target holder =>
    match t.held target holder with
    | some _ => t
    | none =>
      let (permit, breakers) := t.breakers.acquire t.now target
      { t with
        breakers := breakers
        held := t.setHeld target holder (permit.map Permit.trial) }
  | .settle target holder how =>
    match t.held target holder with
    | none => t
    | some trial =>
      { t with
        breakers := how.apply t.breakers t.now ⟨target, trial⟩
        held := t.setHeld target holder none }

def run (t : Traffic) (acts : List Act) : Traffic :=
  acts.foldl step t

def admits (t : Traffic) (target : String) : Bool :=
  (t.breakers.acquire t.now target).1.isSome

def phase? (t : Traffic) (target : String) : Option Phase :=
  t.breakers.phase? target

@[simp] theorem run_nil (t : Traffic) : t.run [] = t := rfl

@[simp] theorem run_cons (t : Traffic) (a : Act) (acts : List Act) :
    t.run (a :: acts) = (t.step a).run acts := rfl

theorem run_append (t : Traffic) (acts more : List Act) :
    t.run (acts ++ more) = (t.run acts).run more :=
  List.foldl_append

theorem run_snoc (t : Traffic) (acts : List Act) (a : Act) :
    t.run (acts ++ [a]) = (t.run acts).step a :=
  run_append t acts [a]

end Traffic

/-!
## Gates
-/

/-- The breaker of one target and the permits that are held for it. -/
structure Gate where
  settings : BreakerSettings
  /-- There is none before the first call. -/
  state? : Option State := none
  now : Nat := 0
  held : Nat → Option Bool := fun _ => none

inductive Deed where
  | wait (ms : Nat)
  | acquire (holder : Nat)
  | settle (holder : Nat) (how : Settlement)
deriving DecidableEq, Repr

namespace Gate

/-- A target's breaker is made at its first call. -/
def state (g : Gate) : State := g.state?.getD (.fresh g.now)

def step (g : Gate) : Deed → Gate
  | .wait ms => { g with now := g.now + ms }
  | .acquire holder =>
    match g.held holder with
    | some _ => g
    | none =>
      let a := Breaker.acquire g.now g.state
      { g with state? := some a.change.state, held := Function.update g.held holder a.trial }
  | .settle holder how =>
    match g.held holder with
    | none => g
    | some trial =>
      { g with
        state? := some (how.change g.settings g.now trial g.state).state
        held := Function.update g.held holder none }

def admits (g : Gate) : Bool := (Breaker.acquire g.now g.state).trial.isSome

end Gate

/-!
## What deeds come to
-/

namespace Settlement

theorem change_halfOpen_iff (how : Settlement) (settings : BreakerSettings) (now : Nat)
    (trial : Bool) (s : State) :
    (how.change settings now trial s).state = .halfOpen ↔
      s = .halfOpen ∧ how = .release ∧ trial = false := by
  cases how with
  | succeed =>
      cases s <;> simp [change, Breaker.succeed]
  | fail =>
      cases s with
      | closed failures since =>
          rcases fail_closed_cases settings now failures since with h | ⟨counted, start, _, h⟩
          · simp [change, h]
          · simp [change, h]
      | opened reopenAt => simp [change, Breaker.fail]
      | halfOpen => simp [change, Breaker.fail, trip]
  | release =>
      cases s <;> cases trial <;> simp [change, Breaker.release]

end Settlement

namespace Gate

theorem state_of_some {g : Gate} {s : State} (h : g.state? = some s) : g.state = s := by
  simp [state, h]

theorem state?_of_opened {g : Gate} {reopenAt : Nat} (h : g.state = .opened reopenAt) :
    g.state? = some (.opened reopenAt) := by
  unfold state at h
  cases hs : g.state? with
  | none =>
      rw [hs] at h
      cases h
  | some s =>
      rw [hs] at h
      exact congrArg some h

theorem state?_of_halfOpen {g : Gate} (h : g.state = .halfOpen) : g.state? = some .halfOpen := by
  unfold state at h
  cases hs : g.state? with
  | none =>
      rw [hs] at h
      cases h
  | some s =>
      rw [hs] at h
      exact congrArg some h

inductive Turn (g : Gate) : Deed → Gate → Prop where
  | waited (ms : Nat) : Turn g (.wait ms) { g with now := g.now + ms }
  | turnedAway (holder : Nat) (h : g.held holder = none → g.admits = false) :
      Turn g (.acquire holder) g
  | admitted (holder failures since : Nat) (free : g.held holder = none)
      (h : g.state = .closed failures since) :
      Turn g (.acquire holder)
        { g with
          state? := some (.closed failures since)
          held := Function.update g.held holder (some false) }
  | probing (holder reopenAt : Nat) (free : g.held holder = none)
      (h : g.state? = some (.opened reopenAt)) (due : reopenAt ≤ g.now) :
      Turn g (.acquire holder)
        { g with state? := some .halfOpen, held := Function.update g.held holder (some true) }
  | stray (holder : Nat) (how : Settlement) (free : g.held holder = none) :
      Turn g (.settle holder how) g
  | settled (holder : Nat) (how : Settlement) (trial : Bool) (h : g.held holder = some trial) :
      Turn g (.settle holder how)
        { g with
          state? := some (how.change g.settings g.now trial g.state).state
          held := Function.update g.held holder none }

theorem turn_acquire (g : Gate) (holder : Nat) :
    Turn g (.acquire holder) (g.step (.acquire holder)) := by
  cases hheld : g.held holder with
  | some trial =>
      rw [step, hheld]
      exact .turnedAway holder (by simp [hheld])
  | none =>
      have hupdate : Function.update g.held holder none = g.held :=
        Function.update_eq_self_iff.mpr hheld.symm
      cases hs : g.state with
      | closed failures since =>
          rw [step, hheld]
          simp only [hs, Breaker.acquire]
          exact .admitted holder failures since hheld hs
      | halfOpen =>
          have hstep : g.step (.acquire holder) = g := by
            rw [step, hheld]
            simp only [hs, Breaker.acquire, hupdate, ← state?_of_halfOpen hs]
          rw [hstep]
          exact .turnedAway holder (fun _ => by simp [admits, hs, Breaker.acquire])
      | opened reopenAt =>
          have hsome := state?_of_opened hs
          by_cases hdue : g.now < reopenAt
          · have hstep : g.step (.acquire holder) = g := by
              rw [step, hheld]
              simp only [hs, Breaker.acquire, hdue, if_true, hupdate, ← hsome]
            rw [hstep]
            exact .turnedAway holder (fun _ => by simp [admits, hs, Breaker.acquire, hdue])
          · rw [step, hheld]
            simp only [hs, Breaker.acquire, hdue, if_false]
            exact .probing holder reopenAt hheld hsome (Nat.le_of_not_lt hdue)

theorem turn_step (g : Gate) (d : Deed) : Turn g d (g.step d) := by
  cases d with
  | wait ms => exact .waited ms
  | acquire holder => exact turn_acquire g holder
  | settle holder how =>
      cases hheld : g.held holder with
      | none =>
          rw [step, hheld]
          exact .stray holder how hheld
      | some trial =>
          rw [step, hheld]
          exact .settled holder how trial hheld

end Gate

def Act.at? (target : String) : Act → Option Deed
  | .wait ms => some (.wait ms)
  | .acquire t holder => if t = target then some (.acquire holder) else none
  | .settle t holder how => if t = target then some (.settle holder how) else none

namespace Act

theorem eq_acquire_of_at? {a : Act} {target : String} {holder : Nat}
    (h : a.at? target = some (.acquire holder)) : a = .acquire target holder := by
  cases a with
  | wait ms => cases h
  | acquire u k =>
      by_cases hu : u = target
      · simp only [at?, if_pos hu, Option.some.injEq, Deed.acquire.injEq] at h
        rw [hu, h]
      · simp [at?, hu] at h
  | settle u k how =>
      by_cases hu : u = target <;> simp [at?, hu] at h

theorem eq_settle_of_at? {a : Act} {target : String} {holder : Nat} {how : Settlement}
    (h : a.at? target = some (.settle holder how)) : a = .settle target holder how := by
  cases a with
  | wait ms => cases h
  | acquire u k =>
      by_cases hu : u = target <;> simp [at?, hu] at h
  | settle u k way =>
      by_cases hu : u = target
      · simp only [at?, if_pos hu, Option.some.injEq, Deed.settle.injEq] at h
        rw [hu, h.left, h.right]
      · simp [at?, hu] at h

end Act

namespace Traffic

def gate (t : Traffic) (target : String) : Gate where
  settings := t.breakers.settings
  state? := t.breakers.state? target
  now := t.now
  held := t.held target

@[simp] theorem gate_held (t : Traffic) (target : String) :
    (t.gate target).held = t.held target := rfl

theorem phase?_eq (t : Traffic) (target : String) :
    t.phase? target = (t.gate target).state?.map State.phase := rfl

theorem phase?_eq_halfOpen_iff (t : Traffic) (target : String) :
    t.phase? target = some .halfOpen ↔ (t.gate target).state? = some .halfOpen := by
  rw [phase?_eq, Option.map_eq_some_iff]
  constructor
  · rintro ⟨s, hs, hphase⟩
    cases s with
    | closed failures since => cases hphase
    | opened reopenAt => cases hphase
    | halfOpen => exact hs
  · intro h
    exact ⟨.halfOpen, h, rfl⟩

theorem admits_eq (t : Traffic) (target : String) : t.admits target = (t.gate target).admits := by
  unfold admits Gate.admits
  rw [Breakers.permit_acquire, Option.isSome_map]
  rfl

theorem setHeld_of_ne {target u : String} (h : u ≠ target) (t : Traffic) (holder : Nat)
    (permit : Option Bool) : t.setHeld target holder permit u = t.held u :=
  Function.update_of_ne h _ _

theorem setHeld_self (t : Traffic) (target : String) (holder : Nat) (permit : Option Bool) :
    t.setHeld target holder permit target = Function.update (t.held target) holder permit :=
  Function.update_self _ _ _

/-!
## One target at a time
-/

theorem gate_acquire_of_ne {target u : String} (h : u ≠ target) (t : Traffic) (holder : Nat) :
    (t.step (.acquire target holder)).gate u = t.gate u := by
  cases hheld : t.held target holder with
  | some trial =>
      simp only [step, hheld]
  | none =>
      simp only [step, hheld, gate, setHeld_of_ne h, Breakers.settings_acquire,
        Breakers.state?_acquire, if_neg h]

theorem gate_acquire_self (t : Traffic) (target : String) (holder : Nat) :
    (t.step (.acquire target holder)).gate target =
      (t.gate target).step (.acquire holder) := by
  cases hheld : t.held target holder with
  | some trial =>
      simp only [step, Gate.step, gate_held, hheld]
  | none =>
      simp only [step, Gate.step, hheld, gate, setHeld_self, Breakers.settings_acquire,
        Breakers.state?_acquire, Breakers.permit_acquire, Option.map_map, Gate.state]
      simp [Function.comp_def]

theorem gate_settle_of_ne {target u : String} (h : u ≠ target) (t : Traffic) (holder : Nat)
    (how : Settlement) : (t.step (.settle target holder how)).gate u = t.gate u := by
  cases hheld : t.held target holder with
  | none =>
      simp only [step, hheld]
  | some trial =>
      simp only [step, hheld, gate, setHeld_of_ne h, Breakers.settings_settle,
        Breakers.state?_settle, if_neg h]

theorem gate_settle_self (t : Traffic) (target : String) (holder : Nat) (how : Settlement) :
    (t.step (.settle target holder how)).gate target =
      (t.gate target).step (.settle holder how) := by
  cases hheld : t.held target holder with
  | none =>
      simp only [step, Gate.step, gate_held, hheld]
  | some trial =>
      simp only [step, Gate.step, hheld, gate, setHeld_self, Breakers.settings_settle,
        Breakers.state?_settle, if_true, Gate.state]

theorem gate_step (t : Traffic) (target : String) (a : Act) :
    (t.step a).gate target = (a.at? target).elim (t.gate target) (t.gate target).step := by
  cases a with
  | wait ms => rfl
  | acquire u holder =>
      by_cases h : u = target
      · subst h
        simp only [Act.at?, if_true, Option.elim, gate_acquire_self]
      · simp only [Act.at?, if_neg h, Option.elim, gate_acquire_of_ne (Ne.symm h)]
  | settle u holder how =>
      by_cases h : u = target
      · subst h
        simp only [Act.at?, if_true, Option.elim, gate_settle_self]
      · simp only [Act.at?, if_neg h, Option.elim, gate_settle_of_ne (Ne.symm h)]

/-- An act makes no difference at a target, or it comes to what its deed there comes to. -/
theorem gate_turn (t : Traffic) (target : String) (a : Act) :
    (t.step a).gate target = t.gate target ∨
      ∃ d, a.at? target = some d ∧ Gate.Turn (t.gate target) d ((t.step a).gate target) := by
  rw [gate_step]
  cases a.at? target with
  | none => exact Or.inl rfl
  | some d => exact Or.inr ⟨d, rfl, Gate.turn_step _ d⟩

/-- What a gate keeps at each of its deeds, it keeps in all traffic. -/
theorem gate_invariant {P : Gate → Prop} (hstep : ∀ {g d g'}, Gate.Turn g d g' → P g → P g')
    (t : Traffic) (target : String) (h : P (t.gate target)) (acts : List Act) :
    P ((t.run acts).gate target) := by
  induction acts generalizing t with
  | nil => exact h
  | cons a rest ih =>
      apply ih
      rcases gate_turn t target a with hsame | ⟨d, _, hturn⟩
      · rw [hsame]
        exact h
      · exact hstep hturn h

end Traffic
end Rpc
end Courier
