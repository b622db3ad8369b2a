import Courier.Named
import Courier.Rpc.Breaker

/-!
# Breakers of several targets

What an operation does to the breaker of its own target, and that it leaves the
breakers of all other targets as they are.
-/

namespace Courier
namespace Rpc

open Breaker

/-- How an admitted call gives its permit back. -/
inductive Settlement where
  | succeed
  | fail
  | release
deriving DecidableEq, Repr

namespace Breaker

/-- The failures in a row before one that comes now, and the time of the first. -/
def failureRun (settings : BreakerSettings) (now failures since : Nat) : Nat × Nat :=
  if failures = 0 ∨ settings.failureWindow < now - since then (0, now) else (failures, since)

theorem fail_closed (settings : BreakerSettings) (now failures since : Nat) :
    fail settings now (.closed failures since) =
      if settings.failureThreshold ≤ (failureRun settings now failures since).1 + 1 then
        trip settings now
      else
        ⟨.closed ((failureRun settings now failures since).1 + 1)
          (failureRun settings now failures since).2, none⟩ := rfl

theorem fail_closed_cases (settings : BreakerSettings) (now failures since : Nat) :
    (fail settings now (.closed failures since)).state = .opened (now + settings.openDuration) ∨
      ∃ counted start, counted < settings.failureThreshold ∧
        (fail settings now (.closed failures since)).state = .closed counted start := by
  rw [fail_closed]
  split
  · exact Or.inl rfl
  · rename_i hfew
    exact Or.inr ⟨_, _, Nat.lt_of_not_le hfew, rfl⟩

end Breaker

namespace Settlement

def change (settings : BreakerSettings) (now : Nat) (trial : Bool) : Settlement → State → Change
  | succeed => Breaker.succeed now
  | fail => Breaker.fail settings now
  | release => Breaker.release now trial

def apply (b : Breakers) (now : Nat) (p : Permit) : Settlement → Breakers
  | succeed => b.succeed now p
  | fail => b.fail now p
  | release => b.release now p

theorem apply_eq (b : Breakers) (now : Nat) (p : Permit) (how : Settlement) :
    how.apply b now p =
      b.apply p.target (how.change b.settings now p.trial (b.stateOrFresh now p.target)) := by
  cases how <;> rfl

end Settlement

namespace Breakers

/-!
## The states of targets
-/

theorem lookup_setState (target t : String) (s : State) (states : List (String × State)) :
    (setState target s states).lookup t =
      if t = target then some s else states.lookup t := by
  induction states with
  | nil =>
      simp only [setState, Named.lookup_cons]
  | cons entry rest ih =>
      rcases entry with ⟨u, old⟩
      by_cases hu : u = target
      · simp only [setState, hu, if_true, Named.lookup_cons]
        split <;> rfl
      · simp only [setState, hu, if_false, Named.lookup_cons, ih]
        by_cases ht : t = u
        · have hne : t ≠ target := fun h => hu (ht.symm.trans h)
          simp only [ht, if_true, hu, if_false]
        · simp only [ht, if_false]

@[simp] theorem settings_apply (b : Breakers) (target : String) (c : Change) :
    (b.apply target c).settings = b.settings := rfl

theorem state?_apply (b : Breakers) (target t : String) (c : Change) :
    (b.apply target c).state? t = if t = target then some c.state else b.state? t :=
  lookup_setState target t c.state b.states

@[simp] theorem settings_acquire (b : Breakers) (now : Nat) (target : String) :
    (b.acquire now target).2.settings = b.settings := rfl

theorem state?_acquire (b : Breakers) (now : Nat) (target t : String) :
    (b.acquire now target).2.state? t =
      if t = target then
        some (Breaker.acquire now ((b.state? target).getD (.fresh now))).change.state
      else b.state? t :=
  state?_apply b target t _

theorem permit_acquire (b : Breakers) (now : Nat) (target : String) :
    (b.acquire now target).1 =
      (Breaker.acquire now ((b.state? target).getD (.fresh now))).trial.map (⟨target, ·⟩) := rfl

@[simp] theorem settings_settle (b : Breakers) (now : Nat) (p : Permit) (how : Settlement) :
    (how.apply b now p).settings = b.settings := by
  rw [Settlement.apply_eq, settings_apply]

theorem state?_settle (b : Breakers) (now : Nat) (p : Permit) (how : Settlement) (t : String) :
    (how.apply b now p).state? t =
      if t = p.target then
        some (how.change b.settings now p.trial ((b.state? p.target).getD (.fresh now))).state
      else b.state? t := by
  rw [Settlement.apply_eq, state?_apply]
  rfl

end Breakers
end Rpc
end Courier
