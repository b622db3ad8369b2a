import Courier.Time.Span

/-!
# Circuit breakers

A breaker admits calls to a target while it is closed, and counts failures in a
row. When there are too many it opens and refuses calls for a while; then it
lets a single trial call through, and closes or opens again by its outcome.

Times are in milliseconds. The clock tells no time of 2⁶³ seconds or later, and a
breaker that opens when its cool-down would end then brings the call down. That case
is left out: the end of a cool-down is always taken to be a time.
-/

namespace Courier
namespace Rpc

structure BreakerSettings where
  /-- Failures in a row that open the breaker. -/
  failureThreshold : Nat := 5
  /-- How long a failure counts. -/
  failureWindow : Nat := 60000
  /-- How long calls are refused before a trial; it has to end before 2⁶³ seconds on the clock. -/
  openDuration : Nat := 30000
deriving DecidableEq, Repr, Inhabited

inductive Phase where
  | closed
  | opened
  | halfOpen
deriving DecidableEq, Repr, Inhabited

def Phase.label : Phase → String
  | .closed => "closed"
  | .opened => "open"
  | .halfOpen => "half_open"

namespace Breaker

inductive State where
  | closed (failures : Nat) (windowStart : Nat)
  | opened (reopenAt : Nat)
  | halfOpen
deriving DecidableEq, Repr, Inhabited

def State.phase : State → Phase
  | .closed _ _ => .closed
  | .opened _ => .opened
  | .halfOpen => .halfOpen

def State.fresh (now : Nat) : State := .closed 0 now

/-- The state after an operation, and the phase it reports having entered. -/
structure Change where
  state : State
  event : Option Phase := none
deriving DecidableEq, Repr

structure Admission where
  trial : Option Bool
  change : Change
deriving DecidableEq, Repr

def acquire (now : Nat) : State → Admission
  | .closed failures windowStart => ⟨some false, ⟨.closed failures windowStart, none⟩⟩
  | .halfOpen => ⟨none, ⟨.halfOpen, none⟩⟩
  | .opened reopenAt =>
    if now < reopenAt then ⟨none, ⟨.opened reopenAt, none⟩⟩
    else ⟨some true, ⟨.halfOpen, some .halfOpen⟩⟩

def succeed (now : Nat) : State → Change
  | .closed _ windowStart => ⟨.closed 0 windowStart, none⟩
  | .halfOpen => ⟨.closed 0 now, some .closed⟩
  | .opened _ => ⟨.closed 0 now, some .closed⟩

def trip (settings : BreakerSettings) (now : Nat) : Change :=
  ⟨.opened (now + settings.openDuration), some .opened⟩

/--
Records that an admitted call failed. The window begins at the first failure in
a row; a failure after its end begins a new one.
-/
def fail (settings : BreakerSettings) (now : Nat) : State → Change
  | .closed failures windowStart =>
    let (failures, windowStart) :=
      if failures = 0 ∨ settings.failureWindow < now - windowStart then (0, now)
      else (failures, windowStart)
    if settings.failureThreshold ≤ failures + 1 then trip settings now
    else ⟨.closed (failures + 1) windowStart, none⟩
  | .halfOpen => trip settings now
  | .opened reopenAt => ⟨.opened reopenAt, none⟩

/-- Gives up an admitted call unsettled. A trial lets the next call be one. -/
def release (now : Nat) (trial : Bool) : State → Change
  | .halfOpen => if trial then ⟨.opened now, none⟩ else ⟨.halfOpen, none⟩
  | s => ⟨s, none⟩

end Breaker

structure Permit where
  target : String
  trial : Bool
deriving DecidableEq, Repr, Inhabited

/-- Breakers by target, and the phases they reported, latest first. -/
structure Breakers where
  settings : BreakerSettings
  states : List (String × Breaker.State) := []
  events : List (String × Phase) := []
deriving Repr, Inhabited

namespace Breakers

open Breaker

def state? (b : Breakers) (target : String) : Option State :=
  b.states.lookup target

def phase? (b : Breakers) (target : String) : Option Phase :=
  (b.state? target).map State.phase

def setState (target : String) (s : State) : List (String × State) → List (String × State)
  | [] => [(target, s)]
  | (t, old) :: rest =>
    if t = target then (target, s) :: rest else (t, old) :: setState target s rest

def apply (b : Breakers) (target : String) (c : Change) : Breakers :=
  { b with
    states := setState target c.state b.states
    events := (c.event.map fun e => (target, e)).toList ++ b.events }

/-- A target's breaker is made at its first call. -/
def stateOrFresh (b : Breakers) (now : Nat) (target : String) : State :=
  (b.state? target).getD (.fresh now)

def acquire (b : Breakers) (now : Nat) (target : String) : Option Permit × Breakers :=
  let a := Breaker.acquire now (b.stateOrFresh now target)
  (a.trial.map fun trial => ⟨target, trial⟩, b.apply target a.change)

def succeed (b : Breakers) (now : Nat) (p : Permit) : Breakers :=
  b.apply p.target (Breaker.succeed now (b.stateOrFresh now p.target))

def fail (b : Breakers) (now : Nat) (p : Permit) : Breakers :=
  b.apply p.target (Breaker.fail b.settings now (b.stateOrFresh now p.target))

def release (b : Breakers) (now : Nat) (p : Permit) : Breakers :=
  b.apply p.target (Breaker.release now p.trial (b.stateOrFresh now p.target))

end Breakers
end Rpc
end Courier
