/-!
# Draining

The dispatcher and the HTTP server stop side by side under one deadline. Both are
waited for until they have ended or the deadline has passed. A server that fails in
time fails the drain.

The deadline is a time of a clock that counts its seconds in 63 bits. A drain whose
deadline would be later than that clock can tell ends in a panic.
-/

namespace Courier
namespace Shutdown

/-- One half: after how many milliseconds it ends, if ever, and with what. -/
structure Half (α : Type) where
  after : Option Nat
  result : α
deriving Repr

inductive Watch (α : Type) where
  | waiting
  | ended (result : α)
  | expired
deriving DecidableEq, Repr

namespace Watch

variable {α : Type}

/-- Looks at a half, and only then at the deadline: a half that ends at it is in time. -/
def look (deadline now : Nat) (h : Half α) : Watch α → Watch α
  | .waiting =>
    if h.after.any (· ≤ now) then .ended h.result
    else if deadline ≤ now then .expired
    else .waiting
  | seen => seen

def wakeTime (deadline : Nat) (h : Half α) : Watch α → Option Nat
  | .waiting => some ((h.after.map (min deadline)).getD deadline)
  | _ => none

end Watch

structure Drain where
  dispatcher : Bool
  http : Bool
deriving DecidableEq, Repr

structure Draining (ε : Type) where
  dispatcher : Watch Bool := .waiting
  server : Watch (Except ε Unit) := .waiting

namespace Draining

variable {ε : Type}

/-- What a drain comes to; a half that is not seen to have ended has not stopped in time. -/
def conclude (d : Draining ε) : Except ε Drain :=
  let stopped : Bool :=
    match d.dispatcher with
    | .ended result => result
    | _ => false
  match d.server with
  | .ended (.error e) => .error e
  | .ended (.ok ()) => .ok ⟨stopped, true⟩
  | _ => .ok ⟨stopped, false⟩

variable (grace : Nat) (dispatcher : Half Bool) (server : Half (Except ε Unit))

def look (now : Nat) (d : Draining ε) : Draining ε :=
  ⟨d.dispatcher.look grace now dispatcher, d.server.look grace now server⟩

def wakeTime (d : Draining ε) : Option Nat :=
  match d.dispatcher.wakeTime grace dispatcher, d.server.wakeTime grace server with
  | some t, some u => some (min t u)
  | some t, none => some t
  | none, wake => wake

def run : Nat → Nat → Draining ε → Draining ε × Nat
  | 0, now, d => (d, now)
  | looks + 1, now, d =>
    let d := d.look grace dispatcher server now
    match d.wakeTime grace dispatcher server with
    | none => (d, now)
    | some t => run looks t d

end Draining

def clockRange : Nat := (1 <<< 63) * 1000000000

/-- Whether a clock that reads so many nanoseconds can tell the time so many milliseconds later. -/
def HasDeadline (clock grace : Nat) : Prop :=
  clock + grace * 1000000 < clockRange

instance (clock grace : Nat) : Decidable (HasDeadline clock grace) :=
  inferInstanceAs (Decidable (_ < _))

/--
Drains both halves, from a reading of the clock; gives how long that took as well, and
nothing if there is no deadline to be had.
-/
def drainWithin {ε : Type} (clock grace : Nat) (dispatcher : Half Bool)
    (server : Half (Except ε Unit)) : Option (Except ε Drain × Nat) :=
  if HasDeadline clock grace then
    -- Each look after the first one is the last at one of the halves.
    let (d, elapsed) := Draining.run grace dispatcher server 3 0 {}
    some (d.conclude, elapsed)
  else none

end Shutdown
end Courier
