import Courier.Rpc.Call

/-!
# Calls in flight

Several calls over shared breakers and lookups, on one clock. When the clock
moves, each call that was waiting for a time now past goes on, in the order of
those times; of two calls with the same time the one that began to wait first.
-/

namespace Courier
namespace Rpc

structure Flight (α : Type) where
  number : Nat
  rules : CallRules
  plan : Nat → Endpoint → Reply α
  call : Call α := {}
  turn : Nat := 0
  cancelled : Bool := false

structure Flights (δ α : Type) where
  resolve : Resolve δ
  shared : Shared δ
  now : Nat := 0
  turn : Nat := 0
  launched : Nat := 0
  flights : List (Flight α) := []

namespace Flights

variable {δ α : Type}

def pollFlight (w : Flights δ α) (f : Flight α) : Flight α × Flights δ α :=
  let (call, shared) := f.call.poll f.rules w.resolve f.plan w.now w.shared
  ({ f with call := call, turn := w.turn }, { w with shared := shared, turn := w.turn + 1 })

def replace (f : Flight α) (flights : List (Flight α)) : List (Flight α) :=
  flights.map fun g => if g.number = f.number then f else g

def wakeTime (f : Flight α) : Option Nat :=
  if f.cancelled then none else f.call.wakeTime f.rules

def isBefore (f g : Flight α) : Bool :=
  match wakeTime f, wakeTime g with
  | some a, some b => a < b || (a == b && f.turn ≤ g.turn)
  | _, _ => true

/-- The calls whose time has come, in the order in which they go on. -/
def due (w : Flights δ α) : List (Flight α) :=
  (w.flights.filter fun f => (wakeTime f).any (· ≤ w.now)).mergeSort isBefore

def pollDue (w : Flights δ α) : Flights δ α :=
  w.due.foldl (fun w f =>
    let (f, w) := w.pollFlight f
    { w with flights := replace f w.flights }) w

def advance (w : Flights δ α) (ms : Nat) : Flights δ α :=
  pollDue { w with now := w.now + ms }

def launch (w : Flights δ α) (rules : CallRules) (plan : Nat → Endpoint → Reply α) :
    Nat × Flights δ α :=
  let w := w.pollDue
  let (f, w) := w.pollFlight { number := w.launched, rules := rules, plan := plan }
  (f.number, { w with launched := w.launched + 1, flights := w.flights ++ [f] })

def find? (w : Flights δ α) (number : Nat) : Option (Flight α) :=
  w.flights.find? fun f => f.number = number

def abort (w : Flights δ α) (number : Nat) : Flights δ α :=
  match w.find? number with
  | none => w
  | some f =>
    if f.cancelled ∨ (f.call.result?).isSome then w
    else
      { w with
        shared := f.call.cancel w.now w.shared
        flights := replace { f with cancelled := true } w.flights }

def nextWake (w : Flights δ α) (also : Option Nat) : Option Nat :=
  (also.toList ++ w.flights.filterMap wakeTime).min?

/-- Makes a call to its end while others go on; the clock moves to each wake time in turn. -/
def callThrough (w : Flights δ α) : Nat → Flight α → Flight α × Flights δ α
  | 0, f => (f, w)
  | fuel + 1, f =>
    let (f, w) := if (wakeTime f).any (· ≤ w.now) then w.pollFlight f else (f, w)
    if (f.call.result?).isSome then (f, w)
    else
      let w := w.pollDue
      match w.nextWake (wakeTime f) with
      | none => (f, w)
      | some t => callThrough { w with now := max w.now t } fuel f

def waitFor (w : Flights δ α) (number : Nat) : Nat → Flights δ α
  | 0 => w
  | fuel + 1 =>
    match w.find? number with
    | none => w
    | some f =>
      if f.cancelled ∨ (f.call.result?).isSome then w
      else
        let w := w.pollDue
        match w.find? number with
        | none => w
        | some f =>
          if (f.call.result?).isSome then w
          else
            match w.nextWake none with
            | none => w
            | some t => waitFor { w with now := max w.now t } number fuel

/-- Each attempt of a call waits at most three times. -/
def waitBound (flights : List (Flight α)) : Nat :=
  flights.foldl (fun n f => n + 3 * f.rules.retry.attempts + 3) 0

def call (w : Flights δ α) (rules : CallRules) (plan : Nat → Endpoint → Reply α) :
    Call α × Flights δ α :=
  let f : Flight α := { number := w.launched, rules := rules, plan := plan }
  let (f, w) := callThrough { w with launched := w.launched + 1 } (waitBound (f :: w.flights)) f
  (f.call, w)

/-- Waits for the end of a call; gives what came of it, or nothing if it was cancelled. -/
def join (w : Flights δ α) (number : Nat) : Option (Call α) × Flights δ α :=
  let w := waitFor w number (waitBound w.flights + 1)
  (((w.find? number).filter fun f => !f.cancelled).map Flight.call, w)

end Flights
end Rpc
end Courier
