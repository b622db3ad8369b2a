import Courier.Named
import Courier.Rpc.Flights

/-!
# Sessions of calls

Calls by one party that gives names to the permits it holds and to the calls it
has begun beside others.
-/

namespace Courier
namespace Rpc

structure Session (δ α : Type) where
  flights : Flights δ α
  rules : String → CallRules
  permits : Named Permit := []
  tasks : Named Nat := []

namespace Session

variable {δ α : Type}

def breakers (s : Session δ α) : Breakers := s.flights.shared.breakers

def withBreakers (s : Session δ α) (b : Breakers) : Session δ α :=
  { s with flights := { s.flights with shared := { s.flights.shared with breakers := b } } }

abbrev Settle := Breakers → Nat → Permit → Breakers

def settle (s : Session δ α) (how : Settle) (name : String) : Bool × Session δ α :=
  match s.permits.lookup name with
  | none => (false, s)
  | some p =>
    let s := s.withBreakers (how s.breakers s.flights.now p)
    (true, { s with permits := s.permits.forget name })

/-- Asks for a permit; one that it replaces is released. -/
def acquire (s : Session δ α) (name service : String) : Option Permit × Session δ α :=
  match s.breakers.acquire s.flights.now service with
  | (none, b) => (none, s.withBreakers b)
  | (some p, b) =>
    let s := ((s.withBreakers b).settle Breakers.release name).2
    (some p, { s with permits := s.permits.put name p })

def call (s : Session δ α) (service : String) (plan : Nat → Endpoint → Reply α) :
    Call α × Session δ α :=
  let (c, flights) := s.flights.call (s.rules service) plan
  (c, { s with flights := flights })

/-- Begins a call; one of the same name goes on without it. -/
def spawn (s : Session δ α) (name service : String) (plan : Nat → Endpoint → Reply α) :
    Session δ α :=
  let (number, flights) := s.flights.launch (s.rules service) plan
  { s with flights := flights, tasks := s.tasks.put name number }

/-- Waits for the end of a call, which has none if it was cancelled. -/
def join (s : Session δ α) (name : String) : Option (Option (Call α)) × Session δ α :=
  match s.tasks.lookup name with
  | none => (none, s)
  | some number =>
    let (c, flights) := s.flights.join number
    (some c, { s with flights := flights, tasks := s.tasks.forget name })

def abort (s : Session δ α) (name : String) : Bool × Session δ α :=
  match s.tasks.lookup name with
  | none => (false, s)
  | some number => (true, { s with flights := s.flights.abort number })

def advance (s : Session δ α) (ms : Nat) : Session δ α :=
  { s with flights := s.flights.advance ms }

def resolve (s : Session δ α) (service : String) :
    Except DiscoveryError (List Endpoint) × Session δ α :=
  let shared := s.flights.shared
  let (lookup, lookups) := s.flights.resolve shared.lookups service
  (lookup.found, { s with flights := { s.flights with shared := { shared with lookups := lookups } } })

end Session
end Rpc
end Courier
