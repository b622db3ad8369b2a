import Courier.Time.Span

/-!
# Backoff

How long a caller waits between attempts: a delay that doubles with each attempt
up to a bound, of which the upper half is left to chance.
-/

namespace Courier
namespace Rpc

open Time (Span)

structure RetryPolicy where
  /-- All attempts, the first one included. -/
  maxAttempts : Nat := 3
  initial : Span := .ofMilliseconds 100
  greatest : Span := .ofMilliseconds 2000
deriving DecidableEq, Repr, Inhabited

namespace RetryPolicy

def noRetry : RetryPolicy := { maxAttempts := 1 }

/-- How many attempts are made at most; the first one always is. -/
def attempts (p : RetryPolicy) : Nat := max p.maxAttempts 1

/-- How often the delay has been doubled when an attempt has failed. -/
def doublings (attempt : Nat) : Nat := min (attempt - 1) 16

/-- The delay after a failed attempt, before chance. -/
def ceiling (p : RetryPolicy) (attempt : Nat) : Span :=
  min (min ⟨p.initial.nanoseconds <<< doublings attempt⟩ Span.longest) p.greatest

def half (p : RetryPolicy) (attempt : Nat) : Nat :=
  (p.ceiling attempt).nanoseconds / 2

/-- The greatest count of milliseconds that chance may add. -/
def jitterBound (p : RetryPolicy) (attempt : Nat) : Nat :=
  (p.half attempt / 1000000) % UInt64.size

def backoff (p : RetryPolicy) (attempt draw : Nat) : Span :=
  ⟨p.half attempt + (draw % (p.jitterBound attempt + 1)) * 1000000⟩

def greatestBackoff (p : RetryPolicy) (attempt : Nat) : Span :=
  p.backoff attempt (p.jitterBound attempt)

end RetryPolicy
end Rpc
end Courier
