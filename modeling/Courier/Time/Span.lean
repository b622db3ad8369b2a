/-!
# Spans of time

Spans in nanoseconds, and their text with the largest unit that is not empty.
-/

namespace Courier
namespace Time

structure Span where
  nanoseconds : Nat
deriving DecidableEq, Repr, Inhabited

namespace Span

def ofMilliseconds (n : Nat) : Span := ⟨n * 1000000⟩
def ofMicroseconds (n : Nat) : Span := ⟨n * 1000⟩
def ofSeconds (n : Nat) : Span := ⟨n * 1000000000⟩

def milliseconds (s : Span) : Nat := s.nanoseconds / 1000000

/-- The least count of milliseconds that is not shorter. -/
def ceilMilliseconds (s : Span) : Nat := (s.nanoseconds + 999999) / 1000000

instance : Min Span := ⟨fun a b => ⟨min a.nanoseconds b.nanoseconds⟩⟩

/-- The longest span: 64 bits of seconds and a nanosecond less than one more. -/
def longest : Span := ⟨UInt64.size * 1000000000 - 1⟩

/-- A digit group without its zeros at the end, after a point; nothing for zero. -/
def fractionText (width n : Nat) : String :=
  if n = 0 then ""
  else
    let digits := (Nat.toDigits 10 n)
    let padded := List.replicate (width - digits.length) '0' ++ digits
    "." ++ String.ofList (padded.reverse.dropWhile (· == '0')).reverse

def describe (s : Span) : String :=
  let n := s.nanoseconds
  if 1000000000 ≤ n then
    toString (n / 1000000000) ++ fractionText 9 (n % 1000000000) ++ "s"
  else if 1000000 ≤ n then toString (n / 1000000) ++ fractionText 6 (n % 1000000) ++ "ms"
  else if 1000 ≤ n then toString (n / 1000) ++ fractionText 3 (n % 1000) ++ "µs"
  else toString n ++ "ns"

end Span
end Time
end Courier
