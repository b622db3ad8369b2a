import Courier.Text.Blank
import Courier.Time.Span

/-!
# Written durations

A duration is written as digits and a unit: milliseconds, seconds, minutes or
hours. A number without a unit counts seconds.
-/

namespace Courier
namespace Config

open Time (Span)

inductive DurationError where
  | invalid (text : String)
  | unknownUnit (unit text : String)
deriving DecidableEq, Repr

def DurationError.message : DurationError → String
  | .invalid text => "invalid duration `" ++ text ++ "`"
  | .unknownUnit unit text => "unknown duration unit `" ++ unit ++ "` in `" ++ text ++ "`"

def valueOf (digits : List Char) : Nat :=
  digits.foldl (fun n c => n * 10 + (c.toNat - '0'.toNat)) 0

inductive TimeUnit where
  | millisecond
  | second
  | minute
  | hour
deriving DecidableEq, Repr

namespace TimeUnit

/-- The unit of a name; without one, seconds are meant. -/
def ofName? (name : List Char) : Option TimeUnit :=
  if name = "ms".toList then some .millisecond
  else if name = [] ∨ name = ['s'] then some .second
  else if name = ['m'] then some .minute
  else if name = ['h'] then some .hour
  else none

/-- So many of a unit. Minutes and hours are turned into seconds in 64 bits, which wrap around. -/
def span (unit : TimeUnit) (n : UInt64) : Span :=
  match unit with
  | .millisecond => Span.ofMilliseconds n.toNat
  | .second => Span.ofSeconds n.toNat
  | .minute => Span.ofSeconds (n * 60).toNat
  | .hour => Span.ofSeconds (n * 3600).toNat

end TimeUnit

def readDuration (text : String) : Except DurationError Span :=
  let cs := Text.trimChars text.toList
  let trimmed := String.ofList cs
  let digits := cs.takeWhile Char.isDigit
  if digits.isEmpty ∨ UInt64.size ≤ valueOf digits then .error (.invalid trimmed)
  else
    let name := Text.trimChars (cs.dropWhile Char.isDigit)
    match TimeUnit.ofName? name with
    | some unit => .ok (unit.span (UInt64.ofNat (valueOf digits)))
    | none => .error (.unknownUnit (String.ofList name) trimmed)

end Config
end Courier
