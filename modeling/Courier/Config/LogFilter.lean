import Courier.Decimal.Written
import Courier.Text.Blank
import Courier.Text.Pattern
import Courier.Text.Segments

/-!
# Log filters

What is logged is told by directives between commas: a level for everything, or
a target, a span in brackets, or both, with a level after an equals sign. A span
may have a field in braces.

Blank characters around a directive are passed over to find its parts, but the
parts are cut from the directive as it is written, at the bytes that were counted
without the blanks in front. A cut inside of a character brings the program down.
-/

namespace Courier
namespace Config
namespace LogFilter

inductive Fault where
  | malformed
  | torn
deriving DecidableEq, Repr

def levels : List String := ["error", "warn", "info", "debug", "trace", "off"]

def isLevelNumber (cs : List Char) : Bool :=
  let digits := if cs.head? = some '+' then cs.drop 1 else cs
  !digits.isEmpty && digits.all Char.isDigit &&
    digits.foldl (fun n c => n * 10 + (c.toNat - '0'.toNat)) 0 ≤ 5

/-- A level by name in any letter case, or by number; none at all stands for every level. -/
def isLevel (cs : List Char) : Bool :=
  cs.isEmpty || isLevelNumber cs || levels.contains (String.ofList (cs.map Char.toLower))

def beginsTarget (c : Char) : Bool :=
  c == '-' || c == ':' || c == '_' || Text.isAlphanumeric c

def numberWords : List String := ["inf", "infinity", "nan"]

def isSignedNumber (cs : List Char) : Bool :=
  cs.head? == some '+' && ((Decimal.Numeral.ofChars? cs).isSome ||
    numberWords.contains (String.ofList ((cs.drop 1).map Char.toLower)))

def isField (cs : List Char) : Bool :=
  !cs.isEmpty &&
    match Text.splitChars '=' cs with
    | _ :: value :: _ => isSignedNumber value || Text.isPattern value
    | _ => true

/-! ## Parts of a directive -/

/-- What is left after so many bytes, unless they end inside of a character. -/
def dropBytes : Nat → List Char → Option (List Char)
  | 0, cs => some cs
  | _ + 1, [] => none
  | n + 1, c :: rest => if c.utf8Size ≤ n + 1 then dropBytes (n + 1 - c.utf8Size) rest else none

def takeBytes : Nat → List Char → Option (List Char)
  | 0, _ => some []
  | _ + 1, [] => none
  | n + 1, c :: rest =>
    if c.utf8Size ≤ n + 1 then (takeBytes (n + 1 - c.utf8Size) rest).map (c :: ·) else none

def cut (directive : List Char) (first stop : Nat) : Except Fault (List Char) :=
  match dropBytes first directive >>= takeBytes (stop - first) with
  | some part => .ok part
  | none => .error .torn

def cutFrom (directive : List Char) (first : Nat) : Except Fault (List Char) :=
  match dropBytes first directive with
  | some part => .ok part
  | none => .error .torn

inductive Part where
  | start
  | target (first : Nat)
  | span (first : Nat)
  | field (first : Nat)
  | afterField
  | afterSpan
  | level (first : Nat)
deriving DecidableEq, Repr

def Part.next (directive : List Char) (i : Nat) (c : Char) : Part → Except Fault Part
  | .start =>
    if c = '[' then .ok (.span (i + 1))
    else if beginsTarget c then .ok (.target i)
    else .error .malformed
  | .target first =>
    if c = '=' then do let _ ← cut directive first i; return .level (i + 1)
    else if c = '[' then do let _ ← cut directive first i; return .span (i + 1)
    else .ok (.target first)
  | .span first =>
    if c = ']' then do let _ ← cut directive first i; return .afterSpan
    else if c = '\x7b' then do let _ ← cut directive first i; return .field (i + 1)
    else .ok (.span first)
  | .field first =>
    if c = '\x7d' then do
      if isField (← cut directive first i) then return .afterField else throw .malformed
    else .ok (.field first)
  | .afterField => if c = ']' then .ok .afterSpan else .error .malformed
  | .afterSpan => if c = '=' then .ok (.level (i + 1)) else .error .malformed
  | .level first => .ok (.level first)

def Part.readAll (directive : List Char) : Nat → Part → List Char → Except Fault Part
  | _, p, [] => .ok p
  | i, p, c :: rest => do Part.readAll directive (i + c.utf8Size) (← p.next directive i c) rest

def Part.finish (directive : List Char) : Part → Except Fault Unit
  | .target first => do let _ ← cutFrom directive first
  | .level first => do
    if isLevel (← cutFrom directive first) then return else throw .malformed
  | .afterSpan => .ok ()
  | _ => .error .malformed

def readDirective (directive : List Char) : Except Fault Unit := do
  (← Part.start.readAll directive 0 (Text.trimChars directive)).finish directive

/-- Reads a filter; where there is nothing between commas there is no directive. -/
def read (s : String) : Except Fault Unit :=
  ((Text.splitChars ',' s.toList).filter (!·.isEmpty)).forM readDirective

end LogFilter
end Config
end Courier
