import Courier.Decimal.Binary64

/-!
# Written numbers

The parts of a number as it is written, and the values they stand for: an
integer when there is neither fraction nor exponent, and else the binary64
number that the digits are scaled to.

The scaling keeps a significand of at most 64 bits. Integer digits that no
longer fit count as a power of ten, fraction digits that no longer fit are
dropped. The significand is then multiplied or divided by one power of ten, at
most `10 ^ 308` at a time, each step rounded.
-/

namespace Courier
namespace Decimal

/-- Digits are held by value, most significant first. -/
structure Exponent where
  negative : Bool
  digits : List Nat
deriving DecidableEq, Repr

/-- A number as written; `fraction` is empty when there is no point. -/
structure Numeral where
  negative : Bool
  whole : List Nat
  fraction : List Nat
  exponent : Option Exponent
deriving DecidableEq, Repr

def ofDigits (digits : List Nat) : Nat :=
  digits.foldl (fun n d => n * 10 + d) 0

/-- The digits of a number, most significant first; zero has one. -/
def digitsOf (n : Nat) : List Nat :=
  (Nat.toDigits 10 n).map fun c => c.toNat - '0'.toNat

namespace Numeral

def wordBound : Nat := UInt64.size
def exponentBound : Nat := 1 <<< 31

def ofInt (n : Int) : Numeral :=
  ⟨decide (n < 0), digitsOf n.natAbs, [], none⟩

/--
The integer that a numeral without fraction and exponent writes. A negated zero
is none, as it stands for the number `-0.0`.
-/
def toInt? (x : Numeral) : Option Int :=
  if x.fraction.isEmpty && x.exponent.isNone then
    let n := ofDigits x.whole
    if x.negative then (if n = 0 then none else some (-n)) else some n
  else none

/-- A significand below `2 ^ 64` and the power of ten it is scaled by. -/
structure Scaled where
  significand : Nat
  power : Int
  full : Bool
deriving DecidableEq, Repr

def Scaled.wholeDigit (s : Scaled) (d : Nat) : Scaled :=
  if s.full then { s with power := s.power + 1 }
  else
    let n := s.significand * 10 + d
    if n < wordBound then { s with significand := n }
    else { s with power := s.power + 1, full := true }

def Scaled.fractionDigit (s : Scaled) (d : Nat) : Scaled :=
  if s.full then s
  else
    let n := s.significand * 10 + d
    if n < wordBound then { s with significand := n, power := s.power - 1 }
    else { s with full := true }

def scaled (x : Numeral) : Scaled :=
  let whole := x.whole.foldl Scaled.wholeDigit ⟨0, 0, false⟩
  x.fraction.foldl Scaled.fractionDigit { whole with full := false }

def greatestPower : Nat := 308

/-- Divides by the greatest power so many times, and then by `10 ^ rest`. -/
def divideBySteps (x : Binary64) (rest : Nat) : Nat → Option Binary64
  | 0 => Binary64.powerOfTen? rest >>= x.div?
  | steps + 1 =>
    if x.isZero then some x
    else
      match Binary64.powerOfTen? greatestPower >>= x.div? with
      | none => none
      | some y => divideBySteps y rest steps

def divideByPower (x : Binary64) (k : Nat) : Option Binary64 :=
  let steps := (k - 1) / greatestPower
  divideBySteps x (k - greatestPower * steps) steps

def scaleByPower (significand : Nat) (power : Int) : Option Binary64 :=
  match Binary64.ofNat? significand with
  | none => none
  | some x =>
    if power < 0 then divideByPower x (-power).toNat
    else if power ≤ greatestPower then Binary64.powerOfTen? power.toNat >>= x.mul?
    else if x.isZero then some x
    else none

def toBinary64? (x : Numeral) : Option Binary64 :=
  let s := x.scaled
  let magnitude :=
    match x.exponent with
    | none => scaleByPower s.significand s.power
    | some e =>
      let n := ofDigits e.digits
      if n < exponentBound then
        scaleByPower s.significand (if e.negative then s.power - n else s.power + n)
      else if s.significand ≠ 0 ∧ e.negative = false then none
      else some Binary64.zero
  magnitude.map fun y => if x.negative then -y else y

end Numeral
end Decimal
end Courier
