/-!
# Binary64 numbers

Finite numbers of 53 significant bits, in exact natural number arithmetic. A
product or quotient is the exact one rounded to the nearest number, a tie to
the even significand.
-/

namespace Courier
namespace Decimal

/-- The number `± significand * 2 ^ exponent`. -/
structure Binary64 where
  negative : Bool
  significand : Nat
  exponent : Int
deriving DecidableEq, Repr

namespace Binary64

def leastExponent : Int := -1074
def greatestExponent : Int := 971

def zero : Binary64 := ⟨false, 0, leastExponent⟩

def isZero (x : Binary64) : Bool :=
  x.significand == 0

def neg (x : Binary64) : Binary64 :=
  { x with negative := !x.negative }

instance : Neg Binary64 := ⟨neg⟩

/-- `n * 2 ^ e` as a quotient of natural numbers. -/
def scale (n : Nat) (e : Int) : Nat × Nat :=
  if 0 ≤ e then (n <<< e.toNat, 1) else (n, 1 <<< (-e).toNat)

def quotient (x : Binary64) : Nat × Nat :=
  scale x.significand x.exponent

/-- The exponent at which a positive quotient has 53 bits before the point. -/
def unitExponent (num den : Nat) : Int :=
  let e : Int := (Nat.log2 num : Int) - (Nat.log2 den : Int) - 52
  let (n, d) := scale num (-e)
  if n < (den * d) <<< 52 then e - 1 else e

def roundHalfEven (num den : Nat) : Nat :=
  let q := num / den
  let twice := 2 * (num % den)
  if twice < den then q
  else if den < twice then q + 1
  else if q % 2 = 0 then q else q + 1

/-- The nearest number, or `none` where its magnitude is past the greatest. -/
def ofQuotient? (negative : Bool) (num den : Nat) : Option Binary64 :=
  if num = 0 then some ⟨negative, 0, leastExponent⟩
  else
    let e := max (unitExponent num den) leastExponent
    let (n, d) := scale num (-e)
    let m := roundHalfEven n (den * d)
    let (m, e) := if m = 1 <<< 53 then (1 <<< 52, e + 1) else (m, e)
    if greatestExponent < e then none else some ⟨negative, m, e⟩

def ofNat? (n : Nat) : Option Binary64 :=
  ofQuotient? false n 1

def mul? (x y : Binary64) : Option Binary64 :=
  let (n, d) := scale (x.significand * y.significand) (x.exponent + y.exponent)
  ofQuotient? (x.negative != y.negative) n d

def div? (x y : Binary64) : Option Binary64 :=
  if y.isZero then none
  else
    let (n, d) := x.quotient
    let (n', d') := y.quotient
    ofQuotient? (x.negative != y.negative) (n * d') (d * n')

def powerOfTen? (k : Nat) : Option Binary64 :=
  ofNat? (Nat.pow 10 k)

end Binary64
end Decimal
end Courier
