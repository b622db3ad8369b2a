import Courier.Decimal.Numeral

/-!
# Shortest decimals

The shortest decimal that reads back as a given binary64 number, and of the
shortest ones the nearest. For each count of digits only the number's two
neighbours on that decimal grid can lie in the interval of reals that round to
it, so the first grid with a hit decides.
-/

namespace Courier
namespace Decimal
namespace Shortest

structure Scaled where
  coefficient : Nat
  power : Int
deriving DecidableEq, Repr

def tens (n : Nat) (k : Int) : Nat × Nat :=
  if 0 ≤ k then (n * Nat.pow 10 k.toNat, 1) else (n, Nat.pow 10 (-k).toNat)

def Scaled.quotient (x : Scaled) : Nat × Nat :=
  tens x.coefficient x.power

def quotientLe (a b : Nat × Nat) : Bool :=
  a.1 * b.2 ≤ b.1 * a.2

def quotientLt (a b : Nat × Nat) : Bool :=
  a.1 * b.2 < b.1 * a.2

/-- The reals that round to a number lie between two halfway points. -/
structure Interval where
  low : Nat × Nat
  high : Nat × Nat
  closed : Bool

/-- Below a power of two the neighbours are half as far. -/
def interval (x : Binary64) : Interval :=
  let m := 4 * x.significand
  let below := if x.significand = 1 <<< 52 ∧ Binary64.leastExponent < x.exponent then 1 else 2
  { low := Binary64.scale (m - below) (x.exponent - 2)
    high := Binary64.scale (m + 2) (x.exponent - 2)
    closed := x.significand % 2 == 0 }

def Interval.contains (i : Interval) (q : Nat × Nat) : Bool :=
  if i.closed then quotientLe i.low q && quotientLe q i.high
  else quotientLt i.low q && quotientLt q i.high

/-- The greatest power of ten not above a positive quotient, from a low guess. -/
def leadingPower (q : Nat × Nat) : Nat → Int → Int
  | 0, k => k
  | fuel + 1, k => if quotientLe (tens 1 (k + 1)) q then leadingPower q fuel (k + 1) else k

def guessPower (q : Nat × Nat) : Int :=
  let bits : Int := (Nat.log2 q.1 : Int) - (Nat.log2 q.2 : Int)
  Int.fdiv (bits * 30103) 100000 - 2

/-- The nearer of two neighbours, the even one at a tie. -/
def nearer (q : Nat × Nat) (a b : Scaled) : Scaled :=
  let (an, ad) := a.quotient
  let (bn, bd) := b.quotient
  -- twice the quotient against the sum of the neighbours
  let twice := (2 * q.1, q.2)
  let sum := (an * bd + bn * ad, ad * bd)
  if quotientLt twice sum then a
  else if quotientLt sum twice then b
  else if a.coefficient % 2 = 0 then a else b

/-- The decimal of the fewest digits, tried from `count` digits on. -/
def search (q : Nat × Nat) (i : Interval) (top : Int) : Nat → Nat → Scaled
  | 0, count => ⟨(q.1 * Nat.pow 10 count) / q.2, -count⟩
  | fuel + 1, count =>
    let power := top - (count - 1 : Int)
    let (n, d) := tens 1 (-power)
    let low : Scaled := ⟨(q.1 * n) / (q.2 * d), power⟩
    let high : Scaled := ⟨low.coefficient + 1, power⟩
    match i.contains low.quotient, i.contains high.quotient with
    | true, true => nearer q low high
    | true, false => low
    | false, true => high
    | false, false => search q i top fuel (count + 1)

def strip : Nat → Scaled → Scaled
  | 0, x => x
  | fuel + 1, x =>
    if x.coefficient ≠ 0 ∧ x.coefficient % 10 = 0 then
      strip fuel ⟨x.coefficient / 10, x.power + 1⟩
    else x

def ofBinary64 (x : Binary64) : Scaled :=
  let q := x.quotient
  let top := leadingPower q 8 (guessPower q)
  strip 20 (search q (interval x) top 17 1)

/-- Which decimals are spelled out in positions rather than with an exponent. -/
structure Format where
  /-- The greatest count of digits before the point. -/
  digitsBefore : Int
  /-- The greatest count of zeros between the point and the first other digit. -/
  zerosAfter : Int
deriving DecidableEq, Repr

/--
The numeral of a number. A positional numeral has a digit on both sides of the
point; one with an exponent has a single digit before it.
-/
def Format.numeral (f : Format) (x : Binary64) : Numeral :=
  if x.isZero then ⟨x.negative, [0], [0], none⟩
  else
    let s := ofBinary64 x
    let digits := digitsOf s.coefficient
    let point : Int := digits.length + s.power
    if 0 ≤ s.power ∧ point ≤ f.digitsBefore then
      ⟨x.negative, digits ++ List.replicate s.power.toNat 0, [0], none⟩
    else if 0 < point ∧ point ≤ f.digitsBefore then
      ⟨x.negative, digits.take point.toNat, digits.drop point.toNat, none⟩
    else if -f.zerosAfter ≤ point ∧ point ≤ 0 then
      ⟨x.negative, [0], List.replicate (-point).toNat 0 ++ digits, none⟩
    else
      ⟨x.negative, digits.take 1, digits.drop 1,
        some ⟨decide (point < 1), digitsOf (point - 1).natAbs⟩⟩

end Shortest
end Decimal
end Courier
