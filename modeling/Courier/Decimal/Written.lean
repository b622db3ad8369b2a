import Courier.Decimal.Numeral

/-!
# Numbers in texts

The numbers that a text writes with digits, a point and a power of ten, each of
which may be left out as long as there is a digit.
-/

namespace Courier
namespace Decimal

def digitValues (cs : List Char) : List Nat := cs.map fun c => c.toNat - '0'.toNat

def unsigned (cs : List Char) : List Char :=
  if cs.head? == some '-' || cs.head? == some '+' then cs.drop 1 else cs

def Exponent.ofChars? (cs : List Char) : Option (Option Exponent) :=
  match cs with
  | [] => some none
  | mark :: cs =>
    let digits := unsigned cs
    if (mark == 'e' || mark == 'E') && !digits.isEmpty && digits.all Char.isDigit then
      some (some ⟨cs.head? == some '-', digitValues digits⟩)
    else none

def Numeral.ofChars? (cs : List Char) : Option Numeral :=
  let bare := unsigned cs
  let whole := bare.takeWhile Char.isDigit
  let rest := bare.drop whole.length
  let hasPoint := rest.head? == some '.'
  let fraction := if hasPoint then (rest.drop 1).takeWhile Char.isDigit else []
  let rest := if hasPoint then rest.drop (fraction.length + 1) else rest
  if whole.isEmpty && fraction.isEmpty then none
  else
    (Exponent.ofChars? rest).map fun e =>
      ⟨cs.head? == some '-', digitValues whole, digitValues fraction, e⟩

end Decimal
end Courier
