import Courier.Text.Hexadecimal
import Courier.Text.Utf8

/-!
# Percent signs

Octets that are written with a percent sign and two hexadecimal digits.
-/

namespace Courier
namespace Text

def octetOfHex? (high low : UInt8) : Option UInt8 :=
  match hexValue? (Char.ofNat high.toNat), hexValue? (Char.ofNat low.toNat) with
  | some x, some y => some (UInt8.ofNat (x * 16 + y))
  | _, _ => none

/-- Resolves percent signs with two hexadecimal digits; others stand for themselves. -/
def percentDecode : Bytes → Bytes
  | 0x25 :: a :: b :: rest =>
    match octetOfHex? a b with
    | some octet => octet :: percentDecode rest
    | none => 0x25 :: percentDecode (a :: b :: rest)
  | b :: rest => b :: percentDecode rest
  | [] => []

end Text
end Courier
