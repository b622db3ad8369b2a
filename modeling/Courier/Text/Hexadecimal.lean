/-!
# Hexadecimal digits

Digits in either letter case, and characters by their codes.
-/

namespace Courier
namespace Text

def hexValue? (c : Char) : Option Nat :=
  let n := c.toNat
  if 0x30 ≤ n ∧ n ≤ 0x39 then some (n - 0x30)
  else if 0x61 ≤ n ∧ n ≤ 0x66 then some (n - 0x61 + 10)
  else if 0x41 ≤ n ∧ n ≤ 0x46 then some (n - 0x41 + 10)
  else none

def charOfHex? (digits : Nat) (cs : List Char) : Option (Char × List Char) :=
  if cs.length < digits then none
  else
    (cs.take digits).foldlM (fun n c => (hexValue? c).map (n * 16 + ·)) 0 >>= fun n =>
      if h : n.isValidChar then some (Char.ofNatAux n h, cs.drop digits) else none

end Text
end Courier
