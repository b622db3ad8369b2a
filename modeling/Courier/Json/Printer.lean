import Courier.Json.Value

/-!
# Writing JSON

A value is written as its tokens, one after the other. Texts are written as
they stand, except for quotes, backslashes and control characters; a number
that is not an integer has the shortest digits that read back.
-/

namespace Courier
namespace Json

open Text (Bytes)
open Decimal (Numeral Binary64)

/-- Positional up to sixteen digits before the point, and down to `0.00001`. -/
def numberFormat : Decimal.Shortest.Format := ⟨16, 4⟩

def Number.numeral : Number → Numeral
  | .whole n => Numeral.ofInt n.val
  | .float x => numberFormat.numeral x

namespace Piece

/-- The control characters that have an escape of one letter, with that letter. -/
def letter? (b : UInt8) : Option UInt8 :=
  match b with
  | 0x22 => some 0x22
  | 0x5C => some 0x5C
  | 0x08 => some 0x62
  | 0x0C => some 0x66
  | 0x0A => some 0x6E
  | 0x0D => some 0x72
  | 0x09 => some 0x74
  | _ => none

def hexDigit (d : Nat) : UInt8 :=
  if d < 10 then UInt8.ofNat (0x30 + d) else UInt8.ofNat (0x61 + (d - 10))

def octets : Piece → Bytes
  | .octet b =>
    match letter? b with
    | some letter => [0x5C, letter]
    | none => [b]
  | .unit code =>
    [0x5C, 0x75, hexDigit (code / 4096 % 16), hexDigit (code / 256 % 16),
      hexDigit (code / 16 % 16), hexDigit (code % 16)]

def ofChar (c : Char) : List Piece :=
  if c.toNat < 0x20 ∧ letter? (UInt8.ofNat c.toNat) = none then [.unit c.toNat]
  else (Text.Utf8.encodeChar c).map .octet

def ofText (s : String) : List Piece :=
  s.toList.flatMap ofChar

end Piece

namespace Token

def digitOctet (d : Nat) : UInt8 :=
  UInt8.ofNat (0x30 + d)

def signOctets (negative : Bool) : Bytes :=
  if negative then [0x2D] else []

def numeralOctets (x : Numeral) : Bytes :=
  signOctets x.negative ++ x.whole.map digitOctet ++
    (if x.fraction.isEmpty then [] else 0x2E :: x.fraction.map digitOctet) ++
    match x.exponent with
    | none => []
    | some e => 0x65 :: signOctets e.negative ++ e.digits.map digitOctet

def octets : Token → Bytes
  | .openBrace => [0x7B]
  | .closeBrace => [0x7D]
  | .openBracket => [0x5B]
  | .closeBracket => [0x5D]
  | .colon => [0x3A]
  | .comma => [0x2C]
  | .null => "null".toUTF8.toList
  | .bool true => "true".toUTF8.toList
  | .bool false => "false".toUTF8.toList
  | .number x => numeralOctets x
  | .string pieces => 0x22 :: pieces.flatMap Piece.octets ++ [0x22]

end Token

namespace Value

mutual

def tokens : Value → List Token
  | .null => [.null]
  | .bool b => [.bool b]
  | .number x => [.number x.numeral]
  | .string s => [.string (Piece.ofText s)]
  | .array items => .openBracket :: itemTokens true items ++ [.closeBracket]
  | .object members => .openBrace :: memberTokens true members ++ [.closeBrace]

def itemTokens : Bool → List Value → List Token
  | _, [] => []
  | first, v :: rest =>
    (if first then [] else [.comma]) ++ tokens v ++ itemTokens false rest

def memberTokens : Bool → List (String × Value) → List Token
  | _, [] => []
  | first, (k, v) :: rest =>
    (if first then [] else [.comma]) ++ .string (Piece.ofText k) :: .colon :: tokens v ++
      memberTokens false rest

end

def toBytes (v : Value) : Bytes :=
  v.tokens.flatMap Token.octets

def toText (v : Value) : String :=
  Text.Utf8.decodeLossy v.toBytes

end Value
end Json
end Courier
