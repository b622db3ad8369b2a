import Courier.Text.Blank
import Courier.Text.Hexadecimal

/-!
# Identifiers

Identifiers of 128 bits. They are written as thirty-two hexadecimal digits in
groups of eight, four, four, four and twelve, with hyphens between the groups.
-/

namespace Courier

structure Identifier where
  value : Nat
  bounded : value < 1 <<< 128 := by decide
deriving DecidableEq, Repr

namespace Identifier

def nil : Identifier := ⟨0, by decide⟩

instance : Inhabited Identifier := ⟨nil⟩

def groups : List Nat := [8, 4, 4, 4, 12]

def hexDigit (d : Nat) : Char :=
  if d < 10 then Char.ofNat (0x30 + d) else Char.ofNat (0x61 + (d - 10))

/-- The last `count` hexadecimal digits of a number, most significant first. -/
def hexDigits : Nat → Nat → List Nat
  | 0, _ => []
  | count + 1, n => hexDigits count (n / 16) ++ [n % 16]

def ofHexDigits (digits : List Nat) : Nat :=
  digits.foldl (fun n d => n * 16 + d) 0

def plainChars (x : Identifier) : List Char :=
  (hexDigits 32 x.value).map hexDigit

/-- Puts a hyphen after each group but the last. -/
def hyphenate : List Nat → List Char → List Char
  | [], cs => cs
  | [_], cs => cs
  | n :: more, cs => cs.take n ++ '-' :: hyphenate more (cs.drop n)

def toChars (x : Identifier) : List Char :=
  hyphenate groups x.plainChars

def toString (x : Identifier) : String :=
  String.ofList x.toChars

instance : ToString Identifier := ⟨toString⟩

def short (x : Identifier) : String :=
  String.ofList (x.plainChars.take 8)

/-- Takes out the hyphens between groups, each of which must be there. -/
def dehyphenate? : List Nat → List Char → Option (List Char)
  | [], cs => if cs.isEmpty then some [] else none
  | [n], cs => if cs.length = n then some cs else none
  | n :: more, cs =>
    match cs.drop n with
    | '-' :: rest => (dehyphenate? more rest).map (cs.take n ++ ·)
    | _ => none

def ofPlain? (cs : List Char) : Option Identifier :=
  if cs.length = 32 then
    (cs.mapM Text.hexValue?).bind fun digits =>
      let n := ofHexDigits digits
      if h : n < 1 <<< 128 then some ⟨n, h⟩ else none
  else none

def ofHyphenated? (cs : List Char) : Option Identifier :=
  dehyphenate? groups cs >>= ofPlain?

def uniformName : List Char := "urn:uuid:".toList

/--
Reads an identifier: thirty-two digits, or the hyphenated groups, which may
stand in braces or after a uniform resource name in any letter case.
-/
def ofChars? (cs : List Char) : Option Identifier :=
  if cs.length = 32 then ofPlain? cs
  else if cs.length = 36 then ofHyphenated? cs
  else if cs.length = 38 then
    if cs.head? = some '{' ∧ cs.getLast? = some '}' then ofHyphenated? (cs.drop 1).dropLast
    else none
  else if cs.length = 45 then
    if (cs.take 9).map Char.toLower = uniformName then ofHyphenated? (cs.drop 9) else none
  else none

def ofString? (s : String) : Option Identifier :=
  ofChars? s.toList

/-- Reads an identifier between blanks; anything else is the nil identifier. -/
def ofStringLenient (s : String) : Identifier :=
  (ofString? (Text.trim s)).getD nil

end Identifier
end Courier
