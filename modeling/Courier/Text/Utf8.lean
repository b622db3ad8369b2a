/-!
# UTF-8

Reading octets as text, one octet at a time. A scan gives the characters in
order, and marks with `none` every longest run of octets that could begin a
character but does not end one, and every octet that can begin none. Strict
reading refuses a text with such a mark; lenient reading puts the replacement
character there.
-/

namespace Courier
namespace Text

abbrev Bytes := List UInt8

namespace Utf8

def encodeChar (c : Char) : Bytes :=
  String.utf8EncodeChar c

def encodeChars (cs : List Char) : Bytes :=
  cs.flatMap encodeChar

def encode (s : String) : Bytes :=
  encodeChars s.toList

/--
A character whose first octets have been read: its bits so far, how many octets
are still owed, and the bounds of the next one.
-/
structure Begun where
  bits : Nat
  owed : Nat
  least : Nat := 0x80
  greatest : Nat := 0xBF
deriving DecidableEq, Repr

inductive Lead where
  | whole (c : Char)
  | begins (b : Begun)
  | stray
deriving DecidableEq, Repr

/--
The first octet of a character. The bounds on the second octet leave out long
forms, surrogates and code points past the last.
-/
def lead (b : Nat) : Lead :=
  if b < 0x80 then .whole (Char.ofNat b)
  else if b < 0xC2 then .stray
  else if b < 0xE0 then .begins { bits := b - 0xC0, owed := 1 }
  else if b = 0xE0 then .begins { bits := 0, owed := 2, least := 0xA0 }
  else if b = 0xED then .begins { bits := 13, owed := 2, greatest := 0x9F }
  else if b < 0xF0 then .begins { bits := b - 0xE0, owed := 2 }
  else if b = 0xF0 then .begins { bits := 0, owed := 3, least := 0x90 }
  else if b < 0xF4 then .begins { bits := b - 0xF0, owed := 3 }
  else if b = 0xF4 then .begins { bits := 4, owed := 3, greatest := 0x8F }
  else .stray

/-- The scan so far: the character begun, if any, and what was found, latest first. -/
structure Scan where
  begun : Option Begun := none
  found : List (Option Char) := []
deriving DecidableEq, Repr

def Scan.start (found : List (Option Char)) (b : Nat) : Scan :=
  match lead b with
  | .whole c => ⟨none, some c :: found⟩
  | .begins p => ⟨some p, found⟩
  | .stray => ⟨none, none :: found⟩

/-- Reads one octet. One that cannot go on with the character begun is read anew. -/
def Scan.step (s : Scan) (octet : UInt8) : Scan :=
  let b := octet.toNat
  match s.begun with
  | none => Scan.start s.found b
  | some p =>
    if p.least ≤ b ∧ b ≤ p.greatest then
      let bits := p.bits * 64 + (b - 0x80)
      if p.owed ≤ 1 then ⟨none, some (Char.ofNat bits) :: s.found⟩
      else ⟨some { bits := bits, owed := p.owed - 1 }, s.found⟩
    else Scan.start (none :: s.found) b

def Scan.finish (s : Scan) : List (Option Char) :=
  match s.begun with
  | none => s.found.reverse
  | some _ => (none :: s.found).reverse

def scan (bytes : Bytes) : List (Option Char) :=
  (bytes.foldl Scan.step {}).finish

def decode? (bytes : Bytes) : Option String :=
  let found := scan bytes
  if found.all Option.isSome then some (String.ofList (found.filterMap id)) else none

def replacement : Char := '\uFFFD'

def decodeLossy (bytes : Bytes) : String :=
  String.ofList ((scan bytes).map (·.getD replacement))

end Utf8
end Text
end Courier
