import Courier.Config.Address
import Courier.Text.Percent
import Courier.Text.Segments

/-!
# Web addresses

Which addresses a request can be sent to: those of the schemes `http` and
`https` that name a host, and a port of sixteen bits if any. A host is a name, or
an address of either version of the internet protocol; a name whose last label is
a number can only be an address of four octets.
-/

namespace Courier
namespace Gateway

def isMargin (c : Char) : Bool := c.toNat ≤ 0x20

/-- An address as it is read: line ends and tabs within it are passed over. -/
def addressChars (address : String) : List Char :=
  let cs := ((address.toList.dropWhile isMargin).reverse.dropWhile isMargin).reverse
  cs.filter fun c => c != '\t' && c != '\n' && c != '\r'

def afterScheme? (scheme : String) (cs : List Char) : Option (List Char) :=
  let mark := scheme.toList ++ [':']
  if (cs.take mark.length).map Char.toLower = mark then some (cs.drop mark.length) else none

def isSlash (c : Char) : Bool := c == '/' || c == '\\'

def endsAuthority (c : Char) : Bool := isSlash c || c == '?' || c == '#'

/-! ## Names -/

/-- Full-width forms stand for the characters of ASCII, and some points for the full stop. -/
def plainForm (c : Char) : Char :=
  let n := c.toNat
  if 0xFF01 ≤ n ∧ n ≤ 0xFF5E then Char.ofNat (n - 0xFEE0)
  else if n = 0x3002 ∨ n = 0xFF61 then '.'
  else c

def isIgnored (c : Char) : Bool :=
  let n := c.toNat
  n == 0xAD || n == 0x200B || n == 0x2060 || n == 0xFEFF || (0xFE00 ≤ n && n ≤ 0xFE0F)

def isForbiddenMark (c : Char) : Bool :=
  isMargin c || "#/<>?@[\\]^|%:\"\x60\x7b\x7d\x7f".toList.contains c

def isForbiddenBeyond (c : Char) : Bool :=
  let n := c.toNat
  (0x80 ≤ n && n ≤ 0xA0) || n == 0x1680 || (0x2000 ≤ n && n ≤ 0x200F) ||
    (0x2028 ≤ n && n ≤ 0x202F) || (0x205F ≤ n && n ≤ 0x206F) || n == 0x3000 ||
    (0xE000 ≤ n && n ≤ 0xF8FF) || (0xFFF0 ≤ n && n ≤ 0xFFFF) || 0xE0000 ≤ n

/-- The name that a written host stands for, in small letters, if it can be one. -/
def nameOf? (host : List Char) : Option (List Char) := do
  let text ← Text.Utf8.decode? (Text.percentDecode (Text.Utf8.encodeChars host))
  let name := (text.toList.filter fun c => !isIgnored c).map fun c => (plainForm c).toLower
  if name.isEmpty || name.any fun c => isForbiddenMark c || isForbiddenBeyond c then none
  else some name

/-! ## Addresses of four octets -/

/-- A number of an address: decimal, octal after a zero, or hexadecimal after its mark. -/
def octetNumber? (cs : List Char) : Option Nat :=
  let valueIn (radix : Nat) (digits : List Char) :=
    digits.foldlM (fun n c => (Config.Address.digitValue? radix c).map (n * radix + ·)) 0
  match cs with
  | [] => none
  | '0' :: 'x' :: digits => valueIn 16 digits
  | '0' :: digits => valueIn 8 digits
  | _ => valueIn 10 cs

def labels (name : List Char) : List (List Char) :=
  let all := Text.splitChars '.' name
  if all.getLast? == some [] then all.dropLast else all

def isNumber (label : List Char) : Bool :=
  (!label.isEmpty && label.all Char.isDigit) || (octetNumber? label).isSome

/-- Whether numbers make an address: the last one stands for all octets that are left. -/
def areOctets (numbers : List Nat) : Bool :=
  match numbers.reverse with
  | [] => false
  | last :: before =>
    before.length ≤ 3 && before.all (· < 256) && last < 1 <<< (8 * (4 - before.length))

def isName (name : List Char) : Bool :=
  let parts := labels name
  if parts.getLast?.any isNumber then (parts.mapM octetNumber?).any areOctets else true

/-! ## Hosts -/

def isGroups (cs : List Char) : Bool :=
  match Config.Address.v6? cs with
  | some (_, []) => true
  | _ => false

def isHost (cs : List Char) : Bool :=
  match cs with
  | '[' :: rest => rest.getLast? == some ']' && isGroups rest.dropLast
  | _ => (nameOf? cs).any isName

def isPort (cs : List Char) : Bool :=
  cs.all Char.isDigit && cs.foldl (fun n c => n * 10 + (c.toNat - '0'.toNat)) 0 < 65536

def beforePort (bracketed : Bool) : List Char → List Char
  | [] => []
  | c :: rest =>
    if c == ':' && !bracketed then []
    else c :: beforePort (c == '[' || (bracketed && c != ']')) rest

def isHostAndPort (cs : List Char) : Bool :=
  let host := beforePort false cs
  isHost host && isPort (cs.drop (host.length + 1))

def dropUser (cs : List Char) : List Char :=
  if cs.contains '@' then (cs.reverse.takeWhile (· != '@')).reverse else cs

def isWebAddress (address : String) : Bool :=
  let cs := addressChars address
  match (afterScheme? "http" cs).or (afterScheme? "https" cs) with
  | none => false
  | some rest =>
    let authority := (rest.dropWhile isSlash).takeWhile fun c => !endsAuthority c
    isHostAndPort (dropUser authority)

end Gateway
end Courier
