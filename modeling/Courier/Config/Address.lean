/-!
# Socket addresses

Addresses of either version of the internet protocol, with a port. An address of
sixteen octets stands in brackets; its longest run of zero groups is left out.
-/

namespace Courier
namespace Config

inductive Host where
  | v4 (octets : List Nat)
  | v6 (groups : List Nat) (scope : Nat)
deriving DecidableEq, Repr

structure Address where
  host : Host
  port : Nat
deriving DecidableEq, Repr

namespace Address

def anyHost (port : Nat) : Address := ⟨.v4 [0, 0, 0, 0], port⟩

/-! ## Reading -/

def digitValue? (radix : Nat) (c : Char) : Option Nat :=
  let n := c.toNat
  let d :=
    if 0x30 ≤ n ∧ n ≤ 0x39 then n - 0x30
    else if 0x61 ≤ n ∧ n ≤ 0x7A then n - 0x61 + 10
    else if 0x41 ≤ n ∧ n ≤ 0x5A then n - 0x41 + 10
    else radix
  if d < radix then some d else none

/-- A number below a bound; its digits are limited in count if asked, and may begin with
zeros if allowed. -/
def number? (radix bound : Nat) (greatestCount : Option Nat) (zeros : Bool) (cs : List Char) :
    Option (Nat × List Char) :=
  let digits := cs.takeWhile fun c => (digitValue? radix c).isSome
  let value := digits.foldl (fun n c => n * radix + (digitValue? radix c).getD 0) 0
  if digits.isEmpty then none
  else if greatestCount.any (· < digits.length) then none
  else if !zeros && digits.head? == some '0' && digits.length != 1 then none
  else if bound ≤ value then none
  else some (value, cs.drop digits.length)

def mark? (c : Char) (cs : List Char) : Option (List Char) :=
  match cs with
  | d :: rest => if c = d then some rest else none
  | [] => none

def v4? (cs : List Char) : Option (List Nat × List Char) := do
  let (a, cs) ← number? 10 256 (some 3) false cs
  let cs ← mark? '.' cs
  let (b, cs) ← number? 10 256 (some 3) false cs
  let cs ← mark? '.' cs
  let (c, cs) ← number? 10 256 (some 3) false cs
  let cs ← mark? '.' cs
  let (d, cs) ← number? 10 256 (some 3) false cs
  return ([a, b, c, d], cs)

def afterSeparator? (first : Bool) (cs : List Char) : Option (List Char) :=
  if first then some cs else mark? ':' cs

/-- Reads groups as long as there are any, at most so many; four octets at the end count
as two groups. Tells whether there were such octets. -/
def groups (first : Bool) : Nat → List Char → List Nat × Bool × List Char
  | 0, cs => ([], false, cs)
  | limit + 1, cs =>
    let octets := if limit = 0 then none else afterSeparator? first cs >>= v4?
    match octets with
    | some ([a, b, c, d], rest) => ([a * 256 + b, c * 256 + d], true, rest)
    | _ =>
      match afterSeparator? first cs >>= number? 16 65536 (some 4) true with
      | none => ([], false, cs)
      | some (g, rest) =>
        let (more, hadOctets, rest) := groups false limit rest
        (g :: more, hadOctets, rest)

/-- Eight groups, of which one run may be left out between two colons. -/
def v6? (cs : List Char) : Option (List Nat × List Char) :=
  let (head, hadOctets, rest) := groups true 8 cs
  if head.length = 8 then some (head, rest)
  else if hadOctets then none
  else
    match rest with
    | ':' :: ':' :: rest =>
      let (tail, _, rest) := groups true (7 - head.length) rest
      some (head ++ List.replicate (8 - head.length - tail.length) 0 ++ tail, rest)
    | _ => none

def port? (cs : List Char) : Option (Nat × List Char) :=
  mark? ':' cs >>= number? 10 65536 none true

def scope? (cs : List Char) : Option (Nat × List Char) :=
  match cs with
  | '%' :: rest => number? 10 UInt32.size none true rest
  | _ => some (0, cs)

def ofChars? (cs : List Char) : Option (Address × List Char) :=
  match v4? cs with
  | some (octets, rest) => do
    let (port, rest) ← port? rest
    return (⟨.v4 octets, port⟩, rest)
  | none => do
    let rest ← mark? '[' cs
    let (parts, rest) ← v6? rest
    let (scope, rest) ← scope? rest
    let rest ← mark? ']' rest
    let (port, rest) ← port? rest
    return (⟨.v6 parts scope, port⟩, rest)

def ofString? (s : String) : Option Address :=
  match ofChars? s.toList with
  | some (a, []) => some a
  | _ => none

/-! ## Writing -/

def hexText (n : Nat) : String := String.ofList (Nat.toDigits 16 n)

def dotted (octets : List Nat) : String := ".".intercalate (octets.map toString)

def zeroRun (parts : List Nat) : Nat := (parts.takeWhile (· == 0)).length

/-- Where the longest run of zeros begins, and its length; the first of equal ones. -/
def longestRun (parts : List Nat) : Nat × Nat :=
  (List.range parts.length).foldl (fun best i =>
    let n := zeroRun (parts.drop i)
    if best.2 < n then (i, n) else best) (0, 0)

def colons (parts : List Nat) : String := ":".intercalate (parts.map hexText)

def groupsText (parts : List Nat) : String :=
  match parts with
  | [0, 0, 0, 0, 0, 0xffff, a, b] => "::ffff:" ++ dotted [a / 256, a % 256, b / 256, b % 256]
  | _ =>
    let (start, length) := longestRun parts
    if length ≤ 1 then colons parts
    else colons (parts.take start) ++ "::" ++ colons (parts.drop (start + length))

def toString (a : Address) : String :=
  match a.host with
  | .v4 octets => dotted octets ++ ":" ++ ToString.toString a.port
  | .v6 parts scope =>
    let scopeText := if scope = 0 then "" else "%" ++ ToString.toString scope
    "[" ++ groupsText parts ++ scopeText ++ "]:" ++ ToString.toString a.port

instance : ToString Address := ⟨toString⟩

end Address
end Config
end Courier
