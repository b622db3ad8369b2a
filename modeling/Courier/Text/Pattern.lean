import Courier.Text.Alphanumeric
import Courier.Text.Hexadecimal

/-!
# Patterns

Which texts are regular expressions. There are groups, classes, repetitions and
escapes; a pattern holds no closing brace, so that no repetition is counted and no
escape has a name. A place between words cannot be asked for, nor that letter case
be passed over.
-/

namespace Courier
namespace Text
namespace Pattern

inductive Escape where
  | char (c : Char)
  | set
  | place
deriving DecidableEq, Repr

def controls : List (Char × Char) :=
  [('a', '\x07'), ('f', '\x0c'), ('t', '\t'), ('n', '\n'), ('r', '\r'), ('v', '\x0b')]

def escape? (cs : List Char) : Option (Escape × List Char) :=
  match cs with
  | [] => none
  | c :: rest =>
    let coded (digits : Nat) := (charOfHex? digits rest).map fun (c, rest) => (Escape.char c, rest)
    if c == 'x' then coded 2
    else if c == 'u' then coded 4
    else if c == 'U' then coded 8
    else if "dswDSW".toList.contains c then some (.set, rest)
    else if c == 'A' || c == 'z' then some (.place, rest)
    else
      match controls.lookup c with
      | some control => some (.char control, rest)
      | none =>
        if c.toNat < 0x80 && !c.isAlphanum && c != '<' && c != '>' then some (.char c, rest)
        else none

def item? (cs : List Char) : Option (Escape × List Char) :=
  match cs with
  | [] => none
  | '\\' :: rest => escape? rest
  | c :: rest => some (.char c, rest)

/-! ## Classes -/

def classNames : List String :=
  ["alnum", "alpha", "ascii", "blank", "cntrl", "digit", "graph", "lower", "print", "punct",
    "space", "upper", "word", "xdigit"]

/-- The rest after a class with a name, of which the opening bracket is read. -/
def namedClass? (cs : List Char) : Option (List Char) :=
  match cs with
  | ':' :: cs =>
    let cs := if cs.head? == some '^' then cs.drop 1 else cs
    let name := cs.takeWhile (· != ':')
    match cs.drop name.length with
    | ':' :: ']' :: rest => if classNames.contains (String.ofList name) then some rest else none
    | _ => none
  | _ => none

/-- The rest after the beginning of a class, where hyphens and a bracket stand for themselves. -/
def afterOpening (cs : List Char) : List Char :=
  let cs := if cs.head? == some '^' then cs.drop 1 else cs
  let bare := cs.dropWhile (· == '-')
  if bare.length == cs.length && bare.head? == some ']' then bare.drop 1 else bare

def range? (cs : List Char) : Option (List Char) := do
  match ← item? cs with
  | (.place, _) => none
  | (first, '-' :: rest) =>
    if rest.head? == some ']' || rest.head? == some '-' then return '-' :: rest
    match first, ← item? rest with
    | .char a, (.char b, rest) => if a ≤ b then return rest else none
    | _, _ => none
  | (_, rest) => return rest

def afterClasses? : Nat → Nat → List Char → Option (List Char)
  | 0, _, _ => none
  | fuel + 1, depth, cs =>
    match cs with
    | [] => none
    | ']' :: rest => if depth ≤ 1 then some rest else afterClasses? fuel (depth - 1) rest
    | '[' :: rest =>
      match namedClass? rest with
      | some rest => afterClasses? fuel depth rest
      | none => afterClasses? fuel (depth + 1) (afterOpening rest)
    | '&' :: '&' :: rest | '-' :: '-' :: rest | '~' :: '~' :: rest => afterClasses? fuel depth rest
    | _ => range? cs >>= afterClasses? fuel depth

/-! ## Groups -/

def isNameChar (c : Char) : Bool :=
  c == '_' || c == '.' || c == '[' || c == ']' || isAlphanumeric c

def isName (cs : List Char) : Bool :=
  cs.head?.any (fun c => c == '_' || isAlphabetic c) && cs.all isNameChar

/-- Flags after a question mark: each once, and those after a hyphen are taken back. -/
def areFlags (cs : List Char) : Bool :=
  cs.all "msUuxR-".toList.contains && cs.Nodup && !cs.isEmpty && cs.getLast? != some '-'

inductive Opening where
  | group (name : Option (List Char))
  | flags
deriving DecidableEq, Repr

def named? (cs : List Char) : Option (Opening × List Char) :=
  let name := cs.takeWhile (· != '>')
  match cs.drop name.length with
  | '>' :: rest => if isName name then some (.group (some name), rest) else none
  | _ => none

def opening? (cs : List Char) : Option (Opening × List Char) :=
  match cs with
  | '?' :: 'P' :: '<' :: rest | '?' :: '<' :: rest => named? rest
  | '?' :: rest =>
    let flags := rest.takeWhile fun c => c != ':' && c != ')'
    match rest.drop flags.length with
    | ':' :: rest => if flags.isEmpty || areFlags flags then some (.group none, rest) else none
    | ')' :: rest => if areFlags flags then some (.flags, rest) else none
    | _ => none
  | _ => some (.group none, cs)

structure Progress where
  depth : Nat := 0
  names : List (List Char) := []
  repeatable : Bool := false
deriving DecidableEq, Repr

def afterItem (p : Progress) : Progress := { p with repeatable := true }

def accepts : Nat → Progress → List Char → Bool
  | 0, _, _ => false
  | fuel + 1, p, cs =>
    match cs with
    | [] => p.depth == 0
    | '(' :: rest =>
      match opening? rest with
      | none => false
      | some (.flags, rest) => accepts fuel { p with repeatable := false } rest
      | some (.group name, rest) =>
        !name.any p.names.contains &&
          accepts fuel ⟨p.depth + 1, name.toList ++ p.names, false⟩ rest
    | ')' :: rest => p.depth != 0 && accepts fuel (afterItem { p with depth := p.depth - 1 }) rest
    | '|' :: rest => accepts fuel { p with repeatable := false } rest
    | '[' :: rest =>
      (afterClasses? (rest.length + 1) 1 (afterOpening rest)).any (accepts fuel (afterItem p))
    | '\x7b' :: _ => false
    | c :: rest =>
      if c == '*' || c == '+' || c == '?' then
        p.repeatable && accepts fuel p (if rest.head? == some '?' then rest.drop 1 else rest)
      else (item? cs).any fun (_, rest) => accepts fuel (afterItem p) rest

end Pattern

def isPattern (cs : List Char) : Bool := Pattern.accepts (cs.length + 1) {} cs

end Text
end Courier
