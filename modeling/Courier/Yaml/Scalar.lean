import Courier.Text.Hexadecimal
import Courier.Yaml.Cursor

/-!
# Scalars in quotes and plain scalars

A scalar may go over several lines: blanks around a line end are dropped, a
single line end is read as a space, and of more line ends in a row the first is
dropped.
-/

namespace Courier
namespace Yaml

inductive Part where
  | char (c : Char)
  | space (c : Char)
  | join
deriving DecidableEq, Repr

/-- Line ends between words as they are read; a separator is kept. -/
def foldLineEnds : List Char → List Char
  | [] => []
  | first :: more =>
    if lineEndRead first != '\n' then first :: more.map lineEndRead
    else if more.isEmpty then [' ']
    else more.map lineEndRead

def foldSpaces (spaces : List Char) : List Char :=
  if spaces.any isLineEnd then foldLineEnds (spaces.filter isLineEnd) else spaces

/-- The same, after an escaped line end if `joined`. -/
def spacesRead (joined : Bool) (spaces : List Char) : List Char :=
  if joined then (spaces.filter isLineEnd).map lineEndRead else foldSpaces spaces

def foldParts : Bool → List Char → List Part → List Char
  | joined, held, [] => spacesRead joined held.reverse
  | joined, held, .space c :: rest => foldParts joined (c :: held) rest
  | joined, held, .char c :: rest =>
    spacesRead joined held.reverse ++ c :: foldParts false [] rest
  | joined, held, .join :: rest => spacesRead joined held.reverse ++ foldParts true [] rest

def textOfParts (parts : List Part) : String :=
  String.ofList (foldParts false [] parts)

def partOf (c : Char) : Part := if isSpace c then .space c else .char c

/-! ## Quoted scalars -/

def Found.addPart (part : Part) (n : Nat) (x : Found (List Part)) : Found (List Part) :=
  ⟨part :: x.value, x.length + n⟩

/-- The parts after an opening apostrophe; two apostrophes stand for one. -/
def singleQuoted : List Char → Option (Found (List Part))
  | '\x27' :: '\x27' :: rest => (singleQuoted rest).map (·.addPart (.char '\x27') 2)
  | '\x27' :: _ => some ⟨[], 1⟩
  | c :: rest => (singleQuoted rest).map (·.addPart (partOf c) 1)
  | [] => none

def escapes : List (Char × Char) :=
  [('0', '\x00'), ('a', '\x07'), ('b', '\x08'), ('t', '\t'), ('\t', '\t'), ('n', '\n'),
    ('v', '\x0b'), ('f', '\x0c'), ('r', '\r'), ('e', '\x1b'), (' ', ' '), ('"', '"'), ('/', '/'),
    ('\\', '\\'), ('N', '\u0085'), ('_', '\u00a0'), ('L', '\u2028'), ('P', '\u2029')]

/-- What an escape stands for, and how many characters follow that belong to it. -/
def escaped? (mark : Char) (after : List Char) : Option (Char × Nat) :=
  let coded (n : Nat) := (Text.charOfHex? n after).map fun (c, _) => (c, n)
  if mark = 'x' then coded 2
  else if mark = 'u' then coded 4
  else if mark = 'U' then coded 8
  else (escapes.lookup mark).map fun c => (c, 0)

/-- The parts after an opening quotation mark; `skip` characters are passed over. -/
def doubleQuotedFrom : Nat → List Char → Option (Found (List Part))
  | _, [] => none
  | skip + 1, _ :: rest => (doubleQuotedFrom skip rest).map (·.after 1)
  | 0, '"' :: _ => some ⟨[], 1⟩
  | 0, '\\' :: mark :: rest =>
    if isLineEnd mark then (doubleQuotedFrom 0 rest).map (·.addPart .join 2)
    else
      match escaped? mark rest with
      | none => none
      | some (c, n) => (doubleQuotedFrom n rest).map (·.addPart (.char c) 2)
  | 0, c :: rest => (doubleQuotedFrom 0 rest).map (·.addPart (partOf c) 1)

def quoted? : List Char → Option (Found (List Part))
  | '"' :: rest => (doubleQuotedFrom 0 rest).map (·.after 1)
  | '\x27' :: rest => (singleQuoted rest).map (·.after 1)
  | _ => none

def linesAfterFirst : List Char → List (List Char)
  | [] => []
  | '\n' :: rest => rest :: linesAfterFirst rest
  | _ :: rest => linesAfterFirst rest

/--
Whether the lines of a written scalar in quotes keep to a margin: a line that is
not blank begins no further left, and no tab stands before the margin. None is a
mark of a document.
-/
def keepsMargin (margin : Nat) (written : List Char) : Bool :=
  (linesAfterFirst written).all fun line =>
    let blanks := line.takeWhile isBlank
    let isBlankLine := (line.drop blanks.length).head?.all (· == '\n')
    !tabIndents margin line && (isBlankLine || margin ≤ blanks.length) && !isDocumentMark line

/-! ## Plain scalars -/

def indicators : List Char := "#&*!|>'\"%@\x60".toList

def beginsPlain (flow : Bool) (cs : List Char) : Bool :=
  match cs with
  | [] => false
  | c :: rest =>
    if c == '-' then !endsWord rest && !(flow && rest.head?.any isFlowMark)
    else if c == '?' || c == ':' then !flow && !endsWord rest
    else !isSpace c && !isFlowMark c && !indicators.contains c

/--
The word of a plain scalar that begins here. In flow style a colon may not stand
right before a mark.
-/
def plainWord (flow : Bool) : List Char → Option (List Char)
  | [] => some []
  | c :: rest =>
    if isSpace c || (c == ':' && endsWord rest) || (flow && isFlowMark c) then some []
    else if flow && c == ':' && rest.head?.any (fun x => isFlowMark x || x == '?') then none
    else (plainWord flow rest).map (c :: ·)

structure PlainText where
  text : List Char
  lineEnded : Bool := false
deriving DecidableEq, Repr

def goesOn (flow : Bool) (least : Nat) (spaces after : List Char) : Bool :=
  let column := (spaces.reverse.takeWhile isBlank).length
  !after.head?.all (· == '#') &&
    !(spaces.any isLineEnd && ((!flow && column < least) || (column == 0 && isDocumentMark after)))

def spacesIndented (least : Nat) : List Char → Bool
  | [] => true
  | c :: rest => (!isLineEnd c || !tabIndents least rest) && spacesIndented least rest

/--
A plain scalar whose further lines are indented to `least` at least, with the
spaces after it.
-/
def plainFrom (flow : Bool) (least : Nat) : Nat → List Char → Option (Found PlainText)
  | 0, _ => none
  | fuel + 1, cs => do
    let word ← plainWord flow cs
    let spaces := (cs.drop word.length).takeWhile isSpace
    let length := word.length + spaces.length
    let after := cs.drop length
    let last : Found PlainText := ⟨⟨word, spaces.any isLineEnd⟩, length⟩
    if !spacesIndented least spaces then none
    else if !goesOn flow least spaces after then return last
    else if flow && after.head? == some '-' && (after.drop 1).head?.any isFlowMark then none
    else if spaces.isEmpty || (← plainWord flow after).isEmpty then return last
    else
      let more ← plainFrom flow least fuel after
      let joined := word ++ foldSpaces spaces ++ more.value.text
      return (more.after length).map fun p => { p with text := joined }

def plain? (flow : Bool) (least : Nat) (cs : List Char) : Option (Found PlainText) :=
  if beginsPlain flow cs then plainFrom flow least (cs.length + 1) cs else none

end Yaml
end Courier
