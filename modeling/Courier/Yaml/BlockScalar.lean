import Courier.Yaml.Cursor

/-!
# Block scalars

A block scalar is written in the lines after its header, all indented alike.
Literal lines are kept as they are, folded ones are put together. The header may
tell the indentation, and what becomes of the line ends after the last line.
-/

namespace Courier
namespace Yaml

inductive Chomp where
  | clip
  | strip
  | keep
deriving DecidableEq, Repr, Inhabited

structure BlockHeader where
  chomp : Chomp := .clip
  /-- By how much the lines are indented, if it is told. -/
  indent : Option Nat := none
deriving DecidableEq, Repr

def BlockHeader.ofChars? : List Char → BlockHeader → Option BlockHeader
  | [], h => some h
  | c :: rest, h =>
    if c == '-' && h.chomp == .clip then ofChars? rest { h with chomp := .strip }
    else if c == '+' && h.chomp == .clip then ofChars? rest { h with chomp := .keep }
    else if '1' ≤ c && c ≤ '9' && h.indent.isNone then
      ofChars? rest { h with indent := some (c.toNat - '0'.toNat) }
    else if isBlank c then
      if (rest.dropWhile isBlank).head?.all (· == '#') then some h else none
    else none

structure Line where
  content : List Char
  lineEnd : Option Char
deriving DecidableEq, Repr

namespace Line

def ofChars : List Char → List Line
  | [] => [⟨[], none⟩]
  | c :: rest =>
    if isLineEnd c then ⟨[], some c⟩ :: ofChars rest
    else
      match ofChars rest with
      | [] => [⟨[c], none⟩]
      | l :: more => { l with content := c :: l.content } :: more

def indent (l : Line) : Nat := (l.content.takeWhile (· == ' ')).length

def size (l : Line) : Nat := l.content.length + l.lineEnd.toList.length

/-- Whether a line that has an end has nothing but spaces. -/
def isOpen (l : Line) : Bool := l.content.all (· == ' ') && l.lineEnd.isSome

def ending (l : Line) : List Char := (l.lineEnd.map lineEndRead).toList

end Line

/--
How far the lines of a block scalar are indented, where this is not told: as far
as the first line that is not empty, the empty lines before it, or `inner`.
-/
def blockIndent (inner : Nat) (lines : List Line) : Nat :=
  let leading := lines.takeWhile Line.isOpen
  let first := (lines.drop leading.length).head?.map Line.indent
  (first.toList ++ leading.map Line.indent).foldl max (max inner 1)

structure BlockLines where
  lines : List Line := []
  length : Nat := 0
deriving Repr

def BlockLines.add (l : Line) (dropped : Nat) (b : BlockLines) : BlockLines :=
  { lines := { l with content := l.content.drop dropped } :: b.lines
    length := l.size + b.length }

/-- The lines that are indented by `indent`; a tab does not indent. -/
def blockLines (indent : Nat) : List Line → Option BlockLines
  | [] => some {}
  | l :: more =>
    let spaces := min indent l.indent
    let body := l.content.drop spaces
    if body.isEmpty then
      if l.lineEnd.isSome then (blockLines indent more).map (·.add l spaces)
      else some { length := spaces }
    else if spaces < indent then
      if body.head? == some '\t' then none else some { length := spaces }
    else (blockLines indent more).map (·.add l spaces)

/-- The lines read so far: the line ends that are still to be written. -/
structure Folding where
  lineEnd : List Char := []
  emptyEnds : List Char := []
  /-- Whether the last line that is not empty begins with a blank. -/
  keepsEnds : Bool := false
deriving DecidableEq, Repr

def Folding.between (folded : Bool) (s : Folding) (keepsEnds : Bool) : List Char :=
  if folded && s.lineEnd == ['\n'] && !s.keepsEnds && !keepsEnds then
    if s.emptyEnds.isEmpty then [' '] else s.emptyEnds
  else s.lineEnd ++ s.emptyEnds

def Folding.atEnd (chomp : Chomp) (s : Folding) : List Char :=
  match chomp with
  | .strip => []
  | .clip => s.lineEnd
  | .keep => s.lineEnd ++ s.emptyEnds

/--
The text of the lines. Folding reads a line end between two lines as a space, and
drops it before empty lines, unless one of the lines around begins with a blank.
-/
def blockText (folded : Bool) (chomp : Chomp) : Folding → List Line → List Char
  | s, [] => s.atEnd chomp
  | s, l :: more =>
    if l.content.isEmpty then
      blockText folded chomp { s with emptyEnds := s.emptyEnds ++ l.ending } more
    else
      let keepsEnds := l.content.head?.any isBlank
      s.between folded keepsEnds ++ l.content ++ blockText folded chomp ⟨l.ending, [], keepsEnds⟩ more

/-- Whether a line is indented more than what is around a block scalar, yet not enough. -/
def isMisplaced (inner indent : Nat) (l : Line) : Bool :=
  inner ≤ l.indent && l.indent < indent && !(l.content.drop l.indent).isEmpty

/--
A block scalar after its mark. What is around it has lines that begin left of the
column `inner`.
-/
def blockScalar? (folded : Bool) (inner : Nat) (cs : List Char) : Option (Found String) := do
  let header := cs.takeWhile fun c => !isLineEnd c
  let h ← BlockHeader.ofChars? header {}
  let lines := Line.ofChars (cs.drop (header.length + 1))
  let indent := (h.indent.map ((inner - 1) + ·)).getD (blockIndent inner lines)
  let first := (lines.dropWhile Line.isOpen).head?
  if first.any (isMisplaced inner indent) then none
  if h.indent.isNone && first.any (fun l => (l.content.drop l.indent).head? == some '\t') then none
  let found ← blockLines indent lines
  let text := String.ofList (blockText folded h.chomp {} found.lines)
  return ⟨text, header.length + 1 + found.length⟩

end Yaml
end Courier
