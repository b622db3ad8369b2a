import Courier.Yaml.BlockScalar
import Courier.Yaml.Tag

/-!
# Tokens

A text is read as a row of tokens. In block style the collections are told by
columns, and that a node is a key is told by the colon after it: so reading keeps
the columns of the collections that are open, and the spot where a key may have
begun. A key stands on one line, and its colon no further than 1024 characters
from its beginning.
-/

namespace Courier
namespace Yaml

inductive Shape where
  | sequence
  | mapping
deriving DecidableEq, Repr

inductive Token where
  | directive (d : Directive)
  | documentStart
  | documentEnd
  | openBlock (s : Shape)
  | closeBlock
  | openFlow (s : Shape)
  | closeFlow (s : Shape)
  | item
  | comma
  | key
  | value
  | alias (name : String)
  | anchor (name : String)
  | tag (t : WrittenTag)
  | scalar (text : String) (plain : Bool)
deriving DecidableEq, Repr

structure KeySpot where
  place : Place
  before : Nat
  /-- Whether nothing but a key can begin there. -/
  required : Bool
deriving DecidableEq, Repr

def greatestKeyLength : Nat := 1024

def greatestFlowDepth : Nat := 255

def KeySpot.reaches (k : KeySpot) (p : Place) : Bool :=
  k.place.line == p.line && p.index ≤ k.place.index + greatestKeyLength

structure Reading where
  cursor : Cursor
  tokens : List Token := []
  count : Nat := 0
  /-- The columns of the block collections that are open, the innermost first. -/
  columns : List Nat := []
  /-- Whether the value of an entry has to go further right than its collection. -/
  inset : Bool := false
  keyAllowed : Bool := true
  keySpot : Option KeySpot := none
  /-- The spots of the flow collections around the innermost one. -/
  outerSpots : List (Option KeySpot) := []
  /-- Where a colon stands that needs no space after it. -/
  joint : Option Nat := none
deriving Repr

namespace Reading

def inFlow (r : Reading) : Bool := !r.outerSpots.isEmpty

def place (r : Reading) : Place := r.cursor.toPlace

def rest (r : Reading) : List Char := r.cursor.rest

def margin (r : Reading) : Nat :=
  match r.columns with
  | [] => 0
  | column :: _ => if r.inset then column + 1 else column

def inner (r : Reading) : Nat :=
  match r.columns with
  | [] => 0
  | column :: _ => column + 1

def skip (n : Nat) (r : Reading) : Reading := { r with cursor := r.cursor.skip n }

def push (t : Token) (r : Reading) : Reading :=
  { r with tokens := t :: r.tokens, count := r.count + 1 }

def insert (k : KeySpot) (tokens : List Token) (r : Reading) : Reading :=
  let after := r.count - k.before
  { r with
    tokens := r.tokens.take after ++ tokens ++ r.tokens.drop after
    count := r.count + tokens.length }

/-! ## Keys -/

def dropSpot : Option KeySpot → Option (Option KeySpot)
  | none => some none
  | some k => if k.required then none else some none

def staleSpot (p : Place) (spot : Option KeySpot) : Option (Option KeySpot) :=
  if spot.all (·.reaches p) then some spot else dropSpot spot

def dropStale (r : Reading) : Option Reading := do
  let spot ← staleSpot r.place r.keySpot
  let outer ← r.outerSpots.mapM (staleSpot r.place)
  return { r with keySpot := spot, outerSpots := outer }

def dropKey (r : Reading) : Option Reading :=
  (dropSpot r.keySpot).map fun spot => { r with keySpot := spot }

def noteKey (r : Reading) : Option Reading :=
  if r.keyAllowed then
    r.dropKey.map fun r =>
      let required := !r.inFlow && r.columns.head? == some r.place.column
      { r with keySpot := some ⟨r.place, r.count, required⟩ }
  else some r

/-! ## Block collections -/

def close (columns : List Nat) (r : Reading) : Reading :=
  { r with
    columns := r.columns.drop columns.length
    tokens := columns.map (fun _ => .closeBlock) ++ r.tokens
    count := r.count + columns.length }

def unroll (r : Reading) : Reading :=
  if r.inFlow then r
  else
    { r.close (r.columns.takeWhile (r.place.column < ·)) with
      inset := r.inset && r.margin ≤ r.place.column }

def unrollAll (r : Reading) : Reading := { r.close r.columns with inset := false }

def isInside (r : Reading) (column : Nat) : Bool :=
  !r.inFlow && r.columns.head?.all (· < column)

/-- Opens a block collection in a column, unless it is open. -/
def openBlock (s : Shape) (column : Nat) (r : Reading) : Reading :=
  if r.isInside column then
    { r.push (.openBlock s) with columns := column :: r.columns, inset := false }
  else r

def setInset (r : Reading) : Reading :=
  if r.inFlow || r.columns.isEmpty then r else { r with inset := true }

/-! ## Marks -/

def overMark (r : Reading) : Option Reading :=
  let r := r.skip 1
  if beginsComment r.rest then none else some r

def readOpenFlow (s : Shape) (r : Reading) : Option Reading := do
  let r ← r.noteKey
  if greatestFlowDepth ≤ r.outerSpots.length then none
  let r ← r.setInset.overMark
  return { r.push (.openFlow s) with
    keySpot := none, outerSpots := r.keySpot :: r.outerSpots, keyAllowed := true }

def nextInLine (r : Reading) : Nat :=
  r.place.index + (r.rest.takeWhile isBlank).length

def readCloseFlow (s : Shape) (r : Reading) : Option Reading := do
  let r ← r.dropKey
  match r.outerSpots with
  | [] => none
  | spot :: outer =>
    let r ← r.overMark
    return { r.push (.closeFlow s) with
      keySpot := spot, outerSpots := outer, keyAllowed := false
      joint := if outer.isEmpty then none else some r.nextInLine }

def readComma (r : Reading) : Option Reading := do
  if !r.inFlow then none
  let r ← r.dropKey
  return { (← r.overMark).push .comma with keyAllowed := true }

/-- Whether a value that begins here is inset: after a dash only one that is not on its line. -/
def insetAfterDash (cs : List Char) : Bool :=
  let value := cs.dropWhile (· == ' ')
  value.head?.any isFlowMark || (!value.isEmpty && lineIsOver cs)

def readItem (r : Reading) : Option Reading := do
  if r.inFlow || !r.keyAllowed then none
  let r := r.openBlock .sequence r.place.column
  let r ← r.dropKey
  let r := r.skip 1
  let r := if insetAfterDash r.rest then r.setInset else r
  return { r.push .item with keyAllowed := true }

def readKey (r : Reading) : Option Reading := do
  if !r.inFlow && !r.keyAllowed then none
  let r := r.openBlock .mapping r.place.column
  let r ← r.dropKey
  let r := r.skip 1
  if r.rest.isEmpty || (r.rest.dropWhile fun c => c == ' ' || c == '\n').head? == some '\t' then none
  return { r.push .key with keyAllowed := !r.inFlow }

def isTabbed (cs : List Char) : Bool :=
  let blanks := cs.takeWhile isBlank
  !blanks.isEmpty && !blanks.contains ' ' && (cs.drop blanks.length).head?.any isNameChar

/-- Reads a colon: what stands at the spot where a key may begin is its key. -/
def readValue (r : Reading) : Option Reading := do
  let c := r.cursor.skip 1
  if isTabbed c.rest then none
  match r.keySpot with
  | some k =>
    let column := k.place.column
    let opened := if r.isInside column then [.openBlock .mapping] else []
    let r := r.insert k (.key :: opened)
    let r := if r.isInside column then
        { r with columns := column :: r.columns, inset := false }
      else r
    let r := r.setInset
    return { r.push .value with cursor := c, keySpot := none, keyAllowed := false }
  | none =>
    if !r.inFlow && !r.keyAllowed then none
    let r := (r.openBlock .mapping r.place.column).setInset
    return { r.push .value with cursor := c, keyAllowed := !r.inFlow }

def mayJoin (r : Reading) : Bool :=
  r.joint == some r.place.index || endsFlowNode (r.rest.drop 1)

/-! ## Nodes -/

def readAlias (r : Reading) : Option Reading := do
  let r ← r.noteKey
  let name ← anchorName? (r.rest.drop 1)
  return { (r.skip (name.length + 1)).push (.alias name.value) with keyAllowed := false }

def readAnchor (r : Reading) : Option Reading := do
  let r ← r.noteKey
  let name ← anchorName? (r.rest.drop 1)
  return { (r.skip (name.length + 1)).push (.anchor name.value) with keyAllowed := false }

def readTag (r : Reading) : Option Reading := do
  let r ← r.noteKey
  let t ← tag? r.inFlow (r.rest.drop 1)
  return { (r.skip (t.length + 1)).push (.tag t.value) with keyAllowed := false }

def readBlockScalar (folded : Bool) (r : Reading) : Option Reading := do
  let r ← r.dropKey
  let text ← blockScalar? folded r.inner (r.rest.drop 1)
  return { (r.skip (text.length + 1)).push (.scalar text.value false) with
    keyAllowed := true, inset := false }

def endsQuoted (r : Reading) (onOneLine : Bool) (cs : List Char) : Bool :=
  !beginsComment cs &&
    (lineIsOver cs ||
      let after := cs.dropWhile isBlank
      (r.inFlow && endsFlowNode after) || (after.head? == some ':' && (r.inFlow || onOneLine)))

def readQuoted (r : Reading) : Option Reading := do
  let r ← r.noteKey
  let parts ← quoted? r.rest
  let written := r.rest.take parts.length
  if !keepsMargin r.margin written then none
  if !r.endsQuoted (!written.contains '\n') (parts.rest r.rest) then none
  let r := (r.skip parts.length).push (.scalar (textOfParts parts.value) false)
  let (_, next) ← (Spacing.mk r.inFlow r.margin).seek false .within r.place r.rest
  return { r with keyAllowed := false, joint := some next.index }

def readPlain (r : Reading) : Option Reading := do
  let r ← r.noteKey
  if r.inFlow && r.place.column < r.inner then none
  let found ← plain? r.inFlow r.inner r.rest
  return { (r.skip found.length).push (.scalar (String.ofList found.value.text) true) with
    keyAllowed := found.value.lineEnded, inset := false }

/-! ## Documents -/

def readDirective (r : Reading) : Option Reading := do
  let r ← r.unrollAll.dropKey
  let d ← directive? (r.rest.drop 1)
  return { (r.skip (d.length + 1)).push (.directive d.value) with keyAllowed := false }

def readDocumentMark (t : Token) (r : Reading) : Option Reading := do
  let r ← r.unrollAll.dropKey
  return { (r.skip 3).push t with keyAllowed := false }

def readToken (r : Reading) : Option Reading :=
  let after := r.rest.drop 1
  if r.place.column == 0 && r.rest.head? == some '%' then r.readDirective
  else if r.place.column == 0 && isMark "---" r.rest then r.readDocumentMark .documentStart
  else if r.inFlow && r.place.column < r.margin then none
  else
    match r.rest.head? with
    | some '[' => r.readOpenFlow .sequence
    | some '\x7b' => r.readOpenFlow .mapping
    | some ']' => r.readCloseFlow .sequence
    | some '\x7d' => r.readCloseFlow .mapping
    | some ',' => r.readComma
    | some '*' => r.readAlias
    | some '&' => r.readAnchor
    | some '!' => r.readTag
    | some '"' | some '\x27' => r.readQuoted
    | some c =>
      if c == '-' && endsWord after then r.readItem
      else if c == '?' && (r.inFlow || endsWord after) then r.readKey
      else if c == ':' && (endsWord after || (r.inFlow && r.mayJoin)) then r.readValue
      else if !r.inFlow && c == '|' then r.readBlockScalar false
      else if !r.inFlow && c == '>' then r.readBlockScalar true
      else r.readPlain
    | none => none

def seek (r : Reading) : Option Reading := do
  let (keyAllowed, cursor) ←
    (Spacing.mk r.inFlow r.margin).seek r.keyAllowed .within r.place r.rest
  let r ← { r with cursor, keyAllowed }.dropStale
  return r.unroll

def finish (r : Reading) : Option (List Token) :=
  r.unrollAll.dropKey.map (·.tokens.reverse)

/-- Reads tokens up to the end of the text, or of the first document that is marked as ended. -/
def readAll : Nat → Reading → Option (List Token)
  | 0, _ => none
  | fuel + 1, r => do
    let r ← r.seek
    if r.rest.isEmpty then r.finish
    else if r.place.column == 0 && isMark "..." r.rest then
      if lineIsOver (r.rest.drop 3) then (← r.readDocumentMark .documentEnd).finish else none
    else readAll fuel (← r.readToken)

end Reading

def tokens? (cs : List Char) : Option (List Token) :=
  Reading.readAll (cs.length + 1) { cursor := { rest := cs } }

end Yaml
end Courier
