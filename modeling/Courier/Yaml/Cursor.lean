/-!
# Reading YAML text

Where reading stands in a text: the place tells how far a line is indented and
how long a key has become. Between tokens lie blanks, comments and line ends.
-/

namespace Courier
namespace Yaml

def isBlank (c : Char) : Bool := c == ' ' || c == '\t'

def isLineEnd (c : Char) : Bool :=
  c == '\n' || c == '\u0085' || c == '\u2028' || c == '\u2029'

def isSpace (c : Char) : Bool := isBlank c || isLineEnd c

/-- What is read for a line end: the two separators stand for themselves. -/
def lineEndRead (c : Char) : Char := if c == '\u0085' then '\n' else c

def endsWord (cs : List Char) : Bool := cs.head?.all isSpace

def isFlowMark (c : Char) : Bool :=
  c == ',' || c == '[' || c == ']' || c == '\x7b' || c == '\x7d'

def isNameChar (c : Char) : Bool := c.isAlphanum || c == '_' || c == '-'

def byteOrderMark : Char := '\ufeff'

/-- A place in a text, counted in characters. -/
structure Place where
  index : Nat := 0
  line : Nat := 0
  column : Nat := 0
deriving DecidableEq, Repr, Inhabited

def Place.after (p : Place) (c : Char) : Place :=
  if isLineEnd c then ⟨p.index + 1, p.line + 1, 0⟩ else ⟨p.index + 1, p.line, p.column + 1⟩

structure Cursor extends Place where
  rest : List Char
deriving Repr, Inhabited

namespace Cursor

def skip : Nat → Cursor → Cursor
  | 0, c => c
  | n + 1, c =>
    match c.rest with
    | [] => c
    | x :: rest => skip n { c.toPlace.after x with rest := rest }

end Cursor

structure Found (α : Type) where
  value : α
  length : Nat
deriving Repr

namespace Found

variable {α β : Type}

def map (f : α → β) (x : Found α) : Found β := ⟨f x.value, x.length⟩

def after (n : Nat) (x : Found α) : Found α := ⟨x.value, x.length + n⟩

def rest (x : Found α) (cs : List Char) : List Char := cs.drop x.length

end Found

def lineIsOver (cs : List Char) : Bool :=
  (cs.dropWhile isBlank).head?.all fun c => isLineEnd c || c == '#'

def beginsComment (cs : List Char) : Bool := cs.head? == some '#'

/-- Whether a line begins with a mark: three characters and nothing or a space after them. -/
def isMark (mark : String) (cs : List Char) : Bool :=
  cs.take 3 == mark.toList && endsWord (cs.drop 3)

def isDocumentMark (cs : List Char) : Bool := isMark "---" cs || isMark "..." cs

/-- Whether a tab stands where the first `margin` columns of a line are. -/
def tabIndents (margin : Nat) (line : List Char) : Bool :=
  ((line.takeWhile isBlank).take margin).contains '\t'

inductive Gap where
  | within
  | ahead
  | comment
deriving DecidableEq, Repr

structure Spacing where
  flow : Bool
  margin : Nat
deriving DecidableEq, Repr

/--
Goes on to the next token, and tells whether it may be a key: in block style the
first token of a line may. There a tab does not set apart tokens that may be keys,
and in flow style it does not indent.
-/
def Spacing.seek (s : Spacing) : Bool → Gap → Place → List Char → Option (Bool × Cursor)
  | keyAllowed, _, p, [] => some (keyAllowed, { p with rest := [] })
  | keyAllowed, gap, p, c :: rest =>
    if isLineEnd c then s.seek (keyAllowed || !s.flow) .ahead (p.after c) rest
    else if gap == .comment || c == ' ' then s.seek keyAllowed gap (p.after c) rest
    else if c == '#' then s.seek keyAllowed .comment (p.after c) rest
    else if c == '\t' && (s.flow || !keyAllowed) then
      if gap == .ahead && p.column < s.margin && !lineIsOver rest then none
      else s.seek keyAllowed gap (p.after c) rest
    else if c == byteOrderMark && p.column == 0 && !lineIsOver rest &&
        !rest.head?.any isFlowMark then
      s.seek keyAllowed gap (p.after c) rest
    else some (keyAllowed, { p with rest := c :: rest })

end Yaml
end Courier
