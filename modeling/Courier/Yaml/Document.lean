import Courier.Yaml.Node

/-!
# YAML documents

A text holds one document; what follows a document that is marked as ended is
not looked at. Directives in front of a document need a mark at its beginning.
-/

namespace Courier
namespace Yaml

structure Document where
  root : Node
  anchored : Array Node := #[]
deriving Repr, Inhabited

/-- The handles that directives declare; the version is told once at most. -/
structure Prologue where
  hasVersion : Bool := false
  handles : List Handle := []
deriving DecidableEq, Repr

def Prologue.add? (p : Prologue) : Directive → Option Prologue
  | .version major minor =>
    if p.hasVersion || major != 1 || !(minor == 1 || minor == 2) then none
    else some { p with hasVersion := true }
  | .handle h =>
    if p.handles.any (·.name == h.name) then none else some { p with handles := h :: p.handles }

def Token.directive? : Token → Option Directive
  | .directive d => some d
  | _ => none

def endsDocument : List Token → Bool
  | [] => true
  | t :: _ => t == .documentEnd

namespace Document

def ofNodes? (s : Nodes) : Option Document := do
  let fuel := 8 * (s.tokens.length + 1)
  let (root, s) ← s.node fuel .block
  if endsDocument s.tokens then return ⟨root, s.anchored⟩ else none

def ofTokens? (tokens : List Token) : Option Document := do
  let directives := (tokens.map Token.directive?).takeWhile Option.isSome
  let p ← (directives.filterMap id).foldlM Prologue.add? {}
  match tokens.drop directives.length with
  | .documentStart :: tokens =>
    if endsDocument tokens then return ⟨.null, #[]⟩
    ofNodes? { tokens, handles := p.handles }
  | tokens =>
    if !directives.isEmpty then none
    else if tokens.isEmpty then return ⟨.null, #[]⟩
    else ofNodes? { tokens }

end Document

def isPrintable (c : Char) : Bool :=
  let n := c.toNat
  c == '\t' || c == '\n' || (0x20 ≤ n && n ≤ 0x7E) || n == 0x85 ||
    (0xA0 ≤ n && n ≤ 0xFFFD) || 0x10000 ≤ n

/-- Reads a carriage return, with a line feed or without, as a line feed. -/
def normalEnds : List Char → List Char
  | '\r' :: '\n' :: rest => '\n' :: normalEnds rest
  | c :: rest => (if c == '\r' then '\n' else c) :: normalEnds rest
  | [] => []

def Document.ofString? (s : String) : Option Document :=
  let cs := normalEnds s.toList
  if cs.all isPrintable then tokens? cs >>= ofTokens? else none

end Yaml
end Courier
