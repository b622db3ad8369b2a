import Courier.Yaml.Token

/-!
# YAML nodes

The tree of a YAML document: what its tokens put together. Where a node may stand
and nothing is written, there is a plain scalar without text. A node may be named
by an anchor and be meant again by an alias, even inside of itself.
-/

namespace Courier
namespace Yaml

inductive Node where
  /-- A text, and whether it is written without quotes or marks. -/
  | scalar (tag : Option String) (text : String) (plain : Bool)
  | sequence (tag : Option String) (items : List Node)
  | mapping (tag : Option String) (members : List (Node × Node))
  /-- The node of an anchor, told by how many anchors are before it. -/
  | alias (anchor : Nat)
deriving Repr, Inhabited

def Node.null : Node := .scalar none "" true

structure Properties where
  anchor : Option String := none
  tag : Option WrittenTag := none
deriving DecidableEq, Repr

def Properties.isEmpty (p : Properties) : Bool := p.anchor.isNone && p.tag.isNone

/-- The tokens that are still to be put together, and the nodes with anchors so far. -/
structure Nodes where
  tokens : List Token
  handles : List Handle := []
  names : List (String × Nat) := []
  anchored : Array Node := #[]
deriving Repr

namespace Nodes

def drop (n : Nat) (s : Nodes) : Nodes := { s with tokens := s.tokens.drop n }

def nextIs (tokens : List Token) (s : Nodes) : Bool :=
  s.tokens.head?.any tokens.contains

def properties (s : Nodes) : Properties × Nodes :=
  match s.tokens with
  | .anchor a :: .tag t :: _ => (⟨some a, some t⟩, s.drop 2)
  | .tag t :: .anchor a :: _ => (⟨some a, some t⟩, s.drop 2)
  | .anchor a :: _ => (⟨some a, none⟩, s.drop 1)
  | .tag t :: _ => (⟨none, some t⟩, s.drop 1)
  | _ => ({}, s)

def declare (name : String) (s : Nodes) : Nodes :=
  { s with names := (name, s.anchored.size) :: s.names, anchored := s.anchored.push .null }

def fullTag? (t : Option WrittenTag) (s : Nodes) : Option (Option String) :=
  match t with
  | none => some none
  | some t => (t.resolve? s.handles).map some

inductive Site where
  | flow
  | block
  /-- After a key in block style, where items may have no further indentation. -/
  | entry
deriving DecidableEq, Repr

mutual

def node : Nat → Site → Nodes → Option (Node × Nodes)
  | 0, _, _ => none
  | fuel + 1, site, s =>
    match s.tokens with
    | .alias name :: _ => (s.names.lookup name).map fun i => (.alias i, s.drop 1)
    | _ => do
      let (p, s) := s.properties
      let tag ← s.fullTag? p.tag
      match p.anchor with
      | none => content fuel site p.isEmpty tag s
      | some name =>
        let i := s.anchored.size
        let (n, s) ← content fuel site p.isEmpty tag (s.declare name)
        return (n, { s with anchored := s.anchored.setIfInBounds i n })

/-- The node with a tag; it may be left out if it has any properties. -/
def content : Nat → Site → Bool → Option String → Nodes → Option (Node × Nodes)
  | 0, _, _, _, _ => none
  | fuel + 1, site, isBare, tag, s =>
    match s.tokens with
    | .scalar text plain :: _ => some (.scalar tag text plain, s.drop 1)
    | .openFlow .sequence :: _ =>
      (flowItems fuel true (s.drop 1)).map fun (items, s) => (.sequence tag items, s)
    | .openFlow .mapping :: _ =>
      (flowMembers fuel true (s.drop 1)).map fun (members, s) => (.mapping tag members, s)
    | .openBlock .sequence :: _ =>
      (blockItems fuel (s.drop 1)).map fun (items, s) => (.sequence tag items, s)
    | .openBlock .mapping :: _ =>
      (blockMembers fuel (s.drop 1)).map fun (members, s) => (.mapping tag members, s)
    | _ =>
      if site == .entry && s.nextIs [.item] then
        (entryItems fuel s).map fun (items, s) => (.sequence tag items, s)
      else if isBare then none
      else some (.scalar tag "" true, s)

def nodeUnless : Nat → List Token → Site → Nodes → Option (Node × Nodes)
  | 0, _, _, _ => none
  | fuel + 1, ends, site, s =>
    if s.nextIs ends then some (.null, s) else node fuel site s

def valueUnless : Nat → List Token → Site → Nodes → Option (Node × Nodes)
  | 0, _, _, _ => none
  | fuel + 1, ends, site, s =>
    if s.nextIs [.value] then nodeUnless fuel ends site (s.drop 1) else some (.null, s)

def blockItems : Nat → Nodes → Option (List Node × Nodes)
  | 0, _ => none
  | fuel + 1, s =>
    match s.tokens with
    | .item :: _ => do
      let (n, s) ← nodeUnless fuel [.item, .closeBlock] .block (s.drop 1)
      let (items, s) ← blockItems fuel s
      return (n :: items, s)
    | .closeBlock :: _ => some ([], s.drop 1)
    | _ => none

def entryItems : Nat → Nodes → Option (List Node × Nodes)
  | 0, _ => none
  | fuel + 1, s =>
    if s.nextIs [.item] then do
      let (n, s) ← nodeUnless fuel [.item, .key, .value, .closeBlock] .block (s.drop 1)
      let (items, s) ← entryItems fuel s
      return (n :: items, s)
    else some ([], s)

def blockMembers : Nat → Nodes → Option (List (Node × Node) × Nodes)
  | 0, _ => none
  | fuel + 1, s =>
    match s.tokens with
    | .key :: _ => do
      let ends := [.key, .value, .closeBlock]
      let (key, s) ← nodeUnless fuel ends .entry (s.drop 1)
      let (value, s) ← valueUnless fuel ends .entry s
      let (members, s) ← blockMembers fuel s
      return ((key, value) :: members, s)
    | .closeBlock :: _ => some ([], s.drop 1)
    | _ => none

def flowItems : Nat → Bool → Nodes → Option (List Node × Nodes)
  | 0, _, _ => none
  | fuel + 1, isFirst, s =>
    if s.nextIs [.closeFlow .sequence] then some ([], s.drop 1)
    else if !isFirst && !s.nextIs [.comma] then none
    else do
      let s := if isFirst then s else s.drop 1
      if s.nextIs [.closeFlow .sequence] then return ([], s.drop 1)
      let (n, s) ← if s.nextIs [.key] then flowPair fuel (s.drop 1) else node fuel .flow s
      let (items, s) ← flowItems fuel false s
      return (n :: items, s)

/-- An item that is a mapping of one member, after the sign that its key comes next. -/
def flowPair : Nat → Nodes → Option (Node × Nodes)
  | 0, _ => none
  | fuel + 1, s => do
    let (key, s) ← node fuel .flow s
    let (value, s) ← valueUnless fuel [.comma, .closeFlow .sequence] .flow s
    return (.mapping none [(key, value)], s)

/-- The members of a flow mapping up to its end; a key without a sign has no value. -/
def flowMembers : Nat → Bool → Nodes → Option (List (Node × Node) × Nodes)
  | 0, _, _ => none
  | fuel + 1, isFirst, s =>
    if s.nextIs [.closeFlow .mapping] then some ([], s.drop 1)
    else if !isFirst && !s.nextIs [.comma] then none
    else do
      let s := if isFirst then s else s.drop 1
      if s.nextIs [.closeFlow .mapping] then return ([], s.drop 1)
      let (member, s) ←
        if s.nextIs [.key] then flowMember fuel (s.drop 1)
        else (node fuel .flow s).map fun (key, s) => ((key, .null), s)
      let (members, s) ← flowMembers fuel false s
      return (member :: members, s)

def flowMember : Nat → Nodes → Option ((Node × Node) × Nodes)
  | 0, _ => none
  | fuel + 1, s => do
    let ends := [.comma, .closeFlow .mapping]
    let (key, s) ← nodeUnless fuel (.value :: ends) .flow s
    let (value, s) ← valueUnless fuel ends .flow s
    return ((key, value), s)

end

end Nodes
end Yaml
end Courier
