import Courier.Yaml.Document
import Courier.Yaml.Schema

/-!
# Values

What a document stands for, free of how it is written: aliases are replaced by
what they mean, scalars stand for what they say, and no mapping has a key twice.
A mapping may take over the members of others by a merge key.
-/

namespace Courier
namespace Yaml

inductive Value where
  | null
  | bool (b : Bool)
  | int (n : Int)
  | real (text : String)
  | string (s : String)
  | sequence (items : List Value)
  | mapping (members : List (Value × Value))
  | tagged (tag : String) (v : Value)
deriving Repr, BEq, Inhabited

namespace Value

/-- An integer; one that needs more than 64 bits is none. -/
def ofInt? (n : Int) : Option Value := if isWord n then some (.int n) else none

def ofPlain? (text : String) : Option Value :=
  if isNullText text then some .null
  else
    match boolNames.lookup text, (integer? text).filter isDoubleWord with
    | some b, _ => some (.bool b)
    | none, some n => ofInt? n
    | none, none => some (if isReal text then .real text else .string text)

def ofUntagged? (text : String) (plain : Bool) : Option Value :=
  if plain then ofPlain? text else some (.string text)

def ofScalar? (tag : Option String) (text : String) (plain : Bool) : Option Value :=
  match tag with
  | none => ofUntagged? text plain
  | some tag =>
    match localName? tag with
    | some name => (ofUntagged? text plain).map (.tagged name)
    | none =>
      if tag = boolTag then (boolWord? text).map .bool
      else if tag = intTag then integer? text >>= ofInt?
      else if tag = floatTag then if isReal text then some (.real text) else none
      else if tag = nullTag then if nullNames.contains text then some .null else none
      else some (.string text)

def withTag (tag : Option String) (v : Value) : Value :=
  match tag >>= localName? with
  | some name => .tagged name v
  | none => v

def bare : Value → Value
  | .tagged _ v => v.bare
  | v => v

/-! ## Values of nodes -/

mutual

/-- How many marks of a document a node takes: two for a collection, and else one. -/
def nodeSize : Node → Nat
  | .scalar .. => 1
  | .alias _ => 1
  | .sequence _ items => itemsSize items + 2
  | .mapping _ members => membersSize members + 2

def itemsSize : List Node → Nat
  | [] => 0
  | n :: more => nodeSize n + itemsSize more

def membersSize : List (Node × Node) → Nat
  | [] => 0
  | (k, v) :: more => nodeSize k + nodeSize v + membersSize more

end

def greatestDepth : Nat := 128

def followsPerMark : Nat := 100

/-- The node that is meant; to follow an alias takes one of the follows that are left. -/
def meant (d : Document) (n : Node) : StateT Nat Option Node :=
  match n with
  | .alias i => do
    match ← get with
    | 0 => failure
    | left + 1 =>
      set left
      match d.anchored[i]? with
      | some n => return n
      | none => failure
  | n => return n

def hasKeyTwice : List (Value × Value) → Bool
  | [] => false
  | (k, _) :: more => more.any (·.1 == k) || hasKeyTwice more

/-- The value of a node that may be nested to some depth. -/
def ofNode (d : Document) : Nat → Node → StateT Nat Option Value
  | depth, n => do
    match ← meant d n, depth with
    | .scalar tag text plain, _ => ofScalar? tag text plain
    | .sequence tag items, depth + 1 => do
      let items ← items.mapM (ofNode d depth)
      return withTag tag (.sequence items)
    | .mapping tag members, depth + 1 => do
      let members ← members.mapM fun (k, v) => do
        return (← ofNode d depth k, ← ofNode d depth v)
      if hasKeyTwice members then failure else return withTag tag (.mapping members)
    | _, _ => failure

/-! ## Merge keys -/

def mergeKey : Value := .string "<<"

def addMissing (members more : List (Value × Value)) : List (Value × Value) :=
  members ++ more.filter fun m => !members.any fun n => n.1 == m.1

def membersOf? : Value → Option (List (Value × Value))
  | .mapping members => some members
  | _ => none

def mergeSources? : Value → Option (List (List (Value × Value)))
  | .mapping members => some [members]
  | .sequence items => items.mapM membersOf?
  | _ => none

/-- Members with those that their merge key names; what is there already counts. -/
def mergeMembers? (members : List (Value × Value)) : Option (List (Value × Value)) :=
  match members.find? fun m => m.1 == mergeKey with
  | none => some members
  | some (_, v) =>
    (mergeSources? v).map fun sources =>
      sources.foldl addMissing (members.filter fun m => !(m.1 == mergeKey))

mutual

/-- Takes over the members that merge keys name, the innermost mappings first. -/
def merge? : Value → Option Value
  | .sequence items => (mergeItems? items).map .sequence
  | .mapping members => (mergeValues? members).bind mergeMembers? |>.map .mapping
  | .tagged tag v => (merge? v).map (.tagged tag)
  | v => some v

def mergeItems? : List Value → Option (List Value)
  | [] => some []
  | v :: more =>
    match merge? v, mergeItems? more with
    | some v, some more => some (v :: more)
    | _, _ => none

def mergeValues? : List (Value × Value) → Option (List (Value × Value))
  | [] => some []
  | (k, v) :: more =>
    match merge? v, mergeValues? more with
    | some v, some more => some ((k, v) :: more)
    | _, _ => none

end

def ofDocument? (d : Document) : Option Value := do
  let follows := followsPerMark * nodeSize d.root
  let (v, _) ← (ofNode d greatestDepth d.root).run follows
  v.merge?

end Value
end Yaml
end Courier
