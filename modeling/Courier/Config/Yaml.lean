import Courier.Config.Reading
import Courier.Yaml.Value

/-!
# Configurations in YAML

A configuration is read from the nodes of a document, where any scalar is a text
whatever it stands for. If that fails, it is read from the values that the nodes
stand for: there a text is nothing else than a text, merge keys are followed, and
a section that is null has all its defaults.
-/

namespace Courier
namespace Config

open Yaml (Document Node Value)

def distinct {τ : Type} (members : List (String × τ)) : Option (List (String × τ)) :=
  if (members.map Prod.fst).Nodup then some members else none

/-! ## Values -/

namespace OfValue

def text : Value → Option String
  | .string s => some s
  | .tagged _ v => text v
  | _ => none

def bool : Value → Option Bool
  | .bool b => some b
  | .tagged _ v => bool v
  | _ => none

def natural : Value → Option Nat
  | .int n => if 0 ≤ n then some n.toNat else none
  | _ => none

def secondsOrText : Value → Option (Nat ⊕ String)
  | .string s => some (.inr s)
  | v => (natural v).map .inl

/-- One of several names: a text, a tag on nothing, or the key of nothing. -/
def name : Value → Option String
  | .string s => some s
  | .tagged tag .null => some tag
  | .mapping [(k, .null)] => text k
  | _ => none

def items : Value → Option (List Value)
  | .sequence items => some items
  | .null => some []
  | .tagged _ v => items v
  | _ => none

def members : Value → Option (List (String × Value))
  | .mapping members => members.mapM fun (k, v) => (text k).map (·, v)
  | .null => some []
  | .tagged _ v => members v
  | _ => none

end OfValue

def Format.yamlValues : Format Value where
  text := OfValue.text
  bool := OfValue.bool
  uint32 v := ((OfValue.natural v.bare).filter (· < UInt32.size)).map UInt32.ofNat
  secondsOrText := OfValue.secondsOrText
  unlessNull
    | .null => some none
    | v => some (some v)
  name := OfValue.name
  items := OfValue.items
  members v := (OfValue.members v >>= distinct).map Json.sortKeys
  fields names v :=
    (OfValue.members v >>= distinct).map fun members => names.map fun name => members.lookup name

/-! ## Nodes -/

namespace OfNode

def meant (d : Document) : Node → Node
  | .alias i => d.anchored[i]?.getD .null
  | n => n

def admits (expected : String) (tag : Option String) : Bool :=
  tag.all fun t => t == expected || !Yaml.coreTag.toList.isPrefixOf t.toList

def text (d : Document) (n : Node) : Option String :=
  match meant d n with
  | .scalar _ text _ => some text
  | _ => none

def bool (d : Document) (n : Node) : Option Bool :=
  match meant d n with
  | .scalar tag text true => if admits Yaml.boolTag tag then Yaml.boolWord? text else none
  | _ => none

def natural (d : Document) (n : Node) : Option Nat :=
  match meant d n with
  | .scalar tag text true => if admits Yaml.intTag tag then Yaml.natural? text else none
  | _ => none

def secondsOrText (d : Document) (n : Node) : Option (Nat ⊕ String) :=
  match meant d n with
  | .scalar tag text plain => Value.ofScalar? tag text plain >>= OfValue.secondsOrText
  | _ => none

/-- What is there, unless it is a plain scalar that stands for nothing. -/
def unlessNull (d : Document) (n : Node) : Option (Option Node) :=
  match meant d n with
  | .scalar none text true => if Yaml.isNullText text then some none else some (some n)
  | .scalar (some tag) text true =>
    if tag ≠ Yaml.nullTag then some (some n)
    else if Yaml.nullNames.contains text then some none
    else none
  | _ => some (some n)

def isNull (d : Document) (n : Node) : Bool :=
  (unlessNull d n).any Option.isNone

/-- One of several names: a text, a tag on nothing, or the key of nothing. -/
def name (d : Document) (n : Node) : Option String :=
  match meant d n with
  | .scalar tag text plain =>
    match tag >>= Yaml.localName? with
    | none => some text
    | some name => if plain && Yaml.isNullText text then some name else none
  | .mapping tag [(k, v)] =>
    if (tag >>= Yaml.localName?).isNone && isNull d v then text d k else none
  | _ => none

def items (d : Document) (n : Node) : Option (List Node) :=
  match meant d n with
  | .sequence _ items => some items
  | .scalar _ "" true => some []
  | _ => none

def members (d : Document) (n : Node) : Option (List (String × Node)) :=
  match meant d n with
  | .mapping _ members => members.mapM (fun (k, v) => (text d k).map (·, v)) >>= distinct
  | .scalar _ "" true => some []
  | _ => none

end OfNode

def Format.yamlNodes (d : Document) : Format Node where
  text := OfNode.text d
  bool := OfNode.bool d
  uint32 n := ((OfNode.natural d n).filter (· < UInt32.size)).map UInt32.ofNat
  secondsOrText := OfNode.secondsOrText d
  unlessNull := OfNode.unlessNull d
  name := OfNode.name d
  items := OfNode.items d
  members n := (OfNode.members d n).map Json.sortKeys
  fields names n :=
    (OfNode.members d n).map fun members => names.map fun name => members.lookup name

def ofDocument? (d : Document) : Option Config :=
  (Format.yamlNodes d).config d.root <|> (Value.ofDocument? d >>= Format.yamlValues.config)

/-- Reads a configuration in YAML; a blank text leaves every setting at its default. -/
def ofYaml? (s : String) : Option Config :=
  if Text.isBlank s then some {} else Document.ofString? s >>= ofDocument?

end Config
end Courier
