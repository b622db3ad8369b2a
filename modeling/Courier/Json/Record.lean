import Courier.Json.Printer

/-!
# Records in JSON

A record is read from an object, where unknown keys are passed over and a known
key may come once, or from an array of its fields in order, where fields at the
end may be missing if they have a default. A field that is `null` is not missing.
-/

namespace Courier
namespace Json

abbrev Decode (α : Type) := Document → Option α

/-- How values of a type are written and read. -/
class Codec (α : Type) where
  encode : α → Value
  decode : Decode α

/-- A field of a record as found: whether the record is an array, and the field if given. -/
structure Field where
  positional : Bool
  found : Option Document

namespace Field

def required (decode : Decode α) (f : Field) : Option α :=
  f.found >>= decode

def withDefault (default : α) (decode : Decode α) (f : Field) : Option α :=
  match f.found with
  | none => some default
  | some v => decode v

end Field

namespace Decode

def string : Decode String
  | .string pieces => text? pieces
  | _ => none

def bool : Decode Bool
  | .bool b => some b
  | _ => none

def int : Decode Int
  | .number x => x.toInt?
  | _ => none

def intBetween (least greatest : Int) (v : Document) : Option Int :=
  (int v).filter fun n => least ≤ n && n ≤ greatest

def int32 (v : Document) : Option Int32 :=
  (intBetween (-2147483648) 2147483647 v).map Int32.ofInt

def int64 (v : Document) : Option Int64 :=
  (intBetween (-9223372036854775808) 9223372036854775807 v).map Int64.ofInt

def uint16 (v : Document) : Option UInt16 :=
  (intBetween 0 65535 v).map fun n => UInt16.ofNat n.toNat

def uint32 (v : Document) : Option UInt32 :=
  (intBetween 0 4294967295 v).map fun n => UInt32.ofNat n.toNat

def word (v : Document) : Option Nat :=
  (intBetween 0 18446744073709551615 v).map Int.toNat

def nullable (decode : Decode α) : Decode (Option α)
  | .null => some none
  | v => (decode v).map some

def list (decode : Decode α) : Decode (List α)
  | .array items => items.mapM decode
  | _ => none

/-- An object with any keys, as a map in key order; the last of repeated keys counts. -/
def map (decode : Decode α) : Decode (List (String × α))
  | .object members => sortKeys <$> members.mapM fun (key, v) =>
      match text? key, decode v with
      | some k, some x => some (k, x)
      | _, _ => none
  | _ => none

def value (depth : Nat) : Decode Value :=
  Value.ofDocument? depth

def keyed (members : List (List Piece × Document)) : Option (List (String × Document)) :=
  members.mapM fun (key, v) => (text? key).map fun k => (k, v)

/-- The only member of that name, if any; `none` when there is more than one. -/
def single (members : List (String × Document)) (name : String) : Option (Option Document) :=
  match members.filter fun m => m.1 == name with
  | [] => some none
  | [m] => some (some m.2)
  | _ => none

/-- Reads a record with the given field names; the fields come in that order. -/
def record (names : List String) (build : List Field → Option α) : Decode α
  | .object members =>
    match keyed members with
    | none => none
    | some members =>
      match names.mapM (single members) with
      | none => none
      | some found => build (found.map fun v => ⟨false, v⟩)
  | .array items =>
    if items.length ≤ names.length then
      build (names.zipIdx.map fun (_, i) => ⟨true, items[i]?⟩)
    else none
  | _ => none

/-- One of several names, written as a text or as the only key of an object with `null`. -/
def oneOf (choices : List (String × α)) : Decode α
  | .string pieces => text? pieces >>= fun name => choices.lookup name
  | .object [(key, .null)] => text? key >>= fun name => choices.lookup name
  | _ => none

end Decode

def member? (key : String) (v : Option Value) : List (String × Value) :=
  match v with
  | none => []
  | some v => [(key, v)]

end Json
end Courier
