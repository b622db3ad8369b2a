import Courier.Json.Document
import Courier.Decimal.Shortest

/-!
# JSON values

Free-form values: documents whose texts are well formed and whose numbers have
a value. An object has its keys in order, and of repeated keys the last one
counts. Values are written without blanks, members in the order they are held.
-/

namespace Courier
namespace Json

open Text (Bytes)
open Decimal (Numeral Binary64)

/-- The integers that a JSON number stands for exactly. -/
structure Whole where
  val : Int
  bounded : -9223372036854775808 ≤ val ∧ val < 18446744073709551616
deriving DecidableEq, Repr

def Whole.ofInt? (n : Int) : Option Whole :=
  if h : -9223372036854775808 ≤ n ∧ n < 18446744073709551616 then some ⟨n, h⟩ else none

inductive Number where
  | whole (n : Whole)
  | float (x : Binary64)
deriving DecidableEq, Repr

/-- A numeral as a number; `none` past the greatest binary64 number. -/
def Number.ofNumeral? (x : Numeral) : Option Number :=
  match x.toInt? >>= Whole.ofInt? with
  | some n => some (.whole n)
  | none => x.toBinary64?.map .float

def insertKey (key : String) (v : α) : List (String × α) → List (String × α)
  | [] => [(key, v)]
  | (k, w) :: rest =>
    if key = k then (key, v) :: rest
    else if key < k then (key, v) :: (k, w) :: rest
    else (k, w) :: insertKey key v rest

/-- The pairs in key order; of repeated keys the last one counts. -/
def sortKeys (members : List (String × α)) : List (String × α) :=
  members.foldl (fun done (k, v) => insertKey k v done) []

inductive Value where
  | null
  | bool (b : Bool)
  | number (x : Number)
  | string (s : String)
  | array (items : List Value)
  | object (members : List (String × Value))
deriving Repr, BEq

namespace Value

instance : Inhabited Value := ⟨.null⟩

def ofNat (n : Nat) (h : n < 18446744073709551616 := by omega) : Value :=
  .number (.whole ⟨n, by omega⟩)

/-- An integer that has an exact number; others become text. -/
def ofInt (n : Int) : Value :=
  match Whole.ofInt? n with
  | some w => .number (.whole w)
  | none => .string (toString n)

mutual

/-- The value of a document nested no deeper than `depth`. -/
def ofDocument? : Nat → Document → Option Value
  | _, .null => some .null
  | _, .bool b => some (.bool b)
  | _, .number x => (Number.ofNumeral? x).map .number
  | _, .string pieces => (text? pieces).map .string
  | 0, .array _ => none
  | 0, .object _ => none
  | depth + 1, .array items => (itemsOf? depth items).map .array
  | depth + 1, .object members =>
    (membersOf? depth members).map fun members => .object (sortKeys members)

def itemsOf? : Nat → List Document → Option (List Value)
  | _, [] => some []
  | depth, item :: rest =>
    match ofDocument? depth item, itemsOf? depth rest with
    | some v, some vs => some (v :: vs)
    | _, _ => none

def membersOf? : Nat → List (List Piece × Document) → Option (List (String × Value))
  | _, [] => some []
  | depth, (key, item) :: rest =>
    match text? key, ofDocument? depth item, membersOf? depth rest with
    | some k, some v, some vs => some ((k, v) :: vs)
    | _, _, _ => none

end

def depthLimit : Nat := 127

def ofBytes? (bytes : Bytes) : Option Value :=
  Document.ofBytes? bytes >>= ofDocument? depthLimit

end Value
end Json
end Courier
