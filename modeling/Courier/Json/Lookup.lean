import Courier.Json.Record

/-!
# Loose reading

Parts of a document by name, for documents that may leave anything out: what is
missing or of another kind is passed over or has a default.
-/

namespace Courier
namespace Json
namespace Document

def text? : Document → Option String := Decode.string
def int? : Document → Option Int := Decode.int
def bool? : Document → Option Bool := Decode.bool

def items : Document → List Document
  | .array items => items
  | _ => []

def texts (d : Document) : List String :=
  d.items.filterMap text?

def get? (d : Document) (name : String) : Option Document :=
  match d with
  | .object members => (members.find? fun m => Json.text? m.1 == some name).map (·.2)
  | _ => none

theorem sizeOf_lt_of_get? {d v : Document} {name : String} (h : d.get? name = some v) :
    sizeOf v < sizeOf d := by
  cases d with
  | object members =>
    obtain ⟨m, hm, rfl⟩ := Option.map_eq_some_iff.1 h
    have hlt := List.sizeOf_lt_of_mem (List.mem_of_find?_eq_some hm)
    obtain ⟨key, value⟩ := m
    simp only [Prod.mk.sizeOf_spec] at hlt
    simp only [object.sizeOf_spec]
    omega
  | _ => simp [get?] at h

def textAt? (d : Document) (name : String) : Option String := d.get? name >>= text?
def intAt? (d : Document) (name : String) : Option Int := d.get? name >>= int?

def textAt (d : Document) (name : String) (default : String := "") : String :=
  (d.textAt? name).getD default

/-- A number that counts something; a negative one counts nothing. -/
def natAt? (d : Document) (name : String) : Option Nat :=
  (d.intAt? name).map Int.toNat

def natAt (d : Document) (name : String) (default : Nat := 0) : Nat :=
  (d.natAt? name).getD default

def flagAt (d : Document) (name : String) (default : Bool := false) : Bool :=
  (d.get? name >>= bool?).getD default

def itemsAt (d : Document) (name : String) : List Document :=
  ((d.get? name).map items).getD []

def textsAt (d : Document) (name : String) : List String :=
  ((d.get? name).map texts).getD []

def textMap : Document → List (String × String)
  | .object members =>
    sortKeys (members.filterMap fun (k, v) => do return (← Json.text? k, ← v.text?))
  | _ => []

def textMapAt (d : Document) (name : String) : List (String × String) :=
  ((d.get? name).map textMap).getD []

/-- The value of a document, or `null` if it is nested too deeply. -/
def toValue (d : Document) : Value :=
  (Value.ofDocument? Value.depthLimit d).getD .null

end Document
end Json
end Courier
