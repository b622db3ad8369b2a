import Courier.Json.Record
import Courier.Proofs.Json.Values

/-!
# Records written and read

An encoding is faithful for a decoder that reads each value back from its document. Texts
and integers have faithful encodings, lists of what has one have one, and the fields of an
object are found under their names.
-/

namespace Courier
namespace Json

open Decimal (Numeral)

variable {α : Type}

/-- What is encoded has no floats, and is decoded as what it was. -/
structure Faithful (encode : α → Value) (decode : Decode α) : Prop where
  floatFree : ∀ a, (encode a).FloatFree
  reads : ∀ a, decode (encode a).toDocument = some a

namespace Faithful

variable {encode : α → Value} {decode : Decode α}

theorem ofBytes? (h : Faithful encode decode) (a : α) :
    Document.ofBytes? (encode a).toBytes >>= decode = some a := by
  rw [Document.ofBytes?_toBytes (h.floatFree a)]
  exact h.reads a

theorem required (h : Faithful encode decode) (positional : Bool) (a : α) :
    Field.required decode ⟨positional, some (encode a).toDocument⟩ = some a :=
  h.reads a

theorem withDefault (h : Faithful encode decode) (default : α) (positional : Bool) (a : α) :
    Field.withDefault default decode ⟨positional, some (encode a).toDocument⟩ = some a :=
  h.reads a

theorem toBytes_injective (h : Faithful encode decode) :
    Function.Injective fun a => (encode a).toBytes := by
  intro a b heq
  have hread : some a = some b := by
    rw [← h.ofBytes? a, ← h.ofBytes? b]
    exact congrArg (fun bytes => Document.ofBytes? bytes >>= decode) heq
  exact Option.some.inj hread

end Faithful

/-!
## Texts, truth values and integers
-/

theorem faithful_bool : Faithful Value.bool Decode.bool where
  floatFree := .bool
  reads _ := rfl

theorem faithful_string : Faithful Value.string Decode.string where
  floatFree := .string
  reads := text?_ofText

theorem floatFree_ofInt (n : Int) : (Value.ofInt n).FloatFree := by
  unfold Value.ofInt
  cases Whole.ofInt? n with
  | none => exact .string _
  | some w => exact .whole w

theorem intBetween_ofInt {least greatest n : Int} (h : least ≤ n ∧ n ≤ greatest)
    (hleast : -9223372036854775808 ≤ least) (hgreatest : greatest < 18446744073709551616) :
    Decode.intBetween least greatest (Value.ofInt n).toDocument = some n := by
  have hwhole : Whole.ofInt? n = some ⟨n, by omega, by omega⟩ := dif_pos _
  have hint : Decode.int (Value.ofInt n).toDocument = some n := by
    rw [Value.ofInt, hwhole]
    exact Decimal.toInt?_ofInt n
  simp [Decode.intBetween, hint, h]

theorem faithful_int32 : Faithful (fun n : Int32 => Value.ofInt n.toInt) Decode.int32 where
  floatFree n := floatFree_ofInt n.toInt
  reads n := by
    have hleast := Int32.le_toInt n
    have hgreatest := Int32.toInt_lt n
    simp only [Decode.int32]
    rw [intBetween_ofInt (by omega) (by omega) (by omega), Option.map_some, Int32.ofInt_toInt]

theorem faithful_int64 : Faithful (fun n : Int64 => Value.ofInt n.toInt) Decode.int64 where
  floatFree n := floatFree_ofInt n.toInt
  reads n := by
    have hleast := Int64.le_toInt n
    have hgreatest := Int64.toInt_lt n
    simp only [Decode.int64]
    rw [intBetween_ofInt (by omega) (by omega) (by omega), Option.map_some, Int64.ofInt_toInt]

theorem faithful_uint32 : Faithful (fun n : UInt32 => Value.ofInt n.toNat) Decode.uint32 where
  floatFree n := floatFree_ofInt n.toNat
  reads n := by
    have hgreatest := n.toNat_lt
    simp only [Decode.uint32]
    rw [intBetween_ofInt (by omega) (by omega) (by omega), Option.map_some, Int.toNat_natCast,
      UInt32.ofNat_toNat]

/-!
## Lists and values that may be missing
-/

theorem toDocument_ne_null {v : Value} (h : v ≠ .null) : v.toDocument ≠ .null := by
  cases v with
  | null => exact absurd rfl h
  | bool b => exact nofun
  | number x => exact nofun
  | string s => exact nofun
  | array items => exact nofun
  | object members => exact nofun

theorem mapM_toDocument {encode : α → Value} {decode : Decode α} (h : Faithful encode decode)
    (as : List α) : (as.map fun a => (encode a).toDocument).mapM decode = some as := by
  induction as with
  | nil => rfl
  | cons a rest ih =>
      rw [List.map_cons, List.mapM_cons, h.reads a, ih]
      rfl

theorem faithful_list {encode : α → Value} {decode : Decode α} (h : Faithful encode decode) :
    Faithful (fun as => Value.array (as.map encode)) (Decode.list decode) where
  floatFree as := by
    refine .array fun v hv => ?_
    rcases List.mem_map.mp hv with ⟨a, _, rfl⟩
    exact h.floatFree a
  reads as := by
    simp only [Value.toDocument, Value.itemDocuments_eq_map, List.map_map]
    exact mapM_toDocument h as

theorem faithful_nullable {encode : α → Value} {decode : Decode α} (h : Faithful encode decode)
    (hnull : ∀ a, encode a ≠ .null) :
    Faithful (fun o : Option α => (o.map encode).getD .null) (Decode.nullable decode) where
  floatFree o := by
    cases o with
    | none => exact .null
    | some a => exact h.floatFree a
  reads o := by
    cases o with
    | none => rfl
    | some a =>
        have hne : (encode a).toDocument ≠ .null := toDocument_ne_null (hnull a)
        have hdecode : Decode.nullable decode (encode a).toDocument =
            (decode (encode a).toDocument).map some := by
          cases hdocument : (encode a).toDocument with
          | null => exact absurd hdocument hne
          | bool b => rfl
          | number x => rfl
          | string pieces => rfl
          | array items => rfl
          | object members => rfl
        exact hdecode.trans (congrArg (Option.map some) (h.reads a))

theorem faithful_nullableString :
    Faithful (fun s : Option String => (s.map Value.string).getD .null)
      (Decode.nullable Decode.string) :=
  faithful_nullable faithful_string (by simp)

/-- A value that is not written when it is missing is read as missing. -/
theorem Faithful.skipped {encode : α → Value} {decode : Decode α} (h : Faithful encode decode)
    (hnull : ∀ a, encode a ≠ .null) (positional : Bool) (o : Option α) :
    Field.withDefault none (Decode.nullable decode)
      ⟨positional, o.map fun a => (encode a).toDocument⟩ = some o := by
  cases o with
  | none => rfl
  | some a => exact (faithful_nullable h hnull).reads (some a)

/-!
## Fields by name
-/

theorem lookup_member? (key name : String) (v : Option Value) :
    (member? key v).lookup name = if name = key then v else none := by
  cases v with
  | none => simp [member?]
  | some v =>
      by_cases h : name = key
      · simp [member?, h]
      · simp [member?, List.lookup_cons, h, beq_false_of_ne h]

theorem keyed_memberDocuments (members : List (String × Value)) :
    Decode.keyed (members.map fun m => (Piece.ofText m.1, m.2.toDocument)) =
      some (members.map fun m => (m.1, m.2.toDocument)) := by
  induction members with
  | nil => rfl
  | cons m rest ih =>
      unfold Decode.keyed at ih ⊢
      simp [text?_ofText, ih]

theorem single_of_nodup {members : List (String × Document)}
    (h : (members.map Prod.fst).Nodup) (name : String) :
    Decode.single members name = some (members.lookup name) := by
  have hfilter : members.filter (fun m => m.1 == name) =
      ((members.lookup name).map fun v => (name, v)).toList := by
    induction members with
    | nil => rfl
    | cons m rest ih =>
        rcases m with ⟨k, v⟩
        rcases List.nodup_cons.mp h with ⟨hfirst, hrest⟩
        by_cases hk : k = name
        · subst hk
          have hnone : rest.filter (fun m => m.1 == k) = [] := by
            rw [List.filter_eq_nil_iff]
            intro m hm heq
            exact hfirst (List.mem_map.mpr ⟨m, hm, eq_of_beq heq⟩)
          simp [hnone]
        · have hne : (name == k) = false := by
            simpa using Ne.symm hk
          simp [List.lookup_cons, hk, hne, ih hrest]
  rw [Decode.single, hfilter]
  cases members.lookup name with
  | none => rfl
  | some v => rfl

theorem lookup_map_toDocument (fields : List (String × Value)) (name : String) :
    (fields.map fun m => (m.1, m.2.toDocument)).lookup name =
      (fields.lookup name).map Value.toDocument := by
  induction fields with
  | nil => rfl
  | cons m rest ih =>
      rw [List.map_cons, List.lookup_cons, List.lookup_cons, ih]
      cases name == m.1 <;> rfl

/-- A record is built of the fields that the object has under their names. -/
theorem record_object {fields : List (String × Value)} (h : (fields.map Prod.fst).Nodup)
    (names : List String) (build : List Field → Option α) :
    Decode.record names build (Value.object fields).toDocument =
      build (names.map fun name => ⟨false, (fields.lookup name).map Value.toDocument⟩) := by
  have hkeys : ((fields.map fun m => (m.1, m.2.toDocument)).map Prod.fst).Nodup := by
    simpa [Function.comp_def] using h
  have hsingle : Decode.single (fields.map fun m => (m.1, m.2.toDocument)) =
      fun name => some ((fields.lookup name).map Value.toDocument) := by
    funext name
    rw [single_of_nodup hkeys, lookup_map_toDocument]
  have hfound : names.mapM (Decode.single (fields.map fun m => (m.1, m.2.toDocument))) =
      some (names.map fun name => (fields.lookup name).map Value.toDocument) := by
    rw [hsingle]
    exact List.mapM_pure
  simp only [Value.toDocument, Value.memberDocuments_eq_map, Decode.record,
    keyed_memberDocuments, hfound, List.map_map]
  rfl

end Json
end Courier
