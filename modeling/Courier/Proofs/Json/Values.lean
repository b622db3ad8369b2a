import Courier.Named
import Courier.Proofs.Json.Documents

/-!
# Values written and read

A value without floats whose keys are in order is the value of its document, as long as it
is not nested too deeply. The main statements are `ofBytes?_toBytes` and, for
values that were read, `spec_of_ofDocument?`.
-/

namespace Courier
namespace Json

open Decimal (Numeral)

/-!
## Keys in order
-/

section Keys

variable {α : Type}

def KeysOrdered (members : List (String × α)) : Prop :=
  members.Pairwise fun m m' => m.1 < m'.1

theorem mem_insertKey {key : String} {v : α} {members : List (String × α)} {m : String × α}
    (h : m ∈ insertKey key v members) : m = (key, v) ∨ m ∈ members := by
  induction members with
  | nil => exact .inl (List.mem_singleton.mp h)
  | cons m' rest ih =>
      rcases m' with ⟨k, w⟩
      unfold insertKey at h
      split at h
      · rcases List.mem_cons.mp h with h | h
        · exact .inl h
        · exact .inr (List.mem_cons_of_mem _ h)
      · split at h
        · exact List.mem_cons.mp h
        · rcases List.mem_cons.mp h with h | h
          · exact .inr (List.mem_cons.mpr (.inl h))
          · exact (ih h).imp_right fun h => List.mem_cons_of_mem _ h

theorem keysOrdered_insertKey (key : String) (v : α) {members : List (String × α)}
    (h : KeysOrdered members) : KeysOrdered (insertKey key v members) := by
  induction members with
  | nil => exact List.pairwise_singleton _ _
  | cons m rest ih =>
      rcases m with ⟨k, w⟩
      rcases List.pairwise_cons.mp h with ⟨hfirst, hrest⟩
      unfold insertKey
      split
      · next heq =>
          subst heq
          exact List.pairwise_cons.mpr ⟨hfirst, hrest⟩
      · next hne =>
          split
          · next hlt =>
              refine List.pairwise_cons.mpr ⟨?_, h⟩
              intro m hm
              rcases List.mem_cons.mp hm with rfl | hm
              · exact hlt
              · exact String.lt_trans hlt (hfirst m hm)
          · next hle =>
              have hlt : k < key := Std.lt_of_le_of_ne (String.not_lt.mp hle) (Ne.symm hne)
              refine List.pairwise_cons.mpr ⟨?_, ih hrest⟩
              intro m hm
              rcases mem_insertKey hm with rfl | hm
              · exact hlt
              · exact hfirst m hm

theorem insertKey_of_last {key : String} {v : α} {members : List (String × α)}
    (h : ∀ m ∈ members, m.1 < key) : insertKey key v members = members ++ [(key, v)] := by
  induction members with
  | nil => rfl
  | cons m rest ih =>
      rcases m with ⟨k, w⟩
      have hlt : k < key := h (k, w) List.mem_cons_self
      have hne : key ≠ k := by
        rintro rfl
        exact String.lt_irrefl key hlt
      rw [insertKey, if_neg hne, if_neg (String.lt_asymm hlt),
        ih fun m hm => h m (List.mem_cons_of_mem _ hm)]
      rfl

theorem lookup_insertKey (key name : String) (v : α) (members : List (String × α)) :
    (insertKey key v members).lookup name =
      if name = key then some v else members.lookup name := by
  induction members with
  | nil => exact Named.lookup_cons key name v []
  | cons m rest ih =>
      rcases m with ⟨k, w⟩
      unfold insertKey
      split
      · next heq =>
          subst heq
          simp only [Named.lookup_cons]
          split <;> rfl
      · next hne =>
          split
          · rw [Named.lookup_cons]
          · simp only [Named.lookup_cons, ih]
            by_cases hk : name = k
            · have hkey : name ≠ key := fun h => hne (h.symm.trans hk)
              simp only [if_pos hk, if_neg hkey]
            · simp only [if_neg hk]

theorem foldl_insertKey_spec (members done : List (String × α)) (h : KeysOrdered done) :
    KeysOrdered (members.foldl (fun done (k, v) => insertKey k v done) done) ∧
      ∀ m ∈ members.foldl (fun done (k, v) => insertKey k v done) done,
        m ∈ done ∨ m ∈ members := by
  induction members generalizing done with
  | nil => exact ⟨h, fun m hm => .inl hm⟩
  | cons m rest ih =>
      rcases ih (insertKey m.1 m.2 done) (keysOrdered_insertKey m.1 m.2 h) with ⟨hordered, hmem⟩
      refine ⟨hordered, ?_⟩
      intro m' hm'
      rcases hmem m' hm' with hm' | hm'
      · rcases mem_insertKey hm' with rfl | hm'
        · exact .inr List.mem_cons_self
        · exact .inl hm'
      · exact .inr (List.mem_cons_of_mem _ hm')

theorem keysOrdered_sortKeys (members : List (String × α)) : KeysOrdered (sortKeys members) :=
  (foldl_insertKey_spec members [] .nil).left

theorem mem_of_mem_sortKeys {members : List (String × α)} {m : String × α}
    (h : m ∈ sortKeys members) : m ∈ members :=
  ((foldl_insertKey_spec members [] .nil).right m h).resolve_left List.not_mem_nil

theorem foldl_insertKey_of_ordered (members done : List (String × α))
    (h : KeysOrdered (done ++ members)) :
    members.foldl (fun done (k, v) => insertKey k v done) done = done ++ members := by
  induction members generalizing done with
  | nil => exact (List.append_nil done).symm
  | cons m rest ih =>
      rcases m with ⟨k, v⟩
      have hlast : ∀ m' ∈ done, m'.1 < k := fun m' hm' =>
        (List.pairwise_append.mp h).right.right m' hm' (k, v) List.mem_cons_self
      have happend : done ++ (k, v) :: rest = done ++ [(k, v)] ++ rest := by simp
      simp only [List.foldl_cons, insertKey_of_last hlast]
      rw [happend] at h ⊢
      exact ih _ h

theorem sortKeys_of_ordered {members : List (String × α)} (h : KeysOrdered members) :
    sortKeys members = members :=
  foldl_insertKey_of_ordered members [] h

end Keys

/-!
## Ordered values and their depth
-/

namespace Value

inductive Ordered : Value → Prop where
  | null : Ordered .null
  | bool (b : Bool) : Ordered (.bool b)
  | number (x : Number) : Ordered (.number x)
  | string (s : String) : Ordered (.string s)
  | array {items : List Value} (ordered : ∀ v ∈ items, Ordered v) : Ordered (.array items)
  | object {members : List (String × Value)} (keys : KeysOrdered members)
      (ordered : ∀ m ∈ members, Ordered m.2) : Ordered (.object members)

mutual

def depth : Value → Nat
  | .array items => itemsDepth items + 1
  | .object members => membersDepth members + 1
  | _ => 0

def itemsDepth : List Value → Nat
  | [] => 0
  | v :: rest => max (depth v) (itemsDepth rest)

def membersDepth : List (String × Value) → Nat
  | [] => 0
  | (_, v) :: rest => max (depth v) (membersDepth rest)

end

theorem itemsDepth_le_iff {items : List Value} {n : Nat} :
    itemsDepth items ≤ n ↔ ∀ v ∈ items, v.depth ≤ n := by
  induction items with
  | nil => simp [itemsDepth]
  | cons v rest ih => rw [itemsDepth, Nat.max_le, ih, List.forall_mem_cons]

theorem membersDepth_le_iff {members : List (String × Value)} {n : Nat} :
    membersDepth members ≤ n ↔ ∀ m ∈ members, m.2.depth ≤ n := by
  induction members with
  | nil => simp [membersDepth]
  | cons m rest ih => rw [membersDepth, Nat.max_le, ih, List.forall_mem_cons]

theorem ofNumeral?_whole (n : Whole) :
    Number.ofNumeral? (Number.whole n).numeral = some (.whole n) := by
  have hvalue : (Number.whole n).numeral.toInt? = some n.val := Decimal.toInt?_ofInt n.val
  have hwhole : Whole.ofInt? n.val = some n := dif_pos n.bounded
  simp [Number.ofNumeral?, hvalue, hwhole]

/-!
## What is read of a document
-/

mutual

/-- A value that was read has its keys in order and is nested no deeper than allowed. -/
theorem spec_of_ofDocument? {limit : Nat} {d : Document} {v : Value}
    (h : ofDocument? limit d = some v) : v.Ordered ∧ v.depth ≤ limit := by
  match limit, d with
  | _, .null =>
      cases h
      exact ⟨.null, Nat.zero_le _⟩
  | _, .bool b =>
      cases h
      exact ⟨.bool b, Nat.zero_le _⟩
  | _, .number x =>
      rcases Option.map_eq_some_iff.mp h with ⟨y, _, rfl⟩
      exact ⟨.number y, Nat.zero_le _⟩
  | _, .string pieces =>
      rcases Option.map_eq_some_iff.mp h with ⟨s, _, rfl⟩
      exact ⟨.string s, Nat.zero_le _⟩
  | 0, .array _ => cases h
  | 0, .object _ => cases h
  | limit + 1, .array items =>
      rcases Option.map_eq_some_iff.mp h with ⟨vs, hvs, rfl⟩
      have hspec := spec_of_itemsOf? hvs
      refine ⟨.array fun v hv => (hspec v hv).left, Nat.succ_le_succ ?_⟩
      exact itemsDepth_le_iff.mpr fun v hv => (hspec v hv).right
  | limit + 1, .object members =>
      rcases Option.map_eq_some_iff.mp h with ⟨ms, hms, rfl⟩
      have hspec := spec_of_membersOf? hms
      refine ⟨.object (keysOrdered_sortKeys ms) fun m hm => (hspec m (mem_of_mem_sortKeys hm)).left,
        Nat.succ_le_succ ?_⟩
      exact membersDepth_le_iff.mpr fun m hm => (hspec m (mem_of_mem_sortKeys hm)).right

theorem spec_of_itemsOf? {limit : Nat} {items : List Document} {vs : List Value}
    (h : itemsOf? limit items = some vs) : ∀ v ∈ vs, v.Ordered ∧ v.depth ≤ limit := by
  match items with
  | [] =>
      cases h
      exact fun v hv => absurd hv List.not_mem_nil
  | d :: rest =>
      unfold itemsOf? at h
      split at h
      · next v ws hv hws =>
          cases h
          intro w hw
          rcases List.mem_cons.mp hw with rfl | hw
          · exact spec_of_ofDocument? hv
          · exact spec_of_itemsOf? hws w hw
      · cases h

theorem spec_of_membersOf? {limit : Nat} {members : List (List Piece × Document)}
    {ms : List (String × Value)} (h : membersOf? limit members = some ms) :
    ∀ m ∈ ms, m.2.Ordered ∧ m.2.depth ≤ limit := by
  match members with
  | [] =>
      cases h
      exact fun m hm => absurd hm List.not_mem_nil
  | (key, d) :: rest =>
      unfold membersOf? at h
      split at h
      · next k v ns _ hv hns =>
          cases h
          intro m hm
          rcases List.mem_cons.mp hm with rfl | hm
          · exact spec_of_ofDocument? hv
          · exact spec_of_membersOf? hns m hm
      · cases h

end

theorem itemsOf?_map {limit : Nat} {items : List Value}
    (h : ∀ v ∈ items, ofDocument? limit v.toDocument = if v.depth ≤ limit then some v else none) :
    itemsOf? limit (items.map toDocument) =
      if itemsDepth items ≤ limit then some items else none := by
  induction items with
  | nil => simp [itemsOf?, itemsDepth]
  | cons v rest ih =>
      have hv := h v List.mem_cons_self
      have hrest := ih fun w hw => h w (List.mem_cons_of_mem _ hw)
      rw [List.map_cons, itemsOf?, hv, hrest, itemsDepth]
      simp only [Nat.max_le]
      by_cases hle : v.depth ≤ limit <;> by_cases hle' : itemsDepth rest ≤ limit <;>
        simp [hle, hle']

theorem membersOf?_map {limit : Nat} {members : List (String × Value)}
    (h : ∀ m ∈ members,
      ofDocument? limit m.2.toDocument = if m.2.depth ≤ limit then some m.2 else none) :
    membersOf? limit (members.map fun m => (Piece.ofText m.1, m.2.toDocument)) =
      if membersDepth members ≤ limit then some members else none := by
  induction members with
  | nil => simp [membersOf?, membersDepth]
  | cons m rest ih =>
      have hm := h m List.mem_cons_self
      have hrest := ih fun w hw => h w (List.mem_cons_of_mem _ hw)
      rw [List.map_cons, membersOf?, text?_ofText, hm, hrest, membersDepth]
      simp only [Nat.max_le]
      by_cases hle : m.2.depth ≤ limit <;> by_cases hle' : membersDepth rest ≤ limit <;>
        simp [hle, hle']

/-- A value is read back from its document unless it is nested too deeply. -/
theorem ofDocument?_toDocument {v : Value} (hfree : v.FloatFree) (hordered : v.Ordered)
    (limit : Nat) :
    ofDocument? limit v.toDocument = if v.depth ≤ limit then some v else none := by
  induction hfree generalizing limit with
  | null => simp [toDocument, ofDocument?, depth]
  | bool b => simp [toDocument, ofDocument?, depth]
  | whole n => simp [toDocument, ofDocument?, depth, ofNumeral?_whole]
  | string s => simp [toDocument, ofDocument?, depth, text?_ofText]
  | @array items _ ih =>
      rcases hordered with _ | _ | _ | _ | hordered
      cases limit with
      | zero => simp [toDocument, ofDocument?, depth]
      | succ limit =>
          have hitems := itemsOf?_map fun v hv => ih v hv (hordered v hv) limit
          rw [toDocument, itemDocuments_eq_map, ofDocument?, hitems, depth]
          by_cases hle : itemsDepth items ≤ limit <;> simp [hle]
  | @object members _ ih =>
      rcases hordered with _ | _ | _ | _ | _ | ⟨hkeys, hordered⟩
      cases limit with
      | zero => simp [toDocument, ofDocument?, depth]
      | succ limit =>
          have hmembers := membersOf?_map fun m hm => ih m hm (hordered m hm) limit
          rw [toDocument, memberDocuments_eq_map, ofDocument?, hmembers, depth]
          by_cases hle : membersDepth members ≤ limit <;> simp [hle, sortKeys_of_ordered hkeys]

/-- A value that is not nested too deeply is read back from what is written of it. -/
theorem ofBytes?_toBytes {v : Value} (hfree : v.FloatFree) (hordered : v.Ordered)
    (hdepth : v.depth ≤ depthLimit) : ofBytes? v.toBytes = some v := by
  have hread := ofDocument?_toDocument hfree hordered depthLimit
  rw [if_pos hdepth] at hread
  rw [ofBytes?, Document.ofBytes?_toBytes hfree]
  exact hread

end Value
end Json
end Courier
