import Courier.Message.Command
import Courier.Proofs.Text.Hexadecimal
import Courier.Proofs.Text.Trimming
import Mathlib.Data.Nat.Digits.Defs

/-!
# Identifiers and their texts

An identifier is written as its thirty-two digits, or as groups of them between hyphens, which
may stand in braces or after a uniform resource name; letter case and blanks around a text make
no difference. Exactly these texts are read as the identifier, alone and in commands.

The main statement is `keepsIdentifiers_toMessage`.
-/

namespace Courier
namespace Identifier

open Text (Trimmed isBlankChar trimChars hexValue?)

/-!
## Texts
-/

def digitsAt (x : Identifier) (start count : Nat) : List Char :=
  (List.range' start count).map fun place => Nat.digitChar (x.value / 16 ^ (31 - place) % 16)

def plainText (x : Identifier) : List Char :=
  x.digitsAt 0 32

def hyphenatedText (x : Identifier) : List Char :=
  x.digitsAt 0 8 ++ '-' :: (x.digitsAt 8 4 ++ '-' :: (x.digitsAt 12 4 ++ '-' ::
    (x.digitsAt 16 4 ++ '-' :: x.digitsAt 20 12)))

/-- A text of the identifier with nothing around it, in any mix of letter cases. -/
inductive Spells (x : Identifier) (cs : List Char) : Prop where
  | plain : cs.map Char.toLower = x.plainText → Spells x cs
  | hyphenated : cs.map Char.toLower = x.hyphenatedText → Spells x cs
  | braced : cs.map Char.toLower = '{' :: (x.hyphenatedText ++ ['}']) → Spells x cs
  | uniform : cs.map Char.toLower = "urn:uuid:".toList ++ x.hyphenatedText → Spells x cs

/-- A text of the identifier, with or without blanks around it. -/
def Writes (x : Identifier) (text : String) : Prop :=
  ∃ front cs back, (∀ c ∈ front, isBlankChar c = true) ∧ (∀ c ∈ back, isBlankChar c = true) ∧
    x.Spells cs ∧ text.toList = front ++ cs ++ back

/-!
## Digits
-/

theorem ofHexDigits_append (digits : List Nat) (d : Nat) :
    ofHexDigits (digits ++ [d]) = ofHexDigits digits * 16 + d := by
  rw [ofHexDigits, List.foldl_append]
  rfl

theorem ofHexDigits_hexDigits (count n : Nat) :
    ofHexDigits (hexDigits count n) = n % 16 ^ count := by
  induction count generalizing n with
  | zero => exact (Nat.mod_one n).symm
  | succ count ih =>
      rw [hexDigits, ofHexDigits_append, ih, Nat.pow_succ, Nat.mul_comm (16 ^ count), Nat.mod_mul]
      omega

theorem hexDigits_ofHexDigits {digits : List Nat} (h : ∀ d ∈ digits, d < 16) :
    hexDigits digits.length (ofHexDigits digits) = digits := by
  induction digits using List.reverseRecOn with
  | nil => rfl
  | append_singleton digits d ih =>
      have hd : d < 16 := h d (List.mem_append_right _ List.mem_cons_self)
      have hquotient : (ofHexDigits digits * 16 + d) / 16 = ofHexDigits digits := by omega
      have hrest : (ofHexDigits digits * 16 + d) % 16 = d := by omega
      rw [List.length_append, List.length_singleton, ofHexDigits_append, hexDigits, hquotient,
        hrest, ih fun d hd => h d (List.mem_append_left _ hd)]

theorem hexDigits_eq (count n : Nat) : hexDigits count n =
    (List.range count).map fun place => n / 16 ^ (count - 1 - place) % 16 := by
  -- The last place is split off, so all places before it move up by one power.
  induction count generalizing n with
  | zero => rfl
  | succ count ih =>
      rw [hexDigits, ih, List.range_succ, List.map_append, List.map_singleton]
      congr 1
      · refine List.map_congr_left fun place hplace => ?_
        have hpower : count + 1 - 1 - place = count - 1 - place + 1 := by
          have hlt := List.mem_range.mp hplace
          omega
        rw [Nat.div_div_eq_div_mul, hpower, Nat.pow_succ, Nat.mul_comm 16]
      · rw [Nat.add_sub_cancel, Nat.sub_self, Nat.pow_zero, Nat.div_one]

theorem lt_of_mem_hexDigits {count n d : Nat} (h : d ∈ hexDigits count n) : d < 16 := by
  rw [hexDigits_eq] at h
  rcases List.mem_map.mp h with ⟨place, -, rfl⟩
  exact Nat.mod_lt _ (by decide)

theorem plainText_eq (x : Identifier) :
    x.plainText = (hexDigits 32 x.value).map Nat.digitChar := by
  rw [hexDigits_eq, List.map_map]
  rfl

theorem hyphenatedText_eq (x : Identifier) : x.hyphenatedText = hyphenate groups x.plainText :=
  rfl

theorem length_plainText (x : Identifier) : x.plainText.length = 32 := by
  rw [plainText, digitsAt, List.length_map, List.length_range']

theorem length_hyphenatedText (x : Identifier) : x.hyphenatedText.length = 36 := by
  simp [hyphenatedText, digitsAt]

theorem length_of_map {cs text : List Char} (h : cs.map Char.toLower = text) :
    cs.length = text.length := by
  rw [← h, List.length_map]

theorem ofPlain?_eq_some_iff {cs : List Char} {x : Identifier} :
    ofPlain? cs = some x ↔ cs.map Char.toLower = x.plainText := by
  unfold ofPlain?
  constructor
  · intro h
    split at h
    · next hlength =>
        rcases Option.bind_eq_some_iff.mp h with ⟨digits, hdigits, hvalue⟩
        rcases Text.mapM_hexValue?_eq_some_iff.mp hdigits with ⟨hlt, hlower⟩
        have hcount : digits.length = 32 := by
          rw [← hlength, ← List.length_map Char.toLower, hlower, List.length_map]
        dsimp only at hvalue
        split at hvalue
        · cases hvalue
          rw [hlower, plainText_eq, ← hcount, hexDigits_ofHexDigits hlt]
        · cases hvalue
    · cases h
  · intro h
    have hlength : cs.length = 32 := (length_of_map h).trans x.length_plainText
    have hdigits : cs.mapM hexValue? = some (hexDigits 32 x.value) := by
      refine Text.mapM_hexValue?_eq_some_iff.mpr ⟨fun _ => lt_of_mem_hexDigits, ?_⟩
      rw [h, plainText_eq]
    have hvalue : ofHexDigits (hexDigits 32 x.value) = x.value := by
      rw [ofHexDigits_hexDigits]
      exact Nat.mod_eq_of_lt x.bounded
    simp only [hlength, if_true, hdigits, Option.bind_some, hvalue, x.bounded, dite_true]

/-!
## Hyphens
-/

theorem hyphenate_cons_cons (n m : Nat) (sizes : List Nat) (cs : List Char) :
    hyphenate (n :: m :: sizes) cs = cs.take n ++ '-' :: hyphenate (m :: sizes) (cs.drop n) :=
  rfl

theorem dehyphenate?_cons_cons (n m : Nat) (sizes : List Nat) (cs : List Char) :
    dehyphenate? (n :: m :: sizes) cs =
      match cs.drop n with
      | [] => none
      | c :: rest =>
        if c = '-' then (dehyphenate? (m :: sizes) rest).map (cs.take n ++ ·) else none := by
  rw [dehyphenate?]
  · split
    · next rest h =>
        rw [h]
        rfl
    · next hne =>
        split
        · rfl
        · next c rest h =>
            rw [if_neg]
            rintro rfl
            exact hne rest h
  · nofun

theorem dehyphenate?_append {n : Nat} {front : List Char} (h : front.length = n) (m : Nat)
    (sizes : List Nat) (rest : List Char) :
    dehyphenate? (n :: m :: sizes) (front ++ '-' :: rest) =
      (dehyphenate? (m :: sizes) rest).map (front ++ ·) := by
  rw [dehyphenate?_cons_cons, List.drop_left' h, List.take_left' h]
  exact if_pos rfl

theorem exists_of_dehyphenate? {n m : Nat} {sizes : List Nat} {cs flat : List Char}
    (h : dehyphenate? (n :: m :: sizes) cs = some flat) :
    ∃ front rest more, front.length = n ∧ cs = front ++ '-' :: rest ∧
      dehyphenate? (m :: sizes) rest = some more ∧ flat = front ++ more := by
  rw [dehyphenate?_cons_cons] at h
  split at h
  · cases h
  · next c rest hdrop =>
      split at h
      · next hc =>
          rcases Option.map_eq_some_iff.mp h with ⟨more, hmore, rfl⟩
          have hlength := congrArg List.length hdrop
          rw [List.length_drop, List.length_cons] at hlength
          refine ⟨cs.take n, rest, more, List.length_take_of_le (by omega), ?_, hmore, rfl⟩
          rw [← hc, ← hdrop, List.take_append_drop]
      · cases h

theorem hyphenate_append {n : Nat} {front : List Char} (h : front.length = n) (m : Nat)
    (sizes : List Nat) (more : List Char) :
    hyphenate (n :: m :: sizes) (front ++ more) = front ++ '-' :: hyphenate (m :: sizes) more := by
  rw [hyphenate_cons_cons, List.take_left' h, List.drop_left' h]

/-- Taking the hyphens out is the inverse of putting them in. -/
theorem dehyphenate?_eq_some_iff {sizes : List Nat} {cs flat : List Char} :
    dehyphenate? sizes cs = some flat ↔ cs = hyphenate sizes flat ∧ flat.length = sizes.sum := by
  -- The last group takes all that is left and has no hyphen after it: a case of its own.
  induction sizes generalizing cs flat with
  | nil => cases cs <;> cases flat <;> simp [dehyphenate?, hyphenate]
  | cons n sizes ih =>
      cases sizes with
      | nil =>
          simp only [dehyphenate?, hyphenate, List.sum_singleton, Option.ite_none_right_eq_some,
            Option.some.injEq]
          constructor
          · rintro ⟨hlength, rfl⟩
            exact ⟨rfl, hlength⟩
          · rintro ⟨rfl, hlength⟩
            exact ⟨hlength, rfl⟩
      | cons m sizes =>
          constructor
          · intro h
            rcases exists_of_dehyphenate? h with ⟨front, rest, more, hfront, rfl, hmore, rfl⟩
            rcases ih.mp hmore with ⟨rfl, hlength⟩
            rw [hyphenate_append hfront, List.length_append, hfront, hlength, List.sum_cons]
            exact ⟨rfl, rfl⟩
          · rintro ⟨rfl, hlength⟩
            rw [List.sum_cons] at hlength
            have hsplit : ∃ front more, front.length = n ∧ flat = front ++ more :=
              ⟨flat.take n, flat.drop n, List.length_take_of_le (by omega),
                (List.take_append_drop n flat).symm⟩
            rcases hsplit with ⟨front, more, hfront, rfl⟩
            have hmore : more.length = (m :: sizes).sum := by
              rw [List.length_append] at hlength
              omega
            rw [hyphenate_append hfront, dehyphenate?_append hfront, ih.mpr ⟨rfl, hmore⟩]
            rfl

theorem dehyphenate?_map (sizes : List Nat) (cs : List Char) :
    dehyphenate? sizes (cs.map Char.toLower) =
      (dehyphenate? sizes cs).map (List.map Char.toLower) := by
  induction sizes generalizing cs with
  | nil => cases cs <;> rfl
  | cons n sizes ih =>
      cases sizes with
      | nil =>
          simp only [dehyphenate?, List.length_map]
          split <;> rfl
      | cons m sizes =>
          rw [dehyphenate?_cons_cons, dehyphenate?_cons_cons, ← List.map_drop, ← List.map_take]
          cases cs.drop n with
          | nil => rfl
          | cons c rest =>
              have hhyphen : c.toLower = '-' ↔ c = '-' := Text.toLower_eq_iff (by decide) c
              simp only [List.map_cons, hhyphen, ih]
              split
              · simp [Function.comp_def]
              · rfl

theorem ofHyphenated?_eq_some_iff {cs : List Char} {x : Identifier} :
    ofHyphenated? cs = some x ↔ cs.map Char.toLower = x.hyphenatedText := by
  calc
    ofHyphenated? cs = some x
    _ ↔ (dehyphenate? groups cs).map (List.map Char.toLower) = some x.plainText := by
      simp only [ofHyphenated?, Option.bind_eq_bind, Option.bind_eq_some_iff,
        Option.map_eq_some_iff, ofPlain?_eq_some_iff]
    _ ↔ dehyphenate? groups (cs.map Char.toLower) = some x.plainText := by
      rw [dehyphenate?_map]
    _ ↔ cs.map Char.toLower = x.hyphenatedText := by
      rw [dehyphenate?_eq_some_iff, hyphenatedText_eq, length_plainText]
      exact and_iff_left rfl

/-!
## Forms
-/

theorem ofChars?_hyphenated {cs : List Char} (h : cs.length = 36) :
    ofChars? cs = ofHyphenated? cs := by
  rw [ofChars?, if_neg (by omega), if_pos h]

theorem ofChars?_braced {inner : List Char} (h : inner.length = 36) :
    ofChars? ('{' :: (inner ++ ['}'])) = ofHyphenated? inner := by
  have hlength : ('{' :: (inner ++ ['}'])).length = 38 := by
    rw [List.length_cons, List.length_append, h]
    rfl
  have hlast : ('{' :: (inner ++ ['}'])).getLast? = some '}' := by
    rw [← List.cons_append, List.getLast?_concat]
  rw [ofChars?, if_neg (by omega), if_neg (by omega), if_pos hlength, if_pos ⟨rfl, hlast⟩,
    List.drop_one, List.tail_cons, List.dropLast_concat]

theorem ofChars?_uniform {name rest : List Char} (hname : name.map Char.toLower = uniformName)
    (h : rest.length = 36) : ofChars? (name ++ rest) = ofHyphenated? rest := by
  have hnine : name.length = 9 := length_of_map hname
  have hlength : (name ++ rest).length = 45 := by
    rw [List.length_append, hnine, h]
  rw [ofChars?, if_neg (by omega), if_neg (by omega), if_neg (by omega), if_pos hlength,
    List.take_left' hnine, if_pos hname, List.drop_left' hnine]

theorem eq_of_head_of_getLast {cs : List Char} {first last : Char} (hlength : 2 ≤ cs.length)
    (hfirst : cs.head? = some first) (hlast : cs.getLast? = some last) :
    cs = first :: ((cs.drop 1).dropLast ++ [last]) := by
  cases cs with
  | nil => cases hfirst
  | cons c rest =>
      have hne : rest ≠ [] := List.ne_nil_of_length_pos (Nat.lt_of_succ_lt_succ hlength)
      rw [List.getLast?_cons_of_ne_nil hne, List.getLast?_eq_getLast_of_ne_nil hne] at hlast
      cases hfirst
      cases hlast
      rw [List.drop_one, List.tail_cons, List.dropLast_concat_getLast hne]

theorem exists_of_map_braced {cs text : List Char}
    (h : cs.map Char.toLower = '{' :: (text ++ ['}'])) :
    ∃ inner, inner.map Char.toLower = text ∧ cs = '{' :: (inner ++ ['}']) := by
  rcases List.map_eq_cons_iff.mp h with ⟨first, rest, rfl, hfirst, hrest⟩
  rcases List.map_eq_append_iff.mp hrest with ⟨inner, final, rfl, hinner, hfinal⟩
  rcases List.map_eq_singleton_iff.mp hfinal with ⟨last, rfl, hlast⟩
  rw [(Text.toLower_eq_iff (by decide) first).mp hfirst,
    (Text.toLower_eq_iff (by decide) last).mp hlast]
  exact ⟨inner, hinner, rfl⟩

theorem Spells.ofChars?_eq {cs : List Char} {x : Identifier} (h : x.Spells cs) :
    ofChars? cs = some x := by
  cases h with
  | plain h =>
      rw [ofChars?, if_pos ((length_of_map h).trans x.length_plainText)]
      exact ofPlain?_eq_some_iff.mpr h
  | hyphenated h =>
      rw [ofChars?_hyphenated ((length_of_map h).trans x.length_hyphenatedText)]
      exact ofHyphenated?_eq_some_iff.mpr h
  | braced h =>
      rcases exists_of_map_braced h with ⟨inner, hinner, rfl⟩
      rw [ofChars?_braced ((length_of_map hinner).trans x.length_hyphenatedText)]
      exact ofHyphenated?_eq_some_iff.mpr hinner
  | uniform h =>
      rcases List.map_eq_append_iff.mp h with ⟨name, rest, rfl, hname, hrest⟩
      rw [ofChars?_uniform hname ((length_of_map hrest).trans x.length_hyphenatedText)]
      exact ofHyphenated?_eq_some_iff.mpr hrest

theorem spells_of_ofChars? {cs : List Char} {x : Identifier} (h : ofChars? cs = some x) :
    x.Spells cs := by
  unfold ofChars? at h
  split_ifs at h with hplain hhyphenated hbraced hbraces huniform hname
  · exact .plain (ofPlain?_eq_some_iff.mp h)
  · exact .hyphenated (ofHyphenated?_eq_some_iff.mp h)
  · refine .braced ?_
    rw [eq_of_head_of_getLast (by omega) hbraces.left hbraces.right, List.map_cons,
      List.map_append, ofHyphenated?_eq_some_iff.mp h]
    rfl
  · refine .uniform ?_
    rw [← List.take_append_drop 9 cs, List.map_append, hname, ofHyphenated?_eq_some_iff.mp h]
    rfl

/-- Exactly the texts of an identifier are read as that identifier. -/
theorem ofChars?_eq_some_iff {cs : List Char} {x : Identifier} :
    ofChars? cs = some x ↔ x.Spells cs :=
  ⟨spells_of_ofChars?, Spells.ofChars?_eq⟩

/-!
## Blanks
-/

theorem not_blank_of_mem_plainText {x : Identifier} {c : Char} (h : c ∈ x.plainText) :
    isBlankChar c = false := by
  rcases List.mem_map.mp h with ⟨place, -, rfl⟩
  exact Text.isBlankChar_digitChar (Nat.mod_lt _ (by decide))

theorem mem_hyphenate {sizes : List Nat} {cs : List Char} {c : Char}
    (h : c ∈ hyphenate sizes cs) : c = '-' ∨ c ∈ cs := by
  induction sizes generalizing cs with
  | nil => exact .inr h
  | cons n sizes ih =>
      cases sizes with
      | nil => exact .inr h
      | cons m sizes =>
          rw [hyphenate_cons_cons, List.mem_append, List.mem_cons] at h
          rcases h with h | h | h
          · exact .inr (List.mem_of_mem_take h)
          · exact .inl h
          · exact (ih h).imp_right List.mem_of_mem_drop

theorem not_blank_of_mem_hyphenatedText {x : Identifier} {c : Char} (h : c ∈ x.hyphenatedText) :
    isBlankChar c = false := by
  rw [hyphenatedText_eq] at h
  rcases mem_hyphenate h with rfl | h
  · rfl
  · exact not_blank_of_mem_plainText h

theorem Spells.not_blank {x : Identifier} {cs : List Char} (h : x.Spells cs) {c : Char}
    (hc : c ∈ cs) : isBlankChar c = false := by
  have hlower : c.toLower ∈ cs.map Char.toLower := List.mem_map_of_mem hc
  rw [← Text.isBlankChar_toLower]
  cases h with
  | plain h =>
      rw [h] at hlower
      exact not_blank_of_mem_plainText hlower
  | hyphenated h =>
      rw [h] at hlower
      exact not_blank_of_mem_hyphenatedText hlower
  | braced h =>
      rw [h, List.mem_cons, List.mem_append, List.mem_singleton] at hlower
      rcases hlower with hlower | hlower | hlower
      · rw [hlower]
        rfl
      · exact not_blank_of_mem_hyphenatedText hlower
      · rw [hlower]
        rfl
  | uniform h =>
      rw [h, List.mem_append] at hlower
      rcases hlower with hlower | hlower
      · have hname : ("urn:uuid:".toList.all fun c => !isBlankChar c) = true := by
          decide
        exact (Bool.not_eq_true' _).mp (List.all_eq_true.mp hname _ hlower)
      · exact not_blank_of_mem_hyphenatedText hlower

theorem Spells.trimmed {x : Identifier} {cs : List Char} (h : x.Spells cs) : Trimmed cs where
  first _ hc := h.not_blank (List.mem_of_mem_head? hc)
  last _ hc := h.not_blank (List.mem_of_getLast? hc)

theorem writes_iff {x : Identifier} {text : String} :
    x.Writes text ↔ x.Spells (trimChars text.toList) := by
  constructor
  · rintro ⟨front, cs, back, hfront, hback, hspells, htext⟩
    rw [htext, Text.trimChars_append_right hback, Text.trimChars_append_left hfront,
      Text.trimChars_of_trimmed hspells.trimmed]
    exact hspells
  · intro h
    rcases Text.exists_trimChars text.toList with ⟨front, back, hfront, hback, htext⟩
    exact ⟨front, _, back, hfront, hback, h, htext⟩

theorem ofString?_trim_eq_some_iff {x : Identifier} {text : String} :
    ofString? (Text.trim text) = some x ↔ x.Writes text := by
  rw [ofString?, Text.toList_trim, ofChars?_eq_some_iff, writes_iff]

theorem Writes.ofStringLenient_eq {x : Identifier} {text : String} (h : x.Writes text) :
    ofStringLenient text = x := by
  rw [ofStringLenient, ofString?_trim_eq_some_iff.mpr h]
  rfl

theorem ofStringLenient_eq_iff {x : Identifier} {text : String} :
    ofStringLenient text = x ↔ x.Writes text ∨ x = nil ∧ ∀ y : Identifier, ¬ y.Writes text := by
  constructor
  · intro h
    cases hread : ofString? (Text.trim text) with
    | some y =>
        have hwrites := ofString?_trim_eq_some_iff.mp hread
        rw [hwrites.ofStringLenient_eq] at h
        exact .inl (h ▸ hwrites)
    | none =>
        refine .inr ⟨?_, fun y hy => ?_⟩
        · rw [← h, ofStringLenient, hread]
          rfl
        · rw [ofString?_trim_eq_some_iff.mpr hy] at hread
          cases hread
  · rintro (h | ⟨rfl, hnone⟩)
    · exact h.ofStringLenient_eq
    · have hread : ofString? (Text.trim text) = none :=
        Option.eq_none_iff_forall_ne_some.mpr fun y hy => hnone y (ofString?_trim_eq_some_iff.mp hy)
      rw [ofStringLenient, hread]
      rfl

/-!
## Printing
-/

theorem digitChar_spec :
    ∀ d < 16, hexDigit d = Nat.digitChar d ∧ (Nat.digitChar d).toLower = Nat.digitChar d := by
  decide

theorem map_toLower_digitsAt (x : Identifier) (start count : Nat) :
    (x.digitsAt start count).map Char.toLower = x.digitsAt start count := by
  rw [digitsAt, List.map_map]
  exact List.map_congr_left fun _ _ => (digitChar_spec _ (Nat.mod_lt _ (by decide))).right

theorem toChars_eq (x : Identifier) : x.toChars = x.hyphenatedText := by
  have hplain : x.plainChars = x.plainText := by
    rw [plainChars, plainText_eq]
    exact List.map_congr_left fun d hd => (digitChar_spec d (lt_of_mem_hexDigits hd)).left
  rw [toChars, hplain, hyphenatedText_eq]

theorem writes_toString (x : Identifier) : x.Writes x.toString := by
  have hlower : x.toChars.map Char.toLower = x.hyphenatedText := by
    rw [toChars_eq, hyphenatedText]
    simp only [List.map_append, List.map_cons, map_toLower_digitsAt]
    rfl
  exact ⟨[], x.toChars, [], nofun, nofun, .hyphenated hlower, by simp [toString]⟩

/-!
## What is read of texts and commands
-/

/-- The identifiers that are read are those that were written, and no others. -/
structure Recovers {α : Type} (written : α → String) (read : α → Identifier) : Prop where
  read_eq : ∀ (a : α) (x : Identifier), x.Writes (written a) → read a = x
  /-- Distinct identifiers are never read as the same one. -/
  read_ne : ∀ (a b : α) (x y : Identifier), x.Writes (written a) → y.Writes (written b) →
    x ≠ y → read a ≠ read b
  /-- What is no text of any identifier is read as nil. -/
  read_eq_iff : ∀ (a : α) (x : Identifier), read a = x ↔
    x.Writes (written a) ∨ x = nil ∧ ∀ y : Identifier, ¬ y.Writes (written a)

theorem recovers_of_eq {α : Type} {written : α → String} {read : α → Identifier}
    (h : ∀ a, read a = ofStringLenient (written a)) : Recovers written read where
  read_eq a x ha := by rw [h a, ha.ofStringLenient_eq]
  read_ne a b x y ha hb hne := by
    rw [h a, h b, ha.ofStringLenient_eq, hb.ofStringLenient_eq]
    exact hne
  read_eq_iff a x := by rw [h a, ofStringLenient_eq_iff]

end Identifier

namespace Command

open Identifier (Recovers recovers_of_eq)

/-- Identifiers survive being written in a command and read off it, each by itself. -/
structure KeepsIdentifiers (toMessage : Command → Message) : Prop where
  writes_toString : ∀ x : Identifier, x.Writes x.toString
  text : Recovers id Identifier.ofStringLenient
  message : Recovers Command.messageId fun c => (toMessage c).id
  thread : Recovers Command.threadId fun c => (toMessage c).threadId
  sender : Recovers (fun c => c.sender.id) fun c => (toMessage c).sender.id
  recipient : Recovers (fun c => c.recipient.id) fun c => (toMessage c).recipient.id

/-- Each text of an identifier is read as that identifier, alone and in a command. -/
theorem keepsIdentifiers_toMessage (now : Int64) : KeepsIdentifiers (toMessage now) where
  writes_toString := Identifier.writes_toString
  text := recovers_of_eq fun _ => rfl
  message := recovers_of_eq fun c => by rw [toMessage]
  thread := recovers_of_eq fun c => by rw [toMessage]
  sender := recovers_of_eq fun c => by simp only [toMessage, Address.toPeer]
  recipient := recovers_of_eq fun c => by simp only [toMessage, Address.toPeer]

/-- With a hyphen out of its place, a text is of no identifier. -/
example :
    (Identifier.ofStringLenient "\t8C7D7C3E-2f4a-4e55-9D3B-0a9a1f3c5b11 ").value =
        0x8c7d7c3e2f4a4e559d3b0a9a1f3c5b11 ∧
      Identifier.ofStringLenient "8c7d7c3e2-f4a-4e55-9d3b-0a9a1f3c5b11" = Identifier.nil := by
  decide +kernel

end Command
end Courier
