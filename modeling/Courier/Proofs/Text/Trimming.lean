import Courier.Text.Blank
import Mathlib.Data.List.DropRight

/-!
# Trimming

A text is trimmed when it neither begins nor ends with a blank character. Trimming gives a
trimmed text, leaves alone the texts that are trimmed, and leaves nothing of the blank ones.
-/

namespace Courier
namespace Text

structure Trimmed (cs : List Char) : Prop where
  first : ∀ c ∈ cs.head?, isBlankChar c = false
  last : ∀ c ∈ cs.getLast?, isBlankChar c = false

theorem trimChars_eq (cs : List Char) :
    trimChars cs = (cs.dropWhile isBlankChar).rdropWhile isBlankChar :=
  rfl

theorem Trimmed.map {cs : List Char} (h : Trimmed cs) {f : Char → Char}
    (hf : ∀ c, isBlankChar c = false → isBlankChar (f c) = false) : Trimmed (cs.map f) := by
  constructor
  · intro c hc
    rw [List.head?_map] at hc
    rcases Option.map_eq_some_iff.mp hc with ⟨c', hc', rfl⟩
    exact hf c' (h.first c' hc')
  · intro c hc
    rw [List.getLast?_map] at hc
    rcases Option.map_eq_some_iff.mp hc with ⟨c', hc', rfl⟩
    exact hf c' (h.last c' hc')

theorem trimChars_of_trimmed {cs : List Char} (h : Trimmed cs) : trimChars cs = cs := by
  have hfirst : cs.dropWhile isBlankChar = cs := by
    rw [List.dropWhile_eq_self_iff]
    intro hpos
    rw [h.first cs[0] (by simp [List.head?_eq_getElem?, hpos])]
    exact Bool.false_ne_true
  rw [trimChars_eq, hfirst, List.rdropWhile_eq_self_iff]
  intro hne
  rw [h.last _ (List.getLast?_eq_getLast_of_ne_nil hne)]
  exact Bool.false_ne_true

theorem trimmed_trimChars (cs : List Char) : Trimmed (trimChars cs) := by
  rw [trimChars_eq]
  constructor
  · intro c hc
    -- What is left begins as it did before its end was dropped.
    have hstart : c ∈ (cs.dropWhile isBlankChar).head? := by
      rcases List.rdropWhile_prefix isBlankChar (cs.dropWhile isBlankChar) with ⟨rest, hrest⟩
      rw [← hrest, List.head?_append, Option.mem_def.mp hc]
      rfl
    have hnot := List.head?_dropWhile_not isBlankChar cs
    rw [Option.mem_def.mp hstart] at hnot
    exact hnot
  · intro c hc
    have hne : (cs.dropWhile isBlankChar).rdropWhile isBlankChar ≠ [] := by
      intro hnil
      rw [hnil] at hc
      cases hc
    have hnot := List.rdropWhile_last_not isBlankChar _ hne
    rw [List.getLast?_eq_getLast_of_ne_nil hne] at hc
    cases hc
    exact Bool.eq_false_iff.mpr hnot

theorem trimChars_eq_nil_iff {cs : List Char} :
    trimChars cs = [] ↔ ∀ c ∈ cs, isBlankChar c = true := by
  rw [← List.dropWhile_eq_nil_iff, trimChars_eq, List.rdropWhile_eq_nil_iff]
  constructor
  · intro h
    have hnot := List.head?_dropWhile_not isBlankChar cs
    cases hleft : cs.dropWhile isBlankChar with
    | nil => rfl
    | cons c rest =>
        rw [hleft] at h hnot
        have hc := h c List.mem_cons_self
        rw [hnot] at hc
        cases hc
  · intro h
    rw [h]
    exact fun c hc => absurd hc List.not_mem_nil

theorem trimChars_append_left {front : List Char} (h : ∀ c ∈ front, isBlankChar c = true)
    (cs : List Char) : trimChars (front ++ cs) = trimChars cs := by
  rw [trimChars_eq, trimChars_eq, List.dropWhile_append_of_pos h]

theorem trimChars_append_right {back : List Char} (h : ∀ c ∈ back, isBlankChar c = true)
    (cs : List Char) : trimChars (cs ++ back) = trimChars cs := by
  have hreverse : ∀ c ∈ back.reverse, isBlankChar c = true :=
    fun c hc => h c (List.mem_reverse.mp hc)
  rw [trimChars_eq, trimChars_eq, List.dropWhile_append]
  split
  · next hempty =>
      rw [List.isEmpty_iff.mp hempty, List.dropWhile_eq_nil_iff.mpr h]
  · rw [List.rdropWhile, List.reverse_append, List.dropWhile_append_of_pos hreverse]
    rfl

/-- What trimming drops are blanks in front and at the end. -/
theorem exists_trimChars (cs : List Char) :
    ∃ front back, (∀ c ∈ front, isBlankChar c = true) ∧ (∀ c ∈ back, isBlankChar c = true) ∧
      cs = front ++ trimChars cs ++ back := by
  refine ⟨cs.takeWhile isBlankChar,
    ((cs.dropWhile isBlankChar).reverse.takeWhile isBlankChar).reverse, ?_, ?_, ?_⟩
  · exact fun c hc => List.mem_takeWhile_imp hc
  · exact fun c hc => List.mem_takeWhile_imp (List.mem_reverse.mp hc)
  · rw [trimChars, List.append_assoc, ← List.reverse_append, List.takeWhile_append_dropWhile,
      List.reverse_reverse, List.takeWhile_append_dropWhile]

theorem toList_trim (s : String) : (trim s).toList = trimChars s.toList :=
  String.toList_ofList

theorem isBlank_iff_trim {s : String} : isBlank s = true ↔ trim s = "" := by
  rw [isBlank, List.all_eq_true, ← trimChars_eq_nil_iff, ← toList_trim, String.toList_eq_nil_iff]

theorem trim_trim (s : String) : trim (trim s) = trim s := by
  apply String.toList_injective
  rw [toList_trim (trim s), toList_trim s]
  exact trimChars_of_trimmed (trimmed_trimChars _)

end Text
end Courier
