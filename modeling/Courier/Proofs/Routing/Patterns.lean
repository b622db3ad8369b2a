import Courier.Routing.Topic
import Mathlib.Data.List.Basic

/-!
# What patterns mean

A pattern means the same read place by place as it does to the matcher, which goes through
pattern and subject in step: up to the first segment that stands for all that are left, or else
up to the end of both, each place has a star or the subject's own segment.

A pattern that is written with angle brackets for hashes has the places it had, and means what
it meant.

The main statements are `topicMatches_iff_fits` and `respelled_bracketPattern`.
-/

namespace Courier
namespace Routing

open Text (split splitChars joinChars)

/-!
## Patterns by place
-/

/-- A segment of a pattern that stands for all segments from its place on. -/
def StandsForAll (segment : String) : Prop :=
  segment = "#" ∨ segment = ">"

instance : DecidablePred StandsForAll := fun segment =>
  inferInstanceAs (Decidable (segment = "#" ∨ segment = ">"))

/-- At a place a pattern has a star, or the segment that the subject has there. -/
def AgreesAt (p s : List String) (i : Nat) : Prop :=
  p[i]? = some "*" ∨ p[i]? = s[i]?

/-- A pattern and a subject agree at every place before the first segment that stands for all
that are left, and the subject has a segment at its place; without such a segment they have as
many segments and agree at every place. -/
def Fits (p s : List String) : Prop :=
  match p.findIdx? fun segment => StandsForAll segment with
  | some i => i < s.length ∧ ∀ j < i, AgreesAt p s j
  | none => p.length = s.length ∧ ∀ j < p.length, AgreesAt p s j

theorem agreesAt_zero (p s : String) (ps ss : List String) :
    AgreesAt (p :: ps) (s :: ss) 0 ↔ p = "*" ∨ p = s := by
  simp [AgreesAt]

theorem agreesAt_succ (p s : String) (ps ss : List String) (i : Nat) :
    AgreesAt (p :: ps) (s :: ss) (i + 1) ↔ AgreesAt ps ss i :=
  Iff.rfl

theorem forall_agreesAt_cons (p s : String) (ps ss : List String) (n : Nat) :
    (∀ j < n + 1, AgreesAt (p :: ps) (s :: ss) j) ↔
      (p = "*" ∨ p = s) ∧ ∀ j < n, AgreesAt ps ss j := by
  rw [Nat.forall_lt_succ_left, agreesAt_zero]
  simp only [agreesAt_succ]

theorem fits_nil_iff (s : List String) : Fits [] s ↔ s = [] := by
  cases s with
  | nil => simp [Fits]
  | cons first rest => simp [Fits]

theorem not_fits_cons_nil (p : String) (ps : List String) : ¬ Fits (p :: ps) [] := by
  unfold Fits
  split
  · exact fun h => Nat.not_lt_zero _ h.left
  · exact fun h => Nat.succ_ne_zero _ h.left

theorem fits_cons_cons_iff (p s : String) (ps ss : List String) :
    Fits (p :: ps) (s :: ss) ↔ StandsForAll p ∨ (p = "*" ∨ p = s) ∧ Fits ps ss := by
  by_cases hall : StandsForAll p
  · simp [Fits, List.findIdx?_cons, hall]
  · -- The first segment is one among others, and the places of the others move up by one.
    unfold Fits
    rw [List.findIdx?_cons]
    cases ps.findIdx? fun segment => StandsForAll segment with
    | none =>
        simp only [hall, decide_false, Bool.false_eq_true, if_false, Option.map_none, false_or,
          List.length_cons, forall_agreesAt_cons, Nat.add_right_cancel_iff]
        exact and_left_comm
    | some i =>
        simp only [hall, decide_false, Bool.false_eq_true, if_false, Option.map_some, false_or,
          List.length_cons, forall_agreesAt_cons, Nat.add_lt_add_iff_right]
        exact and_left_comm

theorem isRest_iff (segment : List Char) :
    isRest segment = true ↔ StandsForAll (String.ofList segment) := by
  have hhash : String.ofList segment = "#" ↔ segment = ['#'] := String.ofList_inj
  have hbracket : String.ofList segment = ">" ↔ segment = ['>'] := String.ofList_inj
  simp only [isRest, StandsForAll, hhash, hbracket, Bool.or_eq_true, beq_iff_eq]

theorem standsFor_iff (p s : List Char) :
    standsFor p s = true ↔ String.ofList p = "*" ∨ String.ofList p = String.ofList s := by
  have hstar : String.ofList p = "*" ↔ p = ['*'] := String.ofList_inj
  simp only [standsFor, hstar, String.ofList_inj, Bool.or_eq_true, beq_iff_eq]

theorem segmentsMatch_iff_fits (ps ss : List (List Char)) :
    segmentsMatch ps ss = true ↔ Fits (ps.map String.ofList) (ss.map String.ofList) := by
  induction ps generalizing ss with
  | nil =>
      rw [List.map_nil, fits_nil_iff, List.map_eq_nil_iff]
      cases ss <;> simp [segmentsMatch]
  | cons p ps ih =>
      cases ss with
      | nil => exact iff_of_false Bool.false_ne_true (not_fits_cons_nil _ _)
      | cons s ss =>
          rw [List.map_cons, List.map_cons, fits_cons_cons_iff, ← isRest_iff, ← standsFor_iff,
            ← ih ss, segmentsMatch]
          cases isRest p <;> simp

/-- A subject matches a pattern when its segments fit those of the pattern place by place. -/
theorem topicMatches_iff_fits (pattern subject : String) :
    topicMatches pattern subject = true ↔ Fits (split '.' pattern) (split '.' subject) :=
  segmentsMatch_iff_fits _ _

/-- What follows a segment that stands for all that are left makes no difference. -/
example : topicMatches "a.#.c" "a.b" = true ∧ topicMatches "a.#.c" "a" = false := by
  decide +kernel

/-!
## Hashes as brackets
-/

theorem isRest_restAsBracket (segment : List Char) :
    isRest (restAsBracket segment) = isRest segment := by
  unfold restAsBracket
  split
  · next h =>
      rw [h]
      rfl
  · rfl

theorem restAsBracket_of_not_isRest {segment : List Char} (h : isRest segment = false) :
    restAsBracket segment = segment := by
  refine if_neg ?_
  rintro rfl
  cases h

theorem restAsBracket_ne_hash (segment : List Char) : restAsBracket segment ≠ ['#'] := by
  unfold restAsBracket
  split
  · decide
  · assumption

theorem restAsBracket_restAsBracket (segment : List Char) :
    restAsBracket (restAsBracket segment) = restAsBracket segment :=
  if_neg (restAsBracket_ne_hash segment)

theorem dot_not_mem_restAsBracket {segment : List Char} (h : '.' ∉ segment) :
    '.' ∉ restAsBracket segment := by
  unfold restAsBracket
  split
  · decide
  · exact h

theorem segmentsMatch_map_restAsBracket (ps ss : List (List Char)) :
    segmentsMatch (ps.map restAsBracket) ss = segmentsMatch ps ss := by
  induction ps generalizing ss with
  | nil => rfl
  | cons p ps ih =>
      cases ss with
      | nil => rfl
      | cons s ss =>
          rw [List.map_cons, segmentsMatch, segmentsMatch, isRest_restAsBracket, ih]
          cases hrest : isRest p with
          | true => rfl
          | false => rw [restAsBracket_of_not_isRest hrest]

theorem splitChars_bracketPattern (pattern : String) :
    splitChars '.' (bracketPattern pattern).toList =
      (splitChars '.' pattern.toList).map restAsBracket := by
  rw [bracketPattern, String.toList_ofList]
  refine Text.splitChars_joinChars ?_ ?_
  · exact fun hnil => Text.splitChars_ne_nil _ _ (List.map_eq_nil_iff.mp hnil)
  · intro segment hsegment
    rcases List.mem_map.mp hsegment with ⟨original, horiginal, rfl⟩
    exact dot_not_mem_restAsBracket (Text.not_mem_of_mem_splitChars horiginal)

theorem bracketPattern_bracketPattern (pattern : String) :
    bracketPattern (bracketPattern pattern) = bracketPattern pattern := by
  have hsame : restAsBracket ∘ restAsBracket = restAsBracket :=
    funext restAsBracket_restAsBracket
  rw [bracketPattern, splitChars_bracketPattern, List.map_map, hsame, ← bracketPattern]

/-- A pattern and how it is written for a bus that knows brackets alone. -/
structure Respelled (pattern spelled : String) : Prop where
  same : ∀ subject, topicMatches spelled subject = topicMatches pattern subject
  segments : (split '.' spelled).length = (split '.' pattern).length
  hashless : "#" ∉ split '.' spelled
  stable : bracketPattern spelled = spelled

/-- Subjects match a pattern on a bus that knows brackets alone when they match it at all. -/
theorem respelled_bracketPattern (pattern : String) :
    Respelled pattern (bracketPattern pattern) where
  same := by
    intro subject
    rw [topicMatches, splitChars_bracketPattern, segmentsMatch_map_restAsBracket, topicMatches]
  segments := by
    simp only [split, splitChars_bracketPattern, List.length_map]
  hashless := by
    intro hmem
    rw [split, splitChars_bracketPattern] at hmem
    rcases List.mem_map.mp hmem with ⟨segment, hsegment, hhash⟩
    rcases List.mem_map.mp hsegment with ⟨original, _, rfl⟩
    exact restAsBracket_ne_hash original (String.ofList_injective hhash)
  stable := bracketPattern_bracketPattern pattern

end Routing
end Courier
