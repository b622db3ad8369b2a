/-!
# Segments

Texts read as segments between separators. Splitting always gives at least one
segment, and joining the segments gives the text back.
-/

namespace Courier
namespace Text

/-- The segments between the separators, in order; empty ones are kept. -/
def splitChars (sep : Char) : List Char → List (List Char)
  | [] => [[]]
  | c :: rest =>
    if c = sep then [] :: splitChars sep rest
    else
      match splitChars sep rest with
      | [] => [[c]]
      | segment :: more => (c :: segment) :: more

def joinChars (sep : Char) : List (List Char) → List Char
  | [] => []
  | [segment] => segment
  | segment :: more => segment ++ sep :: joinChars sep more

def split (sep : Char) (s : String) : List String :=
  (splitChars sep s.toList).map String.ofList

def join (sep : Char) (segments : List String) : String :=
  String.ofList (joinChars sep (segments.map String.toList))

theorem splitChars_ne_nil (sep : Char) (cs : List Char) : splitChars sep cs ≠ [] := by
  cases cs with
  | nil => simp [splitChars]
  | cons c rest =>
    simp only [splitChars]
    split
    · simp
    · split <;> simp

theorem joinChars_cons (sep : Char) (segment : List Char) {more : List (List Char)}
    (h : more ≠ []) :
    joinChars sep (segment :: more) = segment ++ sep :: joinChars sep more := by
  cases more with
  | nil => exact absurd rfl h
  | cons => rfl

theorem joinChars_splitChars (sep : Char) (cs : List Char) :
    joinChars sep (splitChars sep cs) = cs := by
  induction cs with
  | nil => rfl
  | cons c rest ih =>
    simp only [splitChars]
    split
    · rename_i h
      rw [joinChars_cons _ _ (splitChars_ne_nil sep rest), ih, h]
      rfl
    · split
      · rename_i h
        exact absurd h (splitChars_ne_nil sep rest)
      · rename_i segment more h
        rw [h] at ih
        cases more with
        | nil => simpa [joinChars] using ih
        | cons => simpa [joinChars] using ih

theorem splitChars_of_not_mem {sep : Char} {cs : List Char} (h : sep ∉ cs) :
    splitChars sep cs = [cs] := by
  induction cs with
  | nil => rfl
  | cons c rest ih =>
    rw [List.mem_cons, not_or] at h
    rw [splitChars, if_neg (Ne.symm h.left), ih h.right]

theorem splitChars_append {sep : Char} {segment : List Char} (h : sep ∉ segment)
    (rest : List Char) :
    splitChars sep (segment ++ sep :: rest) = segment :: splitChars sep rest := by
  induction segment with
  | nil => simp [splitChars]
  | cons c segment ih =>
    rw [List.mem_cons, not_or] at h
    rw [List.cons_append, splitChars, if_neg (Ne.symm h.left), ih h.right]

theorem not_mem_of_mem_splitChars {sep : Char} {cs segment : List Char}
    (h : segment ∈ splitChars sep cs) : sep ∉ segment := by
  induction cs generalizing segment with
  | nil =>
    cases List.mem_singleton.mp h
    exact List.not_mem_nil
  | cons c rest ih =>
    simp only [splitChars] at h
    split at h
    · rcases List.mem_cons.mp h with rfl | h
      · exact List.not_mem_nil
      · exact ih h
    · rename_i hc
      split at h
      · cases List.mem_singleton.mp h
        simpa using Ne.symm hc
      · rename_i first more hsplit
        rw [hsplit] at ih
        rcases List.mem_cons.mp h with rfl | h
        · have hfirst := ih List.mem_cons_self
          simpa [Ne.symm hc] using hfirst
        · exact ih (List.mem_cons_of_mem _ h)

/-- Segments without separators are given back by splitting. -/
theorem splitChars_joinChars {sep : Char} {segments : List (List Char)} (hne : segments ≠ [])
    (h : ∀ segment ∈ segments, sep ∉ segment) :
    splitChars sep (joinChars sep segments) = segments := by
  induction segments with
  | nil => exact absurd rfl hne
  | cons segment more ih =>
    have hsegment := h segment List.mem_cons_self
    cases more with
    | nil => exact splitChars_of_not_mem hsegment
    | cons next more =>
      have hmore := ih (List.cons_ne_nil _ _) fun s hs => h s (List.mem_cons_of_mem _ hs)
      rw [joinChars_cons _ _ (List.cons_ne_nil _ _), splitChars_append hsegment, hmore]

end Text
end Courier
