import Courier.Routing.Operation
import Courier.Routing.Topic
import Mathlib.Data.List.Basic

/-!
# Names on the bus

The names of an operation tell it apart: a subject matches the binding pattern of one
operation at most, and a queue's name tells its operation and the segment of its instance
(`queueName_eq_queueName_iff`).
-/

namespace Courier

open Text (splitChars)

namespace Routing

/-!
## Matching
-/

theorem getElem?_of_segmentsMatch {ps ss : List (List Char)} (h : segmentsMatch ps ss = true)
    (hrest : ∀ p ∈ ps, isRest p = false) {i : Nat} {p : List Char} (hp : ps[i]? = some p)
    (hstar : p ≠ ['*']) : ss[i]? = some p := by
  induction ps generalizing ss i with
  | nil => cases hp
  | cons first ps ih =>
      cases ss with
      | nil => cases h
      | cons s ss =>
          have hfirst := hrest first List.mem_cons_self
          simp only [segmentsMatch, hfirst, Bool.false_eq_true, if_false, Bool.and_eq_true] at h
          cases i with
          | zero =>
              cases hp
              rcases (Bool.or_eq_true _ _).mp h.left with heq | heq
              · exact absurd (eq_of_beq heq) hstar
              · exact congrArg some (eq_of_beq heq).symm
          | succ i =>
              exact ih h.right (fun p hp => hrest p (List.mem_cons_of_mem _ hp)) hp

theorem segmentsMatch_cons {p s : List Char} {ps ss : List (List Char)}
    (hfirst : standsFor p s = true) (hrest : segmentsMatch ps ss = true) :
    segmentsMatch (p :: ps) (s :: ss) = true := by
  simp [segmentsMatch, hfirst, hrest]

theorem segmentsMatch_self (ps : List (List Char)) : segmentsMatch ps ps = true := by
  induction ps with
  | nil => rfl
  | cons p ps ih => exact segmentsMatch_cons (by simp [standsFor]) ih

theorem segmentsMatch_star (before : List (List Char)) (s : List Char)
    (after : List (List Char)) :
    segmentsMatch (before ++ ['*'] :: after) (before ++ s :: after) = true := by
  induction before with
  | nil => exact segmentsMatch_cons rfl (segmentsMatch_self after)
  | cons p before ih => exact segmentsMatch_cons (by simp [standsFor]) ih

theorem topicMatches_self (pattern : String) : topicMatches pattern pattern = true :=
  segmentsMatch_self _

/-!
## Segments of names
-/

theorem hyphenFor_ne_dot (c : Char) : hyphenFor c ≠ '.' := by
  unfold hyphenFor
  split
  · decide
  · next h =>
      rintro rfl
      exact h rfl

theorem dot_not_mem_normalChars (cs : List Char) : '.' ∉ normalChars cs := by
  unfold normalChars
  simp only
  split
  · decide
  · intro h
    rcases List.mem_map.mp h with ⟨c, _, hc⟩
    exact hyphenFor_ne_dot c hc

end Routing

namespace Operation

open Routing

theorem segments_bindingPattern (op : Operation) :
    splitChars '.' op.bindingPattern.toList =
      ["im_provider".toList, "outbound".toList, ['*'], "send".toList, op.kind.toList,
        "v1".toList] := by
  cases op <;> decide +kernel

theorem kind_injective {op op' : Operation} (h : op.kind = op'.kind) : op = op' := by
  cases op <;> cases op' <;> first | rfl | exact absurd h (by decide +kernel)

theorem name_injective {op op' : Operation} (h : op.name = op'.name) : op = op' := by
  cases op <;> cases op' <;> first | rfl | exact absurd h (by decide +kernel)

theorem kind_of_matches {op : Operation} {subject : String}
    (h : topicMatches op.bindingPattern subject = true) :
    (splitChars '.' subject.toList)[4]? = some op.kind.toList := by
  unfold topicMatches at h
  rw [segments_bindingPattern] at h
  refine getElem?_of_segmentsMatch h ?_ rfl ?_
  · cases op <;> decide +kernel
  · cases op <;> decide +kernel

/-- No subject is bound to two operations. -/
theorem eq_of_matches {op op' : Operation} {subject : String}
    (h : topicMatches op.bindingPattern subject = true)
    (h' : topicMatches op'.bindingPattern subject = true) : op = op' := by
  have hkind := (kind_of_matches h).symm.trans (kind_of_matches h')
  exact kind_injective (String.toList_injective (Option.some.inj hkind))

theorem dot_not_mem_name (op : Operation) : '.' ∉ op.name.toList := by
  cases op <;> decide +kernel

/-- A queue's name tells its operation and the segment of its instance. -/
theorem eq_of_queueName_eq {op op' : Operation} {i j : String}
    (h : op.queueName i = op'.queueName j) : op = op' ∧ normal i = normal j := by
  have hchars : outboundQueue.toList ++ '.' :: (normalChars i.toList ++ '.' :: op.name.toList) =
      outboundQueue.toList ++ '.' :: (normalChars j.toList ++ '.' :: op'.name.toList) := by
    simpa [queueName, normal] using congrArg String.toList h
  have htail := (List.cons.inj (List.append_cancel_left hchars)).right
  rcases (List.append_cons_inj_of_notMem (dot_not_mem_normalChars _)
    (dot_not_mem_name op)).mp htail with ⟨hinstance, _, hname⟩
  exact ⟨name_injective (String.toList_injective hname), congrArg String.ofList hinstance⟩

/-- Queues have the same name just when they are for one operation and the segment of one
instance, whatever the names of the instances look like. -/
theorem queueName_eq_queueName_iff (op op' : Operation) (i j : String) :
    op.queueName i = op'.queueName j ↔ op = op' ∧ normal i = normal j := by
  constructor
  · exact eq_of_queueName_eq
  · rintro ⟨rfl, hinstance⟩
    rw [queueName, queueName, hinstance]

/-- Instances whose names come to one segment share their queues. -/
example : sendText.queueName "node.a" = sendText.queueName " node-a " := by
  decide +kernel

theorem not_isBlank_queueName (op : Operation) (i : String) :
    Text.isBlank (op.queueName i) = false := by
  have hfirst : outboundQueue.toList.all Text.isBlankChar = false := by decide +kernel
  simp [Text.isBlank, queueName, List.all_append, hfirst]

theorem not_isBlank_bindingPattern (op : Operation) :
    Text.isBlank op.bindingPattern = false := by
  cases op <;> decide +kernel

end Operation
end Courier
