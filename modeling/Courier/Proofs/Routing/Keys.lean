import Courier.Proofs.Routing.Names
import Courier.Proofs.Text.Trimming

/-!
# Providers in routing keys

A routing key names the segment that its provider was normalized to. That is the provider
itself exactly when the provider is plain: trimmed, and free of reserved characters. Whatever
is in the provider's name, the key keeps its segments, and is bound to its own operation only:
`wellKeyed_of_text`.
-/

namespace Courier

open Text (Trimmed trimChars isBlankChar splitChars)

namespace Routing

theorem not_blank_hyphenFor {c : Char} (h : isBlankChar c = false) :
    isBlankChar (hyphenFor c) = false := by
  unfold hyphenFor
  split
  · decide
  · exact h

/-- A name that is its own segment. -/
structure Plain (s : String) : Prop where
  nonempty : s ≠ ""
  trimmed : Trimmed s.toList
  unreserved : ∀ c ∈ s.toList, isReserved c = false

theorem toList_normal (s : String) : (normal s).toList = normalChars s.toList :=
  String.toList_ofList

theorem normalChars_cases (cs : List Char) :
    trimChars cs = [] ∧ normalChars cs = "unknown".toList ∨
      trimChars cs ≠ [] ∧ normalChars cs = (trimChars cs).map hyphenFor := by
  cases h : trimChars cs with
  | nil => exact Or.inl ⟨rfl, by simp [normalChars, h]⟩
  | cons c rest => exact Or.inr ⟨List.cons_ne_nil c rest, by simp [normalChars, h]⟩

theorem trimmed_normalChars (cs : List Char) : Trimmed (normalChars cs) := by
  rcases normalChars_cases cs with ⟨_, h⟩ | ⟨_, h⟩
  · have htrim : trimChars "unknown".toList = "unknown".toList := by decide +kernel
    rw [h, ← htrim]
    exact Text.trimmed_trimChars _
  · rw [h]
    exact (Text.trimmed_trimChars cs).map fun _ => not_blank_hyphenFor

theorem normal_ne_empty (s : String) : normal s ≠ "" := by
  intro h
  have hnil : normalChars s.toList = [] := by rw [← toList_normal, h]; rfl
  rcases normalChars_cases s.toList with ⟨_, hunknown⟩ | ⟨hne, hmap⟩
  · rw [hunknown] at hnil
    exact absurd hnil (by decide +kernel)
  · rw [hmap] at hnil
    exact hne (List.map_eq_nil_iff.mp hnil)

theorem trim_normal (s : String) : Text.trim (normal s) = normal s := by
  apply String.toList_injective
  rw [Text.toList_trim, toList_normal]
  exact Text.trimChars_of_trimmed (trimmed_normalChars _)

theorem not_reserved_hyphenFor (c : Char) : isReserved (hyphenFor c) = false := by
  unfold hyphenFor
  split
  · decide
  · next h => exact Bool.eq_false_iff.mpr h

theorem hyphenFor_of_not_reserved {c : Char} (h : isReserved c = false) : hyphenFor c = c := by
  rw [hyphenFor, h]
  rfl

theorem plain_normal (s : String) : Plain (normal s) := by
  refine ⟨normal_ne_empty s, ?_, ?_⟩
  · rw [toList_normal]
    exact trimmed_normalChars _
  · rw [toList_normal]
    rcases normalChars_cases s.toList with ⟨_, hunknown⟩ | ⟨_, hmap⟩
    · have hall : ("unknown".toList.all fun c => !isReserved c) = true := by decide +kernel
      intro c hc
      rw [hunknown] at hc
      simpa using List.all_eq_true.mp hall c hc
    · rw [hmap]
      intro c hc
      rcases List.mem_map.mp hc with ⟨c', _, rfl⟩
      exact not_reserved_hyphenFor c'

theorem normal_of_plain {s : String} (h : Plain s) : normal s = s := by
  apply String.toList_injective
  rw [toList_normal]
  have htrim := Text.trimChars_of_trimmed h.trimmed
  rcases normalChars_cases s.toList with ⟨hnil, _⟩ | ⟨_, hmap⟩
  · rw [htrim] at hnil
    exact absurd (String.toList_eq_nil_iff.mp hnil) h.nonempty
  · rw [hmap, htrim]
    exact (List.map_congr_left fun c hc =>
      hyphenFor_of_not_reserved (h.unreserved c hc)).trans (List.map_id _)

theorem normal_eq_self_iff {s : String} : normal s = s ↔ Plain s :=
  ⟨fun h => h ▸ plain_normal s, normal_of_plain⟩

theorem providerOf?_of_segment {key segment : String}
    (h : (Text.split '.' key)[2]? = some segment) (htrim : Text.trim segment = segment)
    (hne : segment ≠ "") : providerOf? key = some segment := by
  have hempty : segment.isEmpty = false :=
    Bool.eq_false_iff.mpr fun hempty => hne (String.isEmpty_iff.mp hempty)
  simp only [providerOf?, h, htrim, hempty, Bool.false_eq_true, if_false]

end Routing

namespace Operation

open Routing

theorem routingKey_eq (op : Operation) (provider : String) :
    op.routingKey provider =
      "im_provider.outbound." ++ normal provider ++ ".send." ++ op.kind ++ ".v1" :=
  rfl

theorem toList_routingKey (op : Operation) (provider : String) :
    (op.routingKey provider).toList =
      "im_provider".toList ++ '.' :: ("outbound".toList ++ '.' ::
        (normalChars provider.toList ++ '.' :: ("send." ++ op.kind ++ ".v1").toList)) := by
  rw [routingKey_eq]
  simp [normal]

/-- A routing key has as many segments as the pattern, the third of them the provider's own. -/
theorem segments_routingKey (op : Operation) (provider : String) :
    splitChars '.' (op.routingKey provider).toList =
      ["im_provider".toList, "outbound".toList, normalChars provider.toList, "send".toList,
        op.kind.toList, "v1".toList] := by
  have hend : splitChars '.' ("send." ++ op.kind ++ ".v1").toList =
      ["send".toList, op.kind.toList, "v1".toList] := by
    cases op <;> decide +kernel
  rw [toList_routingKey, Text.splitChars_append (by decide +kernel),
    Text.splitChars_append (by decide +kernel),
    Text.splitChars_append (dot_not_mem_normalChars _), hend]

theorem segment_routingKey (op : Operation) (provider : String) :
    (Text.split '.' (op.routingKey provider))[2]? = some (normal provider) := by
  rw [Text.split, segments_routingKey]
  rfl

theorem providerOf?_routingKey (op : Operation) (provider : String) :
    providerOf? (op.routingKey provider) = some (normal provider) :=
  providerOf?_of_segment (op.segment_routingKey provider) (trim_normal provider)
    (normal_ne_empty provider)

theorem matches_routingKey_iff (op op' : Operation) (provider : String) :
    topicMatches op.bindingPattern (op'.routingKey provider) = true ↔ op = op' := by
  constructor
  · intro h
    have hkind := kind_of_matches h
    rw [segments_routingKey] at hkind
    exact (kind_injective (String.toList_injective (Option.some.inj hkind))).symm
  · rintro rfl
    rw [topicMatches, segments_bindingPattern, segments_routingKey]
    exact segmentsMatch_star ["im_provider".toList, "outbound".toList] _ _

end Operation

namespace Routing

/-- What the routing keys made for a text are like, and the segment that they hold for it. -/
structure WellKeyed (s : String) : Prop where
  bound : ∀ op op' : Operation,
    topicMatches op.bindingPattern (op'.routingKey s) = true ↔ op = op'
  segments : ∀ op : Operation, (Text.split '.' (op.routingKey s)).length = 6
  provider : ∀ op : Operation, providerOf? (op.routingKey s) = some (normal s)
  nonempty : normal s ≠ ""
  /-- There is no separator in the segment, and no wildcard. -/
  single : ∀ c ∈ ['.', '*', '#', '>'], c ∉ (normal s).toList
  stable : normal (normal s) = normal s

/-- No text breaks the routing keys that are made for it. -/
theorem wellKeyed_of_text (s : String) : WellKeyed s where
  bound := fun op op' => op.matches_routingKey_iff op' s
  segments := by
    intro op
    rw [Text.split, op.segments_routingKey]
    rfl
  provider := fun op => op.providerOf?_routingKey s
  nonempty := normal_ne_empty s
  single := by
    have hreserved : ['.', '*', '#', '>'].all isReserved = true := by decide
    intro c hc hmem
    have hfree := (plain_normal s).unreserved c hmem
    rw [List.all_eq_true.mp hreserved c hc] at hfree
    cases hfree
  stable := normal_of_plain (plain_normal s)

end Routing
end Courier
