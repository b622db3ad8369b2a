import Courier.Config.Duration
import Courier.Proofs.Decimal.Digits
import Courier.Proofs.Text.Trimming

/-!
# The grammar of durations

A duration is digits and the name of a unit, with blanks around both. What is read of a text
depends on the digits and on what follows them, blanks apart, and on nothing else.

The main statement is `readDuration_grammar`: exactly the texts of the grammar are read, and
what is read is as many of the unit as the digits say.
-/

namespace Courier
namespace Config

open Text (Trimmed trimChars isBlankChar)

/-!
## Digits
-/

/-- The number that digits stand for, the last of them being the ones. -/
def numberOf (digits : List Char) : Nat :=
  Nat.ofDigits 10 (digits.reverse.map fun c => c.toNat - '0'.toNat)

theorem valueOf_eq (digits : List Char) : valueOf digits = numberOf digits := by
  rw [numberOf, List.map_reverse, ← Decimal.ofDigits_eq, Decimal.ofDigits, List.foldl_map]
  rfl

theorem numberOf_zeros (n : Nat) (digits : List Char) :
    numberOf (List.replicate n '0' ++ digits) = numberOf digits := by
  rw [← valueOf_eq, ← valueOf_eq]
  induction n with
  | zero => rfl
  | succ n ih => exact ih

theorem not_blank_of_isDigit {c : Char} (h : c.isDigit = true) : isBlankChar c = false := by
  simp only [Char.isDigit, Bool.and_eq_true, decide_eq_true_eq] at h
  have hlow : 48 ≤ c.toNat := UInt32.le_iff_toNat_le.mp h.left
  have hhigh : c.toNat ≤ 57 := UInt32.le_iff_toNat_le.mp h.right
  simp only [isBlankChar, Text.isBlankCode, Bool.or_eq_false_iff, Bool.and_eq_false_iff,
    decide_eq_false_iff_not, beq_eq_false_iff_ne]
  omega

theorem not_isDigit_of_blank {c : Char} (h : isBlankChar c = true) : c.isDigit = false := by
  by_contra hdigit
  rw [not_blank_of_isDigit (Bool.eq_true_of_not_eq_false hdigit)] at h
  cases h

theorem trimmed_digits {digits : List Char} (h : ∀ c ∈ digits, c.isDigit = true) :
    Trimmed digits where
  first c hc := not_blank_of_isDigit (h c (List.mem_of_mem_head? hc))
  last c hc := not_blank_of_isDigit (h c (List.mem_of_getLast? hc))

/-!
## The parts of a text
-/

/-- A text is its first digits and a name that follows them, with blanks around both. -/
structure Parts (text : String) (digits name : List Char) : Prop where
  exists_blanks : ∃ front gap back, (∀ c ∈ front, isBlankChar c = true) ∧
    (∀ c ∈ gap, isBlankChar c = true) ∧ (∀ c ∈ back, isBlankChar c = true) ∧
    text.toList = front ++ digits ++ gap ++ name ++ back ∧
    ∀ c ∈ (gap ++ name).head?, c.isDigit = false
  digits_ne_nil : digits ≠ []
  isDigit : ∀ c ∈ digits, c.isDigit = true
  trimmed : Trimmed name

namespace Parts

variable {text : String} {digits name : List Char}

theorem exists_trimChars_eq (h : Parts text digits name) :
    ∃ gap, (∀ c ∈ gap, isBlankChar c = true) ∧ (∀ c ∈ (gap ++ name).head?, c.isDigit = false) ∧
      trimChars text.toList = digits ++ gap ++ name := by
  rcases h.exists_blanks with ⟨front, gap, back, hfront, hgap, hback, htext, hstop⟩
  rw [htext, Text.trimChars_append_right hback, List.append_assoc, List.append_assoc,
    Text.trimChars_append_left hfront, ← List.append_assoc]
  by_cases hnil : name = []
  · -- Without a name, the blanks after the digits are at the end.
    subst hnil
    refine ⟨[], nofun, nofun, ?_⟩
    rw [List.append_nil, List.append_nil, List.append_nil, Text.trimChars_append_right hgap]
    exact Text.trimChars_of_trimmed (trimmed_digits h.isDigit)
  · refine ⟨gap, hgap, hstop, Text.trimChars_of_trimmed ⟨?_, ?_⟩⟩
    · rw [List.append_assoc, List.head?_append_of_ne_nil _ h.digits_ne_nil]
      exact (trimmed_digits h.isDigit).first
    · rw [List.getLast?_append_of_ne_nil _ hnil]
      exact h.trimmed.last

/-- What is read depends on the digits and on the name only. -/
theorem readDuration_eq (h : Parts text digits name) :
    readDuration text =
      if 2 ^ 64 ≤ numberOf digits then .error (.invalid (Text.trim text))
      else match TimeUnit.ofName? name with
        | some unit => .ok (unit.span (UInt64.ofNat (numberOf digits)))
        | none => .error (.unknownUnit (String.ofList name) (Text.trim text)) := by
  rcases h.exists_trimChars_eq with ⟨gap, hgap, hstop, htrim⟩
  have htake : (trimChars text.toList).takeWhile Char.isDigit = digits := by
    rw [htrim, List.append_assoc, List.takeWhile_append_of_pos h.isDigit]
    cases hrest : gap ++ name with
    | nil => rw [List.takeWhile_nil, List.append_nil]
    | cons c rest =>
        rw [List.takeWhile_cons_of_neg, List.append_nil]
        rw [hstop c (hrest ▸ rfl)]
        exact Bool.false_ne_true
  have hdrop : trimChars ((trimChars text.toList).dropWhile Char.isDigit) = name := by
    have hsplit := List.takeWhile_append_dropWhile (p := Char.isDigit) (l := trimChars text.toList)
    rw [htake] at hsplit
    rw [List.append_cancel_left (hsplit.trans (htrim.trans (List.append_assoc _ _ _))),
      Text.trimChars_append_left hgap]
    exact Text.trimChars_of_trimmed h.trimmed
  unfold readDuration
  simp only [htake, hdrop, List.isEmpty_iff, h.digits_ne_nil, false_or, valueOf_eq]
  rfl

theorem of_append {front rest : List Char} (hfront : ∀ c ∈ front, isBlankChar c = true)
    (hdigit : ∃ c ∈ rest.head?, c.isDigit = true) (htext : text.toList = front ++ rest) :
    Parts text (rest.takeWhile Char.isDigit) (trimChars (rest.dropWhile Char.isDigit)) := by
  rcases Text.exists_trimChars (rest.dropWhile Char.isDigit) with ⟨gap, back, hgap, hback, hname⟩
  constructor
  · refine ⟨front, gap, back, hfront, hgap, hback, ?_, ?_⟩
    · calc
        text.toList
        _ = front ++ (rest.takeWhile Char.isDigit ++ rest.dropWhile Char.isDigit) := by
          rw [htext, List.takeWhile_append_dropWhile]
        _ = front ++ rest.takeWhile Char.isDigit ++ gap ++
            trimChars (rest.dropWhile Char.isDigit) ++ back := by
          nth_rewrite 1 [hname]
          simp only [List.append_assoc]
    · intro c hc
      have hnot := List.head?_dropWhile_not Char.isDigit rest
      have hhead : (rest.dropWhile Char.isDigit).head? = some c := by
        rw [hname, List.head?_append, Option.mem_def.mp hc]
        rfl
      rw [hhead] at hnot
      exact hnot
  · rcases hdigit with ⟨c, hc, hdigit⟩
    cases rest with
    | nil => cases hc
    | cons first rest =>
        cases hc
        rw [List.takeWhile_cons_of_pos hdigit]
        exact List.cons_ne_nil _ _
  · exact fun c hc => List.mem_takeWhile_imp hc
  · exact Text.trimmed_trimChars _

end Parts

theorem exists_parts {text : String} {d : Time.Span} (h : readDuration text = .ok d) :
    ∃ digits name, Parts text digits name := by
  rcases Text.exists_trimChars text.toList with ⟨front, back, hfront, hback, htext⟩
  have hdigit : ∃ c ∈ (trimChars text.toList).head?, c.isDigit = true := by
    unfold readDuration at h
    cases htrim : trimChars text.toList with
    | nil =>
        rw [htrim] at h
        cases h
    | cons first rest =>
        refine ⟨first, rfl, ?_⟩
        by_contra hfirst
        rw [htrim] at h
        simp only [List.takeWhile_cons_of_neg hfirst, List.isEmpty_nil, true_or, if_true] at h
        cases h
  have hrest : ∃ c ∈ (trimChars text.toList ++ back).head?, c.isDigit = true := by
    rcases hdigit with ⟨c, hc, hdigit⟩
    refine ⟨c, ?_, hdigit⟩
    rw [List.head?_append, Option.mem_def.mp hc]
    rfl
  rw [List.append_assoc] at htext
  exact ⟨_, _, Parts.of_append hfront hrest htext⟩

/-!
## Units
-/

namespace TimeUnit

inductive Names : List Char → TimeUnit → Prop where
  | unnamed : Names [] .second
  | second : Names ['s'] .second
  | millisecond : Names ['m', 's'] .millisecond
  | minute : Names ['m'] .minute
  | hour : Names ['h'] .hour

theorem ofName?_eq_some_iff {name : List Char} {unit : TimeUnit} :
    ofName? name = some unit ↔ Names name unit := by
  constructor
  · intro h
    unfold ofName? at h
    split_ifs at h with hms hs hm hh
    · cases h
      rw [hms]
      exact .millisecond
    · cases h
      rcases hs with rfl | rfl
      · exact .unnamed
      · exact .second
    · cases h
      rw [hm]
      exact .minute
    · cases h
      rw [hh]
      exact .hour
  · rintro (_ | _ | _ | _ | _) <;> rfl

theorem Names.mem {name : List Char} {unit : TimeUnit} (h : Names name unit) :
    ∀ c ∈ name, c ∈ ['s', 'm', 'h'] := by
  cases h <;> simp

def nanoseconds : TimeUnit → Nat
  | .millisecond => 1000000
  | .second => 1000000000
  | .minute => 60 * 1000000000
  | .hour => 3600 * 1000000000

/-- Minutes and hours are fitting if they do not need more than 64 bits as seconds. -/
def Fits : TimeUnit → Nat → Prop
  | .minute, n => n * 60 < 2 ^ 64
  | .hour, n => n * 3600 < 2 ^ 64
  | _, _ => True

theorem span_eq {unit : TimeUnit} {n : Nat} (hn : n < 2 ^ 64) (h : unit.Fits n) :
    unit.span (UInt64.ofNat n) = ⟨n * unit.nanoseconds⟩ := by
  have hword : (UInt64.ofNat n).toNat = n := UInt64.toNat_ofNat_of_lt' hn
  cases unit with
  | millisecond => exact congrArg Time.Span.ofMilliseconds hword
  | second => exact congrArg Time.Span.ofSeconds hword
  | minute =>
      have hproduct : (UInt64.ofNat n * 60).toNat = n * 60 := by
        rw [UInt64.toNat_mul, hword]
        exact Nat.mod_eq_of_lt h
      rw [span, hproduct, Time.Span.ofSeconds, nanoseconds, Nat.mul_assoc]
  | hour =>
      have hproduct : (UInt64.ofNat n * 3600).toNat = n * 3600 := by
        rw [UInt64.toNat_mul, hword]
        exact Nat.mod_eq_of_lt h
      rw [span, hproduct, Time.Span.ofSeconds, nanoseconds, Nat.mul_assoc]

theorem Names.trimmed {name : List Char} {unit : TimeUnit} (h : Names name unit) :
    Trimmed name := by
  cases h <;> constructor <;> rintro c ⟨⟩ <;> rfl

theorem Names.not_isDigit {name : List Char} {unit : TimeUnit} (h : Names name unit) :
    ∀ c ∈ name.head?, c.isDigit = false := by
  cases h <;> simp

end TimeUnit

/-!
## The grammar
-/

/-- A text is digits and the name of a unit, with blanks around both. -/
def Spells (text : String) (digits : List Char) (unit : TimeUnit) : Prop :=
  ∃ front gap name back, (∀ c ∈ front, isBlankChar c = true) ∧
    (∀ c ∈ gap, isBlankChar c = true) ∧ (∀ c ∈ back, isBlankChar c = true) ∧
    digits ≠ [] ∧ (∀ c ∈ digits, c.isDigit = true) ∧ TimeUnit.Names name unit ∧
    text.toList = front ++ digits ++ gap ++ name ++ back

theorem spells_iff {text : String} {digits : List Char} {unit : TimeUnit} :
    Spells text digits unit ↔ ∃ name, Parts text digits name ∧ TimeUnit.Names name unit := by
  constructor
  · rintro ⟨front, gap, name, back, hfront, hgap, hback, hne, hdigits, hname, htext⟩
    refine ⟨name, ⟨⟨front, gap, back, hfront, hgap, hback, htext, ?_⟩, hne, hdigits,
      hname.trimmed⟩, hname⟩
    cases gap with
    | nil => exact hname.not_isDigit
    | cons first rest =>
        rintro c ⟨⟩
        exact not_isDigit_of_blank (hgap first List.mem_cons_self)
  · rintro ⟨name, hparts, hname⟩
    rcases hparts.exists_blanks with ⟨front, gap, back, hfront, hgap, hback, htext, -⟩
    exact ⟨front, gap, name, back, hfront, hgap, hback, hparts.digits_ne_nil, hparts.isDigit,
      hname, htext⟩

theorem Spells.readDuration_eq {text : String} {digits : List Char} {unit : TimeUnit}
    (h : Spells text digits unit) (hn : numberOf digits < 2 ^ 64) :
    readDuration text = .ok (unit.span (UInt64.ofNat (numberOf digits))) := by
  rcases spells_iff.mp h with ⟨name, hparts, hname⟩
  rw [hparts.readDuration_eq, if_neg (Nat.not_le.mpr hn),
    TimeUnit.ofName?_eq_some_iff.mpr hname]

theorem exists_spells {text : String} {d : Time.Span} (h : readDuration text = .ok d) :
    ∃ digits unit, Spells text digits unit ∧ numberOf digits < 2 ^ 64 := by
  rcases exists_parts h with ⟨digits, name, hparts⟩
  rw [hparts.readDuration_eq] at h
  split at h
  · cases h
  · next hfits =>
      split at h
      · next unit hunit =>
          have hname := TimeUnit.ofName?_eq_some_iff.mp hunit
          exact ⟨digits, unit, spells_iff.mpr ⟨name, hparts, hname⟩, Nat.not_le.mp hfits⟩
      · cases h

theorem Spells.char_cases {text : String} {digits : List Char} {unit : TimeUnit}
    (h : Spells text digits unit) {c : Char} (hc : c ∈ text.toList) :
    isBlankChar c = true ∨ c.isDigit = true ∨ c ∈ ['s', 'm', 'h'] := by
  rcases h with ⟨front, gap, name, back, hfront, hgap, hback, -, hdigits, hname, htext⟩
  rw [htext] at hc
  simp only [List.mem_append] at hc
  rcases hc with (((hc | hc) | hc) | hc) | hc
  · exact .inl (hfront c hc)
  · exact .inr (.inl (hdigits c hc))
  · exact .inl (hgap c hc)
  · exact .inr (.inr (hname.mem c hc))
  · exact .inl (hback c hc)

/-- Which texts are durations, and of what length. -/
structure DurationGrammar (text : String) : Prop where
  read_iff : (∃ d, readDuration text = .ok d) ↔
    ∃ digits unit, Spells text digits unit ∧ numberOf digits < 2 ^ 64
  read_eq : ∀ (digits : List Char) (unit : TimeUnit), Spells text digits unit →
    numberOf digits < 2 ^ 64 → unit.Fits (numberOf digits) →
      readDuration text = .ok ⟨numberOf digits * unit.nanoseconds⟩
  /-- Zeros in front of the digits make no difference to what is read. -/
  zeros : ∀ (front rest : List Char) (n : Nat), (∀ c ∈ front, isBlankChar c = true) →
    (∃ c ∈ rest.head?, c.isDigit = true) → text.toList = front ++ rest →
      (readDuration (String.ofList (front ++ (List.replicate n '0' ++ rest)))).toOption =
        (readDuration text).toOption
  /-- No other character is taken, be it a sign, a point or a digit of another script. -/
  foreign : ∀ c ∈ text.toList, isBlankChar c = false → c.isDigit = false →
    c ∉ ['s', 'm', 'h'] → ∃ e, readDuration text = .error e
  unknown : ∀ digits name, Parts text digits name → (∀ unit, ¬ TimeUnit.Names name unit) →
    numberOf digits < 2 ^ 64 →
      readDuration text = .error (.unknownUnit (String.ofList name) (Text.trim text))

theorem takeWhile_zeros (n : Nat) (rest : List Char) :
    (List.replicate n '0' ++ rest).takeWhile Char.isDigit =
      List.replicate n '0' ++ rest.takeWhile Char.isDigit := by
  refine List.takeWhile_append_of_pos fun c hc => ?_
  rw [List.eq_of_mem_replicate hc]
  rfl

theorem dropWhile_zeros (n : Nat) (rest : List Char) :
    (List.replicate n '0' ++ rest).dropWhile Char.isDigit = rest.dropWhile Char.isDigit := by
  refine List.dropWhile_append_of_pos fun c hc => ?_
  rw [List.eq_of_mem_replicate hc]
  rfl

theorem toOption_readDuration_zeros {text : String} {front rest : List Char} (n : Nat)
    (hfront : ∀ c ∈ front, isBlankChar c = true) (hdigit : ∃ c ∈ rest.head?, c.isDigit = true)
    (htext : text.toList = front ++ rest) :
    (readDuration (String.ofList (front ++ (List.replicate n '0' ++ rest)))).toOption =
      (readDuration text).toOption := by
  have hfurther : ∃ c ∈ (List.replicate n '0' ++ rest).head?, c.isDigit = true := by
    cases n with
    | zero => exact hdigit
    | succ n => exact ⟨'0', rfl, rfl⟩
  have hparts := Parts.of_append hfront hdigit htext
  have hzeros := Parts.of_append hfront hfurther String.toList_ofList
  rw [takeWhile_zeros, dropWhile_zeros] at hzeros
  rw [hparts.readDuration_eq, hzeros.readDuration_eq, numberOf_zeros]
  split
  · rfl
  · split <;> rfl

/-- Exactly the texts of the grammar are durations, of as many of the unit as the digits say. -/
theorem readDuration_grammar (text : String) : DurationGrammar text where
  read_iff := by
    constructor
    · rintro ⟨d, h⟩
      exact exists_spells h
    · rintro ⟨digits, unit, hspells, hn⟩
      exact ⟨_, hspells.readDuration_eq hn⟩
  read_eq digits unit hspells hn hfits := by
    rw [hspells.readDuration_eq hn, TimeUnit.span_eq hn hfits]
  zeros _ _ n hfront hdigit htext := toOption_readDuration_zeros n hfront hdigit htext
  foreign c hc hblank hdigit hletter := by
    cases h : readDuration text with
    | error e => exact ⟨e, rfl⟩
    | ok d =>
        rcases exists_spells h with ⟨digits, unit, hspells, -⟩
        rcases hspells.char_cases hc with hc | hc | hc
        · rw [hblank] at hc
          cases hc
        · rw [hdigit] at hc
          cases hc
        · exact absurd hc hletter
  unknown digits name hparts hname hn := by
    have hnone : TimeUnit.ofName? name = none := by
      rw [Option.eq_none_iff_forall_ne_some]
      exact fun unit hunit => hname unit (TimeUnit.ofName?_eq_some_iff.mp hunit)
    rw [hparts.readDuration_eq, if_neg (Nat.not_le.mpr hn), hnone]

end Config
end Courier
