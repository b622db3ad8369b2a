import Courier.Text.Blank
import Courier.Text.Hexadecimal

/-!
# Letter case and hexadecimal digits

In small letters, a blank stays blank and a mark stays itself. A character is a hexadecimal digit
exactly if it is one in small letters, and has the same value.
-/

namespace Courier
namespace Text

/-!
## Letter case
-/

theorem toNat_toLower (c : Char) :
    c.toLower.toNat = if 65 ≤ c.toNat ∧ c.toNat ≤ 90 then c.toNat + 32 else c.toNat := by
  have hcapital : (c.val ≥ 'A'.val ∧ c.val ≤ 'Z'.val) ↔ 65 ≤ c.toNat ∧ c.toNat ≤ 90 :=
    and_congr UInt32.le_iff_toNat_le UInt32.le_iff_toNat_le
  unfold Char.toLower
  split
  · next h =>
      have hbound := (hcapital.mp h).right
      rw [if_pos (hcapital.mp h)]
      change (c.val + 32).toNat = c.val.toNat + 32
      rw [UInt32.toNat_add]
      exact Nat.mod_eq_of_lt (Nat.lt_of_le_of_lt (Nat.add_le_add_right hbound 32) (by decide))
  · next h => rw [if_neg fun hc => h (hcapital.mpr hc)]

theorem toLower_eq_iff {mark : Char} (h : mark.toNat < 65 ∨ 122 < mark.toNat) (c : Char) :
    c.toLower = mark ↔ c = mark := by
  rw [← Char.toNat_inj, toNat_toLower, ← Char.toNat_inj]
  split <;> omega

theorem isBlankCode_of_visible {n : Nat} (hlow : 0x21 ≤ n) (hhigh : n ≤ 0x7E) :
    isBlankCode n = false := by
  simp only [isBlankCode, Bool.or_eq_false_iff, Bool.and_eq_false_iff, decide_eq_false_iff_not,
    beq_eq_false_iff_ne]
  omega

theorem isBlankChar_toLower (c : Char) : isBlankChar c.toLower = isBlankChar c := by
  unfold isBlankChar
  rw [toNat_toLower]
  split
  · rw [isBlankCode_of_visible (by omega) (by omega), isBlankCode_of_visible (by omega) (by omega)]
  · rfl

/-!
## Digits
-/

theorem toNat_digitChar :
    ∀ d < 16, (Nat.digitChar d).toNat = if d < 10 then 0x30 + d else 0x61 + (d - 10) := by
  decide

theorem isBlankChar_digitChar {d : Nat} (h : d < 16) : isBlankChar (Nat.digitChar d) = false := by
  unfold isBlankChar
  rw [toNat_digitChar d h]
  split <;> exact isBlankCode_of_visible (by omega) (by omega)

/-- Letter case makes no difference to the value of a digit. -/
theorem hexValue?_eq_some_iff {c : Char} {d : Nat} :
    hexValue? c = some d ↔ d < 16 ∧ c.toLower = Nat.digitChar d := by
  constructor
  · intro h
    have hd : d < 16 := by
      grind [hexValue?]
    refine ⟨hd, ?_⟩
    rw [← Char.toNat_inj, toNat_toLower, toNat_digitChar d hd]
    grind [hexValue?]
  · rintro ⟨hd, h⟩
    rw [← Char.toNat_inj, toNat_toLower, toNat_digitChar d hd] at h
    grind [hexValue?]

theorem mapM_hexValue?_eq_some_iff {cs : List Char} {digits : List Nat} :
    cs.mapM hexValue? = some digits ↔
      (∀ d ∈ digits, d < 16) ∧ cs.map Char.toLower = digits.map Nat.digitChar := by
  induction cs generalizing digits with
  | nil => cases digits <;> simp
  | cons c cs ih =>
      cases digits with
      | nil => simp [List.mapM_cons, Option.bind_eq_some_iff]
      | cons d digits =>
          have hread : (c :: cs).mapM hexValue? = some (d :: digits) ↔
              hexValue? c = some d ∧ cs.mapM hexValue? = some digits := by
            simp [List.mapM_cons, Option.bind_eq_some_iff]
          rw [hread, hexValue?_eq_some_iff, ih, List.forall_mem_cons, List.map_cons, List.map_cons,
            List.cons.injEq]
          exact and_and_and_comm

end Text
end Courier
