import Courier.Decimal.Numeral
import Mathlib.Data.Nat.Digits.Defs

/-!
# Digits of numbers

The digits of a number are below ten, do not begin with a zero in front of others, and
have the number as their value.
-/

namespace Courier
namespace Decimal

theorem ofDigits_eq (digits : List Nat) : ofDigits digits = Nat.ofDigits 10 digits.reverse := by
  rw [ofDigits, List.foldl_eq_foldr_reverse, Nat.ofDigits_eq_foldr]
  congr 1
  funext d n
  rw [Nat.cast_id]
  omega

theorem digitsOf_of_lt {n : Nat} (h : n < 10) : digitsOf n = [n] := by
  rw [digitsOf, Nat.toDigits_of_lt_base h]
  exact congrArg (fun d => [d]) (Nat.toNat_digitChar_sub_48_of_lt_ten h)

theorem digitsOf_of_le {n : Nat} (h : 10 ≤ n) : digitsOf n = digitsOf (n / 10) ++ [n % 10] := by
  have hlast : (Nat.digitChar (n % 10)).toNat - '0'.toNat = n % 10 :=
    Nat.toNat_digitChar_sub_48_of_lt_ten (Nat.mod_lt n (by omega))
  rw [digitsOf, Nat.toDigits_of_base_le (by omega) h, List.map_append, List.map_singleton, hlast]
  rfl

/-- What a single digit has, and what is kept by a further digit, all digits of numbers have. -/
theorem digitsOf_induction {P : Nat → List Nat → Prop} (single : ∀ n, n < 10 → P n [n])
    (further : ∀ n digits, 10 ≤ n → P (n / 10) digits → P n (digits ++ [n % 10])) (n : Nat) :
    P n (digitsOf n) := by
  induction n using Nat.strongRecOn with
  | ind n ih =>
      by_cases h : n < 10
      · rw [digitsOf_of_lt h]
        exact single n h
      · rw [digitsOf_of_le (by omega)]
        exact further n _ (by omega) (ih (n / 10) (by omega))

theorem ofDigits_digitsOf (n : Nat) : ofDigits (digitsOf n) = n := by
  refine digitsOf_induction (P := fun n digits => ofDigits digits = n) ?_ ?_ n
  · intro n _
    simp [ofDigits]
  · intro n digits _ ih
    unfold ofDigits at ih ⊢
    rw [List.foldl_append, ih]
    simp only [List.foldl_cons, List.foldl_nil]
    omega

theorem lt_of_mem_digitsOf {n d : Nat} (h : d ∈ digitsOf n) : d < 10 := by
  refine digitsOf_induction (P := fun _ digits => ∀ d ∈ digits, d < 10) ?_ ?_ n d h
  · intro n hn d hd
    rwa [List.mem_singleton.mp hd]
  · intro n digits _ ih d hd
    rcases List.mem_append.mp hd with hd | hd
    · exact ih d hd
    · rw [List.mem_singleton.mp hd]
      exact Nat.mod_lt n (by omega)

theorem exists_head_digitsOf (n : Nat) :
    ∃ d rest, digitsOf n = d :: rest ∧ (d = 0 → n = 0 ∧ rest = []) := by
  refine digitsOf_induction (P := fun n digits =>
    ∃ d rest, digits = d :: rest ∧ (d = 0 → n = 0 ∧ rest = [])) ?_ ?_ n
  · intro n _
    exact ⟨n, [], rfl, fun h => ⟨h, rfl⟩⟩
  · intro n digits hn ih
    rcases ih with ⟨d, rest, rfl, hzero⟩
    refine ⟨d, rest ++ [n % 10], rfl, ?_⟩
    intro hd
    have hsmall := (hzero hd).left
    omega

theorem toInt?_ofInt (n : Int) : (Numeral.ofInt n).toInt? = some n := by
  simp only [Numeral.toInt?, Numeral.ofInt, ofDigits_digitsOf, List.isEmpty_nil,
    Option.isNone_none, Bool.and_self, if_true]
  by_cases h : n < 0
  · have hne : n.natAbs ≠ 0 := by omega
    simp only [h, decide_true, if_true, hne, if_false, Option.some.injEq]
    omega
  · simp only [h, decide_false, Bool.false_eq_true, if_false, Option.some.injEq]
    omega

end Decimal
end Courier
