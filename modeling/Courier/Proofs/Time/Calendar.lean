import Courier.Time.Instant
import Mathlib.Logic.Function.Iterate
import Mathlib.Tactic.SplitIfs

/-!
# The calendar day by day

The calendar is counted by going from each day to the next. The number of days since the
start of 1970 that is calculated for a valid date is the one that is counted.

The main statement is `isDay_iff`.
-/

namespace Courier
namespace Time
namespace Date

def next (d : Date) : Date :=
  if d.day < daysInMonth d.year d.month then { d with day := d.day + 1 }
  else if d.month < 12 then ⟨d.year, d.month + 1, 1⟩
  else ⟨d.year + 1, 1, 1⟩

def epoch : Date := ⟨1970, 1, 1⟩

def first : Date := ⟨0, 1, 1⟩

/-- The date is so many days after the start of 1970, or before it. -/
def IsDay : Int → Date → Prop
  | .ofNat n, d => next^[n] epoch = d
  | .negSucc n, d => next^[n + 1] d = epoch

theorem isValid_iff {d : Date} : d.isValid = true ↔
    1 ≤ d.month ∧ d.month ≤ 12 ∧ 1 ≤ d.day ∧ d.day ≤ daysInMonth d.year d.month := by
  simp only [isValid, Bool.and_eq_true, decide_eq_true_eq, and_assoc]

/-!
## Months and years
-/

theorem one_le_daysInMonth (year month : Nat) : 1 ≤ daysInMonth year month := by
  unfold daysInMonth
  split_ifs <;> omega

theorem daysInMonth_le (year month : Nat) : daysInMonth year month ≤ 31 := by
  unfold daysInMonth
  split_ifs <;> omega

theorem daysBeforeMonth_one (year : Nat) : daysBeforeMonth year 1 = 0 :=
  rfl

theorem daysBeforeMonth_succ (year : Nat) {month : Nat} (h : 1 ≤ month) :
    daysBeforeMonth year (month + 1) = daysBeforeMonth year month + daysInMonth year month := by
  rcases Nat.exists_eq_add_of_le' h with ⟨m, rfl⟩
  simp only [daysBeforeMonth, Nat.add_sub_cancel, List.range_succ, List.foldl_append,
    List.foldl_cons, List.foldl_nil]

theorem daysBeforeMonth_le (year month : Nat) : daysBeforeMonth year month ≤ 31 * (month - 1) := by
  induction month with
  | zero => exact Nat.le_refl 0
  | succ month ih =>
      rcases Nat.eq_zero_or_pos month with rfl | hpos
      · exact Nat.le_refl 0
      · have hmonth := daysInMonth_le year month
        rw [daysBeforeMonth_succ year hpos]
        omega

def daysInYear (year : Nat) : Nat :=
  if isLeapYear year then 366 else 365

theorem daysBeforeMonth_december (year : Nat) :
    daysBeforeMonth year 12 + daysInMonth year 12 = daysInYear year := by
  unfold daysInYear daysBeforeMonth
  cases h : isLeapYear year <;> simp [List.range_succ, daysInMonth, h]

theorem isLeapYear_iff {year : Nat} :
    isLeapYear year = true ↔ year % 4 = 0 ∧ (year % 100 ≠ 0 ∨ year % 400 = 0) := by
  simp [isLeapYear]

theorem daysBeforeYear_succ (year : Nat) :
    daysBeforeYear (year + 1) = daysBeforeYear year + daysInYear year := by
  have h4 : (year + 1 + 3) / 4 = (year + 3) / 4 + if year % 4 = 0 then 1 else 0 := by
    split <;> omega
  have h100 : (year + 1 + 99) / 100 = (year + 99) / 100 + if year % 100 = 0 then 1 else 0 := by
    split <;> omega
  have h400 : (year + 1 + 399) / 400 = (year + 399) / 400 + if year % 400 = 0 then 1 else 0 := by
    split <;> omega
  have hcenturies : year % 100 = 0 → year % 4 = 0 := by omega
  have hfour : year % 400 = 0 → year % 100 = 0 := by omega
  have hfew : (year + 99) / 100 ≤ 365 * year := by omega
  unfold daysBeforeYear daysInYear
  rw [h4, h100, h400]
  generalize (year + 3) / 4 = fours, (year + 99) / 100 = hundreds,
    (year + 399) / 400 = fourHundreds at hfew ⊢
  simp only [isLeapYear_iff]
  split_ifs <;> omega

theorem daysBeforeYear_le (year : Nat) : daysBeforeYear year ≤ 366 * year + 1 := by
  unfold daysBeforeYear
  omega

/-!
## From day to day
-/

def ordinal (d : Date) : Nat :=
  daysBeforeYear d.year + daysBeforeMonth d.year d.month + (d.day - 1)

theorem epochDays_eq (d : Date) (h : d.isValid = true) :
    d.epochDays = (ordinal d : Int) - (ordinal epoch : Int) := by
  rcases isValid_iff.mp h with ⟨-, -, hday, -⟩
  have hepoch : ordinal epoch = daysBeforeYear 1970 := rfl
  rw [hepoch, epochDays, ordinal]
  omega

theorem ordinal_le {d : Date} (h : d.isValid = true) : d.ordinal ≤ 366 * d.year + 372 := by
  rcases isValid_iff.mp h with ⟨-, hmonths, -, hdays⟩
  have hyear := daysBeforeYear_le d.year
  have hmonth := daysBeforeMonth_le d.year d.month
  have hday := daysInMonth_le d.year d.month
  unfold ordinal
  omega

theorem isValid_next {d : Date} (h : d.isValid = true) : d.next.isValid = true := by
  rcases isValid_iff.mp h with ⟨hmonth, hmonths, hday, hdays⟩
  rw [isValid_iff]
  unfold next
  split
  · next hlast => exact ⟨hmonth, hmonths, Nat.le_add_left 1 d.day, hlast⟩
  · split
    · next hyear =>
        exact ⟨Nat.le_add_left 1 d.month, hyear, Nat.le_refl 1, one_le_daysInMonth _ _⟩
    · exact ⟨Nat.le_refl 1, Nat.le_add_left 1 11, Nat.le_refl 1, one_le_daysInMonth _ _⟩

theorem ordinal_next {d : Date} (h : d.isValid = true) : d.next.ordinal = d.ordinal + 1 := by
  rcases isValid_iff.mp h with ⟨hmonth, hmonths, hday, hdays⟩
  unfold next
  split
  · simp only [ordinal]
    omega
  · next hlast =>
      split
      · simp only [ordinal, daysBeforeMonth_succ d.year hmonth]
        omega
      · next hyear =>
          have hdecember : d.month = 12 := by omega
          have hmonths := daysBeforeMonth_december d.year
          rw [hdecember] at hdays hlast
          simp only [ordinal, daysBeforeYear_succ, daysBeforeMonth_one, hdecember]
          omega

theorem isValid_iterate {d : Date} (h : d.isValid = true) (n : Nat) :
    (next^[n] d).isValid = true := by
  induction n with
  | zero => exact h
  | succ n ih =>
      rw [Function.iterate_succ_apply']
      exact isValid_next ih

theorem ordinal_iterate {d : Date} (h : d.isValid = true) (n : Nat) :
    (next^[n] d).ordinal = d.ordinal + n := by
  induction n with
  | zero => rfl
  | succ n ih =>
      rw [Function.iterate_succ_apply', ordinal_next (isValid_iterate h n), ih, Nat.add_assoc]

theorem exists_next_eq {d : Date} (h : d.isValid = true) (hne : d ≠ first) :
    ∃ p : Date, p.isValid = true ∧ p.next = d := by
  rcases d with ⟨year, month, day⟩
  rcases isValid_iff.mp h with ⟨hmonth, hmonths, hday, hdays⟩
  simp only at hmonth hmonths hday hdays
  by_cases hfirst : 1 < day
  · refine ⟨⟨year, month, day - 1⟩, isValid_iff.mpr ⟨hmonth, hmonths, ?_, ?_⟩, ?_⟩
    · exact Nat.le_sub_one_of_lt hfirst
    · exact Nat.le_trans (Nat.sub_le day 1) hdays
    · unfold next
      rw [if_pos (by simp only; omega)]
      simp only [Nat.sub_add_cancel hday]
  -- The first day of a month comes after the last of the month before.
  obtain rfl : day = 1 := by omega
  by_cases hjanuary : 1 < month
  · refine ⟨⟨year, month - 1, daysInMonth year (month - 1)⟩, isValid_iff.mpr ?_, ?_⟩
    · exact ⟨Nat.le_sub_one_of_lt hjanuary, Nat.le_trans (Nat.sub_le month 1) hmonths,
        one_le_daysInMonth _ _, Nat.le_refl _⟩
    · unfold next
      rw [if_neg (Nat.lt_irrefl _), if_pos (by simp only; omega)]
      simp only [Nat.sub_add_cancel hmonth]
  obtain rfl : month = 1 := by omega
  have hyear : 1 ≤ year := by
    by_contra hzero
    obtain rfl : year = 0 := by omega
    exact hne rfl
  have hdecember : daysInMonth (year - 1) 12 = 31 := rfl
  refine ⟨⟨year - 1, 12, 31⟩, isValid_iff.mpr ?_, ?_⟩
  · exact ⟨Nat.le_add_left 1 11, Nat.le_refl 12, Nat.le_add_left 1 30, Nat.le_refl 31⟩
  · simp only [next, hdecember, Nat.lt_irrefl, if_false, Nat.sub_add_cancel hyear]

theorem iterate_ordinal {d : Date} (h : d.isValid = true) : next^[d.ordinal] first = d := by
  generalize hn : d.ordinal = n
  induction n generalizing d with
  | zero =>
      by_contra hne
      rcases exists_next_eq h (Ne.symm hne) with ⟨p, hp, rfl⟩
      rw [ordinal_next hp] at hn
      cases hn
  | succ n ih =>
      have hne : d ≠ first := by
        rintro rfl
        cases hn
      rcases exists_next_eq h hne with ⟨p, hp, rfl⟩
      rw [ordinal_next hp] at hn
      rw [Function.iterate_succ_apply', ih hp (Nat.succ.inj hn)]

/-- A day is so many days later than another if it is counted so much further. -/
theorem iterate_eq_iff {d e : Date} (hd : d.isValid = true) (he : e.isValid = true) (n : Nat) :
    next^[n] d = e ↔ e.ordinal = d.ordinal + n := by
  constructor
  · rintro rfl
    exact ordinal_iterate hd n
  · intro h
    calc
      next^[n] d
      _ = next^[n] (next^[d.ordinal] first) := by rw [iterate_ordinal hd]
      _ = next^[e.ordinal] first := by rw [← Function.iterate_add_apply, h, Nat.add_comm]
      _ = e := iterate_ordinal he

theorem isValid_epoch : epoch.isValid = true := by
  decide

/-- The days that are calculated for a valid date are those that are counted. -/
theorem isDay_iff {d : Date} (h : d.isValid = true) {n : Int} : IsDay n d ↔ n = d.epochDays := by
  rw [epochDays_eq d h]
  cases n with
  | ofNat n =>
      rw [IsDay, iterate_eq_iff isValid_epoch h, Int.ofNat_eq_natCast]
      omega
  | negSucc n =>
      rw [IsDay, iterate_eq_iff h isValid_epoch]
      omega

end Date
end Time
end Courier
