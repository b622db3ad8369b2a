import Courier.Rpc.Backoff
import Mathlib.Algebra.Order.Group.Nat

/-!
# Bounds of the backoff

The delay after a failed attempt lies between the half of a cap and the cap itself, and the cap
doubles from attempt to attempt until it comes to the greatest delay. Counted in words of fixed
width, no step of the calculation is out of range, for any spans and any attempt.

The main statement is `bounded_backoff`.
-/

namespace Courier

namespace Time
namespace Span

/-!
## Spans of fixed width
-/

/-- The span of so many nanoseconds, unless it is longer than the longest one. -/
def ofNanoseconds? (n : Nat) : Option Span :=
  if n ≤ longest.nanoseconds then some ⟨n⟩ else none

def add? (s other : Span) : Option Span :=
  ofNanoseconds? (s.nanoseconds + other.nanoseconds)

def mul? (s : Span) (n : UInt32) : Option Span :=
  ofNanoseconds? (s.nanoseconds * n.toNat)

def saturatingMul (s : Span) (n : UInt32) : Span :=
  (s.mul? n).getD longest

theorem add?_of_le {s other : Span} (h : s.nanoseconds + other.nanoseconds ≤ longest.nanoseconds) :
    s.add? other = some ⟨s.nanoseconds + other.nanoseconds⟩ :=
  if_pos h

theorem saturatingMul_eq (s : Span) (n : UInt32) :
    s.saturatingMul n = min ⟨s.nanoseconds * n.toNat⟩ longest := by
  unfold saturatingMul mul? ofNanoseconds?
  split
  · next hfits => exact congrArg Span.mk (Nat.min_eq_left hfits).symm
  · next hlong => exact congrArg Span.mk (Nat.min_eq_right (Nat.le_of_not_le hlong)).symm

end Span
end Time

namespace Rpc

open Time (Span)

namespace RetryPolicy

/-- The bound of the delay: it doubles with each attempt after the first, sixteen times at most,
and is neither longer than any span nor than the greatest delay. -/
def cap (p : RetryPolicy) (attempt : Nat) : Nat :=
  min (min (p.initial.nanoseconds * 2 ^ min (max attempt 1 - 1) 16) Span.longest.nanoseconds)
    p.greatest.nanoseconds

theorem nanoseconds_ceiling (p : RetryPolicy) (attempt : Nat) :
    (p.ceiling attempt).nanoseconds = p.cap attempt := by
  have hdoublings : doublings attempt = min (max attempt 1 - 1) 16 := by
    unfold doublings
    omega
  unfold cap
  rw [← hdoublings, ← Nat.shiftLeft_eq]
  rfl

theorem cap_mono (p : RetryPolicy) {attempt later : Nat} (h : attempt ≤ later) :
    p.cap attempt ≤ p.cap later := by
  have hpower : 2 ^ min (max attempt 1 - 1) 16 ≤ 2 ^ min (max later 1 - 1) 16 := by
    apply Nat.pow_le_pow_right (by decide)
    omega
  have hdelay := Nat.mul_le_mul_left p.initial.nanoseconds hpower
  unfold cap
  omega

theorem cap_le_greatest (p : RetryPolicy) (attempt : Nat) :
    p.cap attempt ≤ p.greatest.nanoseconds :=
  Nat.min_le_right _ _

theorem cap_le_longest (p : RetryPolicy) (attempt : Nat) :
    p.cap attempt ≤ Span.longest.nanoseconds :=
  Nat.le_trans (Nat.min_le_left _ _) (Nat.min_le_right _ _)

/-!
## The part that is left to chance
-/

theorem nanoseconds_backoff (p : RetryPolicy) (attempt draw : Nat) :
    (p.backoff attempt draw).nanoseconds =
      p.cap attempt / 2 + draw % (p.jitterBound attempt + 1) * 1000000 := by
  rw [← nanoseconds_ceiling]
  rfl

theorem jitter_le (p : RetryPolicy) (attempt draw : Nat) :
    draw % (p.jitterBound attempt + 1) * 1000000 ≤ p.cap attempt / 2 := by
  have hdraw : draw % (p.jitterBound attempt + 1) ≤ p.jitterBound attempt :=
    Nat.le_of_lt_succ (Nat.mod_lt _ (Nat.succ_pos _))
  have hbound : p.jitterBound attempt ≤ p.cap attempt / 2 / 1000000 := by
    rw [← nanoseconds_ceiling]
    exact Nat.mod_le _ _
  calc
    draw % (p.jitterBound attempt + 1) * 1000000
    _ ≤ p.cap attempt / 2 / 1000000 * 1000000 :=
      Nat.mul_le_mul_right _ (Nat.le_trans hdraw hbound)
    _ ≤ p.cap attempt / 2 := Nat.div_mul_le_self _ _

theorem half_le_backoff (p : RetryPolicy) (attempt draw : Nat) :
    p.cap attempt / 2 ≤ (p.backoff attempt draw).nanoseconds := by
  rw [nanoseconds_backoff]
  exact Nat.le_add_right _ _

theorem backoff_le_cap (p : RetryPolicy) (attempt draw : Nat) :
    (p.backoff attempt draw).nanoseconds ≤ p.cap attempt := by
  have hjitter := p.jitter_le attempt draw
  rw [nanoseconds_backoff]
  omega

/-!
## The calculation in words
-/

def shift (attempt : UInt32) : UInt32 :=
  min (if attempt = 0 then 0 else attempt - 1) 16

/-- The factor of the delay, which is out of range if 1 is shifted too far. -/
def factor? (attempt : UInt32) : Option UInt32 :=
  if shift attempt < 32 then some (1 <<< shift attempt) else none

/-- A delay of which the upper half is left to chance, in whole milliseconds counted in a word. -/
def jittered? (delay : Span) (draw : Nat) : Option Span :=
  let half : Span := ⟨delay.nanoseconds / 2⟩
  let bound : UInt64 := .ofNat half.milliseconds
  let jitter : UInt64 := .ofNat (draw % (bound.toNat + 1))
  half.add? (.ofMilliseconds jitter.toNat)

/-- The delay in words of fixed width, and nothing where a step is out of range. -/
def backoff? (p : RetryPolicy) (attempt : UInt32) (draw : Nat) : Option Span :=
  (factor? attempt).bind fun factor =>
    jittered? (min (p.initial.saturatingMul factor) p.greatest) draw

theorem toNat_shift (attempt : UInt32) : (shift attempt).toNat = doublings attempt.toNat := by
  have hbefore : (if attempt = 0 then 0 else attempt - 1).toNat = attempt.toNat - 1 := by
    split
    · next hzero =>
        rw [hzero]
        rfl
    · next hsome =>
        apply UInt32.toNat_sub_of_le
        have hpositive : attempt.toNat ≠ 0 := fun h => hsome (UInt32.toNat_inj.mp h)
        exact UInt32.le_iff_toNat_le.mpr (Nat.pos_of_ne_zero hpositive)
  rw [shift, UInt32.toNat_min, hbefore]
  rfl

theorem doublings_le (attempt : Nat) : doublings attempt ≤ 16 := Nat.min_le_right _ _

theorem exists_factor (attempt : UInt32) :
    ∃ factor, factor? attempt = some factor ∧ factor.toNat = 1 <<< doublings attempt.toNat := by
  have hshift : doublings attempt.toNat < 32 :=
    Nat.lt_of_le_of_lt (doublings_le _) (by decide)
  have hword : 1 <<< doublings attempt.toNat < 2 ^ 32 := by
    rw [Nat.shiftLeft_eq, Nat.one_mul]
    exact Nat.pow_lt_pow_right (by decide) hshift
  refine ⟨1 <<< shift attempt, if_pos ?_, ?_⟩
  · rw [UInt32.lt_iff_toNat_lt, toNat_shift]
    exact hshift
  · rw [UInt32.toNat_shiftLeft, toNat_shift, Nat.mod_eq_of_lt hshift]
    exact Nat.mod_eq_of_lt hword

theorem min_saturatingMul (p : RetryPolicy) {attempt : Nat} {factor : UInt32}
    (h : factor.toNat = 1 <<< doublings attempt) :
    min (p.initial.saturatingMul factor) p.greatest = p.ceiling attempt := by
  rw [Span.saturatingMul_eq, h, ceiling, Nat.shiftLeft_eq, Nat.one_mul, ← Nat.shiftLeft_eq]

theorem jittered?_ceiling (p : RetryPolicy) (attempt draw : Nat) :
    jittered? (p.ceiling attempt) draw = some (p.backoff attempt draw) := by
  have hbound : (UInt64.ofNat (Span.mk ((p.ceiling attempt).nanoseconds / 2)).milliseconds).toNat =
      p.jitterBound attempt := UInt64.toNat_ofNat'
  have hjitter : (UInt64.ofNat (draw % (p.jitterBound attempt + 1))).toNat =
      draw % (p.jitterBound attempt + 1) := by
    have hdraw := Nat.mod_lt draw (Nat.succ_pos (p.jitterBound attempt))
    have hword : p.jitterBound attempt < UInt64.size := Nat.mod_lt _ (by decide)
    rw [UInt64.toNat_ofNat', Nat.mod_eq_of_lt]
    exact Nat.lt_of_lt_of_le hdraw hword
  have hsum := Nat.le_trans (p.backoff_le_cap attempt draw) (p.cap_le_longest attempt)
  rw [jittered?, hbound, hjitter]
  exact Span.add?_of_le hsum

/-- No step of the calculation is out of range. -/
theorem backoff?_eq (p : RetryPolicy) (attempt : UInt32) (draw : Nat) :
    p.backoff? attempt draw = some (p.backoff attempt.toNat draw) := by
  rcases exists_factor attempt with ⟨factor, hfactor, hpower⟩
  rw [backoff?, hfactor, Option.bind_some, p.min_saturatingMul hpower]
  exact p.jittered?_ceiling attempt.toNat draw

/--
What is asked of the delay after an attempt: the calculation does not overflow, the delay lies
between half the cap and the cap for each draw, and later attempts have no lower bounds.
-/
structure Bounded (p : RetryPolicy) (attempt : UInt32) : Prop where
  inRange : ∀ draw, p.backoff? attempt draw = some (p.backoff attempt.toNat draw)
  least : ∀ draw, p.cap attempt.toNat / 2 ≤ (p.backoff attempt.toNat draw).nanoseconds
  most : ∀ draw, (p.backoff attempt.toNat draw).nanoseconds ≤ p.cap attempt.toNat
  greatest : ∀ draw, (p.backoff attempt.toNat draw).nanoseconds ≤ p.greatest.nanoseconds
  grows : ∀ later : UInt32, attempt ≤ later →
    p.cap attempt.toNat ≤ p.cap later.toNat ∧ p.cap attempt.toNat / 2 ≤ p.cap later.toNat / 2

theorem bounded_backoff (p : RetryPolicy) (attempt : UInt32) : p.Bounded attempt where
  inRange := p.backoff?_eq attempt
  least := p.half_le_backoff attempt.toNat
  most := p.backoff_le_cap attempt.toNat
  greatest := fun draw =>
    Nat.le_trans (p.backoff_le_cap attempt.toNat draw) (p.cap_le_greatest attempt.toNat)
  grows := by
    intro later h
    have hcap := p.cap_mono (UInt32.le_iff_toNat_le.mp h)
    exact ⟨hcap, Nat.div_le_div_right hcap⟩

end RetryPolicy
end Rpc
end Courier
