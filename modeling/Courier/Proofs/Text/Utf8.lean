import Courier.Text.Utf8

/-!
# Text and its octets

The octets of a text are read back as that text.
-/

namespace Courier
namespace Text
namespace Utf8

inductive Encoded (c : Char) : Bytes → Prop where
  | one (range : c.toNat < 0x80) : Encoded c [UInt8.ofNat c.toNat]
  | two (range : 0x80 ≤ c.toNat ∧ c.toNat < 0x800) :
      Encoded c [UInt8.ofNat (c.toNat / 64 + 0xC0), UInt8.ofNat (c.toNat % 64 + 0x80)]
  | three (range : 0x800 ≤ c.toNat ∧ c.toNat < 0x10000) :
      Encoded c [UInt8.ofNat (c.toNat / 4096 + 0xE0), UInt8.ofNat (c.toNat / 64 % 64 + 0x80),
        UInt8.ofNat (c.toNat % 64 + 0x80)]
  | four (range : 0x10000 ≤ c.toNat) :
      Encoded c [UInt8.ofNat (c.toNat / 262144 + 0xF0), UInt8.ofNat (c.toNat / 4096 % 64 + 0x80),
        UInt8.ofNat (c.toNat / 64 % 64 + 0x80), UInt8.ofNat (c.toNat % 64 + 0x80)]

theorem toNat_bounds (c : Char) :
    c.toNat < 0xD800 ∨ (0xDFFF < c.toNat ∧ c.toNat < 0x110000) :=
  c.valid

theorem encoded_encodeChar (c : Char) : Encoded c (encodeChar c) := by
  have hbounds := toNat_bounds c
  have hval : c.val.toNat = c.toNat := rfl
  unfold encodeChar String.utf8EncodeChar
  simp only [hval]
  split
  · exact .one (by omega)
  · split
    · rw [show c.toNat / 64 % 32 = c.toNat / 64 by omega]
      exact .two (by omega)
    · split
      · rw [show c.toNat / 4096 % 16 = c.toNat / 4096 by omega]
        exact .three (by omega)
      · rw [show c.toNat / 262144 % 8 = c.toNat / 262144 by omega]
        exact .four (by omega)

theorem toNat_octet {n : Nat} (h : n < 256) : (UInt8.ofNat n).toNat = n :=
  UInt8.toNat_ofNat_of_lt' h

/-!
## Scanning one character
-/

theorem step_start {found : List (Option Char)} {n : Nat} {b : Begun} (hn : n < 256)
    (hlead : lead n = .begins b) :
    Scan.step ⟨none, found⟩ (UInt8.ofNat n) = ⟨some b, found⟩ := by
  simp only [Scan.step, Scan.start, toNat_octet hn, hlead]

theorem step_owed {found : List (Option Char)} {b : Begun} {n : Nat} (howed : 1 < b.owed)
    (hbounds : b.least ≤ n ∧ n ≤ b.greatest) (hn : n < 256) :
    Scan.step ⟨some b, found⟩ (UInt8.ofNat n) =
      ⟨some { bits := b.bits * 64 + (n - 0x80), owed := b.owed - 1 }, found⟩ := by
  simp only [Scan.step, toNat_octet hn]
  rw [if_pos hbounds, if_neg (by omega)]

theorem step_last {found : List (Option Char)} {b : Begun} {n : Nat} (howed : b.owed ≤ 1)
    (hbounds : b.least ≤ n ∧ n ≤ b.greatest) (hn : n < 256) :
    Scan.step ⟨some b, found⟩ (UInt8.ofNat n) =
      ⟨none, some (Char.ofNat (b.bits * 64 + (n - 0x80))) :: found⟩ := by
  simp only [Scan.step, toNat_octet hn]
  rw [if_pos hbounds, if_pos howed]

theorem lead_one {n : Nat} (h : n < 0x80) : lead n = .whole (Char.ofNat n) := by
  unfold lead
  rw [if_pos h]

theorem lead_two {n : Nat} (h : 2 ≤ n ∧ n < 0x20) :
    ∃ b, lead (n + 0xC0) = .begins b ∧ b.bits = n ∧ b.owed = 1 ∧ b.least = 0x80 ∧
      b.greatest = 0xBF := by
  refine ⟨{ bits := n, owed := 1 }, ?_, rfl, rfl, rfl, rfl⟩
  unfold lead
  rw [if_neg (by omega), if_neg (by omega), if_pos (by omega), Nat.add_sub_cancel]

/-- Of three octets, the second is not that of a long form or of a surrogate. -/
theorem lead_three {n m : Nat} (hn : n < 0x10) (hm : m < 0x40) (hlong : n = 0 → 0x20 ≤ m)
    (hsurrogate : n = 0xD → m < 0x20) :
    ∃ b, lead (n + 0xE0) = .begins b ∧ b.bits = n ∧ b.owed = 2 ∧ b.least ≤ m + 0x80 ∧
      m + 0x80 ≤ b.greatest := by
  by_cases hzero : n = 0
  · have hleast := hlong hzero
    refine ⟨{ bits := 0, owed := 2, least := 0xA0 }, ?_, hzero.symm, rfl, ?_, ?_⟩
    · rw [hzero]
      rfl
    · simp only
      omega
    · simp only
      omega
  · by_cases hthirteen : n = 0xD
    · have hgreatest := hsurrogate hthirteen
      refine ⟨{ bits := 0xD, owed := 2, greatest := 0x9F }, ?_, hthirteen.symm, rfl, ?_, ?_⟩
      · rw [hthirteen]
        rfl
      · simp only
        omega
      · simp only
        omega
    · refine ⟨{ bits := n, owed := 2 }, ?_, rfl, rfl, ?_, ?_⟩
      · unfold lead
        rw [if_neg (by omega), if_neg (by omega), if_neg (by omega), if_neg (by omega),
          if_neg (by omega), if_pos (by omega), Nat.add_sub_cancel]
      · simp only
        omega
      · simp only
        omega

/-- Of four octets, the second is not that of a long form or past the last code point. -/
theorem lead_four {n m : Nat} (hn : n < 5) (hm : m < 0x40) (hlong : n = 0 → 0x10 ≤ m)
    (hlast : n = 4 → m < 0x10) :
    ∃ b, lead (n + 0xF0) = .begins b ∧ b.bits = n ∧ b.owed = 3 ∧ b.least ≤ m + 0x80 ∧
      m + 0x80 ≤ b.greatest := by
  by_cases hzero : n = 0
  · have hleast := hlong hzero
    refine ⟨{ bits := 0, owed := 3, least := 0x90 }, ?_, hzero.symm, rfl, ?_, ?_⟩
    · rw [hzero]
      rfl
    · simp only
      omega
    · simp only
      omega
  · by_cases hfour : n = 4
    · have hgreatest := hlast hfour
      refine ⟨{ bits := 4, owed := 3, greatest := 0x8F }, ?_, hfour.symm, rfl, ?_, ?_⟩
      · rw [hfour]
        rfl
      · simp only
        omega
      · simp only
        omega
    · refine ⟨{ bits := n, owed := 3 }, ?_, rfl, rfl, ?_, ?_⟩
      · unfold lead
        rw [if_neg (by omega), if_neg (by omega), if_neg (by omega), if_neg (by omega),
          if_neg (by omega), if_neg (by omega), if_neg (by omega), if_pos (by omega),
          Nat.add_sub_cancel]
      · simp only
        omega
      · simp only
        omega

/-!
## Scanning texts
-/

theorem foldl_encodeChar (c : Char) (found : List (Option Char)) :
    (encodeChar c).foldl Scan.step ⟨none, found⟩ = ⟨none, some c :: found⟩ := by
  have hbounds := toNat_bounds c
  -- The bits that the octets bring are those of the code point.
  have hwhole : ∀ n, n = c.toNat → some (Char.ofNat n) = some c := by
    intro n hn
    rw [hn, Char.ofNat_toNat]
  have hencoded := encoded_encodeChar c
  generalize encodeChar c = octets at hencoded ⊢
  cases hencoded with
  | one range =>
      simp only [List.foldl_cons, List.foldl_nil, Scan.step, Scan.start,
        toNat_octet (show c.toNat < 256 by omega), lead_one range, Char.ofNat_toNat]
  | two range =>
      rcases lead_two (n := c.toNat / 64) (by omega) with
        ⟨b, hlead, hbits, howed, hleast, hgreatest⟩
      simp only [List.foldl_cons, List.foldl_nil]
      rw [step_start (by omega) hlead, step_last (by omega) (by omega) (by omega),
        hwhole _ (by omega)]
  | three range =>
      rcases lead_three (n := c.toNat / 4096) (m := c.toNat / 64 % 64) (by omega) (by omega)
        (by omega) (by omega) with ⟨b, hlead, hbits, howed, hleast, hgreatest⟩
      simp only [List.foldl_cons, List.foldl_nil]
      rw [step_start (by omega) hlead, step_owed (by omega) ⟨hleast, hgreatest⟩ (by omega),
        step_last (by simp only; omega) (by simp only; omega) (by omega),
        hwhole _ (by simp only; omega)]
  | four range =>
      rcases lead_four (n := c.toNat / 262144) (m := c.toNat / 4096 % 64) (by omega) (by omega)
        (by omega) (by omega) with ⟨b, hlead, hbits, howed, hleast, hgreatest⟩
      simp only [List.foldl_cons, List.foldl_nil]
      rw [step_start (by omega) hlead, step_owed (by omega) ⟨hleast, hgreatest⟩ (by omega),
        step_owed (by simp only; omega) (by simp only; omega) (by omega),
        step_last (by simp only; omega) (by simp only; omega) (by omega),
        hwhole _ (by simp only; omega)]

theorem foldl_encodeChars (cs : List Char) (found : List (Option Char)) :
    (encodeChars cs).foldl Scan.step ⟨none, found⟩ = ⟨none, cs.reverse.map some ++ found⟩ := by
  induction cs generalizing found with
  | nil => rfl
  | cons c rest ih =>
      have hcons : encodeChars (c :: rest) = encodeChar c ++ encodeChars rest := rfl
      rw [hcons, List.foldl_append, foldl_encodeChar, ih]
      simp

theorem scan_encodeChars (cs : List Char) : scan (encodeChars cs) = cs.map some := by
  have hfold := foldl_encodeChars cs []
  unfold scan
  rw [hfold]
  simp [Scan.finish]

theorem decode?_encode (s : String) : decode? (encode s) = some s := by
  have hscan := scan_encodeChars s.toList
  unfold decode? encode
  rw [hscan]
  simp [Function.comp_def]

end Utf8
end Text
end Courier
