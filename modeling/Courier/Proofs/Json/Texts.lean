import Courier.Proofs.Json.Tokens

/-!
# Texts in strings

A text is written as pieces of a string that are read back as that text.
-/

namespace Courier
namespace Json

open Text (Bytes)
open Text.Utf8 (encodeChar encodeChars)

/-!
## Pieces of a text
-/

theorem plain_ofChar (c : Char) : ∀ p ∈ Piece.ofChar c, Token.Plain p := by
  intro p hp
  unfold Piece.ofChar at hp
  split at hp
  · next hcontrol =>
      rw [List.mem_singleton.mp hp]
      exact .unit (by omega)
  · next hvisible =>
      rcases List.mem_map.mp hp with ⟨b, hb, rfl⟩
      have hoctet : ∀ n, n < 256 → 0x20 ≤ n → Token.Plain (.octet (UInt8.ofNat n)) := by
        intro n hn hle
        refine .octet fun _ => ?_
        rw [UInt8.le_iff_toNat_le, Text.Utf8.toNat_octet hn]
        exact hle
      have hbounds := Text.Utf8.toNat_bounds c
      have hencoded := Text.Utf8.encoded_encodeChar c
      generalize encodeChar c = octets at hencoded hb
      cases hencoded with
      | one range =>
          rw [List.mem_singleton.mp hb]
          refine .octet fun hletter => ?_
          rw [UInt8.le_iff_toNat_le, Text.Utf8.toNat_octet (by omega)]
          by_cases h : c.toNat < 0x20
          · exact absurd ⟨h, hletter⟩ hvisible
          · exact Nat.le_of_not_lt h
      | two range =>
          simp only [List.mem_cons, List.not_mem_nil, or_false] at hb
          rcases hb with rfl | rfl <;> exact hoctet _ (by omega) (by omega)
      | three range =>
          simp only [List.mem_cons, List.not_mem_nil, or_false] at hb
          rcases hb with rfl | rfl | rfl <;> exact hoctet _ (by omega) (by omega)
      | four range =>
          simp only [List.mem_cons, List.not_mem_nil, or_false] at hb
          rcases hb with rfl | rfl | rfl | rfl <;> exact hoctet _ (by omega) (by omega)

theorem plain_ofText (s : String) : ∀ p ∈ Piece.ofText s, Token.Plain p := by
  intro p hp
  rcases List.mem_flatMap.mp hp with ⟨c, _, hc⟩
  exact plain_ofChar c p hc

/-!
## The text of its pieces
-/

theorem foldlM_octets (bytes octets : Bytes) :
    (bytes.map Piece.octet).foldlM Resolving.step ⟨octets, none⟩ =
      some ⟨bytes.reverse ++ octets, none⟩ := by
  induction bytes generalizing octets with
  | nil => rfl
  | cons b rest ih =>
      rw [List.map_cons, List.foldlM_cons]
      simp [Resolving.step, ih]

theorem foldlM_ofChar (c : Char) (octets : Bytes) :
    (Piece.ofChar c).foldlM Resolving.step ⟨octets, none⟩ =
      some ⟨(encodeChar c).reverse ++ octets, none⟩ := by
  unfold Piece.ofChar
  split
  · next hcontrol =>
      -- A control character is no surrogate.
      have hleading : isLeading c.toNat = false := by
        simp only [isLeading, Bool.and_eq_false_iff, decide_eq_false_iff_not]
        omega
      have htrailing : isTrailing c.toNat = false := by
        simp only [isTrailing, Bool.and_eq_false_iff, decide_eq_false_iff_not]
        omega
      simp [Resolving.step, hleading, htrailing, Resolving.push]
  · exact foldlM_octets _ _

theorem foldlM_ofChars (cs : List Char) (octets : Bytes) :
    (cs.flatMap Piece.ofChar).foldlM Resolving.step ⟨octets, none⟩ =
      some ⟨(encodeChars cs).reverse ++ octets, none⟩ := by
  induction cs generalizing octets with
  | nil => rfl
  | cons c rest ih =>
      have hencode : encodeChars (c :: rest) = encodeChar c ++ encodeChars rest := rfl
      rw [List.flatMap_cons, List.foldlM_append, foldlM_ofChar, Option.bind_eq_bind,
        Option.bind_some, ih, hencode, List.reverse_append, List.append_assoc]

theorem text?_ofText (s : String) : text? (Piece.ofText s) = some s := by
  have hfold := foldlM_ofChars s.toList []
  rw [List.append_nil] at hfold
  unfold text? Piece.ofText
  rw [hfold]
  simp only [List.reverse_reverse]
  exact Text.Utf8.decode?_encode s

end Json
end Courier
