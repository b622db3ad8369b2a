import Courier.Proofs.Text.Utf8
import Courier.Webhook.Path
import Mathlib.Data.List.TakeWhile

/-!
# Providers in paths

A path can name any provider whose name is not empty, whatever characters the name holds: its
octets are written with percent signs, and none of what is written ends the segment.
-/

namespace Courier
namespace Text

def percentWritten (octet : UInt8) : List Char :=
  ['%', (octet.toNat / 16).digitChar, (octet.toNat % 16).digitChar]

/-!
## Octets
-/

theorem encodeChar_digitChar {n : Nat} (h : n < 16) :
    Utf8.encodeChar n.digitChar = [UInt8.ofNat n.digitChar.toNat] := by
  have hall : ∀ n < 16, Utf8.encodeChar n.digitChar = [UInt8.ofNat n.digitChar.toNat] := by decide
  exact hall n h

theorem hexValue?_digitChar {n : Nat} (h : n < 16) :
    hexValue? (Char.ofNat (UInt8.ofNat n.digitChar.toNat).toNat) = some n := by
  have hall : ∀ n < 16,
      hexValue? (Char.ofNat (UInt8.ofNat n.digitChar.toNat).toNat) = some n := by decide
  exact hall n h

theorem percentDecode_percentWritten (octet : UInt8) (rest : Bytes) :
    percentDecode (Utf8.encodeChars (percentWritten octet) ++ rest) =
      octet :: percentDecode rest := by
  have hoctet : octet.toNat < 256 := octet.toNat_lt
  have hhigh : octet.toNat / 16 < 16 := by omega
  have hlow : octet.toNat % 16 < 16 := Nat.mod_lt _ (by omega)
  have hvalue : octetOfHex? (UInt8.ofNat (octet.toNat / 16).digitChar.toNat)
      (UInt8.ofNat (octet.toNat % 16).digitChar.toNat) = some octet := by
    simp only [octetOfHex?, hexValue?_digitChar hhigh, hexValue?_digitChar hlow]
    rw [Nat.div_add_mod', UInt8.ofNat_toNat]
  have hpercent : Utf8.encodeChar '%' = [0x25] := by decide
  simp only [percentWritten, Utf8.encodeChars, List.flatMap_cons, List.flatMap_nil, hpercent,
    encodeChar_digitChar hhigh, encodeChar_digitChar hlow, List.cons_append, List.nil_append,
    percentDecode, hvalue]

theorem percentDecode_flatMap_percentWritten (bytes : Bytes) :
    percentDecode (Utf8.encodeChars (bytes.flatMap percentWritten)) = bytes := by
  induction bytes with
  | nil => rfl
  | cons octet rest ih =>
      rw [List.flatMap_cons, Utf8.encodeChars, List.flatMap_append]
      exact (percentDecode_percentWritten octet _).trans (congrArg (octet :: ·) ih)

theorem percentWritten_safe {octet : UInt8} {c : Char} (h : c ∈ percentWritten octet) :
    c ≠ '/' ∧ c ≠ '?' ∧ c ≠ '#' := by
  have hdigit : ∀ n < 16, n.digitChar ≠ '/' ∧ n.digitChar ≠ '?' ∧ n.digitChar ≠ '#' := by decide
  have hoctet : octet.toNat < 256 := octet.toNat_lt
  simp only [percentWritten, List.mem_cons, List.not_mem_nil, or_false] at h
  rcases h with rfl | rfl | rfl
  · decide
  · exact hdigit _ (by omega)
  · exact hdigit _ (Nat.mod_lt _ (by omega))

end Text

namespace Webhook

open Text (percentWritten)

def segmentOf (name : String) : List Char :=
  (Text.Utf8.encode name).flatMap percentWritten

def targetOf (name : String) : String :=
  String.ofList (['/', 'w', 'h', '/'] ++ segmentOf name)

/-!
## Targets
-/

theorem segmentOf_safe {name : String} {c : Char} (h : c ∈ segmentOf name) :
    c ≠ '/' ∧ c ≠ '?' ∧ c ≠ '#' := by
  rcases List.mem_flatMap.mp h with ⟨octet, _, hc⟩
  exact Text.percentWritten_safe hc

theorem decode?_segmentOf (name : String) :
    Text.Utf8.decode? (Text.percentDecode (Text.Utf8.encodeChars (segmentOf name))) =
      some name := by
  rw [segmentOf, Text.percentDecode_flatMap_percentWritten]
  exact Text.Utf8.decode?_encode name

theorem segmentOf_ne_nil {name : String} (h : name ≠ "") : segmentOf name ≠ [] := by
  intro hnil
  have hdecode := decode?_segmentOf name
  rw [hnil] at hdecode
  exact h (Option.some.inj hdecode).symm

theorem pathOf_targetOf (name : String) : pathOf (targetOf name) = targetOf name := by
  have hroot : (['/', 'w', 'h', '/'].all fun c => c != '?' && c != '#') = true := by decide
  have hall : (['/', 'w', 'h', '/'] ++ segmentOf name).takeWhile
      (fun c => c != '?' && c != '#') = ['/', 'w', 'h', '/'] ++ segmentOf name := by
    rw [List.takeWhile_eq_self_iff]
    intro c hc
    rcases List.mem_append.mp hc with hc | hc
    · exact List.all_eq_true.mp hroot c hc
    · have hsafe := segmentOf_safe hc
      simp [hsafe.right.left, hsafe.right.right]
  unfold pathOf targetOf
  rw [String.toList_ofList, hall]
  rfl

theorem split_targetOf (name : String) :
    Text.split '/' (targetOf name) = ["", "wh", String.ofList (segmentOf name)] := by
  have hsegment : '/' ∉ segmentOf name := fun hc => (segmentOf_safe hc).left rfl
  have hchars : ['/', 'w', 'h', '/'] ++ segmentOf name =
      [] ++ '/' :: (['w', 'h'] ++ '/' :: segmentOf name) := rfl
  rw [Text.split, targetOf, String.toList_ofList, hchars, Text.splitChars_append (by decide),
    Text.splitChars_append (by decide), Text.splitChars_of_not_mem hsegment]
  rfl

/-- Each name but the empty one can stand in a target. -/
theorem routeOf_targetOf {name : String} (h : name ≠ "") :
    routeOf (targetOf name) = .provider name := by
  have hhealth : targetOf name ≠ "/healthz" := by
    intro heq
    have hlength : (Text.split '/' "/healthz").length = 2 := by decide +kernel
    rw [← heq, split_targetOf] at hlength
    cases hlength
  have hempty : (String.ofList (segmentOf name)).isEmpty = false := by
    rw [Bool.eq_false_iff, ne_eq, String.isEmpty_iff, ← String.toList_eq_nil_iff,
      String.toList_ofList]
    exact segmentOf_ne_nil h
  have hdecode : Text.Utf8.decode?
      (Text.percentDecode (Text.Utf8.encode (String.ofList (segmentOf name)))) = some name := by
    rw [Text.Utf8.encode, String.toList_ofList]
    exact decode?_segmentOf name
  unfold routeOf
  simp only [pathOf_targetOf, if_neg hhealth, split_targetOf, hempty, Bool.false_eq_true,
    if_false, hdecode]

end Webhook
end Courier
