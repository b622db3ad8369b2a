import Courier.Bus.DeadLetter
import Courier.Proofs.Json.Records

/-!
# Dead letters written and read

The record of a dead letter holds the payload's value one level deeper than the payload
does. So it is read back from its parcel unless the payload is nested as deeply as a value
may be. The main statement is `ofParcel?_toParcel`.
-/

namespace Courier
namespace Bus

open Json
open Text (Bytes)

theorem faithful_fault : Faithful Fault.encode Fault.decode where
  floatFree f := by
    refine .object ?_
    simp [faithful_string.floatFree]
  reads f := by
    rw [Fault.encode, Fault.decode, record_object (by simp)]
    simp [List.lookup_cons, faithful_string.required]

namespace DeadLetter

def holding (r : DeadLetter) (payload : Bytes) : DeadLetter :=
  { r with envelope := envelopeOf payload }

def ofParcel? (p : Parcel) : Option DeadLetter :=
  Document.ofBytes? p.payload >>= decode

theorem floatFree_encode {r : DeadLetter} (h : r.envelope.FloatFree) : r.encode.FloatFree := by
  refine .object ?_
  simp [faithful_string.floatFree, floatFree_ofInt, faithful_nullableString.floatFree,
    faithful_fault.floatFree, h]

theorem decode_toDocument {r : DeadLetter} (hfree : r.envelope.FloatFree)
    (hordered : r.envelope.Ordered) :
    decode r.encode.toDocument = if r.envelope.depth ≤ envelopeDepth then some r else none := by
  have henvelope : Field.required (Decode.value envelopeDepth)
      ⟨false, some r.envelope.toDocument⟩ =
        if r.envelope.depth ≤ envelopeDepth then some r.envelope else none :=
    Value.ofDocument?_toDocument hfree hordered envelopeDepth
  rw [encode, decode, record_object (by simp)]
  by_cases hdepth : r.envelope.depth ≤ envelopeDepth <;>
    simp [List.lookup_cons, faithful_string.required, faithful_nullableString.withDefault,
      faithful_uint32.required, faithful_fault.required, henvelope, hdepth]

theorem ofParcel?_of_floatFree {r : DeadLetter} (subject : String)
    (hfree : r.envelope.FloatFree) (hordered : r.envelope.Ordered) :
    ofParcel? (r.toParcel subject) =
      if r.envelope.depth ≤ envelopeDepth then some r else none := by
  have hread : Document.ofBytes? (r.toParcel subject).payload = some r.encode.toDocument :=
    Document.ofBytes?_toBytes (floatFree_encode hfree)
  rw [ofParcel?, hread]
  exact decode_toDocument hfree hordered

/-!
## Nested payloads
-/

def nested : Nat → Value
  | 0 => .array []
  | n + 1 => .array [nested n]

theorem floatFree_nested (n : Nat) : (nested n).FloatFree := by
  induction n with
  | zero => exact .array fun v hv => absurd hv List.not_mem_nil
  | succ n ih =>
      refine .array fun v hv => ?_
      rw [List.mem_singleton.mp hv]
      exact ih

theorem ordered_nested (n : Nat) : (nested n).Ordered := by
  induction n with
  | zero => exact .array fun v hv => absurd hv List.not_mem_nil
  | succ n ih =>
      refine .array fun v hv => ?_
      rw [List.mem_singleton.mp hv]
      exact ih

theorem depth_nested (n : Nat) : (nested n).depth = n + 1 := by
  induction n with
  | zero => rfl
  | succ n ih => simp [nested, Value.depth, Value.itemsDepth, ih]

def nestedPayload (n : Nat) : Bytes :=
  List.replicate n 0x5B ++ List.replicate n 0x5D

theorem toBytes_nested (n : Nat) : (nested n).toBytes = nestedPayload (n + 1) := by
  induction n with
  | zero => rfl
  | succ n ih =>
      have hwrap : (nested (n + 1)).toBytes = 0x5B :: ((nested n).toBytes ++ [0x5D]) := by
        simp [nested, Value.toBytes, Value.tokens, Value.itemTokens, Token.octets]
      rw [hwrap, ih, nestedPayload, nestedPayload, List.replicate_succ (n := n + 1),
        List.replicate_succ' (n := n + 1) (a := 0x5D)]
      simp

theorem ofBytes?_nestedPayload {n : Nat} (h : n < Value.depthLimit) :
    Value.ofBytes? (nestedPayload (n + 1)) = some (nested n) := by
  rw [← toBytes_nested]
  refine Value.ofBytes?_toBytes (floatFree_nested n) (ordered_nested n) ?_
  rw [depth_nested]
  exact h

theorem floatFree_of_nestedPayload {n : Nat} (h : n < Value.depthLimit) :
    ∀ v, Value.ofBytes? (nestedPayload (n + 1)) = some v → v.FloatFree := by
  intro v hv
  rw [ofBytes?_nestedPayload h] at hv
  cases hv
  exact floatFree_nested n

/-!
## Payloads
-/

def plainLetter : DeadLetter where
  operation := "SEND_TEXT_V1"
  routingKey := "im_provider.outbound.whatsapp.send.text.v1"
  messageId := "m-1"
  time := "1970-01-01T00:00:00Z"
  fault := ⟨"platform_unavailable", "boom"⟩
  envelope := .null

theorem envelopeOf_spec {payload : Bytes}
    (hfree : ∀ v, Value.ofBytes? payload = some v → v.FloatFree) :
    (envelopeOf payload).FloatFree ∧ (envelopeOf payload).Ordered ∧
      (envelopeOf payload).depth ≤ Value.depthLimit := by
  unfold envelopeOf
  cases hvalue : Value.ofBytes? payload with
  | none => exact ⟨.string _, .string _, Nat.zero_le _⟩
  | some v =>
      rcases Option.bind_eq_some_iff.mp hvalue with ⟨d, _, hread⟩
      exact ⟨hfree v hvalue, Value.spec_of_ofDocument? hread⟩

/-- A record is read back from its parcel unless its payload is nested as deeply as a value
may be, which is one level too deep for an envelope. -/
theorem ofParcel?_toParcel (r : DeadLetter) (subject : String) {payload : Bytes}
    (hfree : ∀ v, Value.ofBytes? payload = some v → v.FloatFree) :
    ofParcel? ((r.holding payload).toParcel subject) =
      if (envelopeOf payload).depth = Value.depthLimit then none
      else some (r.holding payload) := by
  rcases envelopeOf_spec hfree with ⟨henvelope, hordered, hdepth⟩
  rw [ofParcel?_of_floatFree (r := r.holding payload) subject henvelope hordered]
  by_cases hlimit : (envelopeOf payload).depth = Value.depthLimit
  · have hdeep : ¬ (r.holding payload).envelope.depth ≤ envelopeDepth := by
      show ¬ (envelopeOf payload).depth ≤ envelopeDepth
      rw [hlimit]
      decide
    rw [if_neg hdeep, if_pos hlimit]
  · have hshallow : (r.holding payload).envelope.depth ≤ envelopeDepth :=
      Nat.le_pred_of_lt (Nat.lt_of_le_of_ne hdepth hlimit)
    rw [if_pos hshallow, if_neg hlimit]

theorem ofParcel?_nestedPayload :
    (envelopeOf (nestedPayload 126)).depth = 126 ∧
      ofParcel? ((plainLetter.holding (nestedPayload 126)).toParcel "dlq.im_provider.text") =
        some (plainLetter.holding (nestedPayload 126)) := by
  have henvelope : envelopeOf (nestedPayload 126) = nested 125 := by
    rw [envelopeOf, ofBytes?_nestedPayload (by decide)]
  have hdepth : (envelopeOf (nestedPayload 126)).depth = 126 := by
    rw [henvelope, depth_nested]
  have hread := ofParcel?_toParcel plainLetter "dlq.im_provider.text"
    (floatFree_of_nestedPayload (n := 125) (by decide))
  rw [hdepth, if_neg (by decide)] at hread
  exact ⟨hdepth, hread⟩

/-- A payload nested one level deeper is still read as a value, but not as an envelope. -/
theorem not_ofParcel?_nestedPayload :
    (∀ v, Value.ofBytes? (nestedPayload 127) = some v → v.FloatFree) ∧
      ofParcel? ((plainLetter.holding (nestedPayload 127)).toParcel "dlq.im_provider.text") ≠
        some (plainLetter.holding (nestedPayload 127)) := by
  have henvelope : (plainLetter.holding (nestedPayload 127)).envelope = nested 126 := by
    rw [holding, envelopeOf, ofBytes?_nestedPayload (by decide)]
  have hread := ofParcel?_of_floatFree (r := plainLetter.holding (nestedPayload 127))
    "dlq.im_provider.text" (henvelope ▸ floatFree_nested 126) (henvelope ▸ ordered_nested 126)
  rw [henvelope, depth_nested, if_neg (by decide)] at hread
  refine ⟨floatFree_of_nestedPayload (n := 126) (by decide), ?_⟩
  rw [hread]
  nofun

end DeadLetter
end Bus
end Courier
