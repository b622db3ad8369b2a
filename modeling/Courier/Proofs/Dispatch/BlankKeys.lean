import Courier.Proofs.Dispatch.Retries
import Courier.Proofs.Json.Values
import Courier.Proofs.Text.Trimming

/-!
# Blank routing keys

Two headers may carry a routing key, and the subject stands in for the second where it is absent.
A first header that is blank counts as absent. A second one that is blank is passed over as well,
but it keeps the subject from standing in for it, so that a delivery can lose its provider.

The main statement is `countsAsAbsent_iff`.
-/

namespace Courier

open Bus (Headers Parcel)
open Text (isBlank isBlankChar splitChars)

namespace Bus

theorem lookup_orInsert (name key value : String) (headers : Headers) :
    (headers.orInsert name value).lookup key =
      if key = name then some ((headers.lookup name).getD value) else headers.lookup key := by
  unfold Headers.orInsert
  cases hname : headers.lookup name with
  | none => exact Json.lookup_insertKey name key value headers
  | some old =>
      by_cases hkey : key = name
      · rw [if_pos hkey, hkey, hname, Option.getD_some]
      · rw [if_neg hkey]

def Parcel.without (name : String) (p : Parcel) : Parcel :=
  { p with headers := Named.forget name p.headers }

end Bus

namespace Routing

/-!
## The routing key among headers
-/

/-- The value of a header, unless it is blank. -/
def told (value : Option String) : Option String :=
  value.filter fun key => !isBlank key

theorem find?_filterMap_cons (lookup : String → Option String) (name : String)
    (rest : List String) :
    ((name :: rest).filterMap lookup).find? (fun key => !isBlank key) =
      (told (lookup name)).or ((rest.filterMap lookup).find? fun key => !isBlank key) := by
  cases hvalue : lookup name with
  | none => simp [told, hvalue]
  | some key => cases hblank : isBlank key <;> simp [told, hvalue, hblank, Option.filter]

theorem keyOf?_eq (lookup : String → Option String) :
    keyOf? lookup = (told (lookup "x-routing-key")).or (told (lookup "routing_key")) := by
  rw [keyOf?, keyHeaders, find?_filterMap_cons, find?_filterMap_cons, List.filterMap_nil,
    List.find?_nil, Option.or_none]

theorem told_of_blank {value : String} (h : isBlank value = true) : told (some value) = none := by
  simp [told, Option.filter, h]

theorem providerOf?_of_blank {key : String} (h : isBlank key = true) : providerOf? key = none := by
  have hdot : '.' ∉ key.toList := by
    intro hmem
    have hblank := List.all_eq_true.mp h '.' hmem
    exact absurd hblank (by decide)
  simp [providerOf?, Text.split, Text.splitChars_of_not_mem hdot]

theorem bind_told (key : String) : told (some key) >>= providerOf? = providerOf? key := by
  cases h : isBlank key with
  | true =>
      rw [told_of_blank h, providerOf?_of_blank h]
      rfl
  | false =>
      have htold : told (some key) = some key := by simp [told, Option.filter, h]
      rw [htold]
      rfl

end Routing

namespace Dispatch

open Routing (told keyHeaders)

/-- The routing key of a delivery: the first header counts, then the second, and then, where that
is absent, the subject. -/
theorem keyOf?_ofParcel (freshId : String) (p : Parcel) :
    Routing.keyOf? (Bus.Delivery.ofParcel freshId p).header? =
      (told (p.headers.lookup "x-routing-key")).or
        (told (some ((p.headers.lookup "routing_key").getD p.subject))) := by
  have hheader : ∀ name, (Bus.Delivery.ofParcel freshId p).header? name =
      if name = "routing_key" then some ((p.headers.lookup "routing_key").getD p.subject)
      else p.headers.lookup name :=
    fun name => Bus.lookup_orInsert "routing_key" name p.subject p.headers
  rw [Routing.keyOf?_eq, hheader, hheader, if_neg (by decide), if_pos rfl]

/-- The delivery of a parcel names the provider that it names without one of the headers. -/
def CountsAsAbsent (freshId : String) (p : Parcel) (name : String) : Prop :=
  providerOf? (.ofParcel freshId p) = providerOf? (.ofParcel freshId (p.without name))

theorem lookup_without (p : Parcel) (name key : String) :
    (p.without name).headers.lookup key = if key = name then none else p.headers.lookup key :=
  Named.lookup_forget name key p.headers

section Blank

variable (freshId : String) {p : Parcel} {value : String}

theorem countsAsAbsent_first (hvalue : p.headers.lookup "x-routing-key" = some value)
    (hblank : isBlank value = true) : CountsAsAbsent freshId p "x-routing-key" := by
  have hother : (p.without "x-routing-key").headers.lookup "routing_key" =
      p.headers.lookup "routing_key" := by
    rw [lookup_without, if_neg (by decide)]
  have hnone : (p.without "x-routing-key").headers.lookup "x-routing-key" = none := by
    rw [lookup_without, if_pos rfl]
  have hsubject : (p.without "x-routing-key").subject = p.subject := rfl
  rw [CountsAsAbsent, providerOf?, providerOf?, keyOf?_ofParcel, keyOf?_ofParcel, hother, hnone,
    hsubject, hvalue, Routing.told_of_blank hblank]
  rfl

theorem countsAsAbsent_second (hvalue : p.headers.lookup "routing_key" = some value)
    (hblank : isBlank value = true) :
    CountsAsAbsent freshId p "routing_key" ↔
      (told (p.headers.lookup "x-routing-key")).isSome = true ∨
        Routing.providerOf? p.subject = none := by
  have hother : (p.without "routing_key").headers.lookup "x-routing-key" =
      p.headers.lookup "x-routing-key" := by
    rw [lookup_without, if_neg (by decide)]
  have hnone : (p.without "routing_key").headers.lookup "routing_key" = none := by
    rw [lookup_without, if_pos rfl]
  have hsubject : (p.without "routing_key").subject = p.subject := rfl
  rw [CountsAsAbsent, providerOf?, providerOf?, keyOf?_ofParcel, keyOf?_ofParcel, hother, hnone,
    hsubject, hvalue, Option.getD_some, Option.getD_none, Routing.told_of_blank hblank]
  cases told (p.headers.lookup "x-routing-key") with
  | some key => simp
  | none =>
      rw [Option.none_or, Option.none_or, Routing.bind_told]
      simp [eq_comm]

/-- A blank header counts as absent, except the second where the provider hangs on the subject. -/
theorem countsAsAbsent_iff {name : String} (hname : name ∈ keyHeaders)
    (hvalue : p.headers.lookup name = some value) (hblank : isBlank value = true) :
    CountsAsAbsent freshId p name ↔
      (name = "routing_key" →
        (∃ key, p.headers.lookup "x-routing-key" = some key ∧ isBlank key = false) ∨
          Routing.providerOf? p.subject = none) := by
  have hcases : name = "x-routing-key" ∨ name = "routing_key" := by
    simpa [keyHeaders] using hname
  rcases hcases with rfl | rfl
  · have habsent := countsAsAbsent_first freshId hvalue hblank
    exact ⟨fun _ heq => absurd heq (by decide), fun _ => habsent⟩
  · have hkey : (told (p.headers.lookup "x-routing-key")).isSome = true ↔
        ∃ key, p.headers.lookup "x-routing-key" = some key ∧ isBlank key = false := by
      simp [told, Option.any_eq_true]
    rw [countsAsAbsent_second freshId hvalue hblank, hkey]
    exact ⟨fun h _ => h, fun h => h rfl⟩

end Blank

/-- A sound command whose subject names its provider, under a second header that is blank. -/
def blankKeyed : Parcel where
  subject := "im_provider.outbound.whatsapp.send.text.v1"
  headers := [("routing_key", " ")]
  payload := plainDelivery.payload

def rekeyed : Parcel :=
  { blankKeyed with headers := [("routing_key", "\t "), ("x-routing-key", "a.b.telegram")] }

theorem countsAsAbsent_rekeyed :
    "routing_key" ∈ keyHeaders ∧ rekeyed.headers.lookup "routing_key" = some "\t " ∧
      isBlank "\t " = true ∧ CountsAsAbsent "1" rekeyed "routing_key" := by
  have hname : "routing_key" ∈ keyHeaders := by decide
  have hvalue : rekeyed.headers.lookup "routing_key" = some "\t " := by decide
  have hblank : isBlank "\t " = true := by decide
  refine ⟨hname, hvalue, hblank, (countsAsAbsent_iff "1" hname hvalue hblank).mpr ?_⟩
  exact fun _ => .inl ⟨"a.b.telegram", by decide, by decide +kernel⟩

/-- The command is passed over for want of a routing key, and is sent without the header. -/
theorem not_countsAsAbsent_blankKeyed :
    "routing_key" ∈ keyHeaders ∧ blankKeyed.headers.lookup "routing_key" = some " " ∧
      isBlank " " = true ∧
      (handle plainRegistry {} sendByScript 0 .sendText (.ofParcel "1" blankKeyed) none
        [{}]).outcome = .skipped .noRoutingKey ∧
      (handle plainRegistry {} sendByScript 0 .sendText
        (.ofParcel "1" (blankKeyed.without "routing_key")) none [{}]).outcome =
        .handled "whatsapp" 1 ∧
      ¬ CountsAsAbsent "1" blankKeyed "routing_key" := by
  refine ⟨by decide, by decide, by decide, by decide +kernel, by decide +kernel, ?_⟩
  unfold CountsAsAbsent
  decide +kernel

end Dispatch
end Courier
