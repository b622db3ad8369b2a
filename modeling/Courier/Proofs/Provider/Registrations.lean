import Courier.Provider.Registry
import Mathlib.Data.List.Induction
import Mathlib.Data.List.Nodup

/-!
# Building registries

A list of registrations makes a registry exactly when each is sound by itself and no two
share a key. Otherwise the first registration that offends, given those before it, decides
the error. A registry finds under a key what was attached under it, and nothing else.

The main statement is `buildLaw`.
-/

namespace Courier
namespace Provider

variable {α : Type}

/-!
## Registrations
-/

/-- A registration that can be taken, as long as its key is free. -/
structure Registration.Sound (reports : α → String) (e : Registration α) : Prop where
  named : Text.isBlank e.key = false
  capable : e.sender ≠ none ∨ e.receiver ≠ none
  sender : ∀ a, e.sender = some a → reports a = e.key
  receiver : ∀ a, e.receiver = some a → reports a = e.key

/-- How a registration offends where some keys are taken. What is looked for first goes first. -/
inductive Registration.Offends (reports : α → String) (taken : List String)
    (e : Registration α) : RegistryError → Prop where
  | emptyKey (blank : Text.isBlank e.key = true) : Offends reports taken e .emptyKey
  | noCapabilities (named : Text.isBlank e.key = false) (sender : e.sender = none)
      (receiver : e.receiver = none) : Offends reports taken e (.noCapabilities e.key)
  | senderMismatch {a : α} (named : Text.isBlank e.key = false) (sender : e.sender = some a)
      (differs : reports a ≠ e.key) : Offends reports taken e (.keyMismatch e.key (reports a))
  | receiverMismatch {a : α} (named : Text.isBlank e.key = false)
      (sender : ∀ b, e.sender = some b → reports b = e.key) (receiver : e.receiver = some a)
      (differs : reports a ≠ e.key) : Offends reports taken e (.keyMismatch e.key (reports a))
  | alreadyRegistered (sound : e.Sound reports) (again : e.key ∈ taken) :
      Offends reports taken e (.alreadyRegistered e.key)

open Registration (Sound Offends)

theorem sound_or_offends (reports : α → String) (taken : List String) (e : Registration α) :
    e.Sound reports ∧ e.key ∉ taken ∨ ∃ err, e.Offends reports taken err := by
  cases hblank : Text.isBlank e.key with
  | true => exact Or.inr ⟨_, .emptyKey hblank⟩
  | false =>
      by_cases hsender : ∀ a, e.sender = some a → reports a = e.key
      · by_cases hreceiver : ∀ a, e.receiver = some a → reports a = e.key
        · by_cases hcapable : e.sender ≠ none ∨ e.receiver ≠ none
          · have hsound : e.Sound reports := ⟨hblank, hcapable, hsender, hreceiver⟩
            by_cases htaken : e.key ∈ taken
            · exact Or.inr ⟨_, .alreadyRegistered hsound htaken⟩
            · exact Or.inl ⟨hsound, htaken⟩
          · rw [not_or, not_not, not_not] at hcapable
            exact Or.inr ⟨_, .noCapabilities hblank hcapable.left hcapable.right⟩
        · simp only [not_forall] at hreceiver
          rcases hreceiver with ⟨a, ha, hdiffers⟩
          exact Or.inr ⟨_, .receiverMismatch hblank hsender ha hdiffers⟩
      · simp only [not_forall] at hsender
        rcases hsender with ⟨a, ha, hdiffers⟩
        exact Or.inr ⟨_, .senderMismatch hblank ha hdiffers⟩

namespace Registry

/-!
## Taking one registration
-/

theorem mismatch?_eq_none {reports : α → String} {e : Registration α}
    (hsender : ∀ a, e.sender = some a → reports a = e.key)
    (hreceiver : ∀ a, e.receiver = some a → reports a = e.key) : mismatch? reports e = none := by
  simp only [mismatch?, List.find?_eq_none, List.mem_map, List.mem_append, Option.mem_toList]
  rintro _ ⟨a, ha | ha, rfl⟩
  · simp [hsender a ha]
  · simp [hreceiver a ha]

theorem fault?_eq_none {reports : α → String} {e : Registration α} (h : e.Sound reports) :
    fault? reports e = none := by
  have hcapable : (e.sender.isNone && e.receiver.isNone) = false := by
    rcases h.capable with hsome | hsome
    · simp [Option.isNone_eq_false_iff.mpr (Option.isSome_iff_ne_none.mpr hsome)]
    · simp [Option.isNone_eq_false_iff.mpr (Option.isSome_iff_ne_none.mpr hsome)]
  simp only [fault?, h.named, hcapable, mismatch?_eq_none h.sender h.receiver,
    Bool.false_eq_true, if_false, Option.map_none]

theorem find?_isSome {r : Registry α} {key : String} : (r.find? key).isSome ↔ key ∈ r.keys := by
  simp [find?, keys, List.find?_isSome]

theorem insert_of_sound {reports : α → String} {r : Registry α} {e : Registration α}
    (hsound : e.Sound reports) (hfree : e.key ∉ r.keys) :
    insert reports r e = .ok ⟨r.entries ++ [e]⟩ := by
  have hcontains : r.contains e.key = false := by
    rw [contains, Bool.eq_false_iff, ne_eq, find?_isSome]
    exact hfree
  simp only [insert, fault?_eq_none hsound, hcontains, Bool.false_eq_true, if_false]

theorem insert_of_offends {reports : α → String} {r : Registry α} {e : Registration α}
    {err : RegistryError} (h : e.Offends reports r.keys err) :
    insert reports r e = .error err := by
  cases h with
  | emptyKey blank => simp [insert, fault?, blank]
  | noCapabilities named sender receiver => simp [insert, fault?, named, sender, receiver]
  | senderMismatch named sender differs =>
      simp [insert, fault?, named, mismatch?, sender, differs]
  | @receiverMismatch a named sender receiver differs =>
      cases hsender : e.sender with
      | none => simp [insert, fault?, named, mismatch?, hsender, receiver, differs]
      | some b =>
          simp [insert, fault?, named, mismatch?, hsender, receiver, sender b hsender, differs]
  | alreadyRegistered sound again =>
      have hcontains : r.contains e.key = true := find?_isSome.mpr again
      simp only [insert, fault?_eq_none sound, hcontains, if_true]

/-!
## Taking a list of registrations
-/

structure Fits (reports : α → String) (l : List (Registration α)) : Prop where
  sound : ∀ e ∈ l, e.Sound reports
  distinct : (l.map Registration.key).Nodup

def FirstFault (reports : α → String) (l : List (Registration α)) (err : RegistryError) : Prop :=
  ∃ before e after, l = before ++ e :: after ∧ Fits reports before ∧
    e.Offends reports (before.map Registration.key) err

theorem Fits.snoc {reports : α → String} {l : List (Registration α)} {e : Registration α}
    (h : Fits reports l) (hsound : e.Sound reports) (hfree : e.key ∉ l.map Registration.key) :
    Fits reports (l ++ [e]) := by
  constructor
  · intro x hx
    rcases List.mem_append.mp hx with hx | hx
    · exact h.sound x hx
    · rw [List.mem_singleton.mp hx]
      exact hsound
  · rw [List.map_append, List.map_singleton, ← List.concat_eq_append, List.nodup_concat]
    exact ⟨hfree, h.distinct⟩

theorem Fits.of_append {reports : α → String} {l l' : List (Registration α)}
    (h : Fits reports (l ++ l')) : Fits reports l := by
  constructor
  · exact fun e he => h.sound e (List.mem_append_left l' he)
  · have hdistinct := h.distinct
    rw [List.map_append] at hdistinct
    exact hdistinct.of_append_left

theorem build_snoc (reports : α → String) (l : List (Registration α)) (e : Registration α) :
    build reports (l ++ [e]) = build reports l >>= fun r => insert reports r e := by
  rw [build, build, List.foldlM_append]
  congr
  funext r
  exact bind_pure _

theorem build_of_fits {reports : α → String} {l : List (Registration α)} (h : Fits reports l) :
    build reports l = .ok ⟨l⟩ := by
  induction l using List.reverseRecOn with
  | nil => rfl
  | append_singleton l e ih =>
      have hfree : e.key ∉ l.map Registration.key := by
        have hdistinct := h.distinct
        rw [List.map_append, List.map_singleton, ← List.concat_eq_append,
          List.nodup_concat] at hdistinct
        exact hdistinct.left
      have hsound := h.sound e (List.mem_append_right l (List.mem_singleton_self e))
      rw [build_snoc, ih h.of_append]
      exact insert_of_sound hsound hfree

theorem build_of_firstFault {reports : α → String} {l : List (Registration α)}
    {err : RegistryError} (h : FirstFault reports l err) : build reports l = .error err := by
  rcases h with ⟨before, e, after, rfl, hbefore, hoffends⟩
  have hinsert : insert reports ⟨before⟩ e = .error err := insert_of_offends hoffends
  have hbuild := build_of_fits hbefore
  rw [build] at hbuild
  rw [build, List.foldlM_append, hbuild]
  simp only [bind, Except.bind, List.foldlM_cons, hinsert]

/-- Each list of registrations fits, or has a first one that offends. -/
theorem fits_or_firstFault (reports : α → String) (l : List (Registration α)) :
    Fits reports l ∨ ∃ err, FirstFault reports l err := by
  induction l using List.reverseRecOn with
  | nil => exact Or.inl ⟨nofun, List.nodup_nil⟩
  | append_singleton l e ih =>
      rcases ih with hfits | ⟨err, before, x, after, rfl, hbefore, hoffends⟩
      · rcases sound_or_offends reports (l.map Registration.key) e with
          ⟨hsound, hfree⟩ | ⟨err, hoffends⟩
        · exact Or.inl (hfits.snoc hsound hfree)
        · exact Or.inr ⟨err, l, e, [], rfl, hfits, hoffends⟩
      · exact Or.inr ⟨err, before, x, after ++ [e], by simp, hbefore, hoffends⟩

/-!
## Lookups
-/

theorem find?_eq_some_iff {r : Registry α} (hdistinct : r.keys.Nodup) {key : String}
    {e : Registration α} : r.find? key = some e ↔ e ∈ r.entries ∧ e.key = key := by
  constructor
  · intro h
    exact ⟨List.mem_of_find?_eq_some h, by simpa using List.find?_some h⟩
  · rintro ⟨hmem, rfl⟩
    have hsome : (r.find? e.key).isSome := find?_isSome.mpr (List.mem_map_of_mem hmem)
    rcases Option.isSome_iff_exists.mp hsome with ⟨x, hx⟩
    have hkey : x.key = e.key := by simpa using List.find?_some hx
    rw [hx, List.inj_on_of_nodup_map hdistinct (List.mem_of_find?_eq_some hx) hmem hkey]

theorem find?_bind_eq_some_iff {r : Registry α} (hdistinct : r.keys.Nodup) {key : String} {a : α}
    (part : Registration α → Option α) :
    (r.find? key >>= part) = some a ↔ ∃ e ∈ r.entries, e.key = key ∧ part e = some a := by
  simp only [Option.bind_eq_bind, Option.bind_eq_some_iff, find?_eq_some_iff hdistinct, and_assoc]

/-!
## The law
-/

theorem fits_of_build {reports : α → String} {l : List (Registration α)} {r : Registry α}
    (h : build reports l = .ok r) : Fits reports l ∧ r = ⟨l⟩ := by
  rcases fits_or_firstFault reports l with hfits | ⟨err, hfault⟩
  · rw [build_of_fits hfits] at h
    exact ⟨hfits, (Except.ok.inj h).symm⟩
  · rw [build_of_firstFault hfault] at h
    cases h

theorem firstFault_of_build {reports : α → String} {l : List (Registration α)}
    {err : RegistryError} (h : build reports l = .error err) : FirstFault reports l err := by
  rcases fits_or_firstFault reports l with hfits | ⟨err', hfault⟩
  · rw [build_of_fits hfits] at h
    cases h
  · rw [build_of_firstFault hfault] at h
    cases h
    exact hfault

/-- What comes of a list of registrations. -/
structure BuildLaw (reports : α → String) (l : List (Registration α)) : Prop where
  success : (∃ r, build reports l = .ok r) ↔ Fits reports l
  failure : ∀ err, build reports l = .error err ↔ FirstFault reports l err
  keys : ∀ r, build reports l = .ok r → r.keys = l.map Registration.key
  size : ∀ r, build reports l = .ok r → r.size = l.length
  sender : ∀ r, build reports l = .ok r → ∀ key a,
    r.sender? key = some a ↔ ∃ e ∈ l, e.key = key ∧ e.sender = some a
  receiver : ∀ r, build reports l = .ok r → ∀ key a,
    r.receiver? key = some a ↔ ∃ e ∈ l, e.key = key ∧ e.receiver = some a

theorem buildLaw (reports : α → String) (l : List (Registration α)) : BuildLaw reports l := by
  constructor
  · constructor
    · rintro ⟨r, hr⟩
      exact (fits_of_build hr).left
    · intro hfits
      exact ⟨⟨l⟩, build_of_fits hfits⟩
  · intro err
    exact ⟨firstFault_of_build, build_of_firstFault⟩
  · intro r hr
    rw [(fits_of_build hr).right]
    rfl
  · intro r hr
    rw [(fits_of_build hr).right]
    rfl
  · intro r hr key a
    rcases fits_of_build hr with ⟨hfits, rfl⟩
    exact find?_bind_eq_some_iff hfits.distinct Registration.sender
  · intro r hr key a
    rcases fits_of_build hr with ⟨hfits, rfl⟩
    exact find?_bind_eq_some_iff hfits.distinct Registration.receiver

end Registry
end Provider
end Courier
