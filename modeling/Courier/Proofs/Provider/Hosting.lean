import Courier.Proofs.Provider.Registrations
import Courier.Provider.Hosted

/-!
# Hosting providers

Keys can be hosted when none is blank and no two are the same. Each then has an adapter of
its own, which both sends and receives under it.
-/

namespace Courier
namespace Provider

open Registry (Fits FirstFault build_of_fits fits_of_build firstFault_of_build)

theorem keys_hostedRegistrations (keys : List String) :
    (hostedRegistrations keys).map Registration.key = keys := by
  rw [hostedRegistrations, List.map_map]
  exact List.zipIdx_map_fst 0 keys

theorem mem_hostedRegistrations {keys : List String} {e : Registration Handle} :
    e ∈ hostedRegistrations keys ↔ ∃ key place, keys[place]? = some key ∧ e = .full ⟨key, place⟩ := by
  simp only [hostedRegistrations, List.mem_map, Prod.exists, List.mk_mem_zipIdx_iff_getElem?,
    eq_comm]

theorem sound_full {h : Handle} (hnamed : Text.isBlank h.reported = false) :
    (Registration.full h).Sound Handle.reported where
  named := hnamed
  capable := Or.inl nofun
  sender := by
    rintro a ⟨⟩
    rfl
  receiver := by
    rintro a ⟨⟩
    rfl

theorem offends_full {h : Handle} {taken : List String} {err : RegistryError}
    (hoffends : (Registration.full h).Offends Handle.reported taken err) :
    Text.isBlank h.reported = true ∧ err = .emptyKey ∨
      h.reported ∈ taken ∧ err = .alreadyRegistered h.reported := by
  cases hoffends with
  | emptyKey blank => exact Or.inl ⟨blank, rfl⟩
  | noCapabilities _ sender _ => cases sender
  | senderMismatch _ sender differs =>
      cases sender
      exact absurd rfl differs
  | receiverMismatch _ _ receiver differs =>
      cases receiver
      exact absurd rfl differs
  | alreadyRegistered _ again => exact Or.inr ⟨again, rfl⟩

theorem fits_hostedRegistrations {keys : List String} (hdistinct : keys.Nodup)
    (hnamed : ∀ key ∈ keys, Text.isBlank key = false) :
    Fits Handle.reported (hostedRegistrations keys) := by
  constructor
  · intro e he
    rcases mem_hostedRegistrations.mp he with ⟨key, place, hplace, rfl⟩
    exact sound_full (hnamed key (List.mem_of_getElem? hplace))
  · rw [keys_hostedRegistrations]
    exact hdistinct

theorem hosted_of_named {keys : List String} (hdistinct : keys.Nodup)
    (hnamed : ∀ key ∈ keys, Text.isBlank key = false) :
    hosted keys = .ok ⟨hostedRegistrations keys⟩ :=
  build_of_fits (fits_hostedRegistrations hdistinct hnamed)

theorem named_of_hosted {keys : List String} {r : Registry Handle} (h : hosted keys = .ok r) :
    ∀ key ∈ keys, Text.isBlank key = false := by
  intro key hkey
  rcases List.mem_iff_getElem?.mp hkey with ⟨place, hplace⟩
  exact ((fits_of_build h).left.sound _
    (mem_hostedRegistrations.mpr ⟨key, place, hplace, rfl⟩)).named

theorem keys_of_hosted {keys : List String} {r : Registry Handle} (h : hosted keys = .ok r) :
    r.keys = keys := by
  rw [(fits_of_build h).right]
  exact keys_hostedRegistrations keys

/-- Among keys that differ, only a blank one cannot be hosted. -/
theorem error_of_hosted {keys : List String} (hdistinct : keys.Nodup) {err : RegistryError}
    (h : hosted keys = .error err) :
    err = .emptyKey ∧ ∃ key ∈ keys, Text.isBlank key = true := by
  rcases firstFault_of_build h with ⟨before, e, after, hsplit, _, hoffends⟩
  have he : e ∈ hostedRegistrations keys := by
    rw [hsplit]
    exact List.mem_append_right before List.mem_cons_self
  rcases mem_hostedRegistrations.mp he with ⟨key, place, hplace, rfl⟩
  rcases offends_full hoffends with ⟨hblank, herr⟩ | ⟨hagain, _⟩
  · exact ⟨herr, key, List.mem_of_getElem? hplace, hblank⟩
  · -- The key would stand twice in the list.
    have hkeys := keys_hostedRegistrations keys
    rw [hsplit, List.map_append, List.map_cons] at hkeys
    rw [← hkeys] at hdistinct
    exact absurd hagain (fun hmem =>
      List.disjoint_of_nodup_append hdistinct hmem List.mem_cons_self)

theorem sender?_of_hosted {keys : List String} {r : Registry Handle} (h : hosted keys = .ok r)
    {key : String} {a : Handle} :
    r.sender? key = some a ↔ a.reported = key ∧ keys[a.place]? = some key := by
  rcases fits_of_build h with ⟨hfits, rfl⟩
  have hdistinct : (Registry.mk (hostedRegistrations keys)).keys.Nodup := hfits.distinct
  rw [Registry.sender?, Registry.find?_bind_eq_some_iff hdistinct]
  constructor
  · rintro ⟨e, he, hkey, hsender⟩
    rcases mem_hostedRegistrations.mp he with ⟨key', place, hplace, rfl⟩
    cases hsender
    cases hkey
    exact ⟨rfl, hplace⟩
  · rintro ⟨rfl, hplace⟩
    exact ⟨.full a, mem_hostedRegistrations.mpr ⟨a.reported, a.place, hplace, rfl⟩, rfl, rfl⟩

end Provider
end Courier
