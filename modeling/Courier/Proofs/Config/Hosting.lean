import Courier.Config.Load
import Courier.Proofs.Provider.Hosting
import Courier.Proofs.Text.Trimming

/-!
# Hosting what is configured

An accepted configuration names at least one provider, none of them by an empty key and none
twice. A key of white space alone is accepted too if it comes from a file, and is the one thing
that keeps the registry of the providers from being built; keys given as overrides are trimmed
before they are looked at, so these can always be hosted.

The main statement is `hosting_of_accepted`.
-/

namespace Courier
namespace Config

open Provider (hosted hosted_of_named named_of_hosted keys_of_hosted error_of_hosted)

/-- The registry of the configured providers can be built, with just their keys, in order. -/
def Wired (c : Config) : Prop :=
  ∃ r, hosted c.providers = .ok r ∧ r.keys = c.providers

/-!
## Accepted configurations
-/

theorem providerFault?_eq_none_iff {seen keys : List String} :
    providerFault? seen keys = none ↔ (∀ key ∈ keys, key ≠ "" ∧ key ∉ seen) ∧ keys.Nodup := by
  induction keys generalizing seen with
  | nil => simp [providerFault?]
  | cons key rest ih =>
      by_cases hempty : key = ""
      · simp [providerFault?, hempty]
      · by_cases hseen : key ∈ seen
        · simp [providerFault?, hempty, hseen]
        · have hfault : providerFault? seen (key :: rest) = providerFault? (key :: seen) rest := by
            simp [providerFault?, hempty, hseen]
          rw [hfault, ih, List.forall_mem_cons, List.nodup_cons]
          constructor
          · rintro ⟨hrest, hdistinct⟩
            have hkey : key ∉ rest := fun hmem =>
              (hrest key hmem).right List.mem_cons_self
            refine ⟨⟨⟨hempty, hseen⟩, fun x hx => ?_⟩, hkey, hdistinct⟩
            exact ⟨(hrest x hx).left, fun h => (hrest x hx).right (List.mem_cons_of_mem key h)⟩
          · rintro ⟨⟨_, hrest⟩, hkey, hdistinct⟩
            refine ⟨fun x hx => ⟨(hrest x hx).left, ?_⟩, hdistinct⟩
            rw [List.mem_cons, not_or]
            exact ⟨fun heq => hkey (heq ▸ hx), (hrest x hx).right⟩

theorem keys_of_accepted {c : Config} (h : c.validate = none) :
    (∀ key ∈ c.providers, key ≠ "") ∧ c.providers.Nodup := by
  have hnone : ∀ fault ∈ c.faults, fault = none := List.findSome?_eq_none_iff.mp h
  have hfault : providerFault? [] c.providers = none := hnone _ (by simp [faults])
  rcases providerFault?_eq_none_iff.mp hfault with ⟨hkeys, hdistinct⟩
  exact ⟨fun key hkey => (hkeys key hkey).left, hdistinct⟩

theorem wired_iff {c : Config} (h : c.validate = none) :
    c.Wired ↔ ∀ key ∈ c.providers, Text.isBlank key = false := by
  constructor
  · rintro ⟨r, hr, _⟩
    exact named_of_hosted hr
  · intro hnamed
    have hr := hosted_of_named (keys_of_accepted h).right hnamed
    exact ⟨_, hr, keys_of_hosted hr⟩

/-!
## Loaded configurations
-/

theorem accepted_of_load {files : Files} {o : Overrides} {c : Config}
    (h : load files o = .ok c) :
    c.validate = none ∧
      ∃ base, (o.configFile.map (ofFile files)).getD (.ok {}) = .ok base ∧ o.apply base = c := by
  unfold load at h
  cases hbase : (o.configFile.map (ofFile files)).getD (.ok {}) with
  | error e =>
      rw [hbase] at h
      cases h
  | ok base =>
      rw [hbase] at h
      change validated (o.apply base) = .ok c at h
      unfold validated at h
      split at h
      next hvalid =>
        cases h
        exact ⟨hvalid, base, rfl, rfl⟩
      next => cases h

/-- Keys from overrides are trimmed: what is not empty is not blank. -/
theorem wired_of_overridden {files : Files} {o : Overrides} {c : Config}
    (h : load files o = .ok c) (hkeys : o.providers ≠ none) : c.Wired := by
  rcases accepted_of_load h with ⟨hvalid, base, _, happly⟩
  rcases Option.ne_none_iff_exists'.mp hkeys with ⟨keys, hkeys⟩
  have hproviders : c.providers = keys.map Text.trim := by
    rw [← happly, Overrides.apply, hkeys]
    rfl
  rw [wired_iff hvalid]
  intro key hkey
  have hnonempty := (keys_of_accepted hvalid).left key hkey
  rw [hproviders] at hkey
  rcases List.mem_map.mp hkey with ⟨given, _, rfl⟩
  rw [Bool.eq_false_iff, ne_eq, Text.isBlank_iff_trim, Text.trim_trim]
  exact hnonempty

theorem wired_of_default {files : Files} {o : Overrides} {c : Config}
    (h : load files o = .ok c) (hfile : o.configFile = none) : c.Wired := by
  by_cases hkeys : o.providers = none
  · rcases accepted_of_load h with ⟨hvalid, base, hbase, happly⟩
    rw [hfile] at hbase
    cases hbase
    have hproviders : c.providers = ["facebook", "whatsapp"] := by
      rw [← happly, Overrides.apply, hkeys]
      rfl
    rw [wired_iff hvalid, hproviders]
    decide
  · exact wired_of_overridden h hkeys

/-!
## The law
-/

/-- How the providers of an accepted configuration fare when they are hosted. -/
structure Hosting (c : Config) : Prop where
  wired : c.Wired ↔ ∀ key ∈ c.providers, Text.isBlank key = false
  refused : ∀ err, hosted c.providers = .error err ↔
    err = .emptyKey ∧ ∃ key ∈ c.providers, Text.isBlank key = true
  overridden : ∀ files o, load files o = .ok c → o.providers ≠ none → c.Wired
  withoutFile : ∀ files o, load files o = .ok c → o.configFile = none → c.Wired

theorem hosting_of_accepted (c : Config) (h : c.validate = none) : c.Hosting := by
  constructor
  · exact wired_iff h
  · intro err
    constructor
    · exact error_of_hosted (keys_of_accepted h).right
    · rintro ⟨rfl, key, hkey, hblank⟩
      cases hhosted : hosted c.providers with
      | error err => rw [(error_of_hosted (keys_of_accepted h).right hhosted).left]
      | ok r =>
          rw [named_of_hosted hhosted key hkey] at hblank
          cases hblank
  · exact fun files o => wired_of_overridden
  · exact fun files o => wired_of_default

def blankKeyFile : Files :=
  fun _ => .ok (Text.Utf8.encode "providers: [\" \"]")

def fileOverrides : Overrides where
  configFile := some "courier.yaml"
  serviceId := some "courier"
  brokerUrl := some "nats://bus"

/-- What comes of these overrides and a file with nothing but provider keys. -/
def hostingConfig (providers : List String) : Config where
  service := { id := "courier" }
  bus := { brokerUrl := "nats://bus" }
  providers := providers

theorem hosting_of_paddedOverrides :
    (hostingConfig ["facebook", "whats app"]).validate = none ∧
      load blankKeyFile { fileOverrides with providers := some [" facebook", "whats app "] } =
        .ok (hostingConfig ["facebook", "whats app"]) ∧
      (hostingConfig ["facebook", "whats app"]).Hosting ∧
      (hostingConfig ["facebook", "whats app"]).Wired := by
  have hvalid : (hostingConfig ["facebook", "whats app"]).validate = none := by decide +kernel
  have hload : load blankKeyFile
      { fileOverrides with providers := some [" facebook", "whats app "] } =
        .ok (hostingConfig ["facebook", "whats app"]) := by
    decide +kernel
  have hhosting := hosting_of_accepted _ hvalid
  exact ⟨hvalid, hload, hhosting, hhosting.overridden _ _ hload nofun⟩

/-- A blank key from the file is accepted and cannot be hosted. -/
theorem not_wired_of_blankKey :
    (hostingConfig [" "]).validate = none ∧
      load blankKeyFile fileOverrides = .ok (hostingConfig [" "]) ∧
      hosted (hostingConfig [" "]).providers = .error .emptyKey ∧
      ¬ (hostingConfig [" "]).Wired := by
  have hrefused : hosted (hostingConfig [" "]).providers = .error .emptyKey := by rfl
  refine ⟨by decide +kernel, by decide +kernel, hrefused, ?_⟩
  rintro ⟨r, hr, _⟩
  rw [hrefused] at hr
  cases hr

end Config
end Courier
