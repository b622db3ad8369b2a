import Courier.Proofs.Rpc.Interleaving

/-!
# Breakers that recover

A half-open breaker admits nobody until its trial is given back, so that a trial
that got lost would shut it for good.

The main statement is that no interleaving of calls loses one: a half-open breaker
always has its trial in flight, a closed one counts fewer failures than open it,
and when all calls are over every breaker admits calls again, at the latest when
a cool-down is over.
-/

namespace Courier
namespace Rpc

open Breaker

namespace Gate

/-!
## Sound gates
-/

/-- What keeps a breaker from being shut for good. -/
structure Sound (settings : BreakerSettings) (g : Gate) : Prop where
  settings_eq : g.settings = settings
  trial : g.state? = some .halfOpen → ∃ holder, g.held holder = some true
  counted : ∀ {failures since}, g.state? = some (.closed failures since) →
    failures < max 1 settings.failureThreshold
  reopens : ∀ {reopenAt}, g.state? = some (.opened reopenAt) →
    reopenAt ≤ g.now + settings.openDuration

theorem sound_fresh (settings : BreakerSettings) : Sound settings { settings := settings } := by
  constructor
  · rfl
  · intro h
    cases h
  · intro failures since h
    cases h
  · intro reopenAt h
    cases h

theorem Sound.counted_state {settings : BreakerSettings} {g : Gate} (h : g.Sound settings)
    {failures since : Nat} (hs : g.state = .closed failures since) :
    failures < max 1 settings.failureThreshold := by
  unfold state at hs
  cases hsome : g.state? with
  | none =>
      rw [hsome] at hs
      cases hs
      exact Nat.lt_of_lt_of_le Nat.zero_lt_one (Nat.le_max_left 1 _)
  | some s =>
      rw [hsome] at hs
      exact h.counted (hsome.trans (congrArg some hs))

theorem change_closed {settings : BreakerSettings} {now failures since : Nat} {trial : Bool}
    {how : Settlement} {s : State}
    (h : (how.change settings now trial s).state = .closed failures since) :
    failures < max 1 settings.failureThreshold ∨ s = .closed failures since := by
  cases how with
  | succeed =>
      left
      have hzero : failures = 0 := by
        cases s <;> cases h <;> rfl
      rw [hzero]
      exact Nat.lt_of_lt_of_le Nat.zero_lt_one (Nat.le_max_left 1 _)
  | fail =>
      left
      cases s with
      | closed counted start =>
          rcases fail_closed_cases settings now counted start with hopen | ⟨n, first, hfew, hcounts⟩
          · cases hopen.symm.trans h
          · cases hcounts.symm.trans h
            exact Nat.lt_of_lt_of_le hfew (Nat.le_max_right 1 _)
      | opened reopenAt => cases h
      | halfOpen => cases h
  | release =>
      right
      cases s with
      | closed counted start => exact h
      | opened reopenAt => cases h
      | halfOpen => cases trial <;> cases h

theorem change_opened {settings : BreakerSettings} {now reopenAt : Nat} {trial : Bool}
    {how : Settlement} {s : State}
    (h : (how.change settings now trial s).state = .opened reopenAt) :
    reopenAt ≤ now + settings.openDuration ∨ s = .opened reopenAt := by
  cases how with
  | succeed => cases s <;> cases h
  | fail =>
      cases s with
      | closed counted start =>
          left
          rcases fail_closed_cases settings now counted start with hopen | ⟨n, first, _, hcounts⟩
          · cases hopen.symm.trans h
            exact Nat.le_refl _
          · cases hcounts.symm.trans h
      | opened r => exact Or.inr h
      | halfOpen =>
          left
          cases h
          exact Nat.le_refl _
  | release =>
      cases s with
      | closed counted start => cases h
      | opened r => exact Or.inr h
      | halfOpen =>
          left
          cases trial <;> cases h
          exact Nat.le_add_right _ _

theorem sound_of_turn {settings : BreakerSettings} {g g' : Gate} {d : Deed}
    (hturn : Turn g d g') (h : g.Sound settings) : g'.Sound settings := by
  have hsettings := h.settings_eq
  cases hturn with
  | waited ms =>
      refine ⟨hsettings, h.trial, h.counted, ?_⟩
      intro reopenAt hs
      have hle := h.reopens hs
      change reopenAt ≤ g.now + ms + settings.openDuration
      omega
  | turnedAway holder _ => exact h
  | admitted holder failures since _ hclosed =>
      refine ⟨hsettings, fun hs => ?_, fun hs => ?_, fun hs => ?_⟩
      · cases hs
      · cases hs
        exact h.counted_state hclosed
      · cases hs
  | probing holder reopenAt _ _ _ =>
      refine ⟨hsettings, fun _ => ⟨holder, Function.update_self _ _ _⟩, fun hs => ?_,
        fun hs => ?_⟩
      · cases hs
      · cases hs
  | stray holder how _ => exact h
  | settled holder how trial hheld =>
      refine ⟨hsettings, fun hs => ?_, fun hs => ?_, fun hs => ?_⟩
      · -- The breaker stays half open only if the permit was none of a trial.
        rcases (Settlement.change_halfOpen_iff _ _ _ _ _).mp (Option.some.inj hs) with
          ⟨hopen, _, htrial⟩
        rcases h.trial (state?_of_halfOpen hopen) with ⟨k, hk⟩
        have hne : k ≠ holder := by
          intro heq
          rw [heq, hheld, htrial] at hk
          cases hk
        exact ⟨k, (Function.update_of_ne hne _ _).trans hk⟩
      · rcases change_closed (Option.some.inj hs) with hfew | hsame
        · rwa [hsettings] at hfew
        · exact h.counted_state hsame
      · rcases change_opened (Option.some.inj hs) with hle | hsame
        · rwa [hsettings] at hle
        · exact h.reopens (state?_of_opened hsame)

/-- A breaker that is not half open admits a call once its cool-down is over. -/
theorem acquire_isSome {s : State} {now : Nat} (hhalf : s ≠ .halfOpen)
    (hdue : ∀ reopenAt, s = .opened reopenAt → reopenAt ≤ now) :
    (Breaker.acquire now s).trial.isSome := by
  cases s with
  | closed failures since => rfl
  | opened reopenAt =>
      have hlate := Nat.not_lt_of_le (hdue reopenAt rfl)
      simp [Breaker.acquire, hlate]
  | halfOpen => exact absurd rfl hhalf

end Gate

variable {δ α : Type}

namespace Flights

/-!
## Calls that are over
-/

theorem exists_flight_of_held {w : Flights δ α} {target : String} {number : Nat} {trial : Bool}
    (h : w.held target number = some trial) :
    ∃ f ∈ w.flights, f.permit? = some ⟨target, trial⟩ := by
  rw [held, Option.bind_eq_some_iff] at h
  rcases h with ⟨f, hfind, hholds⟩
  exact ⟨f, List.mem_of_find?_eq_some hfind, Flight.permit?_of_holds hholds⟩

theorem sound_run (settings : BreakerSettings) (resolve : Resolve δ) (lookups : δ)
    (events : List (Event α)) (target : String) :
    (((idle settings resolve lookups).run events).traffic.gate target).Sound
      settings := by
  rcases exists_traffic_run (idle settings resolve lookups) events with ⟨acts, hacts⟩
  rw [hacts, traffic_idle]
  exact Traffic.gate_invariant Gate.sound_of_turn (.start settings) target
    (Gate.sound_fresh settings) acts

/-- What is asked of the breaker of a target while calls are in flight, and after them. -/
structure Recovers (settings : BreakerSettings) (target : String) (w : Flights δ α) : Prop where
  trial : w.shared.breakers.phase? target = some .halfOpen →
    ∃ f ∈ w.flights, ¬ f.Over ∧ f.call.permit? = some ⟨target, true⟩
  counted : ∀ failures since,
    w.shared.breakers.state? target = some (.closed failures since) →
      failures < max 1 settings.failureThreshold ∧
        (settings.failureThreshold < UInt32.size → failures + 1 < UInt32.size)
  reopens : ∀ reopenAt, w.shared.breakers.state? target = some (.opened reopenAt) →
    reopenAt ≤ w.now + settings.openDuration
  rests : (∀ f ∈ w.flights, f.Over) → ∀ phase, w.shared.breakers.phase? target = some phase →
    phase = .closed ∨ phase = .opened
  admits : (∀ f ∈ w.flights, f.Over) → ∀ now,
    (∀ reopenAt, w.shared.breakers.state? target = some (.opened reopenAt) → reopenAt ≤ now) →
      (w.shared.breakers.acquire now target).1.isSome

theorem exists_trial_of_halfOpen {settings : BreakerSettings} {target : String}
    {w : Flights δ α} (h : (w.traffic.gate target).Sound settings)
    (hphase : w.shared.breakers.phase? target = some .halfOpen) :
    ∃ f ∈ w.flights, ¬ f.Over ∧ f.call.permit? = some ⟨target, true⟩ := by
  have hopen := (Traffic.phase?_eq_halfOpen_iff w.traffic target).mp hphase
  rcases h.trial hopen with ⟨number, hheld⟩
  rcases exists_flight_of_held hheld with ⟨f, hf, hpermit⟩
  have hlive : ¬ f.Over := by
    intro hover
    rw [Flight.permit?_of_over hover] at hpermit
    cases hpermit
  refine ⟨f, hf, hlive, ?_⟩
  rwa [Flight.permit?, if_neg (fun hcancelled => hlive (Or.inl hcancelled))] at hpermit

theorem acquire_isSome_of_rests {target : String} {w : Flights δ α} {now : Nat}
    (hrests : w.shared.breakers.phase? target ≠ some .halfOpen)
    (hdue : ∀ reopenAt, w.shared.breakers.state? target = some (.opened reopenAt) →
      reopenAt ≤ now) : (w.shared.breakers.acquire now target).1.isSome := by
  -- The gate at the time of the call, which may be long after the last event.
  let g : Gate := { w.traffic.gate target with now := now }
  rw [Breakers.permit_acquire, Option.isSome_map]
  apply Gate.acquire_isSome
  · intro hhalf
    have hopen : g.state? = some .halfOpen := Gate.state?_of_halfOpen hhalf
    exact hrests ((Traffic.phase?_eq_halfOpen_iff w.traffic target).mpr hopen)
  · intro reopenAt hopened
    have hopen : g.state? = some (.opened reopenAt) := Gate.state?_of_opened hopened
    exact hdue reopenAt hopen

/-- Whatever calls do, and wherever they are cancelled, no breaker stays shut for good. -/
theorem recovers_run (settings : BreakerSettings) (resolve : Resolve δ) (lookups : δ)
    (events : List (Event α)) (target : String) :
    ((idle settings resolve lookups).run events).Recovers settings target := by
  have hsound := sound_run settings resolve lookups events target
  generalize (idle settings resolve lookups).run events = w at hsound
  have hrests : (∀ f ∈ w.flights, f.Over) →
      w.shared.breakers.phase? target ≠ some .halfOpen := by
    intro hover hphase
    rcases exists_trial_of_halfOpen hsound hphase with ⟨f, hf, hlive, _⟩
    exact hlive (hover f hf)
  constructor
  · exact exists_trial_of_halfOpen hsound
  · intro failures since hs
    have hfew := hsound.counted hs
    have hone : 1 < UInt32.size := by decide
    exact ⟨hfew, fun hsize => by omega⟩
  · intro reopenAt hs
    exact hsound.reopens hs
  · intro hover phase hphase
    cases phase with
    | closed => exact Or.inl rfl
    | opened => exact Or.inr rfl
    | halfOpen => exact absurd hphase (hrests hover)
  · intro hover now hdue
    exact acquire_isSome_of_rests (hrests hover) hdue

/-- A failed call, and after the cool-down another one whose trial is in flight. -/
example :
    let find : Resolve Unit := .atOnce fun lookups _ => (.ok [⟨"http://gw"⟩], lookups)
    let plan : Nat → Endpoint → Reply Unit := fun _ _ => ⟨some 0, .error (.transient ["down"])⟩
    let w := (idle { failureThreshold := 1 } find ()).run
      [.launch { service := "gw" } plan, .move 0, .move 0, .move 0, .wait 30000,
        .launch { service := "gw" } plan, .move 1]
    w.shared.breakers.phase? "gw" = some .halfOpen := by
  decide

end Flights
end Rpc
end Courier
