import Courier.Rpc.Flights
import Courier.Proofs.Rpc.Moves
import Courier.Proofs.Rpc.Traffic

/-!
# Interleaved calls

Calls over shared breakers move in any order, one move at a time, while the clock
goes on; any of them can be cancelled wherever it waits. A run is a list of such
events.

The main statement is that the breakers see a run of traffic: each call in flight
is the holder of at most one permit, and whatever ends its attempt gives that
permit back.
-/

namespace Courier
namespace Rpc

namespace Call

variable {α δ : Type}

/-!
## Permits of one call
-/

/-- What a move does to the breakers and to the permit of the call that makes it. -/
inductive Grip (now : Nat) (service : String) :
    Option Permit → Breakers → Option Permit → Breakers → Prop where
  | kept (permit : Option Permit) (b : Breakers) : Grip now service permit b permit b
  | asked (b : Breakers) :
      Grip now service none b (b.acquire now service).1 (b.acquire now service).2
  | settled (permit : Permit) (b : Breakers) (how : Settlement) :
      Grip now service (some permit) b none (how.apply b now permit)

theorem permit?_stageAfter (rules : CallRules) (now : Nat) (c : Call α)
    (outcome : Except CallError α) :
    ({ c with stage := stageAfter rules now c.attempts outcome } : Call α).permit? = none := by
  cases outcome with
  | ok value => rfl
  | error e =>
      cases e with
      | application status message => rfl
      | transient causes =>
          by_cases hlast : rules.retry.attempts ≤ c.attempts <;>
            simp [permit?, stageAfter, hlast]

theorem grip_of_move {rules : CallRules} {resolve : Resolve δ} {plan : Nat → Endpoint → Reply α}
    {now : Nat} {w w' : Shared δ} {c c' : Call α} {mark : Option (Mark α)}
    (h : Move rules resolve plan now w c mark w' c') :
    Grip now rules.service c.permit? w.breakers c'.permit? w'.breakers := by
  have hasked : Grip now rules.service none w.breakers
      (w.breakers.acquire now rules.service).1 (w.breakers.acquire now rules.service).2 :=
    .asked w.breakers
  cases h with
  | refused stage hask =>
      rw [hask] at hasked
      simpa only [permit?, stage] using hasked
  | admitted stage hask _ =>
      rw [hask] at hasked
      simpa only [permit?, stage] using hasked
  | unlocated stage _ _ =>
      simp only [permit?, stage]
      exact .settled _ w.breakers .release
  | called stage _ _ =>
      simp only [permit?, stage]
      exact .kept _ w.breakers
  | settled stage _ =>
      rw [permit?_stageAfter]
      simp only [permit?, stage]
      exact .settled _ w.breakers _
  | resumed stage _ =>
      simp only [permit?, stage]
      exact .kept none w.breakers

end Call

variable {α δ : Type}

namespace Flight

/-- The permit of the attempt under way; a cancelled call has given its permit back. -/
def permit? (f : Flight α) : Option Permit :=
  if f.cancelled then none else f.call.permit?

/-- Whether a call in flight has a permit for a target, and if so whether it is a trial. -/
def holds (f : Flight α) (target : String) : Option Bool :=
  (f.permit?.filter fun p => p.target = target).map Permit.trial

def Over (f : Flight α) : Prop :=
  f.cancelled ∨ (f.call.result?).isSome

theorem holds_of_none {f : Flight α} (h : f.permit? = none) (target : String) :
    f.holds target = none := by
  simp [holds, h]

theorem holds_self {f : Flight α} {permit : Permit} (h : f.permit? = some permit) :
    f.holds permit.target = some permit.trial := by
  rw [holds, h, Option.filter_some, if_pos (decide_eq_true rfl), Option.map_some]

theorem holds_of_ne {f : Flight α} {permit : Permit} {target : String}
    (h : f.permit? = some permit) (hne : target ≠ permit.target) : f.holds target = none := by
  simp [holds, h, Ne.symm hne]

theorem permit?_of_holds {f : Flight α} {target : String} {trial : Bool}
    (h : f.holds target = some trial) : f.permit? = some ⟨target, trial⟩ := by
  cases hpermit : f.permit? with
  | none =>
      rw [holds_of_none hpermit] at h
      cases h
  | some permit =>
      by_cases htarget : target = permit.target
      · subst htarget
        rw [holds_self hpermit] at h
        cases h
        rfl
      · rw [holds_of_ne hpermit htarget] at h
        cases h

theorem permit?_of_over {f : Flight α} (h : f.Over) : f.permit? = none := by
  unfold permit?
  rcases h with h | h
  · rw [if_pos h]
  · have hpermit : f.call.permit? = none := by
      unfold Call.permit?
      unfold Call.result? at h
      split at h
      · rename_i hstage
        rw [hstage]
      · cases h
    rw [hpermit, ite_self]

end Flight

inductive Event (α : Type) where
  | wait (ms : Nat)
  | launch (rules : CallRules) (plan : Nat → Endpoint → Reply α)
  | move (number : Nat)
  | yield (number : Nat)
  | cancel (number : Nat)

namespace Flights

def idle (settings : BreakerSettings) (resolve : Resolve δ) (lookups : δ) : Flights δ α where
  resolve := resolve
  shared := ⟨{ settings := settings }, lookups⟩

def put (w : Flights δ α) (f : Flight α) (shared : Shared δ) : Flights δ α :=
  { w with shared := shared, flights := replace f w.flights }

def move (w : Flights δ α) (number : Nat) : Flights δ α :=
  match w.find? number with
  | none => w
  | some f =>
    if f.cancelled then w
    else
      match f.call.step? f.rules w.resolve f.plan w.now w.shared with
      | none => w
      | some (call, shared) => w.put { f with call := call } shared

def yield (w : Flights δ α) (number : Nat) : Flights δ α :=
  match w.find? number with
  | none => w
  | some f => { w.put { f with turn := w.turn } w.shared with turn := w.turn + 1 }

def act (w : Flights δ α) : Event α → Flights δ α
  | .wait ms => { w with now := w.now + ms }
  | .launch rules plan =>
    { w with
      launched := w.launched + 1
      flights := w.flights ++ [{ number := w.launched, rules := rules, plan := plan }] }
  | .move number => w.move number
  | .yield number => w.yield number
  | .cancel number => w.abort number

def run (w : Flights δ α) (events : List (Event α)) : Flights δ α :=
  events.foldl act w

/-!
## Calls as traffic
-/

def held (w : Flights δ α) (target : String) (number : Nat) : Option Bool :=
  (w.find? number).bind fun f => f.holds target

def traffic (w : Flights δ α) : Traffic where
  breakers := w.shared.breakers
  now := w.now
  held := w.held

theorem number_of_find? {w : Flights δ α} {number : Nat} {f : Flight α}
    (h : w.find? number = some f) : f.number = number := by
  have hmatch := List.find?_some h
  simpa using hmatch

theorem held_of_find? {w : Flights δ α} {number : Nat} {f : Flight α}
    (h : w.find? number = some f) (target : String) : w.held target number = f.holds target := by
  simp only [held, h, Option.bind_some]

theorem find?_replace (f : Flight α) (flights : List (Flight α)) (number : Nat) :
    (replace f flights).find? (fun g => g.number = number) =
      if number = f.number then
        (flights.find? fun g => g.number = number).map fun _ => f
      else flights.find? fun g => g.number = number := by
  induction flights with
  | nil =>
      simp [replace]
  | cons g rest ih =>
      unfold replace at ih ⊢
      rw [List.map_cons, List.find?_cons, List.find?_cons, ih]
      by_cases hg : g.number = f.number
      · by_cases hn : number = f.number
        · simp [hg, hn]
        · simp [hg, hn, Ne.symm hn]
      · by_cases hn : number = f.number
        · simp [hg, hn]
        · simp [hg, hn]

theorem held_put {w : Flights δ α} {f g : Flight α} (hfind : w.find? f.number = some g)
    (shared : Shared δ) (target : String) :
    (w.put f shared).held target =
      Function.update (w.held target) f.number (f.holds target) := by
  funext number
  have hput : (w.put f shared).find? number =
      if number = f.number then (w.find? number).map fun _ => f else w.find? number :=
    find?_replace f w.flights number
  by_cases hn : number = f.number
  · subst hn
    rw [Function.update_self, held, hput, if_pos rfl, hfind]
    rfl
  · rw [Function.update_of_ne hn, held, hput, if_neg hn]
    rfl

theorem traffic_put_kept {w : Flights δ α} {f f' : Flight α} {shared : Shared δ}
    (hfind : w.find? f'.number = some f) (hpermit : f'.permit? = f.permit?)
    (hbreakers : shared.breakers = w.shared.breakers) :
    (w.put f' shared).traffic = w.traffic := by
  have hheld : (w.put f' shared).held = w.held := by
    funext target
    have hsame : f'.holds target = w.held target f'.number := by
      rw [held_of_find? hfind, Flight.holds, Flight.holds, hpermit]
    rw [held_put hfind, hsame, Function.update_eq_self]
  rw [traffic, hheld]
  exact congrArg (fun b => Traffic.mk b w.now w.held) hbreakers

theorem held_put_eq_setHeld {w : Flights δ α} {f f' : Flight α} {target : String}
    {permit : Option Bool} (hfind : w.find? f'.number = some f)
    (hself : f'.holds target = permit)
    (hother : ∀ u, u ≠ target → f'.holds u = none ∧ f.holds u = none) (shared : Shared δ) :
    (w.put f' shared).held = w.traffic.setHeld target f'.number permit := by
  funext u
  rw [held_put hfind]
  by_cases hu : u = target
  · subst hu
    rw [Traffic.setHeld_self, hself]
    rfl
  · have hsame : f'.holds u = w.held u f'.number := by
      rw [held_of_find? hfind, (hother u hu).left, (hother u hu).right]
    rw [Traffic.setHeld_of_ne hu, hsame, Function.update_eq_self]
    rfl

theorem traffic_put_asked {w : Flights δ α} {f f' : Flight α} {service : String}
    {shared : Shared δ} (hfind : w.find? f'.number = some f) (hfree : f.permit? = none)
    (hpermit : f'.permit? = (w.shared.breakers.acquire w.now service).1)
    (hbreakers : shared.breakers = (w.shared.breakers.acquire w.now service).2) :
    (w.put f' shared).traffic = w.traffic.step (.acquire service f'.number) := by
  have hnone : w.traffic.held service f'.number = none :=
    (held_of_find? hfind service).trans (Flight.holds_of_none hfree service)
  have htarget : ∀ p, f'.permit? = some p → p.target = service := by
    intro p hp
    rw [hpermit, Breakers.permit_acquire, Option.map_eq_some_iff] at hp
    rcases hp with ⟨trial, _, rfl⟩
    rfl
  have hheld : (w.put f' shared).held =
      w.traffic.setHeld service f'.number (f'.permit?.map Permit.trial) := by
    apply held_put_eq_setHeld hfind
    · cases hp : f'.permit? with
      | none => exact Flight.holds_of_none hp service
      | some p =>
          rw [← htarget p hp]
          exact Flight.holds_self hp
    · intro u hu
      refine ⟨?_, Flight.holds_of_none hfree u⟩
      cases hp : f'.permit? with
      | none => exact Flight.holds_of_none hp u
      | some p =>
          rw [← htarget p hp] at hu
          exact Flight.holds_of_ne hp hu
  rw [Traffic.step, hnone, traffic, hheld, hpermit]
  exact congrArg (fun b => Traffic.mk b w.now _) hbreakers

theorem traffic_put_settled {w : Flights δ α} {f f' : Flight α} {permit : Permit}
    {how : Settlement} {shared : Shared δ} (hfind : w.find? f'.number = some f)
    (hholds : f.permit? = some permit) (hpermit : f'.permit? = none)
    (hbreakers : shared.breakers = how.apply w.shared.breakers w.now permit) :
    (w.put f' shared).traffic = w.traffic.step (.settle permit.target f'.number how) := by
  have hsome : w.traffic.held permit.target f'.number = some permit.trial :=
    (held_of_find? hfind permit.target).trans (Flight.holds_self hholds)
  have hheld : (w.put f' shared).held = w.traffic.setHeld permit.target f'.number none := by
    apply held_put_eq_setHeld hfind
    · exact Flight.holds_of_none hpermit permit.target
    · intro u hu
      exact ⟨Flight.holds_of_none hpermit u, Flight.holds_of_ne hholds hu⟩
  rw [Traffic.step, hsome, traffic, hheld]
  exact congrArg (fun b => Traffic.mk b w.now _) hbreakers

theorem traffic_put {w : Flights δ α} {f : Flight α} (f' : Flight α) (service : String)
    {shared : Shared δ} (hfind : w.find? f'.number = some f)
    (hgrip : Call.Grip w.now service f.permit? w.shared.breakers f'.permit? shared.breakers) :
    (w.put f' shared).traffic = w.traffic ∨
      ∃ a, (w.put f' shared).traffic = w.traffic.step a := by
  generalize hp : f.permit? = p at hgrip
  generalize hp' : f'.permit? = p' at hgrip
  generalize hb' : shared.breakers = b' at hgrip
  cases hgrip with
  | kept permit b =>
      exact Or.inl (traffic_put_kept hfind (hp'.trans hp.symm) hb')
  | asked b =>
      exact Or.inr ⟨_, traffic_put_asked hfind hp hp' hb'⟩
  | settled permit b how =>
      exact Or.inr ⟨_, traffic_put_settled hfind hp hp' hb'⟩

theorem move_of_step? {w : Flights δ α} {f : Flight α} {call : Call α} {shared : Shared δ}
    (hfind : w.find? f.number = some f) (hlive : f.cancelled = false)
    (hstep : f.call.step? f.rules w.resolve f.plan w.now w.shared = some (call, shared)) :
    w.move f.number = w.put { f with call := call } shared := by
  rw [move, hfind]
  simp [hlive, hstep]

theorem traffic_move (w : Flights δ α) (number : Nat) :
    (w.move number).traffic = w.traffic ∨ ∃ a, (w.move number).traffic = w.traffic.step a := by
  cases hfind : w.find? number with
  | none => exact Or.inl (by rw [move, hfind])
  | some f =>
      have hnumber := number_of_find? hfind
      subst hnumber
      cases hlive : f.cancelled with
      | true => exact Or.inl (by simp [move, hfind, hlive])
      | false =>
          cases hstep : f.call.step? f.rules w.resolve f.plan w.now w.shared with
          | none => exact Or.inl (by simp [move, hfind, hstep])
          | some moved =>
              rcases moved with ⟨call, shared⟩
              rw [move_of_step? hfind hlive hstep]
              rcases Call.exists_move_of_step? hstep with ⟨mark, hmove⟩
              have hgrip := Call.grip_of_move hmove
              apply traffic_put { f with call := call } f.rules.service hfind
              simpa [Flight.permit?, hlive] using hgrip

theorem traffic_yield (w : Flights δ α) (number : Nat) :
    (w.yield number).traffic = w.traffic := by
  unfold yield
  cases hfind : w.find? number with
  | none => rfl
  | some f =>
      have hnumber := number_of_find? hfind
      subst hnumber
      have hput : (w.put { f with turn := w.turn } w.shared).traffic = w.traffic :=
        traffic_put_kept hfind rfl rfl
      exact hput

theorem traffic_abort (w : Flights δ α) (number : Nat) :
    (w.abort number).traffic = w.traffic ∨ ∃ a, (w.abort number).traffic = w.traffic.step a := by
  unfold abort
  cases hfind : w.find? number with
  | none => exact Or.inl rfl
  | some f =>
      have hnumber := number_of_find? hfind
      subst hnumber
      by_cases hover : f.cancelled ∨ (f.call.result?).isSome
      · exact Or.inl (by simp only [hover, if_true])
      · simp only [hover, if_false]
        have hlive : f.cancelled = false := by
          simpa using fun h => hover (Or.inl h)
        apply traffic_put { f with cancelled := true } f.rules.service hfind
        simp only [Flight.permit?, hlive, Bool.false_eq_true, if_false, if_true, Call.cancel]
        cases f.call.permit? with
        | none => exact .kept none _
        | some permit => exact .settled permit _ .release

theorem traffic_launch (w : Flights δ α) (rules : CallRules)
    (plan : Nat → Endpoint → Reply α) : (w.act (.launch rules plan)).traffic = w.traffic := by
  have hheld : (w.act (.launch rules plan)).held = w.held := by
    funext target number
    simp only [act, held, find?, List.find?_append]
    cases w.flights.find? fun f => f.number = number with
    | some f => rfl
    | none =>
        by_cases hn : w.launched = number <;> simp [hn, Flight.holds, Flight.permit?, Call.permit?]
  rw [traffic, hheld]
  rfl

/-- An event makes no difference to the breakers, or it is one act of traffic. -/
theorem traffic_act (w : Flights δ α) (e : Event α) :
    (w.act e).traffic = w.traffic ∨ ∃ a, (w.act e).traffic = w.traffic.step a := by
  cases e with
  | wait ms => exact Or.inr ⟨.wait ms, rfl⟩
  | launch rules plan => exact Or.inl (traffic_launch w rules plan)
  | move number => exact traffic_move w number
  | yield number => exact Or.inl (traffic_yield w number)
  | cancel number => exact traffic_abort w number

theorem exists_traffic_run (w : Flights δ α) (events : List (Event α)) :
    ∃ acts, (w.run events).traffic = w.traffic.run acts := by
  induction events generalizing w with
  | nil => exact ⟨[], rfl⟩
  | cons e rest ih =>
      rcases ih (w.act e) with ⟨acts, hacts⟩
      rcases traffic_act w e with hsame | ⟨a, ha⟩
      · rw [hsame] at hacts
        exact ⟨acts, hacts⟩
      · rw [ha] at hacts
        exact ⟨a :: acts, hacts⟩

theorem traffic_idle (settings : BreakerSettings) (resolve : Resolve δ) (lookups : δ) :
    (idle settings resolve lookups : Flights δ α).traffic = Traffic.start settings := rfl

end Flights
end Rpc
end Courier
