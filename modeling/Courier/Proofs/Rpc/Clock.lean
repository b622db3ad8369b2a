import Courier.Proofs.Rpc.Interleaving
import Mathlib.Data.List.Nodup

/-!
# Calls on a clock

A clock lets each call go on when its time has come, as far as the call can, and
then turns to the next one.

The main statement is that this is one way among others to interleave calls:
whatever is asked of a clock, it does what some run of events does.
-/

namespace Courier
namespace Rpc

variable {δ α : Type}

namespace Flights

/-!
## Numbers of calls
-/

/-- No two calls of a clock have the same number, and new ones get greater numbers. -/
structure Numbered (w : Flights δ α) : Prop where
  nodup : (w.flights.map Flight.number).Nodup
  lt : ∀ f ∈ w.flights, f.number < w.launched

theorem map_number_replace (f : Flight α) (flights : List (Flight α)) :
    (replace f flights).map Flight.number = flights.map Flight.number := by
  unfold replace
  rw [List.map_map]
  apply List.map_congr_left
  intro g _
  by_cases h : g.number = f.number <;> simp [h]

theorem numbered_of_map_eq {w w' : Flights δ α} (h : Numbered w)
    (hnumbers : w'.flights.map Flight.number = w.flights.map Flight.number)
    (hlaunched : w'.launched = w.launched) : Numbered w' := by
  constructor
  · rw [hnumbers]
    exact h.nodup
  · intro f hf
    have hmem := List.mem_map_of_mem (f := Flight.number) hf
    rw [hnumbers, List.mem_map] at hmem
    rcases hmem with ⟨g, hg, hnumber⟩
    rw [← hnumber, hlaunched]
    exact h.lt g hg

theorem numbered_launch {w : Flights δ α} (h : Numbered w) (rules : CallRules)
    (plan : Nat → Endpoint → Reply α) : Numbered (w.act (.launch rules plan)) := by
  constructor
  · simp only [act, List.map_append, List.map_singleton]
    rw [List.nodup_append]
    refine ⟨h.nodup, List.nodup_singleton _, ?_⟩
    intro number hnumber k hk
    rw [List.mem_map] at hnumber
    rcases hnumber with ⟨f, hf, rfl⟩
    rw [List.mem_singleton.mp hk]
    exact Nat.ne_of_lt (h.lt f hf)
  · intro f hf
    simp only [act, List.mem_append, List.mem_singleton] at hf
    rcases hf with hf | rfl
    · exact Nat.lt_succ_of_lt (h.lt f hf)
    · exact Nat.lt_succ_self _

theorem numbered_act {w : Flights δ α} (h : Numbered w) (e : Event α) : Numbered (w.act e) := by
  cases e with
  | wait ms => exact ⟨h.nodup, h.lt⟩
  | launch rules plan => exact numbered_launch h rules plan
  | move number =>
      simp only [act, move]
      cases w.find? number with
      | none => exact h
      | some f =>
          by_cases hcancelled : f.cancelled
          · simpa only [hcancelled, if_true] using h
          · cases hstep : f.call.step? f.rules w.resolve f.plan w.now w.shared with
            | none => simpa [hstep] using h
            | some moved =>
                simp only [hcancelled, hstep]
                exact numbered_of_map_eq h (map_number_replace _ _) rfl
  | yield number =>
      simp only [act, yield]
      cases w.find? number with
      | none => exact h
      | some f => exact numbered_of_map_eq h (map_number_replace _ _) rfl
  | cancel number =>
      simp only [act, abort]
      cases w.find? number with
      | none => exact h
      | some f =>
          by_cases hover : f.cancelled ∨ (f.call.result?).isSome
          · simpa only [hover, if_true] using h
          · simp only [hover, if_false]
            exact numbered_of_map_eq h (map_number_replace _ _) rfl

theorem numbered_run {w : Flights δ α} (h : Numbered w) (events : List (Event α)) :
    Numbered (w.run events) := by
  induction events generalizing w with
  | nil => exact h
  | cons e rest ih => exact ih (numbered_act h e)

theorem find?_of_mem {w : Flights δ α} (h : Numbered w) {f : Flight α} (hf : f ∈ w.flights) :
    w.find? f.number = some f := by
  unfold find?
  have hnodup := h.nodup
  generalize w.flights = flights at hf hnodup
  induction flights with
  | nil => cases hf
  | cons g rest ih =>
      rw [List.map_cons, List.nodup_cons] at hnodup
      rcases List.mem_cons.mp hf with rfl | hrest
      · simp
      · have hne : g.number ≠ f.number := by
          intro heq
          exact hnodup.left (heq ▸ List.mem_map_of_mem hrest)
        rw [List.find?_cons_of_neg (by simpa using hne)]
        exact ih hrest hnodup.right

/-!
## One call after another
-/

def park (w : Flights δ α) (f : Flight α) (moved : Call α × Shared δ) : Flights δ α :=
  { w.put { f with call := moved.1, turn := w.turn } moved.2 with turn := w.turn + 1 }

def pollIn (w : Flights δ α) (f : Flight α) : Flights δ α :=
  w.park f (f.call.poll f.rules w.resolve f.plan w.now w.shared)

theorem pollDue_eq (w : Flights δ α) : w.pollDue = w.due.foldl pollIn w := rfl

theorem replace_replace (f g : Flight α) (h : g.number = f.number)
    (flights : List (Flight α)) : replace g (replace f flights) = replace g flights := by
  unfold replace
  rw [List.map_map]
  apply List.map_congr_left
  intro k _
  by_cases hk : k.number = f.number <;> simp [hk, h]

theorem park_put (w : Flights δ α) (f : Flight α) (call : Call α) (shared : Shared δ)
    (moved : Call α × Shared δ) :
    (w.put { f with call := call } shared).park { f with call := call } moved =
      w.park f moved := by
  have hreplace := replace_replace { f with call := call }
    { f with call := moved.1, turn := w.turn } rfl w.flights
  simp only [park, put, hreplace]

theorem find?_put_self {w : Flights δ α} {f g : Flight α} (hfind : w.find? f.number = some g)
    (shared : Shared δ) : (w.put f shared).find? f.number = some f := by
  have hput := find?_replace f w.flights f.number
  rw [if_pos rfl] at hput
  exact hput.trans (congrArg (Option.map fun _ => f) hfind)

theorem find?_park_of_ne {w : Flights δ α} {f : Flight α} {number : Nat}
    (hne : number ≠ f.number) (moved : Call α × Shared δ) :
    (w.park f moved).find? number = w.find? number := by
  have hreplace := find?_replace { f with call := moved.1, turn := w.turn } w.flights number
  exact hreplace.trans (if_neg hne)

theorem run_yield {w : Flights δ α} {f : Flight α} (hfind : w.find? f.number = some f) :
    w.run [.yield f.number] = w.park f (f.call, w.shared) := by
  simp only [run, List.foldl_cons, List.foldl_nil, act, yield, hfind, park]

theorem run_run (w : Flights δ α) (events more : List (Event α)) :
    (w.run events).run more = w.run (events ++ more) :=
  List.foldl_append.symm

theorem exists_run_park (k : Nat) {w : Flights δ α} {f : Flight α}
    (hfind : w.find? f.number = some f) (hlive : f.cancelled = false) :
    ∃ events : List (Event α),
      w.park f (f.call.moves f.rules w.resolve f.plan w.now k w.shared) = w.run events := by
  induction k generalizing w f with
  | zero => exact ⟨[.yield f.number], (run_yield hfind).symm⟩
  | succ k ih =>
      cases hstep : f.call.step? f.rules w.resolve f.plan w.now w.shared with
      | none =>
          rw [Call.moves, hstep]
          exact ⟨[.yield f.number], (run_yield hfind).symm⟩
      | some moved =>
          rcases moved with ⟨call, shared⟩
          let f₁ : Flight α := { f with call := call }
          have hfind₁ : (w.put f₁ shared).find? f₁.number = some f₁ :=
            find?_put_self (f := f₁) hfind shared
          rcases ih hfind₁ hlive with ⟨events, hevents⟩
          refine ⟨.move f.number :: events, ?_⟩
          rw [park_put] at hevents
          rw [Call.moves, hstep]
          have hmove : w.act (.move f.number) = w.put f₁ shared :=
            move_of_step? hfind hlive hstep
          have hrun : w.run (.move f.number :: events) = (w.put f₁ shared).run events :=
            congrArg (fun v => run v events) hmove
          rw [hrun]
          exact hevents

theorem exists_run_foldl_pollIn (flights : List (Flight α)) {w : Flights δ α}
    (hnodup : (flights.map Flight.number).Nodup)
    (hlive : ∀ f ∈ flights, w.find? f.number = some f ∧ f.cancelled = false) :
    ∃ events : List (Event α), flights.foldl pollIn w = w.run events := by
  induction flights generalizing w with
  | nil => exact ⟨[], rfl⟩
  | cons f rest ih =>
      rw [List.map_cons, List.nodup_cons] at hnodup
      have hf := hlive f List.mem_cons_self
      have hrest : ∀ g ∈ rest, (w.pollIn f).find? g.number = some g ∧ g.cancelled = false := by
        intro g hg
        have hne : g.number ≠ f.number := by
          intro heq
          exact hnodup.left (heq ▸ List.mem_map_of_mem hg)
        rw [pollIn, find?_park_of_ne hne]
        exact hlive g (List.mem_cons_of_mem f hg)
      rcases exists_run_park (4 * f.rules.retry.attempts) hf.left hf.right with ⟨first, hfirst⟩
      rcases ih hnodup.right hrest with ⟨second, hsecond⟩
      refine ⟨first ++ second, ?_⟩
      rw [List.foldl_cons, hsecond, ← run_run, ← hfirst]
      rfl

theorem exists_run_pollDue {w : Flights δ α} (h : Numbered w) :
    ∃ events : List (Event α), w.pollDue = w.run events := by
  have hperm : w.due.Perm (w.flights.filter fun f => (wakeTime f).any (· ≤ w.now)) :=
    List.mergeSort_perm _ isBefore
  rw [pollDue_eq]
  apply exists_run_foldl_pollIn w.due
  · apply (hperm.map Flight.number).nodup_iff.mpr
    exact h.nodup.sublist (List.filter_sublist.map Flight.number)
  · intro f hf
    have hmem := hperm.mem_iff.mp hf
    rw [List.mem_filter] at hmem
    refine ⟨find?_of_mem h hmem.left, ?_⟩
    -- A cancelled call waits for no time.
    cases hcancelled : f.cancelled with
    | false => rfl
    | true =>
        have hdue := hmem.right
        simp [wakeTime, hcancelled] at hdue

/-!
## What is asked of a clock
-/

theorem exists_run_advance {w : Flights δ α} (h : Numbered w) (ms : Nat) :
    ∃ events : List (Event α), w.advance ms = w.run events := by
  have hlater : Numbered (w.act (.wait ms)) := numbered_act h (.wait ms)
  rcases exists_run_pollDue hlater with ⟨events, hevents⟩
  exact ⟨.wait ms :: events, hevents⟩

theorem replace_append_single (f g : Flight α) {flights : List (Flight α)}
    (hnumber : f.number = g.number) (hothers : ∀ k ∈ flights, k.number ≠ g.number) :
    replace g (flights ++ [f]) = flights ++ [g] := by
  have hsame : flights.map (fun k => if k.number = g.number then g else k) = flights.map id := by
    apply List.map_congr_left
    intro k hk
    exact if_neg (hothers k hk)
  rw [replace, List.map_append, hsame, List.map_id, List.map_singleton, if_pos hnumber]

theorem exists_run_launch {w : Flights δ α} (h : Numbered w) (rules : CallRules)
    (plan : Nat → Endpoint → Reply α) :
    ∃ events : List (Event α), (w.launch rules plan).2 = w.run events := by
  rcases exists_run_pollDue h with ⟨due, hdue⟩
  have hnumbered : Numbered w.pollDue := by
    rw [hdue]
    exact numbered_run h due
  generalize hw : w.pollDue = v at hdue hnumbered
  let f : Flight α := { number := v.launched, rules := rules, plan := plan }
  have hmem : f ∈ (v.act (.launch rules plan)).flights :=
    List.mem_append_right _ (List.mem_singleton_self f)
  have hfind := find?_of_mem (numbered_act hnumbered (.launch rules plan)) hmem
  rcases exists_run_park (4 * rules.retry.attempts) hfind rfl with ⟨events, hevents⟩
  have hlaunch : (w.launch rules plan).2 = (v.act (.launch rules plan)).pollIn f := by
    have hothers : ∀ g ∈ v.flights, g.number ≠ v.launched :=
      fun g hg => Nat.ne_of_lt (hnumbered.lt g hg)
    have happend := replace_append_single f (v.pollFlight f).1 rfl hothers
    calc
      (w.launch rules plan).2 =
          { (v.pollFlight f).2 with
            launched := v.launched + 1
            flights := v.flights ++ [(v.pollFlight f).1] } := by
        unfold launch
        rw [hw]
        rfl
      _ = { (v.pollFlight f).2 with
            launched := v.launched + 1
            flights := replace (v.pollFlight f).1 (v.flights ++ [f]) } := by
        rw [happend]
      _ = (v.act (.launch rules plan)).pollIn f := rfl
  refine ⟨due ++ .launch rules plan :: events, ?_⟩
  rw [hlaunch, ← run_run, ← hdue]
  exact hevents

theorem exists_run_waitFor (fuel : Nat) {w : Flights δ α} (h : Numbered w) (number : Nat) :
    ∃ events : List (Event α), w.waitFor number fuel = w.run events := by
  induction fuel generalizing w with
  | zero => exact ⟨[], rfl⟩
  | succ fuel ih =>
      rcases exists_run_pollDue h with ⟨due, hdue⟩
      unfold waitFor
      cases w.find? number with
      | none => exact ⟨[], rfl⟩
      | some f =>
          by_cases hover : f.cancelled ∨ (f.call.result?).isSome
          · exact ⟨[], if_pos hover⟩
          · simp only [hover, if_false]
            cases w.pollDue.find? number with
            | none => exact ⟨due, hdue⟩
            | some g =>
                by_cases hdone : (g.call.result?).isSome
                · exact ⟨due, by simpa only [hdone, if_true] using hdue⟩
                · simp only [hdone]
                  cases w.pollDue.nextWake none with
                  | none => exact ⟨due, hdue⟩
                  | some t =>
                      -- The clock moves to the next time at which a call goes on.
                      have hmax : max w.pollDue.now t = w.pollDue.now + (t - w.pollDue.now) := by
                        omega
                      have hwait : ({ w.pollDue with now := max w.pollDue.now t } : Flights δ α) =
                          w.run (due ++ [.wait (t - w.pollDue.now)]) := by
                        rw [← run_run, ← hdue, hmax]
                        rfl
                      have hlater := numbered_run h (due ++ [.wait (t - w.pollDue.now)])
                      rw [← hwait] at hlater
                      rcases ih hlater with ⟨events, hevents⟩
                      refine ⟨due ++ [.wait (t - w.pollDue.now)] ++ events, ?_⟩
                      rw [← run_run, ← hwait]
                      exact hevents

inductive Order (α : Type) where
  | launch (rules : CallRules) (plan : Nat → Endpoint → Reply α)
  | advance (ms : Nat)
  | abort (number : Nat)
  | join (number : Nat)

def obey (w : Flights δ α) : Order α → Flights δ α
  | .launch rules plan => (w.launch rules plan).2
  | .advance ms => w.advance ms
  | .abort number => w.abort number
  | .join number => (w.join number).2

theorem exists_run_foldl_obey {w : Flights δ α} (h : Numbered w) (orders : List (Order α)) :
    ∃ events : List (Event α), orders.foldl obey w = w.run events := by
  induction orders generalizing w with
  | nil => exact ⟨[], rfl⟩
  | cons order rest ih =>
      have hone : ∃ events : List (Event α), w.obey order = w.run events := by
        cases order with
        | launch rules plan => exact exists_run_launch h rules plan
        | advance ms => exact exists_run_advance h ms
        | abort number => exact ⟨[.cancel number], rfl⟩
        | join number => exact exists_run_waitFor _ h number
      rcases hone with ⟨first, hfirst⟩
      have hnext : Numbered (w.obey order) := by
        rw [hfirst]
        exact numbered_run h first
      rcases ih hnext with ⟨second, hsecond⟩
      refine ⟨first ++ second, ?_⟩
      rw [List.foldl_cons, hsecond, hfirst, run_run]

/-- Whatever is asked of a clock, its calls are interleaved in some order. -/
theorem exists_run_of_orders (settings : BreakerSettings) (resolve : Resolve δ) (lookups : δ)
    (orders : List (Order α)) :
    ∃ events : List (Event α),
      orders.foldl obey (idle settings resolve lookups) =
        (idle settings resolve lookups).run events := by
  have hidle : Numbered (idle settings resolve lookups : Flights δ α) :=
    ⟨List.nodup_nil, fun f hf => by cases hf⟩
  exact exists_run_foldl_obey hidle orders

end Flights
end Rpc
end Courier
