import Courier.Proofs.Rpc.Traffic

/-!
# Targets apart

One set of breakers serves all targets. What is seen at a target is the answers to those who
ask there, the permits that are out, and the phases of its breaker.

The main statement is `view_own`: at each moment of a run a target looks as it does in the
run of its own acts alone, at the same times.
-/

namespace Courier
namespace Rpc

/-- The act is at a target, or it is only the clock that goes on. -/
def Act.isAt (target : String) : Act → Bool
  | .wait _ => true
  | .acquire t _ => t = target
  | .settle t _ _ => t = target

theorem Act.at?_eq_none {a : Act} {target : String} (h : a.isAt target = false) :
    a.at? target = none := by
  cases a with
  | wait ms => cases h
  | acquire t holder => exact if_neg (of_decide_eq_false h)
  | settle t holder how => exact if_neg (of_decide_eq_false h)

structure Answer where
  time : Nat
  holder : Nat
  /-- Nothing if the call is refused, or else whether it is a trial. -/
  trial : Option Bool
deriving DecidableEq, Repr

def Gate.answer? (g : Gate) : Deed → Option Answer
  | .acquire holder =>
    match g.held holder with
    | some _ => none
    | none => some ⟨g.now, holder, (Breaker.acquire g.now g.state).trial⟩
  | _ => none

namespace Traffic

def answer? (t : Traffic) (target : String) : Act → Option Answer
  | .acquire u holder =>
    if u = target then
      match t.held target holder with
      | some _ => none
      | none => some ⟨t.now, holder, (t.breakers.acquire t.now target).1.map Permit.trial⟩
    else none
  | _ => none

def answers (target : String) : Traffic → List Act → List Answer
  | _, [] => []
  | t, a :: rest => (t.answer? target a).toList ++ answers target (t.step a) rest

structure View where
  now : Nat
  phase : Option Phase
  held : Nat → Option Bool
  answers : List Answer

def view (t : Traffic) (target : String) (acts : List Act) : View where
  now := (t.run acts).now
  phase := (t.run acts).phase? target
  held := (t.run acts).held target
  answers := t.answers target acts

theorem answer?_eq (t : Traffic) (target : String) (a : Act) :
    t.answer? target a = (a.at? target).bind (t.gate target).answer? := by
  cases a with
  | wait ms => rfl
  | settle u holder how =>
      by_cases h : u = target
      · simp only [answer?, Act.at?, if_pos h, Option.bind_some, Gate.answer?]
      · simp only [answer?, Act.at?, if_neg h, Option.bind_none]
  | acquire u holder =>
      by_cases h : u = target
      · simp only [answer?, Act.at?, if_pos h, Option.bind_some, Gate.answer?, gate_held,
          Breakers.permit_acquire, Option.map_map]
        cases t.held target holder with
        | some trial => rfl
        | none => simp [gate, Gate.state, Function.comp_def]
      · simp only [answer?, Act.at?, if_neg h, Option.bind_none]

/-!
## A target's own acts
-/

section Own

variable {target : String}

theorem gate_step_congr {t t' : Traffic} (h : t.gate target = t'.gate target) (a : Act) :
    (t.step a).gate target = (t'.step a).gate target := by
  rw [gate_step, gate_step, h]

theorem gate_step_of_elsewhere (t : Traffic) {a : Act} (h : a.isAt target = false) :
    (t.step a).gate target = t.gate target := by
  rw [gate_step, Act.at?_eq_none h]
  rfl

theorem answer?_of_elsewhere (t : Traffic) {a : Act} (h : a.isAt target = false) :
    t.answer? target a = none := by
  rw [answer?_eq, Act.at?_eq_none h]
  rfl

/-- The gate of a target goes through the same states without the acts at other targets. -/
theorem gate_run_own {t t' : Traffic} (h : t.gate target = t'.gate target) (acts : List Act) :
    (t.run acts).gate target = (t'.run (acts.filter (Act.isAt target))).gate target := by
  induction acts generalizing t t' with
  | nil => exact h
  | cons a rest ih =>
      cases hat : a.isAt target with
      | true =>
          rw [List.filter_cons_of_pos hat, run_cons, run_cons]
          exact ih (gate_step_congr h a)
      | false =>
          rw [List.filter_cons_of_neg (by simp [hat]), run_cons]
          exact ih ((gate_step_of_elsewhere t hat).trans h)

theorem answers_own {t t' : Traffic} (h : t.gate target = t'.gate target) (acts : List Act) :
    t.answers target acts = t'.answers target (acts.filter (Act.isAt target)) := by
  induction acts generalizing t t' with
  | nil => rfl
  | cons a rest ih =>
      cases hat : a.isAt target with
      | true =>
          have hsame : t.answer? target a = t'.answer? target a := by
            rw [answer?_eq, answer?_eq, h]
          rw [List.filter_cons_of_pos hat, answers, answers, hsame, ih (gate_step_congr h a)]
      | false =>
          rw [List.filter_cons_of_neg (by simp [hat]), answers, answer?_of_elsewhere t hat]
          exact ih ((gate_step_of_elsewhere t hat).trans h)

end Own

/--
Whoever asks and settles at other targets in between, a target looks as if there had been its
own acts only.
-/
theorem view_own (t : Traffic) (target : String) (acts : List Act) :
    t.view target acts = t.view target (acts.filter (Act.isAt target)) := by
  have hgate : (t.run acts).gate target = (t.run (acts.filter (Act.isAt target))).gate target :=
    gate_run_own rfl acts
  have hnow := congrArg Gate.now hgate
  have hheld := congrArg Gate.held hgate
  have hphase : (t.run acts).phase? target =
      (t.run (acts.filter (Act.isAt target))).phase? target := by
    rw [phase?_eq, phase?_eq, hgate]
  have hanswers : t.answers target acts = t.answers target (acts.filter (Act.isAt target)) :=
    answers_own rfl acts
  simp only [view, View.mk.injEq]
  exact ⟨hnow, hphase, hheld, hanswers⟩

/-- A failure opens the breaker of one target, and the other one admits a call. -/
example :
    ((start { failureThreshold := 1 }).view "b"
      [.acquire "a" 0, .settle "a" 0 .fail, .acquire "a" 1, .acquire "b" 2]).answers =
        [⟨0, 2, some false⟩] := by
  decide

end Traffic
end Rpc
end Courier
