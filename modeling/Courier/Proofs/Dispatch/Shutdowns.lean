import Courier.Proofs.Dispatch.FanOut
import Courier.Proofs.Dispatch.Schedule

/-!
# Shutting a dispatcher down

Shutdown cancels a dispatcher and waits. In the meantime its pipelines close, and shutdown tells
whether all have ended before the time was up. The main statement is `shutsDown`.
-/

namespace Courier
namespace Dispatch

open Bus (Broker)
open Routing (normal topicMatches)

/-- When a pipeline ends that is cancelled at a time: at once, unless it is in an attempt. -/
def endTime (settings : Settings) (now : Nat) (p : Pipeline) : Nat :=
  match p.state with
  | .handling h =>
    match h.stage with
    | .sending _ since answer => max now (since + waitFor settings answer)
    | _ => now
  | _ => now

namespace Fleet

/-- The fleet in which the dispatchers of a name have been cancelled. -/
def cancel (f : Fleet) (name : String) : Fleet :=
  f.updateNode name fun n => { n with cancelled := true, shutDown := true }

def indexOf (f : Fleet) (name : String) : Nat :=
  f.nodes.findIdx fun n => n.name = some name

theorem shutdown_eq (f : Fleet) (name : String) (grace : Nat) : f.shutdown name grace =
    if (f.cancel name).hasStopped name then (true, f.cancel name)
    else if grace = 0 then (false, f.cancel name)
    else (f.cancel name).passTime (hasStopped name) grace := rfl

theorem node?_eq (f : Fleet) (name : String) : f.node? name = f.nodes[f.indexOf name]? :=
  List.find?_eq_getElem?_findIdx

theorem indexOf_congr {f f' : Fleet} (h : f'.nodes.map Node.name = f.nodes.map Node.name)
    (name : String) : f'.indexOf name = f.indexOf name := by
  have hindex : ∀ f : Fleet, f.indexOf name =
      (f.nodes.map Node.name).findIdx fun known => known = some name := by
    intro f
    rw [List.findIdx_map]
    rfl
  rw [hindex, hindex, h]

theorem names_cancel (f : Fleet) (name : String) :
    (f.cancel name).nodes.map Node.name = f.nodes.map Node.name := by
  unfold cancel updateNode
  rw [List.map_map]
  apply List.map_congr_left
  intro n _
  simp only [Function.comp_apply]
  split <;> rfl

theorem getElem?_cancel {f : Fleet} {name : String} {n : Node} (h : f.node? name = some n) :
    (f.cancel name).nodes[f.indexOf name]? =
      some { n with cancelled := true, shutDown := true } := by
  have hname : n.name = some name := by simpa using List.find?_some h
  rw [node?_eq] at h
  simp only [cancel, updateNode, List.getElem?_map, h, Option.map_some, hname, if_true]

theorem fit_now {f : Fleet} (h : f.Fit) (time : Nat) : ({ f with now := time } : Fleet).Fit :=
  ⟨h.sound, h.passes, h.apart⟩

theorem at_cancel {f : Fleet} {name : String} {place : Place} {n : Node} {p : Pipeline}
    (h : (f.cancel name).At place n p) : ∃ n₀, f.At place n₀ p := by
  rcases h with ⟨hn, hp⟩
  simp only [cancel, updateNode, List.getElem?_map, Option.map_eq_some_iff] at hn
  rcases hn with ⟨n₀, hn₀, rfl⟩
  refine ⟨n₀, hn₀, ?_⟩
  split at hp <;> exact hp

theorem fit_cancel {f : Fleet} (h : f.Fit) (name : String) : (f.cancel name).Fit where
  sound := h.sound
  passes := by
    intro place n p hat hruns
    rcases at_cancel hat with ⟨n₀, hat₀⟩
    exact h.passes hat₀ hruns
  apart := by
    intro place place' n n' p p' hat hat' hruns hruns' hqueue
    rcases at_cancel hat with ⟨m, hm⟩
    rcases at_cancel hat' with ⟨m', hm'⟩
    exact h.apart hm hm' hruns hruns' hqueue

/-!
## What the schedule does are turns
-/

theorem Turns.trans {i : Nat} {f f' f'' : Fleet} {log more : List (Nat × Dealing)}
    (h : Turns i f log f') (h' : Turns i f' more f'') : Turns i f (log ++ more) f'' := by
  induction h' with
  | none =>
      rw [List.append_nil]
      exact h
  | more _ turn ih =>
      rw [← List.append_assoc]
      exact .more ih turn

theorem turn_pollAt (i : Nat) {f : Fleet} {place : Place} {n : Node} {p : Pipeline}
    (h : f.At place n p) : ∃ log, Turn i f log (f.pollAt place n p) := by
  by_cases hnode : place.node = i
  · subst hnode
    exact ⟨_, .poll h⟩
  · refine ⟨[], .elsewhere now_pollAt ?_⟩
    intro m hm
    rcases exists_pollAt f place n p with ⟨_, _, _, hnodes⟩
    refine ⟨m, ?_, rfl, rfl, rfl, rfl⟩
    rw [hnodes, List.getElem?_set_ne hnode]
    exact hm

theorem names_pollAt {f : Fleet} {place : Place} {n : Node} {p : Pipeline}
    (h : f.At place n p) : (f.pollAt place n p).nodes.map Node.name = f.nodes.map Node.name := by
  rcases exists_pollAt f place n p with ⟨adapters, turn, _, hnodes⟩
  rcases List.getElem?_eq_some_iff.mp h.left with ⟨hlength, hn⟩
  rw [hnodes, List.map_set]
  apply List.ext_getElem?
  intro i
  rw [List.getElem?_set]
  split
  · next heq =>
      subst heq
      simp [hlength, hn]
  · rfl

theorem turns_runReady (i : Nat) (fuel : Nat) (f : Fleet) :
    (∃ log, Turns i f log (runReady fuel f)) ∧ (runReady fuel f).now = f.now ∧
      (runReady fuel f).nodes.map Node.name = f.nodes.map Node.name := by
  induction fuel generalizing f with
  | zero => exact ⟨⟨[], .none⟩, rfl, rfl⟩
  | succ fuel ih =>
      unfold runReady
      cases hnext : f.next? with
      | none => exact ⟨⟨[], .none⟩, rfl, rfl⟩
      | some x =>
          rcases x with ⟨place, n, p⟩
          have hat := at_of_next? hnext
          rcases turn_pollAt i hat with ⟨log, hturn⟩
          rcases ih (f.pollAt place n p) with ⟨⟨more, hmore⟩, hnow, hnames⟩
          have hfirst : Turns i f ([] ++ log) (f.pollAt place n p) := .more .none hturn
          exact ⟨⟨_, hfirst.trans hmore⟩, hnow.trans now_pollAt,
            hnames.trans (names_pollAt hat)⟩

/-!
## When pipelines have ended
-/

theorem endTime_le_of_concludes {settings : Settings} {start t : Nat} {p : Pipeline} {h : InHand}
    {o : Outcome} (hstate : p.state = .handling h) (hstart : start ≤ t)
    (ho : Concludes settings h.job t h.stage o) : endTime settings start p ≤ t := by
  have hcome : ∀ {attempt since answer result}, h.stage = .sending attempt since answer →
      Stage.answerBy settings.handlerTimeout since t answer = some result →
      endTime settings start p ≤ t := by
    intro attempt since answer result hstage come
    simp only [endTime, hstate, hstage]
    refine Nat.max_le.mpr ⟨hstart, ?_⟩
    by_contra hlate
    rw [Stage.answerBy_of_lt (Nat.lt_of_not_le hlate)] at come
    cases come
  generalize hstage : h.stage = stage at ho
  cases ho with
  | finished o =>
      simp only [endTime, hstate, hstage]
      exact hstart
  | waiting =>
      simp only [endTime, hstate, hstage]
      exact hstart
  | answered come last => exact hcome hstage come
  | due come again => exact hcome hstage come

theorem exists_sending {f : Fleet} {n : Node} {p : Pipeline} (hcancelled : n.cancelled = true)
    (hruns : p.isStopped = false) (hsuspended : p.Suspended f.now) (hready : ¬ f.Ready n p) :
    ∃ h attempt since answer, p.state = .handling h ∧ h.stage = .sending attempt since answer ∧
      f.readyTime n p = some (since + waitFor n.settings answer) := by
  have hnot : f.readyTime n p ≠ some 0 := by
    intro hzero
    rw [Ready, hzero] at hready
    exact hready rfl
  cases hstate : p.state with
  | stopped => simp [Pipeline.isStopped, hstate] at hruns
  | idle => exact absurd (by simp [readyTime, hstate, hcancelled]) hnot
  | handling h =>
      cases hstage : h.stage with
      | ready attempt =>
          have hstill := hsuspended h hstate
          rw [hstage] at hstill
          exact absurd hstill id
      | finished o => exact absurd (by simp [readyTime, hstate, hstage]) hnot
      | pausing attempt resumeAt =>
          exact absurd (by simp [readyTime, hstate, hstage, hcancelled]) hnot
      | sending attempt since answer =>
          refine ⟨h, attempt, since, answer, rfl, hstage, ?_⟩
          simp only [readyTime, hstate, hstage]
          rfl

theorem state_of_closes {settings : Settings} {sink : Sink} {op : Operation} {start now : Nat}
    {before after : PipelineState} {ds : List Dealing}
    (h : Closes settings sink op start now before after ds) (hruns : after ≠ .stopped) :
    after = before := by
  cases h with
  | stays => rfl
  | left _ => exact absurd rfl hruns
  | settled _ _ _ _ _ _ => exact absurd rfl hruns

theorem isStopped_iff_of_closes {f : Fleet} {n n' : Node} {p p' : Pipeline} {sink : Sink}
    {op : Operation} {start : Nat} {ds : List Dealing} (hstart : start ≤ f.now)
    (hcancelled : n'.cancelled = true) (hsettings : n'.settings = n.settings)
    (hsuspended : p'.Suspended f.now) (hready : ¬ f.Ready n' p')
    (h : Closes n.settings sink op start f.now p.state p'.state ds) :
    p'.isStopped = true ↔ p.isStopped = true ∨ endTime n.settings start p ≤ f.now := by
  generalize hlast : p'.state = last at h
  cases h with
  | stays =>
      have hsame : p'.isStopped = p.isStopped := by simp only [Pipeline.isStopped, hlast]
      rw [hsame]
      refine ⟨Or.inl, fun hor => hor.elim id fun hend => ?_⟩
      by_contra hruns
      rw [Bool.not_eq_true, ← hsame] at hruns
      rcases exists_sending hcancelled hruns hsuspended hready with
        ⟨inHand, attempt, since, answer, hstate, hstage, htime⟩
      apply hready
      rw [hlast] at hstate
      simp only [endTime, hstate, hstage] at hend
      rw [Ready, htime, hsettings]
      exact decide_eq_true (Nat.le_trans (Nat.le_max_right _ _) hend)
  | left idle =>
      have hend : endTime n.settings start p = start := by simp only [endTime, idle]
      have hstopped : p'.isStopped = true := by simp only [Pipeline.isStopped, hlast]
      exact ⟨fun _ => .inr (Nat.le_trans (Nat.le_of_eq hend) hstart), fun _ => hstopped⟩
  | settled inHand begun passed concludes _ _ =>
      have hend := endTime_le_of_concludes inHand begun concludes
      have hstopped : p'.isStopped = true := by simp only [Pipeline.isStopped, hlast]
      exact ⟨fun _ => .inr (Nat.le_trans hend passed), fun _ => hstopped⟩

/-!
## Waiting for the end
-/

/-- In a fleet a dispatcher was cancelled while its pipelines were not between two moves. -/
structure Cancelled (f : Fleet) (i : Nat) (n : Node) : Prop where
  node : f.nodes[i]? = some n
  cancelled : n.cancelled = true
  suspended : ∀ p ∈ n.pipelines, p.Suspended f.now
  retry : 0 < n.settings.retryInterval

theorem Cancelled.closes {i : Nat} {f f' : Fleet} {n : Node} {log : List (Nat × Dealing)}
    (h : Cancelled f i n) (hturns : Turns i f log f') :
    f.now ≤ f'.now ∧ ∃ n', f'.nodes[i]? = some n' ∧ ClosesNode n f.now log f'.now n' :=
  closed_run h.node h.cancelled h.suspended h.retry hturns

def EndBefore (n : Node) (start time : Nat) : Prop :=
  ∀ p ∈ n.pipelines, p.isStopped = true ∨ endTime n.settings start p < time

structure Awaited (i : Nat) (f : Fleet) (name : String) (n : Node) (time : Nat)
    (result : Bool × Fleet) : Prop where
  turns : ∃ log, Turns i f log result.2
  tells : result.1 = result.2.hasStopped name
  early : result.1 = true → result.2.now ≤ time
  late : result.1 = false → result.2.now = time
  inTime : result.1 = true ↔ EndBefore n f.now time

section Waiting

variable {i : Nat} {f f' : Fleet} {n : Node} {log : List (Nat × Dealing)}
  (h : Cancelled f i n) (hturns : Turns i f log f')
include h hturns

theorem isStopped_iff_of_still (hstill : f'.Still) {n' : Node} (hn' : f'.nodes[i]? = some n')
    {j : Nat} {p : Pipeline} (hp : n.pipelines[j]? = some p) :
    ∃ p', n'.pipelines[j]? = some p' ∧ (p'.isStopped = true ↔
      p.isStopped = true ∨ endTime n.settings f.now p ≤ f'.now) := by
  rcases h.closes hturns with ⟨hstart, n₁, hn₁, hcloses⟩
  cases hn'.symm.trans hn₁
  rcases hcloses.pipelines hp with ⟨p', hp', _, _, hsuspended, hstate⟩
  have hat : f'.At ⟨i, j⟩ n' p' := ⟨hn', hp'⟩
  exact ⟨p', hp', isStopped_iff_of_closes hstart hcloses.cancelled hcloses.settings hsuspended
    (hstill hat) hstate⟩

theorem all_isStopped_iff (hstill : f'.Still) {n' : Node} (hn' : f'.nodes[i]? = some n') :
    n'.isStopped = true ↔
      ∀ p ∈ n.pipelines, p.isStopped = true ∨ endTime n.settings f.now p ≤ f'.now := by
  rcases h.closes hturns with ⟨_, n₁, hn₁, hcloses⟩
  cases hn'.symm.trans hn₁
  rw [Node.isStopped, List.all_eq_true]
  constructor
  · intro hall p hp
    rcases List.getElem?_of_mem hp with ⟨j, hj⟩
    rcases isStopped_iff_of_still h hturns hstill hn' hj with ⟨p', hp', hiff⟩
    exact hiff.mp (hall p' (List.mem_of_getElem? hp'))
  · intro hall p' hp'
    rcases List.getElem?_of_mem hp' with ⟨j, hj⟩
    rcases hcloses.exists_before hj with ⟨p, hfirst, _, _⟩
    rcases isStopped_iff_of_still h hturns hstill hn' hfirst with ⟨q, hq, hiff⟩
    cases hj.symm.trans hq
    exact hiff.mpr (hall _ (List.mem_of_getElem? hfirst))

theorem turn_of_still (hstill : f'.Still) {time : Nat} (htime : f'.now ≤ time) :
    Turn i f' [] { f' with now := time } := by
  rcases h.closes hturns with ⟨_, n', hn', hcloses⟩
  obtain ⟨ms, rfl⟩ := Nat.exists_eq_add_of_le htime
  refine .pass ms ?_
  intro n₁ hn₁ p' hp' inHand hstate
  cases hn'.symm.trans hn₁
  rcases List.getElem?_of_mem hp' with ⟨j, hj⟩
  rcases hcloses.exists_before hj with ⟨_, _, hsuspended, _⟩
  have hruns : p'.isStopped = false := by simp only [Pipeline.isStopped, hstate]
  have hat : f'.At ⟨i, j⟩ n' p' := ⟨hn', hj⟩
  rcases exists_sending hcloses.cancelled hruns hsuspended (hstill hat) with
    ⟨inHand', attempt, since, answer, hstate', hstage, _⟩
  cases hstate.symm.trans hstate'
  rw [hstage]
  trivial

/-- A pipeline that has not ended goes on next at its end. -/
theorem readyTime_eq_endTime (hstill : f'.Still) {n' : Node} (hn' : f'.nodes[i]? = some n')
    {j : Nat} {p : Pipeline} (hp : n.pipelines[j]? = some p) (hruns : p.isStopped = false)
    (hend : f'.now < endTime n.settings f.now p) :
    ∃ p', n'.pipelines[j]? = some p' ∧
      f'.readyTime n' p' = some (endTime n.settings f.now p) := by
  rcases h.closes hturns with ⟨hstart, n₁, hn₁, hcloses⟩
  cases hn'.symm.trans hn₁
  rcases hcloses.pipelines hp with ⟨p', hp', _, _, hsuspended, hstate⟩
  have hat : f'.At ⟨i, j⟩ n' p' := ⟨hn', hp'⟩
  have hiff := isStopped_iff_of_closes hstart hcloses.cancelled hcloses.settings hsuspended
    (hstill hat) hstate
  have hruns' : p'.isStopped = false := by
    cases hstopped : p'.isStopped with
    | false => rfl
    | true =>
        rcases hiff.mp hstopped with hbefore | hcome
        · rw [hruns] at hbefore
          cases hbefore
        · exact absurd hcome (Nat.not_le_of_lt hend)
  rcases exists_sending hcloses.cancelled hruns' hsuspended (hstill hat) with
    ⟨inHand, attempt, since, answer, hhandling, hstage, htime⟩
  refine ⟨p', hp', htime.trans ?_⟩
  have hsame : p.state = .handling inHand := by
    rw [hhandling] at hstate
    exact (state_of_closes hstate nofun).symm
  simp only [endTime, hsame, hstage, hcloses.settings] at hend ⊢
  congr 1
  omega

end Waiting

theorem mem_times_of_at {f : Fleet} {place : Place} {n : Node} {p : Pipeline} {t : Nat}
    (h : f.At place n p) (hready : f.readyTime n p = some t) :
    t ∈ f.places.filterMap fun (_, n, p) => f.readyTime n p :=
  List.mem_filterMap.mpr ⟨(place, n, p), mem_places_of_at h, hready⟩

theorem exists_nextTime {f : Fleet} (hstill : f.Still) {place : Place} {n : Node} {p : Pipeline}
    {t : Nat} (hat : f.At place n p) (hready : f.readyTime n p = some t) :
    ∃ next, f.nextTime = some next ∧ f.now < next ∧ next ≤ t := by
  have hmem := mem_times_of_at hat hready
  cases hnext : f.nextTime with
  | none =>
      rw [nextTime, List.min?_eq_none_iff] at hnext
      rw [hnext] at hmem
      cases hmem
  | some next =>
      rcases List.min?_eq_some_iff.mp hnext with ⟨hfirst, hleast⟩
      refine ⟨next, rfl, ?_, hleast t hmem⟩
      rcases List.mem_filterMap.mp hfirst with ⟨⟨place', n', p'⟩, hplace, hready'⟩
      apply Nat.lt_of_not_le
      intro hle
      apply hstill (at_of_mem_places hplace)
      simp only at hready'
      rw [Ready, hready']
      exact decide_eq_true hle

theorem hasStopped_eq {f f' : Fleet} {name : String} {n' : Node}
    (hnames : f'.nodes.map Node.name = f.nodes.map Node.name)
    (hn' : f'.nodes[f.indexOf name]? = some n') : f'.hasStopped name = n'.isStopped := by
  rw [hasStopped, node?_eq, indexOf_congr hnames, hn']
  rfl

theorem exists_nextTime_of_runs {i : Nat} {f f' : Fleet} {n n' : Node}
    {log : List (Nat × Dealing)} (h : Cancelled f i n) (hturns : Turns i f log f')
    (hstill : f'.Still) (hn' : f'.nodes[i]? = some n') (hruns : n'.isStopped = false) :
    ∃ p ∈ n.pipelines, p.isStopped = false ∧ ∃ next, f'.nextTime = some next ∧
      f'.now < next ∧ next ≤ endTime n.settings f.now p := by
  have hopen : ¬ ∀ p ∈ n.pipelines, p.isStopped = true ∨ endTime n.settings f.now p ≤ f'.now := by
    rw [← all_isStopped_iff h hturns hstill hn', hruns]
    exact Bool.false_ne_true
  push Not at hopen
  rcases hopen with ⟨p, hp, hbefore, hend⟩
  have hbefore := Bool.eq_false_iff.mpr hbefore
  rcases List.getElem?_of_mem hp with ⟨j, hj⟩
  rcases readyTime_eq_endTime h hturns hstill hn' hj hbefore hend with ⟨p', hp', hready⟩
  have hat : f'.At ⟨i, j⟩ n' p' := ⟨hn', hp'⟩
  exact ⟨p, hp, hbefore, exists_nextTime hstill hat hready⟩

/-- The schedule waits until the dispatcher's pipelines have ended, or until the time is up. -/
theorem awaited_runUntil {f f' : Fleet} {name : String} {n : Node} {time fuel : Nat}
    {log : List (Nat × Dealing)} (h : Cancelled f (f.indexOf name) n) (hfit : f'.Fit)
    (hturns : Turns (f.indexOf name) f log f')
    (hnames : f'.nodes.map Node.name = f.nodes.map Node.name) (htime : f'.now < time)
    (hfuel : time - f'.now < fuel) :
    Awaited (f.indexOf name) f name n time (runUntil (hasStopped name) time fuel f') := by
  -- The clock goes on with each round, so that there is fuel for every millisecond left.
  induction fuel generalizing f' log with
  | zero => exact absurd hfuel (Nat.not_lt_zero _)
  | succ fuel ih =>
      rcases still_runNow hfit with ⟨hfit₁, hstill⟩
      have hpart : (∃ log, Turns (f.indexOf name) f' log f'.runNow) ∧ f'.runNow.now = f'.now ∧
          f'.runNow.nodes.map Node.name = f'.nodes.map Node.name :=
        turns_runReady (f.indexOf name) f'.turnBound f'
      unfold runUntil
      simp only
      generalize f'.runNow = f₁ at hfit₁ hstill hpart ⊢
      rcases hpart with ⟨⟨more, hmore⟩, hnow, hnames₁⟩
      have hturns₁ := hturns.trans hmore
      rw [← hnow] at htime hfuel
      rcases h.closes hturns₁ with ⟨_, n₁, hn₁, _⟩
      have hstopped := hasStopped_eq (hnames₁.trans hnames) hn₁
      cases hdone : f₁.hasStopped name with
      | true =>
          rw [if_pos rfl]
          refine ⟨⟨_, hturns₁⟩, hdone.symm, fun _ => Nat.le_of_lt htime, nofun, fun _ => ?_,
            fun _ => rfl⟩
          intro p hp
          have hall := (all_isStopped_iff h hturns₁ hstill hn₁).mp (hstopped.symm.trans hdone)
          exact (hall p hp).imp_right fun hend => Nat.lt_of_le_of_lt hend htime
      | false =>
          rw [if_neg Bool.false_ne_true]
          rcases exists_nextTime_of_runs h hturns₁ hstill hn₁ (hstopped.symm.trans hdone) with
            ⟨p, hp, hruns, next, hnext, hlater, hend⟩
          rw [hnext]
          simp only
          by_cases hbefore : next < time
          · rw [if_pos hbefore, Nat.max_eq_right (Nat.le_of_lt hlater)]
            have hpass := turn_of_still h hturns₁ hstill (Nat.le_of_lt hlater)
            exact ih (fit_now hfit₁ next) (.more hturns₁ hpass) (hnames₁.trans hnames) hbefore
              (by simp only; omega)
          · rw [if_neg hbefore]
            have hpass := turn_of_still h hturns₁ hstill (Nat.le_of_lt htime)
            refine ⟨⟨_, .more hturns₁ hpass⟩, hdone.symm, nofun, fun _ => rfl, nofun, ?_⟩
            intro hends
            rcases hends p hp with hgone | hearly
            · rw [hruns] at hgone
              cases hgone
            · exact absurd (Nat.lt_of_le_of_lt hend hearly) hbefore

theorem le_endTime {settings : Settings} (start : Nat) (p : Pipeline) :
    start ≤ endTime settings start p := by
  unfold endTime
  split
  · split
    · exact Nat.le_max_left _ _
    · exact Nat.le_refl _
  · exact Nat.le_refl _

theorem awaited_shutdown {f : Fleet} {name : String} {n : Node}
    (h : Cancelled (f.cancel name) ((f.cancel name).indexOf name) n) (hfit : f.Fit) (grace : Nat) :
    Awaited ((f.cancel name).indexOf name) (f.cancel name) name n (f.now + grace)
      (f.shutdown name grace) := by
  have hstopped : (f.cancel name).hasStopped name = n.isStopped := hasStopped_eq rfl h.node
  have hall : n.isStopped = true ↔ ∀ p ∈ n.pipelines, p.isStopped = true := List.all_eq_true
  rw [shutdown_eq]
  cases hdone : (f.cancel name).hasStopped name with
  | true =>
      rw [if_pos rfl]
      refine ⟨⟨[], .none⟩, hdone.symm, fun _ => Nat.le_add_right _ _, nofun, fun _ => ?_,
        fun _ => rfl⟩
      exact fun p hp => .inl (hall.mp (hstopped.symm.trans hdone) p hp)
  | false =>
      rw [if_neg Bool.false_ne_true]
      by_cases hgrace : grace = 0
      · rw [if_pos hgrace, hgrace, Nat.add_zero]
        refine ⟨⟨[], .none⟩, hdone.symm, nofun, fun _ => rfl, nofun, fun hends => ?_⟩
        rw [← hdone, hstopped, hall]
        intro p hp
        exact (hends p hp).resolve_right (Nat.not_lt_of_le (le_endTime _ p))
      · rw [if_neg hgrace]
        have hpositive := Nat.pos_of_ne_zero hgrace
        refine awaited_runUntil h (fit_cancel hfit name) .none rfl ?_ ?_
        · exact Nat.lt_add_of_pos_right hpositive
        · exact Nat.lt_succ_of_le (Nat.le_of_eq (Nat.add_sub_cancel_left f.now grace))

/-!
## Shutdown
-/

theorem consumer?_moves_of_left {r : Running} {fuel : Nat} {ds : List Dealing}
    (h : dealt fuel r = ds ++ [.left]) :
    (moves fuel r).fleet.broker.consumer? r.pipeline.source = none := by
  rcases exists_done_moves fuel r with ⟨counted, state, hmoves⟩
  rw [hmoves, h]
  simp only [Running.done, List.foldl_append, List.foldl_cons, List.foldl_nil]
  exact Bus.Broker.consumer?_of_lacks (Bus.Broker.lacks_unsubscribe _ (.inr rfl))

theorem exists_left {settings : Settings} {sink : Sink} {op : Operation} {start now : Nat}
    {before after : PipelineState} {ds : List Dealing}
    (h : Closes settings sink op start now before after ds) (hleft : .left ∈ ds) :
    ∃ earlier, ds = earlier ++ [.left] := by
  cases h with
  | stays => cases hleft
  | left _ => exact ⟨[], rfl⟩
  | settled _ _ _ _ _ _ => exact ⟨_, (List.append_assoc _ [_] [_]).symm⟩

theorem consumer?_pollAt (f : Fleet) (place : Place) (n : Node) (p : Pipeline)
    (ref : Bus.ConsumerRef) : (f.pollAt place n p).broker.consumer? ref =
      (moves (moveBound ⟨f, n, p⟩) ⟨f, n, p⟩).fleet.broker.consumer? ref := by
  unfold pollAt closeIfDropped
  simp only
  split <;> rfl

/--
A dispatcher is shut down. Whatever happens from then on, each of its pipelines closes, and has
ended when its time has come and it cannot go on; when it leaves it drops its stream. If running
pipelines do not come in each other's way, shutdown waits for them until the time is up.
-/
structure ShutsDown (f : Fleet) (name : String) (n : Node) (grace : Nat) : Prop where
  closes : ∀ {log f'}, Turns (f.indexOf name) (f.cancel name) log f' → f.now ≤ f'.now ∧
    ∃ n', f'.nodes[f.indexOf name]? = some n' ∧ ClosesNode n f.now log f'.now n'
  /-- A turn does to the bus and to the adapters what is in the log. -/
  deals : ∀ r : Running, ∃ counted state,
    moves (moveBound r) r = r.done (pollDealings r) counted state
  ends : ∀ {log f'} {n' : Node}, Turns (f.indexOf name) (f.cancel name) log f' → f'.Still →
    f'.nodes[f.indexOf name]? = some n' → ∀ {j : Nat} {p : Pipeline}, n.pipelines[j]? = some p →
      ∃ p' : Pipeline, n'.pipelines[j]? = some p' ∧ (p'.isStopped = true ↔
        p.isStopped = true ∨ endTime n.settings f.now p ≤ f'.now)
  drops : ∀ {log f'} {n' : Node} {p' : Pipeline} {j : Nat},
    Turns (f.indexOf name) (f.cancel name) log f' → f'.At ⟨f.indexOf name, j⟩ n' p' →
      .left ∈ pollDealings ⟨f', n', p'⟩ →
        (f'.pollAt ⟨f.indexOf name, j⟩ n' p').broker.consumer? p'.source = none
  awaited : f.Fit → Awaited (f.indexOf name) (f.cancel name) name n (f.now + grace)
    (f.shutdown name grace)

theorem shutsDown {f : Fleet} {name : String} {n : Node} (hnode : f.node? name = some n)
    (hsuspended : ∀ p ∈ n.pipelines, p.Suspended f.now)
    (hretry : 0 < n.settings.retryInterval) (grace : Nat) : ShutsDown f name n grace := by
  have hindex : (f.cancel name).indexOf name = f.indexOf name :=
    indexOf_congr (names_cancel f name) name
  have hcancelled : Cancelled (f.cancel name) (f.indexOf name)
      { n with cancelled := true, shutDown := true } :=
    ⟨getElem?_cancel hnode, rfl, hsuspended, hretry⟩
  constructor
  · intro log f' hturns
    rcases hcancelled.closes hturns with ⟨hnow, n', hn', hcloses⟩
    exact ⟨hnow, n', hn', hcloses.settings, hcloses.sink, hcloses.cancelled, hcloses.length,
      hcloses.pipelines⟩
  · exact fun r => exists_done_moves (moveBound r) r
  · intro log f' n' hturns hstill hn' j p hp
    exact isStopped_iff_of_still hcancelled hturns hstill hn' hp
  · intro log f' n' p' j hturns hat hleft
    rcases hcancelled.closes hturns with ⟨_, n₁, hn₁, hcloses⟩
    cases hat.left.symm.trans hn₁
    rcases hcloses.exists_before hat.right with ⟨_, _, hsuspended', _⟩
    have hretry' : 0 < n'.settings.retryInterval := hcloses.settings ▸ hretry
    have hmoves := closes_moves (r := ⟨f', n', p'⟩) hcloses.cancelled hsuspended' hretry'
      (four_le_moveBound ⟨f', n', p'⟩)
    rcases exists_left hmoves hleft with ⟨earlier, hdealt⟩
    rw [consumer?_pollAt]
    exact consumer?_moves_of_left hdealt
  · intro hfit
    rw [← hindex] at hcancelled ⊢
    have hawaited := awaited_shutdown hcancelled hfit grace
    exact ⟨hawaited.turns, hawaited.tells, hawaited.early, hawaited.late, hawaited.inTime⟩

def busy : List FanOut.Event :=
  [.start "im_message.events" "a"
      { FanOut.plainNode "a" with adapters := [{ script := [.unavailable, .delay 50] }] },
    .publish ⟨plainDelivery.subject, plainDelivery.metadata, plainDelivery.payload⟩,
    .publish ⟨"im_provider.outbound.whatsapp.send.image.v1",
      [("routing_key", "im_provider.outbound.whatsapp.send.image.v1")],
      ("\x7b\"message_id\":\"n\",\"domain_id\":1," ++
        "\"images\":[\x7b\"url\":\"u\"\x7d]\x7d").toUTF8.toList⟩,
    .sleep 5]

theorem shutsDown_busy : ∃ n, (FanOut.run busy).node? "a" = some n ∧
    (∀ p ∈ n.pipelines, p.Suspended (FanOut.run busy).now) ∧ 0 < n.settings.retryInterval ∧
      (FanOut.run busy).Fit ∧ ShutsDown (FanOut.run busy) "a" n 46 := by
  have hdistinct : FanOut.Distinct busy := by
    constructor
    · decide +kernel
    · decide +kernel
  have hfit := fit_of_enrolled hdistinct.instances (FanOut.enrolled_run hdistinct)
  have hstate : ((FanOut.run busy).node? "a").any (fun n =>
      (∀ p ∈ n.pipelines, p.Suspended (FanOut.run busy).now) ∧
        0 < n.settings.retryInterval) = true := by
    decide +kernel
  rcases (Option.any_eq_true _ _).mp hstate with ⟨n, hnode, hn⟩
  rcases of_decide_eq_true hn with ⟨hsuspended, hretry⟩
  exact ⟨n, hnode, hsuspended, hretry, hfit, shutsDown hnode hsuspended hretry 46⟩

end Fleet
end Dispatch
end Courier
