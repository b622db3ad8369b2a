import Courier.Proofs.Bus.Waiting
import Courier.Proofs.Dispatch.Dealings

/-!
# Dispatchers that are shut down

A dispatcher is cancelled while its pipelines are anywhere: idle, with copies waiting, in an
attempt, or in a pause between two attempts. From then on a pipeline takes nothing and calls
no adapter. It settles the delivery in hand once, by what its attempt comes to or by putting it
back, and leaves. The main statement is `closed_run`; meanwhile anything may go on elsewhere.
-/

namespace Courier
namespace Dispatch

open Bus (Broker Copy DeadLetter Settlement)

/-- Handling waits at such a stage, and a pause is not over. -/
def Stage.Suspended (now : Nat) : Stage → Prop
  | .ready _ => False
  | .sending _ _ _ => True
  | .pausing _ resumeAt => now < resumeAt
  | .finished _ => True

def Pipeline.Suspended (now : Nat) (p : Pipeline) : Prop :=
  ∀ h, p.state = .handling h → h.stage.Suspended now

instance (now : Nat) (s : Stage) : Decidable (s.Suspended now) :=
  match s with
  | .ready _ => .isFalse id
  | .sending _ _ _ => .isTrue trivial
  | .pausing _ resumeAt => inferInstanceAs (Decidable (now < resumeAt))
  | .finished _ => .isTrue trivial

instance (now : Nat) (p : Pipeline) : Decidable (p.Suspended now) :=
  match hstate : p.state with
  | .idle => .isTrue fun _ hhandling => nomatch hstate.symm.trans hhandling
  | .stopped => .isTrue fun _ hhandling => nomatch hstate.symm.trans hhandling
  | .handling h =>
    decidable_of_iff (h.stage.Suspended now)
      ⟨fun hstage _ hhandling => by cases hstate.symm.trans hhandling; exact hstage,
        fun hall => hall h hstate⟩

/-- By what a delivery is settled whose dispatcher is cancelled: by what the attempt has come
to, unless it waits for a further one or would have to. -/
inductive Concludes (settings : Settings) (job : Job) (now : Nat) : Stage → Outcome → Prop where
  | finished (o : Outcome) : Concludes settings job now (.finished o) o
  | answered {attempt since : Nat} {answer : Provider.Answer}
      {result : Except Unit Provider.Outcome} {o : Outcome}
      (come : Stage.answerBy settings.handlerTimeout since now answer = some result)
      (last : Stage.afterAttempt settings now job attempt result = .finished o) :
      Concludes settings job now (.sending attempt since answer) o
  | due {attempt since resumeAt : Nat} {answer : Provider.Answer}
      {result : Except Unit Provider.Outcome}
      (come : Stage.answerBy settings.handlerTimeout since now answer = some result)
      (again : Stage.afterAttempt settings now job attempt result = .pausing attempt resumeAt) :
      Concludes settings job now (.sending attempt since answer)
        (.failed (some job.provider) .cancelled attempt)
  | waiting {attempt resumeAt : Nat} :
      Concludes settings job now (.pausing attempt resumeAt)
        (.failed (some job.provider) .cancelled attempt)

/--
What has become of a pipeline by now that was in a given state when its dispatcher was
cancelled, and what it has dealt with since.
-/
inductive Closes (settings : Settings) (sink : Sink) (op : Operation) (start now : Nat)
    (before : PipelineState) : PipelineState → List Dealing → Prop where
  | stays : Closes settings sink op start now before before []
  | left (idle : before = .idle) :
      Closes settings sink op start now before .stopped [.left]
  | settled {h : InHand} {t : Nat} {o : Outcome} {time : String} {b : Broker}
      {offers : List (DeadLetter × Bool)} {how : Settlement} (inHand : before = .handling h)
      (begun : start ≤ t) (passed : t ≤ now) (concludes : Concludes settings h.job t h.stage o)
      (deeds : (settling (letterSink sink op) op time h.delivery o b).1 =
        offers.map offering ++ [.settled how])
      (requeue : how = .nack true ↔ ∃ provider attempts, o = .failed provider .cancelled attempts) :
      Closes settings sink op start now before .stopped
        (offers.map (fun e => .about h.copy (offering e)) ++ [.about h.copy (.settled how), .left])

theorem Closes.mono {settings : Settings} {sink : Sink} {op : Operation} {start now later : Nat}
    {before after : PipelineState} {ds : List Dealing} (hlater : now ≤ later)
    (h : Closes settings sink op start now before after ds) :
    Closes settings sink op start later before after ds := by
  cases h with
  | stays => exact .stays
  | left idle => exact .left idle
  | settled inHand begun passed concludes deeds requeue =>
      exact .settled inHand begun (Nat.le_trans passed hlater) concludes deeds requeue

theorem requeue_iff (taken : Bool) (o : Outcome) :
    o.settlement taken = .nack true ↔
      ∃ provider attempts, o = .failed provider .cancelled attempts := by
  cases o with
  | handled provider attempts => simp [Outcome.settlement]
  | skipped why => simp [Outcome.settlement]
  | failed provider failure attempts =>
      cases failure <;> cases taken <;> simp [Outcome.settlement]

theorem exists_offers {τ : Type} (sink : LetterSink τ) (op : Operation) (time : String)
    (d : Bus.Delivery) (o : Outcome) (s : τ) :
    ∃ (offers : List (DeadLetter × Bool)) (how : Settlement),
      (settling sink op time d o s).1 = offers.map offering ++ [.settled how] ∧
      (how = .nack true ↔ ∃ provider attempts, o = .failed provider .cancelled attempts) := by
  unfold settling
  cases o.deadLetter? op time d with
  | none => exact ⟨[], _, rfl, requeue_iff false o⟩
  | some letter => exact ⟨[(letter, (sink s letter).1)], _, rfl, requeue_iff _ o⟩

theorem Stage.afterAttempt_cases (settings : Settings) (now : Nat) (job : Job) (attempt : Nat)
    (result : Except Unit Provider.Outcome) :
    (∃ o, afterAttempt settings now job attempt result = .finished o) ∨
      afterAttempt settings now job attempt result =
        .pausing attempt (now + settings.retryInterval) := by
  have hfailure : ∀ failure,
      (∃ o, afterFailure settings now job attempt failure = .finished o) ∨
        afterFailure settings now job attempt failure =
          .pausing attempt (now + settings.retryInterval) := by
    intro failure
    unfold afterFailure
    split
    · exact .inr rfl
    · exact .inl ⟨_, rfl⟩
  cases result with
  | error late => exact hfailure _
  | ok outcome =>
      cases outcome with
      | success => exact .inl ⟨_, rfl⟩
      | failure e => exact hfailure _
      | panic reason => exact .inl ⟨_, rfl⟩

namespace Fleet

/-!
## The last moves of a pipeline
-/

theorem moves_of_none {r : Running} (h : step? r = none) (fuel : Nat) :
    moves fuel r = r ∧ dealt fuel r = [] := by
  cases fuel with
  | zero => exact ⟨rfl, rfl⟩
  | succ fuel => simp only [moves, dealt, h, and_self]

/-- So many moves are enough for the pipeline to stop, and that is what it deals with. -/
def Leaves (bound : Nat) (r : Running) (ds : List Dealing) : Prop :=
  ∀ fuel, bound ≤ fuel → (moves fuel r).pipeline.state = .stopped ∧ dealt fuel r = ds

theorem Leaves.mono {bound bound' : Nat} {r : Running} {ds : List Dealing}
    (h : Leaves bound r ds) (hle : bound ≤ bound') : Leaves bound' r ds :=
  fun fuel hfuel => h fuel (Nat.le_trans hle hfuel)

theorem Leaves.step {bound : Nat} {r r' : Running} {ds : List Dealing} (hstep : step? r = some r')
    (h : Leaves bound r' ds) : Leaves (bound + 1) r (dealings r ++ ds) := by
  intro fuel hfuel
  cases fuel with
  | zero => omega
  | succ fuel =>
      rcases h fuel (Nat.le_of_succ_le_succ hfuel) with ⟨hstate, hdealt⟩
      simp only [moves, dealt, hstep]
      exact ⟨hstate, congrArg _ hdealt⟩

theorem leaves_idle {r : Running} (hcancelled : r.node.cancelled = true)
    (hstate : r.pipeline.state = .idle) : Leaves 1 r [.left] := by
  have hstop : Leaves 0 (stop r) [] := by
    intro fuel _
    have hnone : step? (stop r) = none := rfl
    rcases moves_of_none hnone fuel with ⟨hmoves, hdealt⟩
    rw [hmoves]
    exact ⟨rfl, hdealt⟩
  have hstep : step? r = some (stop r) := by simp [step?, hstate, hcancelled]
  have hdealings : dealings r = [.left] := by simp [dealings, hstate, hcancelled]
  have hleaves := hstop.step hstep
  rw [hdealings] at hleaves
  exact hleaves

def Running.atStage (r : Running) (h : InHand) (stage : Stage) : Running :=
  { r with pipeline := { r.pipeline with state := .handling { h with stage := stage } } }

section Handling

variable {r : Running} {h : InHand} (hcancelled : r.node.cancelled = true)
  (hstate : r.pipeline.state = .handling h)
include hcancelled hstate

theorem leaves_finished {o : Outcome} (hstage : h.stage = .finished o) :
    Leaves 2 r (settlingOf r h.copy h.delivery o ++ [.left]) := by
  have hstep : step? r = some (settle r h.copy h.delivery o) := by simp [step?, hstate, hstage]
  have hdealings : dealings r = settlingOf r h.copy h.delivery o := by
    simp [dealings, hstate, hstage]
  rw [← hdealings]
  exact (leaves_idle (r := settle r h.copy h.delivery o) hcancelled rfl).step hstep

theorem leaves_of_stage {stage : Stage} {o : Outcome} {bound : Nat}
    (hready : ∀ attempt, h.stage ≠ .ready attempt) (hopen : ∀ o, h.stage ≠ .finished o)
    (hstep : Stage.step? r.node.settings sendByScript h.job r.fleet.now true r.node.adapters
      h.stage = some (stage, r.node.adapters))
    (hleaves : Leaves bound (r.atStage h stage)
      (settlingOf r h.copy h.delivery o ++ [.left])) :
    Leaves (bound + 1) r (settlingOf r h.copy h.delivery o ++ [.left]) := by
  have hnext : step? r = some (r.atStage h stage) := by
    rw [← hcancelled] at hstep
    simp only [step?, hstate]
    rw [hstep]
    rfl
  have hdealings : dealings r = [] := by
    cases hstage : h.stage with
    | ready attempt => exact absurd hstage (hready attempt)
    | finished o' => exact absurd hstage (hopen o')
    | sending attempt since answer => simp [dealings, hstate, hstage]
    | pausing attempt resumeAt => simp [dealings, hstate, hstage]
  have hall := hleaves.step hnext
  rw [hdealings] at hall
  exact hall

theorem leaves_pausing {attempt resumeAt : Nat} (hstage : h.stage = .pausing attempt resumeAt)
    (hlater : r.fleet.now < resumeAt) :
    Leaves 3 r (settlingOf r h.copy h.delivery
      (.failed (some h.job.provider) .cancelled attempt) ++ [.left]) := by
  have hfinished := leaves_finished (r := r.atStage h (.finished _))
    (h := { h with stage := .finished (.failed (some h.job.provider) .cancelled attempt) })
    hcancelled rfl rfl
  refine leaves_of_stage hcancelled hstate (by simp [hstage]) (by simp [hstage]) ?_ hfinished
  rw [hstage, Stage.step?, if_neg (Nat.not_le_of_lt hlater), if_pos rfl]

theorem leaves_of_concludes {o : Outcome} (hsuspended : h.stage.Suspended r.fleet.now)
    (hretry : 0 < r.node.settings.retryInterval)
    (ho : Concludes r.node.settings h.job r.fleet.now h.stage o) :
    Leaves 4 r (settlingOf r h.copy h.delivery o ++ [.left]) := by
  generalize hstage : h.stage = stage at hsuspended ho
  cases ho with
  | finished o => exact (leaves_finished hcancelled hstate hstage).mono (by decide)
  | waiting => exact (leaves_pausing hcancelled hstate hstage hsuspended).mono (by decide)
  | answered come last =>
      have hfinished := leaves_finished (r := r.atStage h (.finished o))
        (h := { h with stage := .finished o }) hcancelled rfl rfl
      have hleaves : Leaves 3 r (settlingOf r h.copy h.delivery o ++ [.left]) := by
        refine leaves_of_stage hcancelled hstate (by simp [hstage]) (by simp [hstage]) ?_ hfinished
        rw [hstage, Stage.step?, come, Option.map_some, last]
      exact hleaves.mono (by decide)
  | @due attempt since resumeAt answer result come again =>
      have hlater : r.fleet.now < resumeAt := by
        rcases Stage.afterAttempt_cases r.node.settings r.fleet.now h.job attempt result with
          ⟨o, hlast⟩ | hpause
        · rw [hlast] at again
          cases again
        · rw [hpause] at again
          cases again
          exact Nat.lt_add_of_pos_right hretry
      have hpausing := leaves_pausing (r := r.atStage h (.pausing attempt resumeAt))
        (h := { h with stage := .pausing attempt resumeAt }) hcancelled rfl rfl hlater
      refine leaves_of_stage hcancelled hstate (by simp [hstage]) (by simp [hstage]) ?_ hpausing
      rw [hstage, Stage.step?, come, Option.map_some, again]

omit hcancelled in
theorem concludes_or_still (hsuspended : h.stage.Suspended r.fleet.now) :
    (∃ o, Concludes r.node.settings h.job r.fleet.now h.stage o) ∨ step? r = none := by
  cases hstage : h.stage with
  | ready attempt =>
      rw [hstage] at hsuspended
      exact absurd hsuspended id
  | finished o => exact .inl ⟨o, .finished o⟩
  | pausing attempt resumeAt => exact .inl ⟨_, .waiting⟩
  | sending attempt since answer =>
      cases come : Stage.answerBy r.node.settings.handlerTimeout since r.fleet.now answer with
      | none => exact .inr (by simp [step?, hstate, hstage, Stage.step?, come])
      | some result =>
          left
          rcases Stage.afterAttempt_cases r.node.settings r.fleet.now h.job attempt result with
            ⟨o, hlast⟩ | hpause
          · exact ⟨o, .answered come hlast⟩
          · exact ⟨_, .due come hpause⟩

end Handling

/-- A cancelled pipeline closes, or it waits for its attempt. -/
theorem closes_moves {r : Running} (hcancelled : r.node.cancelled = true)
    (hsuspended : r.pipeline.Suspended r.fleet.now) (hretry : 0 < r.node.settings.retryInterval)
    {fuel : Nat} (hfuel : 4 ≤ fuel) :
    Closes r.node.settings r.node.sink r.pipeline.operation r.fleet.now r.fleet.now
      r.pipeline.state (moves fuel r).pipeline.state (dealt fuel r) := by
  have hstill : step? r = none →
      Closes r.node.settings r.node.sink r.pipeline.operation r.fleet.now r.fleet.now
        r.pipeline.state (moves fuel r).pipeline.state (dealt fuel r) := by
    intro hnone
    rcases moves_of_none hnone fuel with ⟨hmoves, hdealt⟩
    rw [hmoves, hdealt]
    exact .stays
  cases hstate : r.pipeline.state with
  | stopped =>
      rw [← hstate]
      exact hstill (by simp [step?, hstate])
  | idle =>
      rcases leaves_idle hcancelled hstate fuel (Nat.le_trans (by decide) hfuel) with
        ⟨hstopped, hdealt⟩
      rw [hstopped, hdealt]
      exact .left rfl
  | handling h =>
      have hstage := hsuspended h hstate
      rcases concludes_or_still hstate hstage with ⟨o, ho⟩ | hnone
      · rcases leaves_of_concludes hcancelled hstate hstage hretry ho fuel hfuel with
          ⟨hstopped, hdealt⟩
        rcases exists_offers (letterSink r.node.sink r.pipeline.operation) r.pipeline.operation
          r.fleet.timeText h.delivery o r.fleet.broker with ⟨offers, how, hdeeds, hrequeue⟩
        have hall : settlingOf r h.copy h.delivery o ++ [.left] =
            offers.map (fun e => Dealing.about h.copy (offering e)) ++
              [.about h.copy (.settled how), .left] := by
          simp [settlingOf, hdeeds]
        rw [hstopped, hdealt, hall]
        exact .settled rfl (Nat.le_refl _) (Nat.le_refl _) ho hdeeds hrequeue
      · rw [← hstate]
        exact hstill hnone

/-!
## Runs after the cancellation
-/

theorem moveBound_eq (r : Running) :
    moveBound r = (r.fleet.broker.waitingFor r.pipeline.source + 2) *
      (3 * r.node.settings.maxRetries.toNat + 7) := by
  have hstage : Stage.moveBound r.node.settings + 3 =
      3 * r.node.settings.maxRetries.toNat + 7 := by
    unfold Stage.moveBound
    omega
  unfold moveBound
  simp only
  rw [hstage]
  rfl

theorem four_le_moveBound (r : Running) : 4 ≤ moveBound r := by
  rw [moveBound_eq]
  exact Nat.le_trans (by omega : 4 ≤ 2 * (3 * r.node.settings.maxRetries.toNat + 7))
    (Nat.mul_le_mul_right _ (Nat.le_add_left 2 _))

def pollDealings (r : Running) : List Dealing :=
  dealt (moveBound r) r

structure SamePipelines (n n' : Node) : Prop where
  pipelines : n'.pipelines = n.pipelines
  settings : n'.settings = n.settings
  sink : n'.sink = n.sink
  cancelled : n'.cancelled = n.cancelled

/--
What can happen at a time while the dispatcher at a place closes, with the dealings of its
pipelines: one of them has a turn, or something goes on elsewhere, whatever it is, or time
passes. A pause between attempts is not over before the pipeline has noticed the cancellation.
-/
inductive Turn (i : Nat) (f : Fleet) : List (Nat × Dealing) → Fleet → Prop where
  | poll {j : Nat} {n : Node} {p : Pipeline} (here : f.At ⟨i, j⟩ n p) :
      Turn i f ((pollDealings ⟨f, n, p⟩).map fun d => (j, d)) (f.pollAt ⟨i, j⟩ n p)
  | elsewhere {f' : Fleet} (now : f'.now = f.now)
      (same : ∀ n, f.nodes[i]? = some n → ∃ n', f'.nodes[i]? = some n' ∧ SamePipelines n n') :
      Turn i f [] f'
  | pass (ms : Nat)
      (pauses : ∀ n, f.nodes[i]? = some n → ∀ p ∈ n.pipelines, p.Suspended (f.now + ms)) :
      Turn i f [] { f with now := f.now + ms }

inductive Turns (i : Nat) (f : Fleet) : List (Nat × Dealing) → Fleet → Prop where
  | none : Turns i f [] f
  | more {f' f'' : Fleet} {log further : List (Nat × Dealing)} (turns : Turns i f log f')
      (turn : Turn i f' further f'') : Turns i f (log ++ further) f''

def own (j : Nat) (log : List (Nat × Dealing)) : List Dealing :=
  log.filterMap fun e => if e.1 = j then some e.2 else none

theorem own_append (j : Nat) (log further : List (Nat × Dealing)) :
    own j (log ++ further) = own j log ++ own j further :=
  List.filterMap_append

theorem own_map (j k : Nat) (ds : List Dealing) :
    own j (ds.map fun d => (k, d)) = if k = j then ds else [] := by
  unfold own
  rw [List.filterMap_map]
  by_cases h : k = j <;> simp [h]

theorem closeIfDropped_frame (f : Fleet) :
    f.closeIfDropped.nodes = f.nodes ∧ f.closeIfDropped.now = f.now := by
  unfold closeIfDropped
  split
  · exact ⟨rfl, rfl⟩
  · exact ⟨rfl, rfl⟩

theorem exists_pollAt (f : Fleet) (place : Place) (n : Node) (p : Pipeline) :
    ∃ adapters turn, (f.pollAt place n p).now = f.now ∧ (f.pollAt place n p).nodes =
      f.nodes.set place.node { n with
        adapters := adapters
        pipelines := n.pipelines.set place.pipeline { p with
          state := (moves (moveBound ⟨f, n, p⟩) ⟨f, n, p⟩).pipeline.state
          turn := turn } } := by
  rcases exists_done_moves (moveBound ⟨f, n, p⟩) ⟨f, n, p⟩ with ⟨counted, state, hmoves⟩
  refine ⟨(moves (moveBound ⟨f, n, p⟩) ⟨f, n, p⟩).node.adapters, f.turn, ?_⟩
  unfold pollAt
  simp only
  rw [(closeIfDropped_frame _).left, (closeIfDropped_frame _).right]
  unfold poll
  simp only [hmoves, Running.done]
  exact ⟨trivial, trivial⟩

/-- What has become of a node by now, and of each of its pipelines by itself. -/
structure ClosesNode (n : Node) (start : Nat) (log : List (Nat × Dealing)) (now : Nat)
    (n' : Node) : Prop where
  settings : n'.settings = n.settings
  sink : n'.sink = n.sink
  cancelled : n'.cancelled = true
  length : n'.pipelines.length = n.pipelines.length
  pipelines : ∀ {j p}, n.pipelines[j]? = some p →
    ∃ p', n'.pipelines[j]? = some p' ∧ p'.operation = p.operation ∧ p'.source = p.source ∧
      p'.Suspended now ∧
      Closes n.settings n.sink p.operation start now p.state p'.state (own j log)

theorem ClosesNode.exists_before {n n' : Node} {start now : Nat} {log : List (Nat × Dealing)}
    (h : ClosesNode n start log now n') {j : Nat} {p' : Pipeline}
    (hp' : n'.pipelines[j]? = some p') : ∃ p, n.pipelines[j]? = some p ∧ p'.Suspended now ∧
      Closes n.settings n.sink p.operation start now p.state p'.state (own j log) := by
  rcases List.getElem?_eq_some_iff.mp hp' with ⟨hlength, _⟩
  rw [h.length] at hlength
  have hp := List.getElem?_eq_getElem hlength
  rcases h.pipelines hp with ⟨q, hq, _, _, hsuspended, hcloses⟩
  cases hp'.symm.trans hq
  exact ⟨_, hp, hsuspended, hcloses⟩

section Turns

variable {i start : Nat} {f f' : Fleet} {n n₁ : Node} {log more : List (Nat × Dealing)}

theorem closesNode_same {n₂ : Node} {now : Nat} (h : ClosesNode n start log now n₁)
    (hsame : SamePipelines n₁ n₂) : ClosesNode n start log now n₂ where
  settings := hsame.settings.trans h.settings
  sink := hsame.sink.trans h.sink
  cancelled := hsame.cancelled.trans h.cancelled
  length := (congrArg List.length hsame.pipelines).trans h.length
  pipelines := by
    rw [hsame.pipelines]
    exact h.pipelines

theorem closes_further {settings : Settings} {sink : Sink} {op : Operation} {now : Nat}
    {before after last : PipelineState} {ds further : List Dealing} (hstart : start ≤ now)
    (h : Closes settings sink op start now before after ds)
    (hfurther : Closes settings sink op now now after last further) :
    Closes settings sink op start now before last (ds ++ further) := by
  -- Before its turn the pipeline was as it had been, or it had stopped.
  cases h with
  | stays =>
      cases hfurther with
      | stays => exact .stays
      | left idle => exact .left idle
      | settled inHand begun passed concludes deeds requeue =>
          exact .settled inHand (Nat.le_trans hstart begun) passed concludes deeds requeue
  | left idle =>
      cases hfurther with
      | stays => exact .left idle
      | left idle' => cases idle'
      | settled inHand => cases inHand
  | settled inHand begun passed concludes deeds requeue =>
      cases hfurther with
      | stays =>
          rw [List.append_nil]
          exact .settled inHand begun passed concludes deeds requeue
      | left idle' => cases idle'
      | settled inHand' => cases inHand'

theorem suspended_of_closes {settings : Settings} {sink : Sink} {op : Operation} {now : Nat}
    {p p' : Pipeline} {ds : List Dealing} (hsuspended : p.Suspended now)
    (h : Closes settings sink op now now p.state p'.state ds) : p'.Suspended now := by
  intro inHand hstate
  generalize hlast : p'.state = last at h
  rw [hlast] at hstate
  subst hstate
  generalize hfirst : p.state = first at h
  cases h with
  | stays => exact hsuspended inHand hfirst

theorem closesNode_poll {j : Nat} {p : Pipeline} (hretry : 0 < n.settings.retryInterval)
    (hstart : start ≤ f.now) (hpipeline : n₁.pipelines[j]? = some p)
    (h : ClosesNode n start log f.now n₁) (adapters : List Provider.Adapter) (turn : Nat) :
    ClosesNode n start (log ++ (pollDealings ⟨f, n₁, p⟩).map fun d => (j, d)) f.now
      { n₁ with
        adapters := adapters
        pipelines := n₁.pipelines.set j { p with
          state := (moves (moveBound ⟨f, n₁, p⟩) ⟨f, n₁, p⟩).pipeline.state
          turn := turn } } where
  settings := h.settings
  sink := h.sink
  cancelled := h.cancelled
  length := (List.length_set ..).trans h.length
  pipelines := by
    intro k q hq
    rcases h.pipelines hq with ⟨q', hq', hop, hsource, hsuspended, hcloses⟩
    simp only [List.getElem?_set, own_append, own_map]
    by_cases hk : j = k
    · subst hk
      rw [hpipeline] at hq'
      cases hq'
      rcases List.getElem?_eq_some_iff.mp hpipeline with ⟨hlength, _⟩
      have hretry' : 0 < n₁.settings.retryInterval := h.settings ▸ hretry
      have hmoves := closes_moves (r := ⟨f, n₁, p⟩) h.cancelled hsuspended hretry'
        (four_le_moveBound ⟨f, n₁, p⟩)
      rw [if_pos rfl, if_pos hlength, if_pos rfl]
      refine ⟨_, rfl, hop, hsource, suspended_of_closes hsuspended hmoves, ?_⟩
      simp only [h.settings, h.sink, hop] at hmoves
      exact closes_further hstart hcloses hmoves
    · rw [if_neg hk, if_neg hk, List.append_nil]
      exact ⟨q', hq', hop, hsource, hsuspended, hcloses⟩

theorem closesNode_turn (hretry : 0 < n.settings.retryInterval) (hstart : start ≤ f.now)
    (hnode : f.nodes[i]? = some n₁) (h : ClosesNode n start log f.now n₁)
    (hturn : Turn i f more f') :
    start ≤ f'.now ∧
      ∃ n₂, f'.nodes[i]? = some n₂ ∧ ClosesNode n start (log ++ more) f'.now n₂ := by
  cases hturn with
  | @poll j n' p here =>
      rcases here with ⟨hn', hp⟩
      cases hnode.symm.trans hn'
      rcases exists_pollAt f ⟨i, j⟩ n₁ p with ⟨adapters, turn, hnow, hnodes⟩
      rcases List.getElem?_eq_some_iff.mp hnode with ⟨hlength, _⟩
      rw [hnow, hnodes, List.getElem?_set, if_pos rfl, if_pos hlength]
      exact ⟨hstart, _, rfl, closesNode_poll hretry hstart hp h adapters turn⟩
  | elsewhere now same =>
      rcases same n₁ hnode with ⟨n₂, hn₂, hsame⟩
      rw [List.append_nil, now]
      exact ⟨hstart, n₂, hn₂, closesNode_same h hsame⟩
  | pass ms pauses =>
      rw [List.append_nil]
      refine ⟨Nat.le_trans hstart (Nat.le_add_right _ ms), n₁, hnode, ?_⟩
      refine ⟨h.settings, h.sink, h.cancelled, h.length, ?_⟩
      intro j p hp
      rcases h.pipelines hp with ⟨p', hp', hop, hsource, _, hcloses⟩
      exact ⟨p', hp', hop, hsource, pauses n₁ hnode p' (List.mem_of_getElem? hp'),
        hcloses.mono (Nat.le_add_right _ ms)⟩

end Turns

/-- Wherever the pipelines of a dispatcher are when it is cancelled, each of them closes. -/
theorem closed_run {i : Nat} {f f' : Fleet} {n : Node} {log : List (Nat × Dealing)}
    (hnode : f.nodes[i]? = some n) (hcancelled : n.cancelled = true)
    (hsuspended : ∀ p ∈ n.pipelines, p.Suspended f.now)
    (hretry : 0 < n.settings.retryInterval) (hturns : Turns i f log f') :
    f.now ≤ f'.now ∧ ∃ n', f'.nodes[i]? = some n' ∧ ClosesNode n f.now log f'.now n' := by
  induction hturns with
  | none =>
      refine ⟨Nat.le_refl _, n, hnode, rfl, rfl, hcancelled, rfl, ?_⟩
      intro j p hp
      exact ⟨p, hp, rfl, rfl, hsuspended p (List.mem_of_getElem? hp), .stays⟩
  | more _ turn ih =>
      rcases ih with ⟨hstart, n₁, hn₁, hcloses⟩
      exact closesNode_turn hretry hstart hn₁ hcloses turn

end Fleet
end Dispatch
end Courier
