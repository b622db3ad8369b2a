import Courier.Proofs.Dispatch.Rest
import Mathlib.Data.Set.Card

/-!
# The schedule of a fleet

Pipelines that can go on are polled until none can at the present time. As long as running
pipelines have queues of their own, to which no dead letter comes, the turns that the schedule
allows are enough for that: `still_runNow`.
-/

namespace Courier
namespace Dispatch

open Bus (Broker)
open Routing (normal topicMatches)

namespace Fleet

theorem place_ext {place place' : Place} (hnode : place.node = place'.node)
    (hpipeline : place.pipeline = place'.pipeline) : place = place' := by
  cases place
  cases place'
  cases hnode
  cases hpipeline
  rfl

def Ready (f : Fleet) (n : Node) (p : Pipeline) : Prop :=
  (f.readyTime n p).any (· ≤ f.now) = true

def Still (f : Fleet) : Prop :=
  ∀ {place n p}, f.At place n p → ¬ f.Ready n p

/-- Running pipelines do not come in each other's way. -/
structure Fit (f : Fleet) : Prop where
  sound : f.broker.Sound
  passes : ∀ {place n p}, f.At place n p → p.isStopped = false →
    f.broker.Passes IsLetter p.source.queue
  apart : ∀ {place place' n n' p p'}, f.At place n p → f.At place' n' p' →
    p.isStopped = false → p'.isStopped = false → p.source.queue = p'.source.queue →
      place = place'

/-!
## Instances on one bus
-/

section Enrolled

variable {ids : List String} {f : Fleet}

theorem Enrolled.exists_queueName (h : Enrolled ids f) {place : Place} {n : Node} {p : Pipeline}
    (hat : f.At place n p) : ∃ id op, ids[place.node]? = some id ∧
      Operation.all[place.pipeline]? = some op ∧ p.source.queue = op.queueName id := by
  have hqueues : (ids.map instanceQueues)[place.node]? = some n.queues := by
    rw [← h.queues, List.getElem?_map, hat.left, Option.map_some]
  rw [List.getElem?_map] at hqueues
  rcases Option.map_eq_some_iff.mp hqueues with ⟨id, hid, hsame⟩
  have hqueue : (instanceQueues id)[place.pipeline]? = some (p.operation, p.source.queue) := by
    rw [hsame, Node.queues, List.getElem?_map, hat.right, Option.map_some]
  rw [instanceQueues, List.getElem?_map] at hqueue
  rcases Option.map_eq_some_iff.mp hqueue with ⟨op, hop, hpair⟩
  exact ⟨id, op, hid, hop, (Prod.mk.inj hpair).right.symm⟩

theorem not_matches_letter (op : Operation) {subject : String} (h : IsLetter subject) :
    topicMatches op.bindingPattern subject = false := by
  rcases h with ⟨op', rfl⟩
  cases op <;> cases op' <;> decide

theorem fit_of_enrolled (hids : (ids.map normal).Nodup) (h : Enrolled ids f) : f.Fit where
  sound := h.sound
  passes := by
    intro place n p hat hruns q hq subject hsubject
    have hplaced := h.placed n (List.mem_of_getElem? hat.left) p (List.mem_of_getElem? hat.right)
    rcases hplaced.runs hruns with ⟨q', hq', hbinding, _⟩
    cases hq.symm.trans hq'
    rw [hbinding]
    exact not_matches_letter p.operation hsubject
  apart := by
    intro place place' n n' p p' hat hat' _ _ hqueue
    rcases h.exists_queueName hat with ⟨id, op, hid, hop, hname⟩
    rcases h.exists_queueName hat' with ⟨id', op', hid', hop', hname'⟩
    rw [hname, hname'] at hqueue
    rcases Operation.eq_of_queueName_eq hqueue with ⟨rfl, hnormal⟩
    have hnode : place.node = place'.node := by
      rcases List.getElem?_eq_some_iff.mp hid with ⟨hlength, _⟩
      rw [← List.length_map (f := normal)] at hlength
      refine (List.getElem?_inj hlength hids).mp ?_
      rw [List.getElem?_map, List.getElem?_map, hid, hid', Option.map_some, Option.map_some,
        hnormal]
    have hpipeline : place.pipeline = place'.pipeline := by
      rcases List.getElem?_eq_some_iff.mp hop with ⟨hlength, _⟩
      exact (List.getElem?_inj hlength (by decide)).mp (hop.trans hop'.symm)
    exact place_ext hnode hpipeline

end Enrolled

/-!
## What it takes to go on
-/

theorem stage_ne_none_of_wakeTime {r : Running} {h : InHand} {t : Nat}
    (hwake : Stage.wakeTime r.node.settings h.stage = some t) (ht : t ≤ r.fleet.now) :
    Stage.step? r.node.settings sendByScript h.job r.fleet.now r.node.cancelled r.node.adapters
      h.stage ≠ none := by
  cases hstage : h.stage with
  | ready attempt => simp [Stage.step?]
  | finished o => simp [hstage, Stage.wakeTime] at hwake
  | pausing attempt resumeAt =>
      simp only [hstage, Stage.wakeTime, Option.some.injEq] at hwake
      simp [Stage.step?, hwake, ht]
  | sending attempt since answer =>
      simp only [hstage, Stage.wakeTime, Option.some.injEq] at hwake
      simp only [Stage.step?, ne_eq, Option.map_eq_none_iff]
      unfold Stage.answerBy
      by_cases hcome : since + answer.after ≤ r.fleet.now
      · simp [hcome]
      · have hlate : since + r.node.settings.handlerTimeout ≤ r.fleet.now := by omega
        simp [hcome, hlate]

theorem step?_ne_none_of_ready {r : Running} (h : r.fleet.Ready r.node r.pipeline) :
    step? r ≠ none := by
  unfold Ready readyTime at h
  unfold step?
  cases hstate : r.pipeline.state with
  | stopped => simp [hstate] at h
  | idle =>
      cases hcancelled : r.node.cancelled with
      | true => simp
      | false =>
          simp only [hstate, hcancelled, Bool.false_or, Bool.false_eq_true, if_false] at h ⊢
          unfold Broker.take
          cases hhead : (r.fleet.broker.consumer? r.pipeline.source).bind
              (fun k => k.buffer.head?) with
          | some c => simp
          | none =>
              cases hclosed : r.fleet.broker.closed with
              | true => simp
              | false =>
                  cases hk : r.fleet.broker.consumer? r.pipeline.source with
                  | none => simp [hclosed, hk] at h
                  | some k =>
                      rw [hk, Option.bind_some, List.head?_eq_none_iff] at hhead
                      simp [hclosed, hk, hhead] at h
  | handling inHand =>
      simp only [hstate] at h ⊢
      split
      · nofun
      · next stage hopen =>
          rw [ne_eq, Option.map_eq_none_iff]
          cases hstage : inHand.stage with
          | finished o => exact absurd hstage (hopen o)
          | ready attempt => simp [Stage.step?]
          | sending attempt since answer =>
              simp only [hstage] at h
              rw [← hstage]
              rcases (Option.any_eq_true _ _).mp h with ⟨t, hwake, ht⟩
              exact stage_ne_none_of_wakeTime (hstage ▸ hwake) (of_decide_eq_true ht)
          | pausing attempt resumeAt =>
              simp only [hstage] at h
              cases hcancelled : r.node.cancelled with
              | true => by_cases hover : resumeAt ≤ r.fleet.now <;> simp [Stage.step?, hover]
              | false =>
                  simp only [hcancelled, Bool.false_eq_true, if_false] at h
                  rcases (Option.any_eq_true _ _).mp h with ⟨t, hwake, ht⟩
                  rw [← hcancelled, ← hstage]
                  exact stage_ne_none_of_wakeTime (hstage ▸ hwake) (of_decide_eq_true ht)

theorem readyTime_congr {f f' : Fleet} {n n' : Node} {p p' : Pipeline}
    (hclosed : f'.broker.closed = f.broker.closed) (hcancelled : n'.cancelled = n.cancelled)
    (hsettings : n'.settings = n.settings) (hstate : p'.state = p.state)
    (hconsumer : f'.broker.consumer? p'.source = f.broker.consumer? p.source) :
    f'.readyTime n' p' = f.readyTime n p := by
  simp only [readyTime, hclosed, hcancelled, hsettings, hstate, hconsumer]

theorem isStopped_of_ready {f : Fleet} {n : Node} {p : Pipeline} (h : f.Ready n p) :
    p.isStopped = false := by
  unfold Ready readyTime at h
  unfold Pipeline.isStopped
  cases hstate : p.state with
  | stopped => simp [hstate] at h
  | idle => rfl
  | handling inHand => rfl

/-!
## The pipeline that goes on next
-/

theorem mem_places_of_at {f : Fleet} {place : Place} {n : Node} {p : Pipeline}
    (h : f.At place n p) : (place, n, p) ∈ f.places := by
  refine List.mem_flatMap.mpr ⟨(n, place.node), List.mem_zipIdx_iff_getElem?.mpr h.left, ?_⟩
  exact List.mem_map.mpr ⟨(p, place.pipeline), List.mem_zipIdx_iff_getElem?.mpr h.right, rfl⟩

theorem ready_of_next? {f : Fleet} {place : Place} {n : Node} {p : Pipeline}
    (h : f.next? = some (place, n, p)) : f.Ready n p :=
  (List.mem_filter.mp (mem_of_next? h)).right

theorem foldl_choice_isSome {α : Type} {choose : Option α → α → Option α}
    (hchoose : ∀ best x, (choose best x).isSome) {l : List α} {start : Option α}
    (h : l ≠ [] ∨ start.isSome) : (l.foldl choose start).isSome := by
  induction l generalizing start with
  | nil => exact h.resolve_left fun hne => hne rfl
  | cons x rest ih => exact ih (.inr (hchoose start x))

theorem mem_filter_of_ready {f : Fleet} {place : Place} {n : Node} {p : Pipeline}
    (h : f.At place n p) (hready : f.Ready n p) : (place, n, p) ∈
      f.places.filter fun (_, n, p) => (f.readyTime n p).any (· ≤ f.now) :=
  List.mem_filter.mpr ⟨mem_places_of_at h, hready⟩

theorem still_of_next? {f : Fleet} (h : f.next? = none) : f.Still := by
  intro place n p hat hready
  have hmem := mem_filter_of_ready hat hready
  have hsome : f.next?.isSome := by
    refine foldl_choice_isSome ?_ (.inl (List.ne_nil_of_mem hmem))
    intro best x
    cases best with
    | none => rfl
    | some b =>
        simp only
        split <;> rfl
  rw [h] at hsome
  cases hsome

/-!
## What a turn leaves as it is
-/

/-- What is at a place after a turn: the pipeline that had it, or another one as it was. -/
inductive After (f : Fleet) (place : Place) (n : Node) (p : Pipeline) (place' : Place)
    (n' : Node) (p' : Pipeline) : Prop where
  | turned (same : place' = place) (source : p'.source = p.source)
      (state : p'.state = (moves (moveBound ⟨f, n, p⟩) ⟨f, n, p⟩).pipeline.state)
      (cancelled : n'.cancelled = n.cancelled) (settings : n'.settings = n.settings)
  | other {n₀ : Node} (ne : place' ≠ place) (before : f.At place' n₀ p')
      (cancelled : n'.cancelled = n₀.cancelled) (settings : n'.settings = n₀.settings)

section Turn

variable {f : Fleet} {place : Place} {n : Node} {p : Pipeline} (h : f.At place n p)
include h

theorem after_of_at {place' : Place} {n' : Node} {p' : Pipeline}
    (h' : (f.pollAt place n p).At place' n' p') : After f place n p place' n' p' := by
  rcases exists_pollAt f place n p with ⟨adapters, turn, _, hnodes⟩
  rcases h with ⟨hn, hp⟩
  rcases h' with ⟨hn', hp'⟩
  rw [hnodes, List.getElem?_set] at hn'
  by_cases hnode : place.node = place'.node
  · rw [if_pos hnode] at hn'
    split at hn'
    · cases hn'
      simp only [List.getElem?_set] at hp'
      by_cases hpipeline : place.pipeline = place'.pipeline
      · rw [if_pos hpipeline] at hp'
        split at hp'
        · cases hp'
          exact .turned (place_ext hnode.symm hpipeline.symm) rfl rfl rfl rfl
        · cases hp'
      · rw [if_neg hpipeline] at hp'
        have hbefore : f.At place' n p' := by
          refine ⟨?_, hp'⟩
          rw [← hnode]
          exact hn
        exact .other (fun heq => hpipeline (heq ▸ rfl)) hbefore rfl rfl
    · cases hn'
  · rw [if_neg hnode] at hn'
    exact .other (fun heq => hnode (heq ▸ rfl)) ⟨hn', hp'⟩ rfl rfl

omit h in
theorem isStopped_moves (hstopped : p.isStopped = true) (fuel : Nat) :
    (moves fuel ⟨f, n, p⟩).pipeline.state = .stopped := by
  have hstate : p.state = .stopped := by
    unfold Pipeline.isStopped at hstopped
    cases hstate : p.state with
    | stopped => rfl
    | idle => simp [hstate] at hstopped
    | handling inHand => simp [hstate] at hstopped
  have hnone : step? ⟨f, n, p⟩ = none := by simp [step?, hstate]
  rw [(moves_of_none hnone fuel).left]
  exact hstate

theorem exists_before {place' : Place} {n' : Node} {p' : Pipeline}
    (h' : (f.pollAt place n p).At place' n' p') (hruns : p'.isStopped = false) :
    ∃ n₀ p₀, f.At place' n₀ p₀ ∧ p₀.isStopped = false ∧ p'.source = p₀.source := by
  cases after_of_at h h' with
  | other _ before _ _ => exact ⟨_, p', before, hruns, rfl⟩
  | turned same source state _ _ =>
      subst same
      refine ⟨n, p, h, ?_, source⟩
      cases hstopped : p.isStopped with
      | false => rfl
      | true =>
          rw [isStopped_moves hstopped] at state
          rw [Pipeline.isStopped, state] at hruns
          exact hruns

omit h in
theorem broker_pollAt (hb : f.broker.Sound) (place : Place) (n : Node) (p : Pipeline) :
    ∃ b, Bus.Broker.Tame IsLetter p.source.queue f.broker b ∧
      b = (moves (moveBound ⟨f, n, p⟩) ⟨f, n, p⟩).fleet.broker ∧
      ((f.pollAt place n p).broker = b ∨ (f.pollAt place n p).broker = b.close) := by
  rcases exists_done_moves (moveBound ⟨f, n, p⟩) ⟨f, n, p⟩ with ⟨counted, state, hmoves⟩
  have htame := tame_done (r := ⟨f, n, p⟩) hb (dealt (moveBound ⟨f, n, p⟩) ⟨f, n, p⟩) counted state
  rw [← hmoves] at htame
  refine ⟨_, htame, rfl, ?_⟩
  unfold pollAt closeIfDropped
  simp only
  split
  · exact .inl rfl
  · exact .inr rfl

theorem fit_pollAt (hfit : f.Fit) : (f.pollAt place n p).Fit := by
  rcases broker_pollAt hfit.sound place n p with
    ⟨b, htame, _, hbroker⟩
  constructor
  · rcases hbroker with hsame | hclosed
    · rw [hsame]
      exact htame.sound
    · rw [hclosed]
      exact ⟨htame.sound.names, htame.sound.queues, htame.sound.ids⟩
  · intro place' n' p' hat hruns
    rcases exists_before h hat hruns with ⟨n₀, p₀, hat₀, hruns₀, hsource⟩
    have hpasses := htame.passes (hfit.passes hat₀ hruns₀)
    rw [hsource]
    rcases hbroker with hsame | hclosed
    · rw [hsame]
      exact hpasses
    · rw [hclosed]
      exact hpasses
  · intro place₁ place₂ n₁ n₂ p₁ p₂ hat₁ hat₂ hruns₁ hruns₂ hqueue
    rcases exists_before h hat₁ hruns₁ with ⟨m₁, q₁, hbefore₁, hran₁, hsource₁⟩
    rcases exists_before h hat₂ hruns₂ with ⟨m₂, q₂, hbefore₂, hran₂, hsource₂⟩
    rw [hsource₁, hsource₂] at hqueue
    exact hfit.apart hbefore₁ hbefore₂ hran₁ hran₂ hqueue

omit h in
theorem now_pollAt : (f.pollAt place n p).now = f.now := by
  rcases exists_pollAt f place n p with ⟨_, _, hnow, _⟩
  exact hnow

theorem still_poll (hfit : f.Fit) : step? (moves (moveBound ⟨f, n, p⟩) ⟨f, n, p⟩) = none := by
  cases hstopped : p.isStopped with
  | false =>
      exact still_moves hfit.sound (hfit.passes h hstopped) (toGo_le_moveBound ⟨f, n, p⟩)
  | true =>
      have hstate := isStopped_moves (f := f) (n := n) hstopped (moveBound ⟨f, n, p⟩)
      simp only [step?, hstate]

theorem ready_of_ready_pollAt (hfit : f.Fit) (hready : f.Ready n p)
    (hclosed : (f.pollAt place n p).broker.closed = f.broker.closed) {place' : Place} {n' : Node}
    {p' : Pipeline} (h' : (f.pollAt place n p).At place' n' p')
    (hready' : (f.pollAt place n p).Ready n' p') :
    place' ≠ place ∧ ∃ n₀, f.At place' n₀ p' ∧ f.Ready n₀ p' := by
  rcases broker_pollAt hfit.sound place n p with
    ⟨b, htame, hb, hbroker⟩
  have hconsumer : ∀ ref, (f.pollAt place n p).broker.consumer? ref = b.consumer? ref := by
    intro ref
    rcases hbroker with hsame | hgone
    · rw [hsame]
    · rw [hgone]
      rfl
  have hruns' := isStopped_of_ready hready'
  unfold Ready at hready'
  rw [now_pollAt] at hready'
  cases after_of_at h h' with
  | other ne before cancelled settings =>
      refine ⟨ne, _, before, ?_⟩
      have hqueue : p'.source.queue ≠ p.source.queue := fun heq =>
        ne (hfit.apart before h hruns' (isStopped_of_ready hready) heq)
      have hsame := htame.consumers p'.source hqueue (hfit.passes before hruns')
      rw [readyTime_congr hclosed cancelled settings rfl ((hconsumer _).trans hsame)] at hready'
      exact hready'
  | turned same source state cancelled settings =>
      rcases exists_done_moves (moveBound ⟨f, n, p⟩) ⟨f, n, p⟩ with ⟨counted, last, hmoves⟩
      have hstill := still_poll h hfit
      generalize moves (moveBound ⟨f, n, p⟩) ⟨f, n, p⟩ = r at hmoves hstill hb state
      have hafter : (f.pollAt place n p).readyTime n' p' =
          r.fleet.readyTime r.node r.pipeline := by
        refine readyTime_congr ?_ ?_ ?_ state ?_
        · rw [hclosed, ← hb]
          exact htame.closed.symm
        · rw [cancelled, hmoves]
          rfl
        · rw [settings, hmoves]
          rfl
        · rw [hconsumer, hb, source, hmoves]
          rfl
      have hnow : r.fleet.now = f.now := by
        rw [hmoves]
        rfl
      rw [hafter, ← hnow] at hready'
      exact absurd hstill (step?_ne_none_of_ready hready')

end Turn

/-!
## How many turns it takes
-/

def taken (f : Fleet) : Set Place :=
  { place | ∃ n p, f.At place n p }

def ready (f : Fleet) : Set Place :=
  { place | ∃ n p, f.At place n p ∧ f.Ready n p }

/-- More than the turns that are taken at a time; when the bus goes, all may have one more. -/
noncomputable def turnsToGo (f : Fleet) : Nat :=
  f.ready.ncard + if f.broker.closed then 0 else f.taken.ncard

theorem ready_subset (f : Fleet) : f.ready ⊆ f.taken :=
  fun _ ⟨n, p, hat, _⟩ => ⟨n, p, hat⟩

theorem taken_subset (f : Fleet) : f.taken ⊆ (f.places.map Prod.fst).toFinset := by
  rintro place ⟨n, p, hat⟩
  have hmem : place ∈ f.places.map Prod.fst := List.mem_map_of_mem (mem_places_of_at hat)
  exact Finset.mem_coe.mpr (List.mem_toFinset.mpr hmem)

theorem finite_taken (f : Fleet) : f.taken.Finite :=
  (Finset.finite_toSet _).subset f.taken_subset

theorem ncard_taken_le (f : Fleet) : f.taken.ncard ≤ f.places.length := by
  refine Nat.le_trans (Set.ncard_le_ncard f.taken_subset (Finset.finite_toSet _)) ?_
  rw [Set.ncard_coe_finset]
  refine Nat.le_trans (List.toFinset_card_le _) ?_
  rw [List.length_map]

theorem turnsToGo_le_turnBound (f : Fleet) : f.turnsToGo ≤ f.turnBound := by
  have hready := Set.ncard_le_ncard f.ready_subset f.finite_taken
  have htaken := f.ncard_taken_le
  unfold turnsToGo turnBound
  simp only
  split <;> omega

theorem turnsToGo_pollAt {f : Fleet} {place : Place} {n : Node} {p : Pipeline}
    (h : f.At place n p) (hfit : f.Fit) (hready : f.Ready n p) :
    (f.pollAt place n p).turnsToGo < f.turnsToGo := by
  have hfirst : place ∈ f.ready := ⟨n, p, h, hready⟩
  have htaken : (f.pollAt place n p).taken ⊆ f.taken := by
    rintro place' ⟨n', p', hat⟩
    cases after_of_at h hat with
    | turned same _ _ _ _ => exact ⟨n, p, same ▸ h⟩
    | other _ before _ _ => exact ⟨_, p', before⟩
  have hfewer := Set.ncard_le_ncard htaken f.finite_taken
  have hfinite := f.finite_taken.subset f.ready_subset
  by_cases hclosed : (f.pollAt place n p).broker.closed = f.broker.closed
  · have hless : (f.pollAt place n p).ready ⊂ f.ready := by
      refine (Set.ssubset_iff_of_subset ?_).mpr ⟨place, hfirst, ?_⟩
      · rintro place' ⟨n', p', hat, hgoes⟩
        rcases ready_of_ready_pollAt h hfit hready hclosed hat hgoes with ⟨_, n₀, before, hran⟩
        exact ⟨n₀, p', before, hran⟩
      · rintro ⟨n', p', hat, hgoes⟩
        exact (ready_of_ready_pollAt h hfit hready hclosed hat hgoes).left rfl
    have hcard := Set.ncard_lt_ncard hless hfinite
    unfold turnsToGo
    rw [hclosed]
    split <;> omega
  · -- The bus has gone with this turn.
    rcases broker_pollAt hfit.sound place n p with
      ⟨b, htame, _, hsame | hgone⟩
    · exact absurd (hsame ▸ htame.closed) hclosed
    · have hopen : f.broker.closed = false := by
        cases hbefore : f.broker.closed with
        | false => rfl
        | true =>
            rw [hgone, hbefore] at hclosed
            exact absurd rfl hclosed
      have hpositive : 0 < f.ready.ncard := (Set.ncard_pos hfinite).mpr ⟨place, hfirst⟩
      have hall := Set.ncard_le_ncard (f.pollAt place n p).ready_subset
        (f.pollAt place n p).finite_taken
      unfold turnsToGo
      rw [hgone, hopen]
      simp only [Broker.close, if_true, Bool.false_eq_true, if_false]
      omega

theorem still_runReady {fuel : Nat} {f : Fleet} (hfit : f.Fit) (hfuel : f.turnsToGo ≤ fuel) :
    (runReady fuel f).Fit ∧ (runReady fuel f).Still := by
  induction fuel generalizing f with
  | zero =>
      refine ⟨hfit, ?_⟩
      intro place n p hat hready
      have hless := turnsToGo_pollAt (f := f) hat hfit hready
      omega
  | succ fuel ih =>
      unfold runReady
      cases hnext : f.next? with
      | none => exact ⟨hfit, still_of_next? hnext⟩
      | some x =>
          rcases x with ⟨place, n, p⟩
          have hat := at_of_next? hnext
          have hless := turnsToGo_pollAt hat hfit (ready_of_next? hnext)
          exact ih (fit_pollAt hat hfit) (by omega)

/-- No pipeline can go on when all have gone on as far as they can. -/
theorem still_runNow {f : Fleet} (hfit : f.Fit) : f.runNow.Fit ∧ f.runNow.Still :=
  still_runReady hfit f.turnsToGo_le_turnBound

end Fleet
end Dispatch
end Courier
