import Courier.Proofs.Dispatch.Pipelines
import Courier.Proofs.Routing.Names
import Mathlib.Data.List.Nodup

/-!
# Instances on one bus

Dispatchers are started for instances whose names differ as segments, on a bus that nobody
else subscribes to. Then each pipeline is alone on a queue of its own until it stops. This
is kept by whatever the dispatchers do: `enrolled_step`, `enrolled_sleep`,
`enrolled_shutdown`, and `enrolled_start` for a further instance, which is never refused.
-/

namespace Courier
namespace Dispatch

open Bus (Broker Copy ConsumerRef)
open Bus.Broker (Steady)
open Routing (normal)

def Node.queues (n : Node) : List (Operation × String) :=
  n.pipelines.map fun p => (p.operation, p.source.queue)

def instanceQueues (id : String) : List (Operation × String) :=
  Operation.all.map fun op => (op, op.queueName id)

/-- A pipeline is alone on its queue, or it was cancelled and has left. -/
structure Pipeline.Placed (b : Broker) (cancelled : Bool) (p : Pipeline) : Prop where
  runs : p.isStopped = false → b.Serves p.operation.bindingPattern p.source
  stopped : p.isStopped = true → b.Lacks p.source ∧ cancelled = true

theorem Pipeline.Placed.of_steady {b b' : Broker} {cancelled cancelled' : Bool} {p : Pipeline}
    (h : p.Placed b cancelled) (hsteady : Steady b b')
    (hcancelled : cancelled = true → cancelled' = true) : p.Placed b' cancelled' where
  runs := fun hruns => hsteady.serves (h.runs hruns)
  stopped := fun hstopped =>
    ⟨hsteady.lacks (h.stopped hstopped).left, hcancelled (h.stopped hstopped).right⟩

namespace Fleet

/-- Each of the instances has a node, in order, with its pipelines in place; there are no
other queues. -/
structure Enrolled (ids : List String) (f : Fleet) : Prop where
  sound : f.broker.Sound
  isOpen : f.broker.closed = false
  held : f.held = true
  queues : f.nodes.map Node.queues = ids.map instanceQueues
  placed : ∀ n ∈ f.nodes, ∀ p ∈ n.pipelines, p.Placed f.broker n.cancelled
  known : ∀ {name q}, f.broker.queue? name = some q →
    ∃ id ∈ ids, ∃ op : Operation, name = op.queueName id

theorem enrolled_empty : Enrolled [] {} where
  sound := Bus.Broker.sound_empty
  isOpen := rfl
  held := rfl
  queues := rfl
  placed := nofun
  known := nofun

variable {ids : List String}

theorem Enrolled.exists_instance {f : Fleet} (h : Enrolled ids f) {n : Node} (hn : n ∈ f.nodes)
    {p : Pipeline} (hp : p ∈ n.pipelines) :
    ∃ id ∈ ids, p.source.queue = p.operation.queueName id := by
  have hqueues : n.queues ∈ ids.map instanceQueues := by
    rw [← h.queues]
    exact List.mem_map_of_mem hn
  rcases List.mem_map.mp hqueues with ⟨id, hid, hsame⟩
  have hmem : (p.operation, p.source.queue) ∈ instanceQueues id := by
    rw [hsame]
    exact List.mem_map_of_mem (f := fun p => (p.operation, p.source.queue)) hp
  rcases List.mem_map.mp hmem with ⟨op, _, heq⟩
  rcases Prod.mk.inj heq with ⟨hop, hqueue⟩
  exact ⟨id, hid, hop ▸ hqueue.symm⟩

/-!
## Queues of their own
-/

theorem nodup_queueNames (hids : (ids.map normal).Nodup) :
    (ids.flatMap fun id => Operation.all.map fun op => op.queueName id).Nodup := by
  rw [List.nodup_flatMap]
  constructor
  · intro id _
    refine List.Nodup.map_on ?_ (by decide)
    intro op _ op' _ h
    exact (Operation.eq_of_queueName_eq h).left
  · refine (List.pairwise_map.mp hids).imp ?_
    intro id id' hne name hname hname'
    rcases List.mem_map.mp hname with ⟨op, _, rfl⟩
    rcases List.mem_map.mp hname' with ⟨op', _, h⟩
    exact hne (Operation.eq_of_queueName_eq h).right.symm

theorem eq_of_queue_eq (hids : (ids.map normal).Nodup) {f : Fleet}
    (hqueues : f.nodes.map Node.queues = ids.map instanceQueues) {n n' : Node} (hn : n ∈ f.nodes)
    (hn' : n' ∈ f.nodes) {p p' : Pipeline} (hp : p ∈ n.pipelines) (hp' : p' ∈ n'.pipelines)
    (h : p.source.queue = p'.source.queue) : p = p' := by
  have hnames : (f.nodes.flatMap Node.pipelines).map (fun p => p.source.queue) =
      ids.flatMap fun id => Operation.all.map fun op => op.queueName id := by
    have hflat := congrArg (fun l => (l.flatten).map Prod.snd) hqueues
    simpa [Node.queues, instanceQueues, List.map_flatten, List.flatMap_def, Function.comp_def]
      using hflat
  have hnodup := nodup_queueNames hids
  rw [← hnames] at hnodup
  exact List.inj_on_of_nodup_map hnodup (List.mem_flatMap.mpr ⟨n, hn, hp⟩)
    (List.mem_flatMap.mpr ⟨n', hn', hp'⟩) h

/-!
## What keeps instances in place
-/

theorem Enrolled.of_steady {f f' : Fleet} (h : Enrolled ids f)
    (hsteady : Steady f.broker f'.broker) (hnodes : f'.nodes = f.nodes)
    (hheld : f'.held = f.held) : Enrolled ids f' where
  sound := hsteady.sound
  isOpen := hsteady.closed.trans h.isOpen
  held := hheld.trans h.held
  queues := by
    rw [hnodes]
    exact h.queues
  placed := by
    rw [hnodes]
    exact fun n hn p hp => (h.placed n hn p hp).of_steady hsteady id
  known := by
    intro name q' hq'
    rcases hsteady.adds hq' with ⟨q, hq, _⟩
    exact h.known hq

theorem enrolled_publish {f : Fleet} (h : Enrolled ids f) (p : Bus.Parcel) :
    Enrolled ids { f with broker := f.broker.publish p } :=
  h.of_steady (Bus.Broker.steady_publish h.sound p) rfl rfl

theorem Enrolled.map {f : Fleet} (h : Enrolled ids f) {g : Node → Node}
    (hpipelines : ∀ n, (g n).pipelines = n.pipelines)
    (hcancelled : ∀ n, n.cancelled = true → (g n).cancelled = true) :
    Enrolled ids { f with nodes := f.nodes.map g } where
  sound := h.sound
  isOpen := h.isOpen
  held := h.held
  queues := by
    rw [List.map_map, ← h.queues]
    apply List.map_congr_left
    intro n _
    simp only [Function.comp_apply, Node.queues, hpipelines]
  placed := by
    intro n' hn' p hp
    rcases List.mem_map.mp hn' with ⟨n, hn, rfl⟩
    rw [hpipelines] at hp
    exact (h.placed n hn p hp).of_steady (.refl h.sound) (hcancelled n)
  known := h.known

/-!
## Moves
-/

/-- The fleet with a running pipeline put back into its place. -/
def Running.put (r : Running) (place : Place) : Fleet :=
  { r.fleet with
    nodes := r.fleet.nodes.set place.node
      { r.node with pipelines := r.node.pipelines.set place.pipeline r.pipeline } }

structure Running.Seated (r : Running) (place : Place) : Prop where
  node : place.node < r.fleet.nodes.length
  pipeline : place.pipeline < r.node.pipelines.length

theorem Running.Seated.of_frame {r r' : Running} {place : Place} (h : r.Seated place)
    (hframe : Frame r r') : r'.Seated place := by
  constructor
  · rw [hframe.nodes]
    exact h.node
  · rw [hframe.pipelines]
    exact h.pipeline

def Running.seat (r : Running) (place : Place) : Node :=
  { r.node with pipelines := r.node.pipelines.set place.pipeline r.pipeline }

theorem Running.Seated.mem_nodes {r : Running} {place : Place} (h : r.Seated place) :
    r.seat place ∈ (r.put place).nodes :=
  List.mem_set h.node _

theorem Running.Seated.mem_pipelines {r : Running} {place : Place} (h : r.Seated place) :
    r.pipeline ∈ (r.seat place).pipelines :=
  List.mem_set h.pipeline _

section Frame

variable {r r' : Running} {place : Place}

theorem Frame.queues_put (h : Frame r r') (place : Place) :
    (r'.put place).nodes.map Node.queues = (r.put place).nodes.map Node.queues := by
  simp only [Running.put, h.nodes, List.map_set, Node.queues, h.pipelines, h.operation, h.source]

theorem Frame.mem_nodes (h : Frame r r') {n : Node} (hn : n ∈ (r'.put place).nodes) :
    n ∈ (r.put place).nodes ∨ n = r'.seat place := by
  have hset : (r'.put place).nodes = (r.put place).nodes.set place.node (r'.seat place) := by
    simp only [Running.put, Running.seat, h.nodes, List.set_set]
  rw [hset] at hn
  exact List.mem_or_eq_of_mem_set hn

theorem Frame.mem_pipelines (h : Frame r r') {p : Pipeline}
    (hp : p ∈ (r'.seat place).pipelines) : p ∈ (r.seat place).pipelines ∨ p = r'.pipeline := by
  have hset : (r'.seat place).pipelines =
      (r.seat place).pipelines.set place.pipeline r'.pipeline := by
    simp only [Running.seat, h.pipelines, List.set_set]
  rw [hset] at hp
  exact List.mem_or_eq_of_mem_set hp

theorem Frame.placed_put (h : Frame r r') (hseated : r.Seated place)
    (hplaced : ∀ n ∈ (r.put place).nodes, ∀ p ∈ n.pipelines, p.Placed r.fleet.broker n.cancelled)
    (hown : r'.pipeline.Placed r'.fleet.broker r'.node.cancelled)
    (hothers : ∀ n ∈ (r'.put place).nodes, ∀ p ∈ n.pipelines,
      p.Placed r.fleet.broker n.cancelled → p.Placed r'.fleet.broker n.cancelled) :
    ∀ n ∈ (r'.put place).nodes, ∀ p ∈ n.pipelines, p.Placed r'.fleet.broker n.cancelled := by
  intro n hn p hp
  rcases h.mem_nodes hn with hold | rfl
  · exact hothers n hn p hp (hplaced n hold p hp)
  · rcases h.mem_pipelines hp with hold | rfl
    · have hbefore := hplaced _ hseated.mem_nodes p hold
      have hsame : (r.seat place).cancelled = (r'.seat place).cancelled := h.cancelled.symm
      rw [hsame] at hbefore
      exact hothers _ hn p hp hbefore
    · exact hown

end Frame

theorem enrolled_of_goes {r r' : Running} {place : Place} (frame : Frame r r')
    (steady : Steady r.fleet.broker r'.fleet.broker)
    (same : r'.pipeline.isStopped = r.pipeline.isStopped) (hseated : r.Seated place)
    (h : Enrolled ids (r.put place)) : Enrolled ids (r'.put place) := by
  have hbefore : r.pipeline.Placed r.fleet.broker r.node.cancelled :=
    h.placed _ hseated.mem_nodes _ hseated.mem_pipelines
  refine ⟨steady.sound, steady.closed.trans h.isOpen, frame.held.trans h.held,
    (frame.queues_put place).trans h.queues, frame.placed_put hseated h.placed ?_ ?_, ?_⟩
  · constructor
    · intro hruns
      rw [same] at hruns
      rw [frame.operation, frame.source]
      exact steady.serves (hbefore.runs hruns)
    · intro hstopped
      rw [same] at hstopped
      rw [frame.source, frame.cancelled]
      exact ⟨steady.lacks (hbefore.stopped hstopped).left, (hbefore.stopped hstopped).right⟩
  · intro n _ p _ hp
    exact hp.of_steady steady id
  · intro name q' hq'
    rcases steady.adds hq' with ⟨q, hq, _⟩
    exact h.known hq

theorem enrolled_of_stops (hids : (ids.map normal).Nodup) {r r' : Running} {place : Place}
    (frame : Frame r r') (broker : r'.fleet.broker = r.fleet.broker.unsubscribe r.pipeline.source)
    (stopped : r'.pipeline.isStopped = true) (cancelled : r.node.cancelled = true)
    (hseated : r.Seated place) (h : Enrolled ids (r.put place)) :
    Enrolled ids (r'.put place) := by
  have hqueues := (frame.queues_put place).trans h.queues
  have hseated' := hseated.of_frame frame
  refine ⟨?_, ?_, frame.held.trans h.held, hqueues, frame.placed_put hseated h.placed ?_ ?_, ?_⟩
  · show r'.fleet.broker.Sound
    rw [broker]
    exact Bus.Broker.sound_unsubscribe h.sound _
  · show r'.fleet.broker.closed = false
    rw [broker]
    exact h.isOpen
  · constructor
    · intro hruns
      rw [stopped] at hruns
      cases hruns
    · intro _
      rw [broker, frame.source, frame.cancelled]
      exact ⟨Bus.Broker.lacks_unsubscribe _ (.inr rfl), cancelled⟩
  · intro n hn p hp hplaced
    rw [broker]
    constructor
    · intro hruns
      refine Bus.Broker.serves_unsubscribe ?_ (hplaced.runs hruns)
      -- Else it would be the pipeline that moved, and that one has stopped.
      intro heq
      rw [← frame.source] at heq
      have hsame := eq_of_queue_eq hids hqueues hn hseated'.mem_nodes hp
        hseated'.mem_pipelines heq
      rw [hsame, stopped] at hruns
      cases hruns
    · intro hstopped
      exact ⟨Bus.Broker.lacks_unsubscribe _ (.inl (hplaced.stopped hstopped).left),
        (hplaced.stopped hstopped).right⟩
  · intro name q' hq'
    have hqueue : r'.fleet.broker.queue? name = some q' := hq'
    rw [broker, Bus.Broker.queue?_unsubscribe] at hqueue
    split at hqueue
    · rcases Option.map_eq_some_iff.mp hqueue with ⟨q, hq, _⟩
      exact h.known hq
    · exact h.known hqueue

theorem enrolled_of_moved (hids : (ids.map normal).Nodup) {r r' : Running} {place : Place}
    (hmoved : Moved r r') (hseated : r.Seated place) (h : Enrolled ids (r.put place)) :
    Enrolled ids (r'.put place) := by
  cases hmoved with
  | goes frame steady same => exact enrolled_of_goes frame steady same hseated h
  | stops frame broker stopped cancelled =>
      exact enrolled_of_stops hids frame broker stopped cancelled hseated h

/-- A move of any pipeline. -/
theorem enrolled_step (hids : (ids.map normal).Nodup) {r r' : Running} {place : Place}
    (hstep : step? r = some r') (hseated : r.Seated place) (h : Enrolled ids (r.put place)) :
    r'.Seated place ∧ Enrolled ids (r'.put place) := by
  have hmoved := moved_step h.sound h.isOpen hstep
  exact ⟨hseated.of_frame hmoved.frame, enrolled_of_moved hids hmoved hseated h⟩

theorem enrolled_moves (hids : (ids.map normal).Nodup) (fuel : Nat) {r : Running} {place : Place}
    (hseated : r.Seated place) (h : Enrolled ids (r.put place)) :
    (moves fuel r).Seated place ∧ Enrolled ids ((moves fuel r).put place) := by
  induction fuel generalizing r with
  | zero => exact ⟨hseated, h⟩
  | succ fuel ih =>
      unfold moves
      cases hstep : step? r with
      | none => exact ⟨hseated, h⟩
      | some r' =>
          rcases enrolled_step hids hstep hseated h with ⟨hseated', h'⟩
          exact ih hseated' h'

theorem enrolled_poll (hids : (ids.map normal).Nodup) {r : Running} {place : Place}
    (hseated : r.Seated place) (h : Enrolled ids (r.put place)) :
    Enrolled ids ((poll r).put place) := by
  rcases enrolled_moves hids (moveBound r) hseated h with ⟨hseated', h'⟩
  refine enrolled_of_moved hids ?_ hseated' h'
  exact .goes ⟨rfl, rfl, rfl, rfl, rfl, rfl⟩ (.refl h'.sound) rfl

theorem closeIfDropped_of_held {f : Fleet} (h : f.held = true) : f.closeIfDropped = f := by
  simp [closeIfDropped, h]

def At (f : Fleet) (place : Place) (n : Node) (p : Pipeline) : Prop :=
  f.nodes[place.node]? = some n ∧ n.pipelines[place.pipeline]? = some p

theorem At.seated {f : Fleet} {place : Place} {n : Node} {p : Pipeline} (h : f.At place n p) :
    (Running.mk f n p).Seated place ∧ (Running.mk f n p).put place = f := by
  rcases List.getElem?_eq_some_iff.mp h.left with ⟨hnode, hn⟩
  rcases List.getElem?_eq_some_iff.mp h.right with ⟨hpipeline, hp⟩
  refine ⟨⟨hnode, hpipeline⟩, ?_⟩
  have hpipelines : n.pipelines.set place.pipeline p = n.pipelines := by
    rw [← hp, List.set_getElem_self]
  have hnodes : f.nodes.set place.node n = f.nodes := by
    rw [← hn, List.set_getElem_self]
  simp only [Running.put, hpipelines, hnodes]

theorem enrolled_pollAt (hids : (ids.map normal).Nodup) {f : Fleet} {place : Place} {n : Node}
    {p : Pipeline} (hat : f.At place n p) (h : Enrolled ids f) :
    Enrolled ids (f.pollAt place n p) := by
  rcases hat.seated with ⟨hseated, hput⟩
  have hpoll := enrolled_poll hids hseated (hput.symm ▸ h)
  have hsame : f.pollAt place n p = (poll ⟨f, n, p⟩).put place :=
    closeIfDropped_of_held hpoll.held
  rw [hsame]
  exact hpoll

/-!
## All that happens while time passes
-/

theorem at_of_mem_places {f : Fleet} {place : Place} {n : Node} {p : Pipeline}
    (h : (place, n, p) ∈ f.places) : f.At place n p := by
  rcases List.mem_flatMap.mp h with ⟨⟨n', i⟩, hn, h⟩
  rcases List.mem_map.mp h with ⟨⟨p', j⟩, hp, heq⟩
  cases heq
  exact ⟨List.mem_zipIdx_iff_getElem?.mp hn, List.mem_zipIdx_iff_getElem?.mp hp⟩

theorem mem_of_foldl_choice {α : Type} {choose : Option α → α → Option α}
    (hchoose : ∀ {best x y}, choose best x = some y → y = x ∨ best = some y) {l : List α}
    {start : Option α} {y : α} (h : l.foldl choose start = some y) : y ∈ l ∨ start = some y := by
  induction l generalizing start with
  | nil => exact .inr h
  | cons x rest ih =>
      rcases ih h with hmem | hbest
      · exact .inl (List.mem_cons_of_mem _ hmem)
      · rcases hchoose hbest with rfl | hbest
        · exact .inl List.mem_cons_self
        · exact .inr hbest

theorem mem_of_next? {f : Fleet} {x : Place × Node × Pipeline} (h : f.next? = some x) :
    x ∈ f.places.filter fun (_, n, p) => (f.readyTime n p).any (· ≤ f.now) := by
  refine (mem_of_foldl_choice ?_ h).resolve_right nofun
  intro best x y hy
  cases best with
  | none =>
      cases hy
      exact .inl rfl
  | some b =>
      simp only at hy
      split at hy
      · exact .inr hy
      · cases hy
        exact .inl rfl

theorem at_of_next? {f : Fleet} {place : Place} {n : Node} {p : Pipeline}
    (h : f.next? = some (place, n, p)) : f.At place n p :=
  at_of_mem_places (List.mem_filter.mp (mem_of_next? h)).left

section Time

variable (hids : (ids.map normal).Nodup)
include hids

theorem enrolled_runReady (fuel : Nat) {f : Fleet} (h : Enrolled ids f) :
    Enrolled ids (runReady fuel f) := by
  induction fuel generalizing f with
  | zero => exact h
  | succ fuel ih =>
      unfold runReady
      cases hnext : f.next? with
      | none => exact h
      | some x => exact ih (enrolled_pollAt hids (at_of_next? hnext) h)

theorem enrolled_runUntil (stop : Fleet → Bool) (time fuel : Nat) {f : Fleet}
    (h : Enrolled ids f) : Enrolled ids (runUntil stop time fuel f).2 := by
  induction fuel generalizing f with
  | zero => exact h.of_steady (.refl h.sound) rfl rfl
  | succ fuel ih =>
      have hnow : Enrolled ids f.runNow := enrolled_runReady hids f.turnBound h
      unfold runUntil
      simp only
      split
      · exact hnow
      · split
        · exact hnow.of_steady (.refl hnow.sound) rfl rfl
        · split
          · exact ih (hnow.of_steady (.refl hnow.sound) rfl rfl)
          · exact hnow.of_steady (.refl hnow.sound) rfl rfl

theorem enrolled_sleep {f : Fleet} (h : Enrolled ids f) (ms : Nat) :
    Enrolled ids (f.sleep ms) := by
  unfold sleep
  split
  · exact h
  · exact enrolled_runUntil hids _ _ _ h

theorem enrolled_shutdown {f : Fleet} (h : Enrolled ids f) (name : String) (grace : Nat) :
    Enrolled ids (f.shutdown name grace).2 := by
  have hcancelled : Enrolled ids
      (f.updateNode name fun n => { n with cancelled := true, shutDown := true }) := by
    refine h.map ?_ ?_
    · intro n
      split <;> rfl
    · intro n hn
      split
      · rfl
      · exact hn
  unfold shutdown
  simp only
  split
  · exact hcancelled
  · split
    · exact hcancelled
    · exact enrolled_runUntil hids _ _ _ hcancelled

end Time

/-!
## Further instances
-/

/-- What pipelines for some operations come to, on queues that nobody else has. -/
structure Joins (id : String) (ops : List Operation) (b b' : Broker) (pipelines : List Pipeline) :
    Prop where
  sound : b'.Sound
  closed : b'.closed = b.closed
  queues : pipelines.map (fun p => (p.operation, p.source.queue)) =
    ops.map fun op => (op, op.queueName id)
  running : ∀ p ∈ pipelines, p.isStopped = false
  serves : ∀ p ∈ pipelines, b'.Serves p.operation.bindingPattern p.source
  others : ∀ name, (∀ op ∈ ops, name ≠ op.queueName id) → b'.queue? name = b.queue? name

theorem validate_subscriptionOf {exchange : String} (h : Text.isBlank exchange = false)
    (id : String) (op : Operation) : (subscriptionOf exchange id op).validate = none := by
  simp [subscriptionOf, Bus.Subscription.fanOut, Bus.Subscription.validate, h,
    op.not_isBlank_queueName id, op.not_isBlank_bindingPattern]

theorem Joins.nil (id : String) {b : Broker} (hb : b.Sound) : Joins id [] b b [] where
  sound := hb
  closed := rfl
  queues := rfl
  running := fun _ hp => absurd hp List.not_mem_nil
  serves := fun _ hp => absurd hp List.not_mem_nil
  others := fun _ _ => rfl

theorem queue?_joined_of_ne {exchange id name : String} {op : Operation} (b : Broker)
    (hname : name ≠ op.queueName id) :
    (b.joined (subscriptionOf exchange id op)).queue? name = b.queue? name := by
  rw [Bus.Broker.queue?_joined]
  exact if_neg hname

theorem Joins.cons {exchange id : String} {op : Operation} {rest : List Operation} {b b' : Broker}
    {pipelines : List Pipeline} (hnone : b.queue? (op.queueName id) = none)
    (hne : ∀ op' ∈ rest, op.queueName id ≠ op'.queueName id)
    (h : Joins id rest (b.joined (subscriptionOf exchange id op)) b' pipelines) :
    Joins id (op :: rest) b b'
      ({ operation := op, source := ⟨op.queueName id, b.nextConsumer⟩ } :: pipelines) where
  sound := h.sound
  closed := h.closed
  queues := by
    rw [List.map_cons, h.queues]
    rfl
  running := List.forall_mem_cons.mpr ⟨rfl, h.running⟩
  serves := by
    have hserves := Bus.Broker.serves_joined (s := subscriptionOf exchange id op) hnone rfl
    exact List.forall_mem_cons.mpr ⟨hserves.congr (h.others _ hne), h.serves⟩
  others := by
    intro name hname
    rw [h.others name fun op' hop' => hname op' (List.mem_cons_of_mem _ hop')]
    exact queue?_joined_of_ne b (hname op List.mem_cons_self)

theorem joins_subscribeAll {exchange : String} (hexchange : Text.isBlank exchange = false)
    (id : String) {ops : List Operation} (hops : ops.Nodup) {b : Broker} (hb : b.Sound)
    (hnew : ∀ op ∈ ops, b.queue? (op.queueName id) = none) (before : List Pipeline) :
    ∃ b' pipelines, subscribeAll exchange id ops b before = (none, b', before ++ pipelines) ∧
      Joins id ops b b' pipelines := by
  induction ops generalizing b before with
  | nil => exact ⟨b, [], by rw [List.append_nil]; rfl, .nil id hb⟩
  | cons op rest ih =>
      rcases List.nodup_cons.mp hops with ⟨hfirst, hrest⟩
      have hnone := hnew op List.mem_cons_self
      have hfree : ∀ q, b.queue? (op.queueName id) = some q →
          Broker.refuses q (subscriptionOf exchange id op) = false := by
        intro q hq
        rw [hnone] at hq
        cases hq
      have hsubscribe := Bus.Broker.subscribe_of_free (validate_subscriptionOf hexchange id op)
        hfree
      have hne : ∀ op' ∈ rest, op.queueName id ≠ op'.queueName id := by
        intro op' hop' heq
        rw [(Operation.eq_of_queueName_eq heq).left] at hfirst
        exact hfirst hop'
      have hnew' : ∀ op' ∈ rest,
          (b.joined (subscriptionOf exchange id op)).queue? (op'.queueName id) = none := by
        intro op' hop'
        rw [queue?_joined_of_ne b (hne op' hop').symm]
        exact hnew op' (List.mem_cons_of_mem _ hop')
      rcases ih hrest (Bus.Broker.sound_joined hb _) hnew'
        (before ++ [{ operation := op, source := ⟨op.queueName id, b.nextConsumer⟩ }]) with
        ⟨b', pipelines, hall, hjoins⟩
      refine ⟨b', _, ?_, hjoins.cons hnone hne⟩
      rw [List.append_assoc] at hall
      simp only [subscribeAll, hsubscribe]
      exact hall

section New

variable {id : String} (hid : normal id ∉ ids.map normal)
include hid

theorem queueName_ne {id' : String} (hid' : id' ∈ ids) (op op' : Operation) :
    op'.queueName id' ≠ op.queueName id := by
  intro heq
  apply hid
  rw [← (Operation.eq_of_queueName_eq heq).right]
  exact List.mem_map_of_mem hid'

theorem Enrolled.queue?_eq_none {f : Fleet} (h : Enrolled ids f) (op : Operation) :
    f.broker.queue? (op.queueName id) = none := by
  cases hq : f.broker.queue? (op.queueName id) with
  | none => rfl
  | some q =>
      rcases h.known hq with ⟨id', hid', op', heq⟩
      exact absurd heq.symm (queueName_ne hid hid' op op')

theorem Enrolled.join {f : Fleet} (h : Enrolled ids f) {b' : Broker} {pipelines : List Pipeline}
    (hjoins : Joins id Operation.all f.broker b' pipelines) (node : Node) :
    Enrolled (ids ++ [id])
      { f with broker := b', nodes := f.nodes ++ [{ node with pipelines := pipelines }] } where
  sound := hjoins.sound
  isOpen := hjoins.closed.trans h.isOpen
  held := h.held
  queues := by
    rw [List.map_append, List.map_append, h.queues]
    exact congrArg (fun queues => ids.map instanceQueues ++ [queues]) hjoins.queues
  placed := by
    intro n hn p hp
    rcases List.mem_append.mp hn with hn | hn
    · have hbefore := h.placed n hn p hp
      rcases h.exists_instance hn hp with ⟨id', hid', hname⟩
      have hsame : b'.queue? p.source.queue = f.broker.queue? p.source.queue := by
        apply hjoins.others
        intro op _
        rw [hname]
        exact queueName_ne hid hid' op _
      exact ⟨fun hruns => (hbefore.runs hruns).congr hsame, fun hstopped =>
        ⟨(hbefore.stopped hstopped).left.congr hsame, (hbefore.stopped hstopped).right⟩⟩
    · rw [List.mem_singleton.mp hn] at hp
      refine ⟨fun _ => hjoins.serves p hp, fun hstopped => ?_⟩
      rw [hjoins.running p hp] at hstopped
      cases hstopped
  known := by
    intro name q hq
    by_cases hname : ∃ op ∈ Operation.all, name = op.queueName id
    · rcases hname with ⟨op, _, hname⟩
      exact ⟨id, List.mem_append_right _ (List.mem_singleton.mpr rfl), op, hname⟩
    · have hother : f.broker.queue? name = some q := by
        rw [← hjoins.others name fun op hop heq => hname ⟨op, hop, heq⟩]
        exact hq
      rcases h.known hother with ⟨id', hid', hop⟩
      exact ⟨id', List.mem_append_left _ hid', hop⟩

/-- A further instance is not refused, and it comes to the others. -/
theorem enrolled_start {f : Fleet} (h : Enrolled ids f) {exchange : String}
    (hexchange : Text.isBlank exchange = false) (node : Node) :
    (f.start exchange id node).1 = none ∧
      Enrolled (ids ++ [id]) (f.start exchange id node).2 := by
  have hnew : ∀ op ∈ Operation.all, f.broker.queue? (op.queueName id) = none :=
    fun op _ => h.queue?_eq_none hid op
  rcases joins_subscribeAll hexchange id (by decide) h.sound hnew [] with
    ⟨b', pipelines, hall, hjoins⟩
  have hstart : f.start exchange id node = (none, { f with
      broker := b'
      nodes := f.nodes.map (fun n => if n.name = node.name then { n with name := none } else n) ++
        [{ node with pipelines := pipelines }] }) := by
    rw [List.nil_append] at hall
    simp only [start, hall]
  -- A node of the same name goes on under no name.
  have hforgotten : Enrolled ids { f with
      nodes := f.nodes.map fun n =>
        if n.name = node.name then { n with name := none } else n } := by
    refine h.map ?_ ?_
    · intro n
      split <;> rfl
    · intro n hn
      split <;> exact hn
  rw [hstart]
  exact ⟨rfl, hforgotten.join hid hjoins node⟩

end New

end Fleet
end Dispatch
end Courier
