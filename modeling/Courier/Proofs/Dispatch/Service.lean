import Courier.Proofs.Dispatch.Lodging
import Courier.Proofs.Dispatch.Work

/-!
# Service in turn

A dispatcher is launched on a new bus, and deliveries arrive for one of its operations. However
its adapters behave and whatever becomes of dead letters, the operation's pipeline settles the
deliveries one at a time as they arrived, each as it would be settled alone, and counts them. It
comes to an end with all that arrived. The main statement is `inTurn_of_serving`.
-/

namespace Courier
namespace Dispatch

open Bus (Broker ConsumerRef Copy Parcel)
open Provider (Adapter)
open Routing (topicMatches)

namespace Fleet

/-!
## One pipeline at work among others
-/

structure Unused (op : Operation) (f : Fleet) (n : Node) (p : Pipeline) : Prop where
  operation : p.operation ≠ op
  live : n.cancelled = false
  idle : p.state = .idle
  empty : ∃ k, f.broker.consumer? p.source = some k ∧ k.buffer = []

theorem Unused.isStopped {op : Operation} {f : Fleet} {n : Node} {p : Pipeline}
    (h : Unused op f n p) : p.isStopped = false := by
  rw [Pipeline.isStopped, h.idle]

theorem step?_of_unused {op : Operation} {f : Fleet} {n : Node} {p : Pipeline}
    (h : Unused op f n p) (hopen : f.broker.closed = false) : step? ⟨f, n, p⟩ = none := by
  rcases h.empty with ⟨k, hk, hempty⟩
  simp [step?, h.idle, h.live, Broker.take, hk, hempty, hopen]

/-- The pipeline at a place is at work, and the others are not used. -/
structure InService (m : Means) (adapters : List Adapter) (place : Place) (arrived : List Parcel)
    (done : List (Copy × Outcome)) (due : Nat) (f : Fleet) : Prop where
  lodged : f.Lodged
  works : ∃ n p, f.At place n p ∧ AtWork m adapters arrived done due ⟨f, n, p⟩
  unused : ∀ {other n p}, f.At other n p → other ≠ place → Unused m.operation f n p

section Tick

variable {m : Means} {adapters : List Adapter} {place : Place} {arrived : List Parcel}
  {done : List (Copy × Outcome)} {due : Nat} {f f' : Fleet}

theorem InService.atWork (h : InService m adapters place arrived done due f) {n : Node}
    {p : Pipeline} (hat : f.At place n p) : AtWork m adapters arrived done due ⟨f, n, p⟩ := by
  rcases h.works with ⟨n', p', hat', hwork⟩
  cases hat.left.symm.trans hat'.left
  cases hat.right.symm.trans hat'.right
  exact hwork

theorem inService_move (h : InService m adapters place arrived done due f) {mover : Place}
    {n : Node} {p : Pipeline} {r : Running} (here : f.At mover n p)
    (hstep : step? ⟨f, n, p⟩ = some r) :
    InService m adapters place arrived (done ++ concluded ⟨f, n, p⟩) due (r.put mover) := by
  by_cases hmover : mover = place
  · subst hmover
    have hframe := frame_of_step hstep
    have hwork := atWork_step h.lodged.ephemeral.sound h.lodged.ephemeral.isOpen
      ((fit_of_lodged h.lodged).passes here (isStopped_of_step hstep)) (h.atWork here) hstep
    refine ⟨lodged_move h.lodged here hstep, ⟨_, _, at_put_self here hframe,
      hwork.congr rfl rfl rfl rfl rfl rfl rfl rfl⟩, ?_⟩
    intro other n' p' hat hne
    rcases cases_at_put here hframe hat with ⟨heq, _, _⟩ | ⟨_, n₀, hbefore, hcancelled⟩
    · exact absurd heq hne
    · have hunused := h.unused hbefore hne
      refine ⟨hunused.operation, hcancelled.trans hunused.live, hunused.idle, ?_⟩
      rcases hunused.empty with ⟨k, hk, hempty⟩
      exact ⟨k, (consumer?_move h.lodged here hstep hbefore hne hunused.isStopped).trans hk, hempty⟩
  · rw [step?_of_unused (h.unused here hmover) h.lodged.ephemeral.isOpen] at hstep
    cases hstep

theorem inService_turn (h : InService m adapters place arrived done due f) {mover : Place}
    {n : Node} {p : Pipeline} (here : f.At mover n p) :
    InService m adapters place arrived done due
      (Running.put ⟨{ f with turn := f.turn + 1 }, n, { p with turn := f.turn }⟩ mover) := by
  have hframe := frame_turn f n p
  refine ⟨lodged_tick h.lodged (.turn here), ?_, ?_⟩
  · rcases h.works with ⟨n₀, p₀, hat, hwork⟩
    by_cases hmover : place = mover
    · subst hmover
      cases here.left.symm.trans hat.left
      cases here.right.symm.trans hat.right
      exact ⟨_, _, at_put_self here hframe, hwork.congr rfl rfl rfl rfl rfl rfl rfl rfl⟩
    · rcases exists_at_put_of_ne hframe hat hmover here with ⟨n₁, hafter, rfl | ⟨rfl, rfl⟩⟩
      · exact ⟨n₁, p₀, hafter, hwork.congr rfl rfl rfl rfl rfl rfl rfl rfl⟩
      · exact ⟨_, p₀, hafter, hwork.congr rfl rfl rfl rfl rfl rfl rfl rfl⟩
  · intro other n' p' hat hne
    rcases cases_at_put here hframe hat with ⟨rfl, rfl, rfl⟩ | ⟨_, n₀, hbefore, hcancelled⟩
    · have hunused := h.unused here hne
      exact ⟨hunused.operation, hunused.live, hunused.idle, hunused.empty⟩
    · have hunused := h.unused hbefore hne
      exact ⟨hunused.operation, hcancelled.trans hunused.live, hunused.idle, hunused.empty⟩

theorem inService_tick (h : InService m adapters place arrived done due f)
    {log : List (Copy × Outcome)} (htick : Tick f log f') :
    InService m adapters place arrived (done ++ log) due f' := by
  cases htick with
  | move here hstep => exact inService_move h here hstep
  | turn here =>
      rw [List.append_nil]
      exact inService_turn h here
  | pass still later due =>
      rcases h.works with ⟨n, p, hat, hwork⟩
      rw [List.append_nil]
      refine ⟨lodged_tick h.lodged (.pass still later due), ⟨n, p, hat, ?_⟩, ?_⟩
      · exact atWork_pass (still hat) hwork later fun t ht => due hat ht
      · intro other n' p' hat' hne
        have hunused := h.unused hat' hne
        exact ⟨hunused.operation, hunused.live, hunused.idle, hunused.empty⟩

theorem inService_ticks (h : InService m adapters place arrived done due f)
    {log : List (Copy × Outcome)} (hticks : Ticks f log f') :
    InService m adapters place arrived (done ++ log) due f' := by
  induction hticks with
  | none =>
      rw [List.append_nil]
      exact h
  | more _ tick ih =>
      rw [← List.append_assoc]
      exact inService_tick ih tick

theorem inService_publish (h : InService m adapters place arrived done due f) {p : Parcel}
    (hothers : ∀ op, op ≠ m.operation → topicMatches op.bindingPattern p.subject = false) :
    ∃ due', InService m adapters place
      (arrived ++ if topicMatches m.operation.bindingPattern p.subject then [p] else []) done due'
      { f with broker := f.broker.publish p } := by
  have hsound := h.lodged.ephemeral.sound
  rcases h.works with ⟨n, q, hat, hwork⟩
  have hop : q.operation = m.operation := congrArg Means.operation hwork.means
  rcases Bus.Broker.consumer?_publish hsound (h.lodged.serves hat hwork.isStopped) p with
    ⟨k, serial, hk, hafter⟩
  rw [hop] at hafter
  have harrive := atWork_arrive hwork hk hafter (by rw [Bus.Broker.publish_eq])
  have hparcels : (if topicMatches m.operation.bindingPattern p.subject then
        [(⟨serial, p⟩ : Copy)] else []).map Copy.parcel =
      if topicMatches m.operation.bindingPattern p.subject then [p] else [] := by
    split <;> rfl
  rw [hparcels] at harrive
  refine ⟨_, lodged_publish h.lodged p, ⟨n, q, hat, harrive⟩, ?_⟩
  intro other n' q' hat' hne
  have hunused := h.unused hat' hne
  refine ⟨hunused.operation, hunused.live, hunused.idle, ?_⟩
  rcases hunused.empty with ⟨k', hk', hempty⟩
  rcases Bus.Broker.consumer?_publish hsound (h.lodged.serves hat' hunused.isStopped) p with
    ⟨k'', _, hk'', hsame⟩
  cases hk'.symm.trans hk''
  rw [hothers _ hunused.operation] at hsame
  exact ⟨_, hsame, by simp [hempty]⟩

end Tick

/-!
## Launching a dispatcher
-/

theorem empty_subscribeAll (exchange instanceId : String) (ops : List Operation) {b : Broker}
    (hb : b.Sound) (hstock : b.stock = []) (before : List Pipeline) :
    (subscribeAll exchange instanceId ops b before).2.1.stock = [] ∧
      (subscribeAll exchange instanceId ops b before).2.1.settled = b.settled := by
  induction ops generalizing b before with
  | nil => exact ⟨hstock, rfl⟩
  | cons op rest ih =>
      unfold subscribeAll
      rcases b.subscribe_cases (subscriptionOf exchange instanceId op) with
        ⟨e, herror⟩ | ⟨_, _, hsubscribe⟩
      · rw [herror]
        exact ⟨hstock, rfl⟩
      · rw [hsubscribe]
        have hjoined := Bus.Broker.stock_joined hb (subscriptionOf exchange instanceId op)
        rw [hstock, List.perm_nil] at hjoined
        exact ih (Bus.Broker.sound_joined hb _) hjoined _

/-- A fleet with one dispatcher, which has done nothing yet. -/
structure Launched (f₀ : Fleet) (node : Node) (f : Fleet) : Prop where
  counted : f.counted = f₀.counted
  means : ∀ op, node.means f op = node.means f₀ op
  nodes : ∃ pipelines, f.nodes = [{ node with pipelines := pipelines }]
  operations : ∀ n ∈ f.nodes, n.pipelines.map Pipeline.operation = Operation.all
  idle : ∀ n ∈ f.nodes, ∀ p ∈ n.pipelines, p.state = .idle
  stock : f.broker.stock = []
  settled : f.broker.settled = []

theorem launched_start {f₀ : Fleet} (hnew : f₀.IsNew) {exchange : String}
    (hexchange : Text.isBlank exchange = false) (instanceId : String) (node : Node) :
    (f₀.start exchange instanceId node).1 = none ∧
      Launched f₀ node (f₀.start exchange instanceId node).2 := by
  have hfirst : ∀ op ∈ Operation.all, f₀.broker.queue? (op.queueName instanceId) = none := by
    intro op _
    rw [hnew.broker]
    rfl
  have hlodged := lodged_of_isNew hnew
  have hempty := empty_subscribeAll exchange instanceId Operation.all hlodged.ephemeral.sound
    (by rw [hnew.broker]; rfl) []
  rcases joins_subscribeAll hexchange instanceId (by decide) hlodged.ephemeral.sound hfirst [] with
    ⟨b, pipelines, hall, hjoins⟩
  rcases boards_subscribeAll exchange instanceId Operation.all hlodged.ephemeral [] with
    ⟨e, b', pipelines', hall', hboards⟩
  cases hall.symm.trans hall'
  have hops : pipelines.map Pipeline.operation = Operation.all := by
    have hmap := congrArg (List.map Prod.fst) hjoins.queues
    simpa [List.map_map, Function.comp_def] using hmap
  have hsettled : f₀.broker.settled = [] := by rw [hnew.broker]
  rw [hall, hsettled] at hempty
  unfold start
  rw [hall]
  simp only [hnew.nodes, List.map_nil, List.nil_append, true_and]
  exact ⟨rfl, fun _ => rfl, ⟨pipelines, rfl⟩, List.forall_mem_singleton.mpr hops,
    List.forall_mem_singleton.mpr hboards.idle, hempty.left, hempty.right⟩

section Launched

variable {f₀ f : Fleet} {node : Node} (h : Launched f₀ node f) (hlodged : f.Lodged)
include h

theorem node_launched {place : Place} {n : Node} {p : Pipeline} (hat : f.At place n p) :
    place.node = 0 ∧ ∃ pipelines, n = { node with pipelines := pipelines } := by
  rcases h.nodes with ⟨pipelines, hnodes⟩
  have hn := hat.left
  rw [hnodes] at hn
  rcases List.getElem?_eq_some_iff.mp hn with ⟨hlength, hsame⟩
  have hzero : place.node = 0 := Nat.lt_one_iff.mp hlength
  simp only [hzero, List.getElem_cons_zero] at hsame
  exact ⟨hzero, pipelines, hsame.symm⟩

theorem idle_launched {place : Place} {n : Node} {p : Pipeline} (hat : f.At place n p) :
    p.state = .idle :=
  h.idle n (List.mem_of_getElem? hat.left) p (List.mem_of_getElem? hat.right)

theorem operation_launched {place : Place} {n : Node} {p : Pipeline} (hat : f.At place n p) :
    Operation.all[place.pipeline]? = some p.operation := by
  rw [← h.operations n (List.mem_of_getElem? hat.left), List.getElem?_map, hat.right]
  rfl

theorem exists_at_launched (op : Operation) : ∃ place n p, f.At place n p ∧ p.operation = op := by
  have hmem : op ∈ Operation.all := by cases op <;> decide
  rcases h.nodes with ⟨pipelines, hnodes⟩
  have hn : f.nodes[0]? = some { node with pipelines := pipelines } := by rw [hnodes]; rfl
  rw [← h.operations _ (List.mem_of_getElem? hn)] at hmem
  rcases List.mem_map.mp hmem with ⟨p, hp, hop⟩
  rcases List.getElem?_of_mem hp with ⟨j, hj⟩
  exact ⟨⟨0, j⟩, _, p, ⟨hn, hj⟩, hop⟩

include hlodged

theorem empty_launched {place : Place} {n : Node} {p : Pipeline} (hat : f.At place n p) :
    ∃ k, f.broker.consumer? p.source = some k ∧ k.buffer = [] := by
  have hruns : p.isStopped = false := by rw [Pipeline.isStopped, idle_launched h hat]
  exact Bus.Broker.buffer_of_stock_nil hlodged.ephemeral.sound h.stock (hlodged.serves hat hruns)

theorem inService_launched (hcounted : f₀.counted = []) (hlive : node.cancelled = false)
    (op : Operation) :
    ∃ place due, InService (node.means f₀ op) node.adapters place [] [] due f := by
  rcases exists_at_launched h op with ⟨place, n, p, hat, rfl⟩
  refine ⟨place, 0, hlodged, ⟨n, p, hat, ?_⟩, ?_⟩
  · rcases empty_launched h hlodged hat with ⟨k, hk, hempty⟩
    have hnone : parcelsIn k = [] := List.map_eq_nil_iff.mpr hempty
    have hidle := idle_launched h hat
    rcases node_launched h hat with ⟨_, pipelines, rfl⟩
    refine ⟨⟨h.means p.operation, hlive, fun before e after hsplit => ?_, h.settled,
      h.counted.trans hcounted⟩, k, [], node.adapters, f.now, hk, .free hidle rfl, hnone.symm,
      fun hne => absurd hnone hne⟩
    cases before <;> cases hsplit
  · intro other n' p' hat' hne
    rcases node_launched h hat with ⟨hzero, _⟩
    rcases node_launched h hat' with ⟨hzero', pipelines, rfl⟩
    refine ⟨?_, hlive, idle_launched h hat', empty_launched h hlodged hat'⟩
    intro hop
    have hindex := operation_launched h hat
    have hindex' := operation_launched h hat'
    rcases List.getElem?_eq_some_iff.mp hindex with ⟨hlength, _⟩
    have hpipeline := (List.getElem?_inj hlength (by decide)).mp
      (hindex.trans ((congrArg some hop).symm.trans hindex'.symm))
    exact hne (place_ext (hzero'.trans hzero.symm) hpipeline.symm)

end Launched

/-!
## Serving
-/

/--
A dispatcher is launched, and what is published is for no operation but one: with what has
arrived for this operation, and the deliveries settled so far with their outcomes.
-/
inductive Serving (f₀ : Fleet) (exchange instanceId : String) (node : Node) (op : Operation) :
    List Parcel → List (Copy × Outcome) → Fleet → Prop where
  | launched : Serving f₀ exchange instanceId node op [] [] (f₀.start exchange instanceId node).2
  | published {arrived : List Parcel} {done : List (Copy × Outcome)} {f : Fleet}
      (serving : Serving f₀ exchange instanceId node op arrived done f) (p : Parcel)
      (others : ∀ other, other ≠ op → topicMatches other.bindingPattern p.subject = false) :
      Serving f₀ exchange instanceId node op
        (arrived ++ if topicMatches op.bindingPattern p.subject then [p] else []) done
        { f with broker := f.broker.publish p }
  | ticked {arrived : List Parcel} {done log : List (Copy × Outcome)} {f f' : Fleet}
      (serving : Serving f₀ exchange instanceId node op arrived done f) (tick : Tick f log f') :
      Serving f₀ exchange instanceId node op arrived (done ++ log) f'

/-- The moments of settling: the outcome is counted, the letter is sent, the delivery is settled. -/
def settlingMoments (r : Running) (c : Copy) (d : Bus.Delivery) (o : Outcome) : List Fleet :=
  let counted := { r.fleet with counted := (r.pipeline.operation, o.label) :: r.fleet.counted }
  let (_, lettered) := sendLetter counted r.node.sink r.pipeline.operation d o
  [counted, lettered, (settle r c d o).fleet]

theorem counted_settlingMoments (r : Running) (c : Copy) (d : Bus.Delivery) (o : Outcome) :
    ∀ g ∈ settlingMoments r c d o,
      g.counted = (r.pipeline.operation, o.label) :: r.fleet.counted := by
  have hletter := sendLetter_frame
    { r.fleet with counted := (r.pipeline.operation, o.label) :: r.fleet.counted }
    r.node.sink r.pipeline.operation d o
  simp only [settlingMoments, List.forall_mem_cons]
  refine ⟨trivial, ?_, (settle_frame r c d o).left, nofun⟩
  rw [hletter]

section Serving

variable {f₀ : Fleet} {exchange instanceId : String} {node : Node} {op : Operation}
  {arrived : List Parcel} {done : List (Copy × Outcome)} {f : Fleet}

theorem serving_of_ticks {log : List (Copy × Outcome)} {f' : Fleet}
    (h : Serving f₀ exchange instanceId node op arrived done f) (hticks : Ticks f log f') :
    Serving f₀ exchange instanceId node op arrived (done ++ log) f' := by
  induction hticks with
  | none =>
      rw [List.append_nil]
      exact h
  | more _ tick ih =>
      rw [← List.append_assoc]
      exact .ticked ih tick

theorem inService_of_serving (hnew : f₀.IsNew) (hcounted : f₀.counted = [])
    (hexchange : Text.isBlank exchange = false) (hlive : node.cancelled = false)
    (h : Serving f₀ exchange instanceId node op arrived done f) :
    ∃ place due, InService (node.means f₀ op) node.adapters place arrived done due f := by
  induction h with
  | launched =>
      have hlaunched := launched_start hnew hexchange instanceId node
      have hlodged := lodged_start (lodged_of_isNew hnew) exchange instanceId node
      exact inService_launched hlaunched.right hlodged hcounted hlive op
  | published _ p others ih =>
      rcases ih with ⟨place, due, hservice⟩
      rcases inService_publish hservice others with ⟨due', hafter⟩
      exact ⟨place, due', hafter⟩
  | ticked _ tick ih =>
      rcases ih with ⟨place, due, hservice⟩
      exact ⟨place, due, inService_tick hservice tick⟩

/-- When nothing goes on before a time that is later than all is due, all is done. -/
theorem InService.arrived_eq {m : Means} {adapters : List Adapter} {place : Place} {due : Nat}
    (h : InService m adapters place arrived done due f) {time : Nat} (hquiet : f.Quiet time)
    (hpast : due < time) : arrived = parcelsOf done := by
  rcases h.works with ⟨n, p, hat, hwork⟩
  exact Fleet.arrived_eq (hquiet.still hat) hwork hpast fun t ht => hquiet.due hat ht

theorem InService.soon {m : Means} {adapters : List Adapter} {place : Place} {due : Nat}
    (h : InService m adapters place arrived done due f) :
    InService m adapters place arrived done (f.now + m.spentOn arrived adapters) f := by
  rcases h.works with ⟨n, p, hat, hwork⟩
  exact ⟨h.lodged, ⟨n, p, hat, hwork.soon⟩, h.unused⟩

end Serving

/--
What arrived for an operation was settled, or is in hand, or waits, in this order. Each outcome is
that of the delivery alone with the adapters that the earlier ones left; these are the adapters
when nothing is in hand. The outcomes counted for the operation are as many as the deliveries
settled, with the one that is being settled. In so much time as it takes to handle what has
arrived, all of it is settled.
-/
structure InTurn (f₀ : Fleet) (exchange instanceId : String) (node : Node) (op : Operation)
    (arrived : List Parcel) (done : List (Copy × Outcome)) (f : Fleet) : Prop where
  order : ∃ place n p k, f.At place n p ∧ p.operation = op ∧
    f.broker.consumer? p.source = some k ∧ arrived = parcelsOf done ++ p.inHand ++ parcelsIn k ∧
    f.broker.settled = done.map ((node.means f₀ op).entry p.source.queue) ∧
    (p.state = .idle → n.adapters = (node.means f₀ op).leftBy (parcelsOf done) node.adapters)
  alone : (node.means f₀ op).Alone node.adapters done
  counted : f.counted.countP (fun e => e.1 = op) = done.length
  settling : ∀ {place n p c o}, f.At place n p → p.operation = op →
    (c, o) ∈ concluded ⟨f, n, p⟩ → ∃ b d,
      step? ⟨f, n, p⟩ = some (settle ⟨{ f with broker := b }, n, p⟩ c d o) ∧
        ∀ g ∈ settlingMoments ⟨{ f with broker := b }, n, p⟩ c d o,
          g.counted.countP (fun e => e.1 = op) = done.length + 1
  finishes : ∀ {ms}, (node.means f₀ op).spentOn arrived node.adapters < ms → ∃ log,
    Serving f₀ exchange instanceId node op arrived (done ++ log) (f.sleep ms) ∧
      parcelsOf (done ++ log) = arrived

/-- A pipeline settles deliveries as they arrive, one at a time, as if each were alone. -/
theorem inTurn_of_serving {f₀ : Fleet} (hnew : f₀.IsNew) (hcounted : f₀.counted = [])
    {exchange : String} (hexchange : Text.isBlank exchange = false) {instanceId : String}
    {node : Node} (hlive : node.cancelled = false) {op : Operation} {arrived : List Parcel}
    {done : List (Copy × Outcome)} {f : Fleet}
    (h : Serving f₀ exchange instanceId node op arrived done f) :
    InTurn f₀ exchange instanceId node op arrived done f := by
  rcases inService_of_serving hnew hcounted hexchange hlive h with ⟨place, due, hservice⟩
  rcases hservice.works with ⟨n, p, hat, hwork⟩
  have hop : p.operation = op := congrArg Means.operation hwork.means
  have hcount : f.counted.countP (fun e => e.1 = op) = done.length :=
    hwork.toLedger.countP_counted
  constructor
  · rcases hwork.inLine with ⟨k, hand, after, free, hk, hhand, harrived, _⟩
    refine ⟨place, n, p, k, hat, hop, hk, ?_, hwork.settled, hhand.adapters_eq⟩
    rw [harrived, hhand.eq_inHand]
  · exact hwork.alone
  · exact hcount
  · intro place n p c o _ hop' hmem
    rcases exists_settle_of_concluded hmem with ⟨b, d, hstep⟩
    refine ⟨b, d, hstep, ?_⟩
    intro g hg
    rw [counted_settlingMoments _ c d o g hg, List.countP_cons_of_pos (by simp [hop']), hcount]
  · intro ms hms
    have hsoon := hservice.soon
    rcases exists_quiet_sleep hservice.lodged.held (fit_of_lodged hservice.lodged)
      (Nat.zero_lt_of_lt hms) with ⟨log, f', hticks, hquiet, hsleep⟩
    have hafter := inService_ticks hsoon hticks
    have hserving := (serving_of_ticks h hticks).ticked hquiet.tick
    rw [List.append_nil, ← hsleep] at hserving
    exact ⟨log, hserving, (hafter.arrived_eq hquiet (Nat.add_lt_add_left hms _)).symm⟩

def unluckyNode : Node where
  name := some "n"
  registry := plainRegistry
  adapters := [{ script := [.namedPanic] }]
  settings := { maxRetries := 1, panicPolicy := .redeliverOnPanic }
  sink := .broken

def plainParcel : Parcel :=
  ⟨plainDelivery.subject, plainDelivery.metadata, plainDelivery.payload⟩

/-- Two commands arrive, and both are settled in time. -/
theorem inTurn_plainParcel : ∃ done f,
    Serving {} "im_message.events" "n" unluckyNode .sendText [plainParcel, plainParcel] done f ∧
      parcelsOf done = [plainParcel, plainParcel] ∧
      InTurn {} "im_message.events" "n" unluckyNode .sendText [plainParcel, plainParcel] done
        f := by
  have hothers : ∀ other, other ≠ Operation.sendText →
      topicMatches other.bindingPattern plainParcel.subject = false := by
    intro other hne
    cases other with
    | sendText => exact absurd rfl hne
    | sendImage => decide
    | sendDocument => decide
  have hfirst := @Serving.launched {} "im_message.events" "n" unluckyNode .sendText
  have hboth := (hfirst.published plainParcel hothers).published plainParcel hothers
  have hturn := inTurn_of_serving FanOut.isNew_empty rfl (by decide) rfl hboth
  rcases hturn.finishes (Nat.lt_succ_self _) with ⟨done, hserving, hall⟩
  exact ⟨_, _, hserving, hall, inTurn_of_serving FanOut.isNew_empty rfl (by decide) rfl hserving⟩

end Fleet
end Dispatch
end Courier
