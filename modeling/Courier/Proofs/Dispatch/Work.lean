import Courier.Proofs.Dispatch.Endings
import Courier.Proofs.Dispatch.Ticks

/-!
# A pipeline at work

What has arrived for a pipeline was settled, or the pipeline has it in hand, or it waits in the
pipeline's stream: in this order. The pipeline's moves, and the time that passes while it waits,
make no difference to what comes of the deliveries, nor to when it will be done with them all:
`atWork_step` and `atWork_pass`.
-/

namespace Courier
namespace Dispatch

open Bus (Broker ConsumerRef Copy Parcel)
open Provider (Adapter)

def Node.means (n : Node) (f : Fleet) (op : Operation) : Means where
  registry := n.registry
  settings := n.settings
  sink := n.sink
  operation := op
  freshId := f.freshId
  timeText := f.timeText
  clock := f.clock

/-- How a delivery is settled after its outcome, accounted for if the sink takes letters. -/
def Means.entry (m : Means) (queue : String) (e : Copy × Outcome) : Bus.Settled :=
  ⟨queue, e.1.parcel.subject, e.2.settlement (decide (m.sink = .bus))⟩

def Pipeline.inHand (p : Pipeline) : List Parcel :=
  match p.state with
  | .handling h => [h.copy.parcel]
  | _ => []

namespace Fleet

def Running.means (r : Running) : Means :=
  r.node.means r.fleet r.pipeline.operation

/-!
## Settling, and nothing put back
-/

theorem settled_sendLetter (f : Fleet) (sink : Sink) (op : Operation) (d : Bus.Delivery)
    (o : Outcome) : (sendLetter f sink op d o).2.broker.settled = f.broker.settled ∧
      (sendLetter f sink op d o).2.broker.closed = f.broker.closed := by
  unfold sendLetter
  split
  · simp [Bus.Broker.publish_eq]
  · exact ⟨rfl, rfl⟩

theorem consumer?_sendLetter {f : Fleet} (hb : f.broker.Sound) {ref : ConsumerRef}
    (hpasses : f.broker.Passes IsLetter ref.queue) (sink : Sink) (op : Operation)
    (d : Bus.Delivery) (o : Outcome) :
    (sendLetter f sink op d o).2.broker.consumer? ref = f.broker.consumer? ref := by
  unfold sendLetter
  split
  · exact Bus.Broker.consumer?_publish_of_passes hb ⟨op, rfl⟩ hpasses
  · rfl

theorem settlement_sendLetter (f : Fleet) (sink : Sink) (op : Operation) (d : Bus.Delivery)
    (o : Outcome) : o.settlement (sendLetter f sink op d o).1 =
      o.settlement (decide (sink = .bus)) := by
  unfold sendLetter
  cases sink with
  | broken => cases o.deadLetter? op f.timeText d <;> rfl
  | bus =>
      cases o with
      | handled provider attempts => rfl
      | skipped why => rfl
      | failed provider failure attempts => cases failure <;> rfl

section Settle

variable {r : Running} (hb : r.fleet.broker.Sound) (hopen : r.fleet.broker.closed = false)
  (hpasses : r.fleet.broker.Passes IsLetter r.pipeline.source.queue) (c : Copy)
  (d : Bus.Delivery) {o : Outcome} (ho : ∀ taken, o.settlement taken ≠ .nack true)
include hopen ho

theorem broker_settle_of_lasting : (settle r c d o).fleet.broker =
    { (sendLetter { r.fleet with counted := (r.pipeline.operation, o.label) :: r.fleet.counted }
        r.node.sink r.pipeline.operation d o).2.broker with
      settled := r.fleet.broker.settled ++ [r.means.entry r.pipeline.source.queue (c, o)] } := by
  have hletter := settled_sendLetter
    { r.fleet with counted := (r.pipeline.operation, o.label) :: r.fleet.counted }
    r.node.sink r.pipeline.operation d o
  unfold settle
  simp only
  rw [settlement_sendLetter, Bus.Broker.settle_of_not_requeue (hletter.right.trans hopen)
    (.inl (ho _)), hletter.left]
  rfl

include hb hpasses in
theorem settle_of_lasting :
    (settle r c d o).fleet.broker.consumer? r.pipeline.source =
        r.fleet.broker.consumer? r.pipeline.source ∧
      (settle r c d o).fleet.broker.settled =
        r.fleet.broker.settled ++ [r.means.entry r.pipeline.source.queue (c, o)] := by
  rw [broker_settle_of_lasting hopen c d ho]
  refine ⟨?_, rfl⟩
  exact consumer?_sendLetter (f := { r.fleet with
    counted := (r.pipeline.operation, o.label) :: r.fleet.counted }) hb hpasses _ _ _ _

end Settle

theorem settle_frame (r : Running) (c : Copy) (d : Bus.Delivery) (o : Outcome) :
    (settle r c d o).fleet.counted = (r.pipeline.operation, o.label) :: r.fleet.counted ∧
      (settle r c d o).fleet.now = r.fleet.now ∧ (settle r c d o).means = r.means := by
  rw [done_settlingOf]
  exact ⟨rfl, rfl, rfl⟩

/-!
## In turn
-/

/-- What a pipeline has in hand, the adapters that it will leave, and when it will be free. -/
inductive Hand (m : Means) (left : List Adapter) (r : Running) :
    List Parcel → List Adapter → Nat → Prop where
  | free (idle : r.pipeline.state = .idle) (adapters : r.node.adapters = left) :
      Hand m left r [] left r.fleet.now
  | busy {h : InHand} {t : Nat} (state : r.pipeline.state = .handling h)
      (ends : Stage.Ends m.settings sendByScript h.job r.fleet.now r.node.adapters h.stage
        (m.handle h.copy.parcel left).outcome (m.handle h.copy.parcel left).adapters t)
      (soon : t ≤ r.fleet.now + (m.handle h.copy.parcel left).elapsed) :
      Hand m left r [h.copy.parcel] (m.handle h.copy.parcel left).adapters t

theorem Hand.le {m : Means} {left after : List Adapter} {r : Running} {hand : List Parcel}
    {free : Nat} (h : Hand m left r hand after free) :
    free ≤ r.fleet.now + m.spentOn hand left ∧ after = m.leftBy hand left := by
  cases h with
  | free _ _ => exact ⟨Nat.le_refl _, rfl⟩
  | busy _ _ soon => exact ⟨soon, rfl⟩

theorem Hand.eq_inHand {m : Means} {left after : List Adapter} {r : Running} {hand : List Parcel}
    {free : Nat} (h : Hand m left r hand after free) : hand = r.pipeline.inHand := by
  cases h with
  | free idle _ => simp only [Pipeline.inHand, idle]
  | busy state _ _ => simp only [Pipeline.inHand, state]

theorem Hand.adapters_eq {m : Means} {left after : List Adapter} {r : Running}
    {hand : List Parcel} {free : Nat} (h : Hand m left r hand after free)
    (hidle : r.pipeline.state = .idle) : r.node.adapters = left := by
  cases h with
  | free _ adapters => exact adapters
  | busy state _ _ =>
      rw [hidle] at state
      cases state

def parcelsIn (k : Bus.Consumer) : List Parcel :=
  k.buffer.map Copy.parcel

/-- What arrived for a pipeline stands in line, and the pipeline will be done with it by a time. -/
def InLine (m : Means) (adapters : List Adapter) (arrived settled : List Parcel) (due : Nat)
    (r : Running) : Prop :=
  ∃ k hand after free, r.fleet.broker.consumer? r.pipeline.source = some k ∧
    Hand m (m.leftBy settled adapters) r hand after free ∧
    arrived = settled ++ hand ++ parcelsIn k ∧
    (hand ++ parcelsIn k ≠ [] → free + m.spentOn (parcelsIn k) after ≤ due)

/-- What a pipeline has settled and counted, each delivery as it would be alone. -/
structure Ledger (m : Means) (adapters : List Adapter) (done : List (Copy × Outcome))
    (r : Running) : Prop where
  means : r.means = m
  live : r.node.cancelled = false
  alone : m.Alone adapters done
  settled : r.fleet.broker.settled = done.map (m.entry r.pipeline.source.queue)
  counted : r.fleet.counted = (done.map fun e => (m.operation, e.2.label)).reverse

structure AtWork (m : Means) (adapters : List Adapter) (arrived : List Parcel)
    (done : List (Copy × Outcome)) (due : Nat) (r : Running) : Prop extends
    Ledger m adapters done r where
  inLine : InLine m adapters arrived (parcelsOf done) due r

section AtWork

variable {m : Means} {adapters : List Adapter} {arrived : List Parcel}
  {done : List (Copy × Outcome)} {due : Nat} {r r' : Running}

theorem Ledger.congr (h : Ledger m adapters done r) (hmeans : r'.means = r.means)
    (hlive : r'.node.cancelled = r.node.cancelled)
    (hsettled : r'.fleet.broker.settled = r.fleet.broker.settled)
    (hcounted : r'.fleet.counted = r.fleet.counted)
    (hsource : r'.pipeline.source = r.pipeline.source) : Ledger m adapters done r' where
  means := hmeans.trans h.means
  live := hlive.trans h.live
  alone := h.alone
  settled := by
    rw [hsettled, hsource]
    exact h.settled
  counted := hcounted.trans h.counted

theorem Ledger.countP_counted (h : Ledger m adapters done r) :
    r.fleet.counted.countP (fun e => e.1 = m.operation) = done.length := by
  have hall : ∀ e ∈ r.fleet.counted, e.1 = m.operation := by
    intro e he
    rw [h.counted, List.mem_reverse] at he
    rcases List.mem_map.mp he with ⟨_, _, rfl⟩
    rfl
  rw [List.countP_eq_length.mpr fun e he => decide_eq_true (hall e he), h.counted,
    List.length_reverse, List.length_map]

theorem AtWork.isStopped (h : AtWork m adapters arrived done due r) :
    r.pipeline.isStopped = false := by
  rcases h.inLine with ⟨_, _, _, _, _, hhand, _, _⟩
  cases hhand with
  | free idle _ => rw [Pipeline.isStopped, idle]
  | busy state _ _ => rw [Pipeline.isStopped, state]

theorem AtWork.congr (h : AtWork m adapters arrived done due r) (hmeans : r'.means = r.means)
    (hlive : r'.node.cancelled = r.node.cancelled) (hadapters : r'.node.adapters = r.node.adapters)
    (hbroker : r'.fleet.broker = r.fleet.broker) (hcounted : r'.fleet.counted = r.fleet.counted)
    (hnow : r'.fleet.now = r.fleet.now) (hsource : r'.pipeline.source = r.pipeline.source)
    (hstate : r'.pipeline.state = r.pipeline.state) : AtWork m adapters arrived done due r' := by
  rcases h.inLine with ⟨k, hand, after, free, hk, hhand, harrived, hdue⟩
  refine ⟨h.toLedger.congr hmeans hlive (by rw [hbroker]) hcounted hsource, k, hand, after, free,
    ?_, ?_, harrived, hdue⟩
  · rw [hbroker, hsource]
    exact hk
  · cases hhand with
    | free idle adapters =>
        rw [← hnow]
        exact .free (hstate.trans idle) (hadapters.trans adapters)
    | busy state ends soon =>
        rw [← hnow, ← hadapters] at ends
        rw [← hnow] at soon
        exact .busy (hstate.trans state) ends soon

/-!
## Moves
-/

theorem step?_of_handling {inHand : InHand} (hstate : r.pipeline.state = .handling inHand)
    (hopen : ∀ o, inHand.stage ≠ .finished o) :
    step? r = (Stage.step? r.node.settings sendByScript inHand.job r.fleet.now r.node.cancelled
        r.node.adapters inHand.stage).map (fun next =>
          { r with
            node := { r.node with adapters := next.2 }
            pipeline := { r.pipeline with state := .handling { inHand with stage := next.1 } } }) ∧
      concluded r = [] := by
  cases hstage : inHand.stage with
  | finished o => exact absurd hstage (hopen o)
  | ready attempt => simp only [step?, concluded, hstate, hstage, and_self]
  | sending attempt since answer => simp only [step?, concluded, hstate, hstage, and_self]
  | pausing attempt resumeAt => simp only [step?, concluded, hstate, hstage, and_self]

section Move

variable (hb : r.fleet.broker.Sound) (hopen : r.fleet.broker.closed = false)
  (hpasses : r.fleet.broker.Passes IsLetter r.pipeline.source.queue)
include hb hopen hpasses

theorem atWork_settle (h : Ledger m adapters done r) {k : Bus.Consumer}
    (hk : r.fleet.broker.consumer? r.pipeline.source = some k) {c : Copy}
    (harrived : arrived = parcelsOf done ++ c.parcel :: parcelsIn k)
    (hadapters : r.node.adapters =
      (m.handle c.parcel (m.leftBy (parcelsOf done) adapters)).adapters)
    (hdue : r.fleet.now + m.spentOn (parcelsIn k) r.node.adapters ≤ due) (d : Bus.Delivery)
    {o : Outcome} (ho : o = (m.handle c.parcel (m.leftBy (parcelsOf done) adapters)).outcome) :
    AtWork m adapters arrived (done ++ [(c, o)]) due (settle r c d o) := by
  have hlasting : ∀ taken, o.settlement taken ≠ .nack true := by
    intro taken
    rw [ho]
    exact settlement_handle_ne _ _ _ taken
  rcases settle_of_lasting hb hopen hpasses c d hlasting with ⟨hconsumer, hentry⟩
  rcases settle_frame r c d o with ⟨hcount, hnow, hsame⟩
  have hparcels : parcelsOf (done ++ [(c, o)]) = parcelsOf done ++ [c.parcel] := List.map_append
  have hop : r.pipeline.operation = m.operation := congrArg Means.operation h.means
  have hleft : m.leftBy (parcelsOf (done ++ [(c, o)])) adapters = r.node.adapters := by
    rw [hparcels, Means.leftBy_append, hadapters]
    rfl
  refine ⟨⟨hsame.trans h.means, h.live, h.alone.snoc ho, ?_, ?_⟩, k, [], r.node.adapters,
    r.fleet.now, hconsumer.trans hk, ?_, ?_, fun _ => hdue⟩
  · rw [hentry, h.settled, h.means, List.map_append, List.map_singleton]
    rfl
  · rw [hcount, h.counted, hop, List.map_append, List.reverse_append]
    rfl
  · rw [hleft, ← hnow]
    exact .free rfl rfl
  · rw [hparcels, List.append_nil, List.append_assoc]
    exact harrived

theorem atWork_begin (h : Ledger m adapters done r)
    (hadapters : r.node.adapters = m.leftBy (parcelsOf done) adapters) {k : Bus.Consumer}
    (hk : r.fleet.broker.consumer? r.pipeline.source = some k) {c : Copy}
    (harrived : arrived = parcelsOf done ++ c.parcel :: parcelsIn k)
    (hdue : r.fleet.now + m.spentOn (c.parcel :: parcelsIn k) r.node.adapters ≤ due) :
    AtWork m adapters arrived (done ++
      match jobOf r.node.registry r.fleet.clock r.pipeline.operation
        (.ofParcel r.fleet.freshId c.parcel) with
      | .error why => [(c, .skipped why)]
      | .ok _ => []) due (begin r c) := by
  obtain rfl := h.means
  unfold begin
  simp only
  cases hjob : jobOf r.node.registry r.fleet.clock r.pipeline.operation
      (.ofParcel r.fleet.freshId c.parcel) with
  | error why =>
      have hhandle : r.means.handle c.parcel r.node.adapters =
          ⟨.skipped why, r.node.adapters, 0⟩ :=
        handle_of_error _ _ _ _ _ _ _ _ hjob
      refine atWork_settle hb hopen hpasses h hk harrived ?_ ?_ _ ?_
      · rw [← hadapters, hhandle]
      · simpa [Means.spentOn, hhandle] using hdue
      · rw [← hadapters, hhandle]
  | ok job =>
      rw [List.append_nil]
      have hends : Stage.Ends r.means.settings sendByScript job r.fleet.now r.node.adapters
          (.ready 1) (r.means.handle c.parcel r.node.adapters).outcome
          (r.means.handle c.parcel r.node.adapters).adapters
          (r.fleet.now + (r.means.handle c.parcel r.node.adapters).elapsed) :=
        ends_handle r.node.settings sendByScript r.node.adapters hjob r.fleet.now
      refine ⟨h.congr rfl rfl rfl rfl rfl, k, [c.parcel],
        (r.means.handle c.parcel r.node.adapters).adapters,
        r.fleet.now + (r.means.handle c.parcel r.node.adapters).elapsed, hk, ?_, ?_, fun _ => ?_⟩
      · rw [← hadapters]
        exact .busy (h := ⟨c, _, job, .ready 1⟩) rfl hends (Nat.le_refl _)
      · rw [List.append_assoc]
        exact harrived
      · rw [Nat.add_assoc]
        exact hdue

theorem atWork_take (h : AtWork m adapters arrived done due r) (hidle : r.pipeline.state = .idle)
    (hstep : step? r = some r') : AtWork m adapters arrived (done ++ concluded r) due r' := by
  rcases h.inLine with ⟨k, hand, after, free, hk, hhand, harrived, hdue⟩
  cases hhand with
  | busy state _ _ =>
      rw [hidle] at state
      cases state
  | free _ hadapters =>
      simp only [step?, concluded, hidle, h.live, Bool.false_eq_true, if_false] at hstep ⊢
      rcases htake : r.fleet.broker.take r.pipeline.source with ⟨taken, b⟩
      rw [htake] at hstep
      cases taken with
      | nothing => cases hstep
      | closed => exact absurd (congrArg Prod.fst htake) (take_ne_closed hopen _)
      | copy c =>
          cases hstep
          rcases Bus.Broker.consumer?_take htake with ⟨k', rest, hk', hbuffer, hrest, hsettled⟩
          cases hk.symm.trans hk'
          have htame : Bus.Broker.Tame IsLetter r.pipeline.source.queue r.fleet.broker
              (r.fleet.broker.take r.pipeline.source).2 := Bus.Broker.tame_take hb _
          rw [htake] at htame
          have hsame : parcelsIn k = c.parcel :: parcelsIn { k with buffer := rest } := by
            simp only [parcelsIn, hbuffer, List.map_cons]
          rw [hsame, List.append_nil] at harrived
          rw [hsame] at hdue
          refine atWork_begin (r := { r with fleet := { r.fleet with broker := b } }) htame.sound
            (htame.closed.trans hopen) (htame.passes hpasses)
            (h.toLedger.congr rfl rfl hsettled rfl rfl) hadapters hrest harrived ?_
          rw [hadapters]
          exact hdue (List.cons_ne_nil _ _)

theorem atWork_handling (h : AtWork m adapters arrived done due r) {inHand : InHand}
    (hstate : r.pipeline.state = .handling inHand) (hstep : step? r = some r') :
    AtWork m adapters arrived (done ++ concluded r) due r' := by
  rcases h.inLine with ⟨k, hand, after, free, hk, hhand, harrived, hdue⟩
  cases hhand with
  | free idle _ =>
      rw [hstate] at idle
      cases idle
  | busy state ends soon =>
      cases hstate.symm.trans state
      by_cases hfinished : ∃ o, inHand.stage = .finished o
      · rcases hfinished with ⟨o, hstage⟩
        simp only [step?, concluded, hstate, hstage, Option.some.injEq] at hstep ⊢
        rw [hstage] at ends
        rcases ends.eq_of_finished with ⟨ho, hleft, hfree⟩
        have hall := hdue (List.cons_ne_nil _ _)
        rw [hfree, hleft] at hall
        rw [List.append_assoc] at harrived
        rw [← hstep]
        exact atWork_settle hb hopen hpasses h.toLedger hk harrived hleft.symm hall _ ho.symm
      · rcases step?_of_handling hstate (not_exists.mp hfinished) with ⟨hmoves, hnone⟩
        rw [hmoves] at hstep
        rcases Option.map_eq_some_iff.mp hstep with ⟨⟨stage, left⟩, hstage, rfl⟩
        obtain rfl := h.means
        rw [h.live] at hstage
        rw [hnone, List.append_nil]
        exact ⟨h.toLedger.congr rfl rfl rfl rfl rfl, k, _, _, _, hk,
          .busy rfl (ends.step hstage) soon, harrived, hdue⟩

/-- A pipeline's moves do not change what comes of deliveries, nor when it is done with them. -/
theorem atWork_step (h : AtWork m adapters arrived done due r) (hstep : step? r = some r') :
    AtWork m adapters arrived (done ++ concluded r) due r' := by
  cases hstate : r.pipeline.state with
  | stopped => simp [step?, hstate] at hstep
  | idle => exact atWork_take hb hopen hpasses h hstate hstep
  | handling inHand => exact atWork_handling hb hopen hpasses h hstate hstep

end Move

/-!
## Time
-/

theorem lt_readyTime {f : Fleet} {n : Node} {p : Pipeline} (h : ¬ f.Ready n p) {t : Nat}
    (ht : f.readyTime n p = some t) : f.now < t := by
  apply Nat.lt_of_not_le
  intro hle
  rw [Ready, ht] at h
  exact h (decide_eq_true hle)

section Still

variable (hready : ¬ r.fleet.Ready r.node r.pipeline)
include hready

theorem parcelsIn_of_still (hidle : r.pipeline.state = .idle) {k : Bus.Consumer}
    (hk : r.fleet.broker.consumer? r.pipeline.source = some k) : parcelsIn k = [] := by
  cases hbuffer : k.buffer with
  | nil => rw [parcelsIn, hbuffer, List.map_nil]
  | cons c rest =>
      exact absurd (by simp [Ready, readyTime, hidle, hk, hbuffer]) hready

theorem exists_wake (hlive : r.node.cancelled = false) {inHand : InHand}
    (hstate : r.pipeline.state = .handling inHand) :
    ∃ wake, Stage.wakeTime r.node.settings inHand.stage = some wake ∧
      r.fleet.readyTime r.node r.pipeline = some wake := by
  cases hstage : inHand.stage with
  | finished o => exact absurd (by simp [Ready, readyTime, hstate, hstage]) hready
  | ready attempt => exact ⟨_, rfl, by simp only [readyTime, hstate, hstage]; rfl⟩
  | sending attempt since answer => exact ⟨_, rfl, by simp only [readyTime, hstate, hstage]; rfl⟩
  | pausing attempt resumeAt =>
      refine ⟨_, rfl, ?_⟩
      simp only [readyTime, hstate, hstage, hlive, Bool.false_eq_true, if_false]
      rfl

/-- While a pipeline waits time goes on, to the next time at which it goes on at most. -/
theorem atWork_pass (h : AtWork m adapters arrived done due r) {time : Nat}
    (hlater : r.fleet.now ≤ time)
    (hnext : ∀ t, r.fleet.readyTime r.node r.pipeline = some t → time ≤ t) :
    AtWork m adapters arrived done due { r with fleet := { r.fleet with now := time } } := by
  rcases h.inLine with ⟨k, hand, after, free, hk, hhand, harrived, hdue⟩
  refine ⟨h.toLedger.congr rfl rfl rfl rfl rfl, ?_⟩
  cases hhand with
  | free idle hadapters =>
      have hnone := parcelsIn_of_still hready idle hk
      exact ⟨k, [], _, time, hk, .free idle hadapters, harrived, fun hne => absurd hnone hne⟩
  | busy state ends soon =>
      obtain rfl := h.means
      rcases exists_wake hready h.live state with ⟨wake, hwake, htime⟩
      have hends := ends.pass hwake (lt_readyTime hready htime) (hnext wake htime)
      refine ⟨k, _, _, _, hk, .busy state hends ?_, harrived, hdue⟩
      exact Nat.le_trans soon (Nat.add_le_add_right hlater _)

theorem arrived_eq (h : AtWork m adapters arrived done due r) {time : Nat} (hpast : due < time)
    (hnext : ∀ t, r.fleet.readyTime r.node r.pipeline = some t → time ≤ t) :
    arrived = parcelsOf done := by
  rcases h.inLine with ⟨k, hand, after, free, hk, hhand, harrived, hdue⟩
  cases hhand with
  | free idle _ =>
      rw [parcelsIn_of_still hready idle hk, List.append_nil, List.append_nil] at harrived
      exact harrived
  | busy state ends _ =>
      obtain rfl := h.means
      rcases exists_wake hready h.live state with ⟨wake, hwake, htime⟩
      have hend := ends.wake_le hwake
      have hall := hdue (List.cons_ne_nil _ _)
      have hafter := hnext wake htime
      omega

end Still

theorem atWork_arrive (h : AtWork m adapters arrived done due r) {b : Broker} {k : Bus.Consumer}
    {more : List Copy} (hk : r.fleet.broker.consumer? r.pipeline.source = some k)
    (hmore : b.consumer? r.pipeline.source = some { k with buffer := k.buffer ++ more })
    (hsettled : b.settled = r.fleet.broker.settled) :
    AtWork m adapters (arrived ++ more.map Copy.parcel) done
      (r.fleet.now + m.spentOn (arrived ++ more.map Copy.parcel) adapters)
      { r with fleet := { r.fleet with broker := b } } := by
  rcases h.inLine with ⟨k', hand, after, free, hk', hhand, harrived, _⟩
  cases hk.symm.trans hk'
  rcases hhand.le with ⟨hfree, hafter⟩
  have hparcels : parcelsIn { k with buffer := k.buffer ++ more } =
      parcelsIn k ++ more.map Copy.parcel := List.map_append
  refine ⟨h.toLedger.congr rfl rfl hsettled rfl rfl, _, hand, after, free, hmore, ?_, ?_, ?_⟩
  · cases hhand with
    | free idle hadapters => exact .free idle hadapters
    | busy state ends soon => exact .busy state ends soon
  · rw [hparcels, harrived, List.append_assoc _ (parcelsIn k)]
  · intro _
    rw [hparcels, harrived, hafter]
    simp only [Means.spentOn_append, Means.leftBy_append]
    omega

/-- At each time a pipeline is done with all in the time that this takes alone, or before. -/
theorem AtWork.soon (h : AtWork m adapters arrived done due r) :
    AtWork m adapters arrived done (r.fleet.now + m.spentOn arrived adapters) r := by
  rcases h.inLine with ⟨k, _, _, _, hk, _, _, _⟩
  have hsame : r.fleet.broker.consumer? r.pipeline.source =
      some { k with buffer := k.buffer ++ [] } := by rw [List.append_nil]; exact hk
  have harrive := atWork_arrive h hk hsame rfl
  rw [List.map_nil, List.append_nil] at harrive
  exact harrive

end AtWork

end Fleet
end Dispatch
end Courier
