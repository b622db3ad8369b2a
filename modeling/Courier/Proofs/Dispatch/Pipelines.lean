import Courier.Dispatch.Fleet
import Courier.Proofs.Bus.Consumers

/-!
# Moves of pipelines

All that a pipeline's move does to the fleet: it takes, settles and publishes, or it leaves
its queue and stops. The main statement is `moved_step`.
-/

namespace Courier
namespace Dispatch
namespace Fleet

open Bus (Broker Copy)
open Bus.Broker (Steady)

structure Frame (r r' : Running) : Prop where
  nodes : r'.fleet.nodes = r.fleet.nodes
  held : r'.fleet.held = r.fleet.held
  pipelines : r'.node.pipelines = r.node.pipelines
  cancelled : r'.node.cancelled = r.node.cancelled
  operation : r'.pipeline.operation = r.pipeline.operation
  source : r'.pipeline.source = r.pipeline.source

theorem Frame.trans {r r' r'' : Running} (h : Frame r r') (h' : Frame r' r'') : Frame r r'' where
  nodes := h'.nodes.trans h.nodes
  held := h'.held.trans h.held
  pipelines := h'.pipelines.trans h.pipelines
  cancelled := h'.cancelled.trans h.cancelled
  operation := h'.operation.trans h.operation
  source := h'.source.trans h.source

/-- All that a move can come to while the bus is there. -/
inductive Moved (r : Running) : Running → Prop where
  | goes {r' : Running} (frame : Frame r r') (steady : Steady r.fleet.broker r'.fleet.broker)
      (same : r'.pipeline.isStopped = r.pipeline.isStopped) : Moved r r'
  | stops {r' : Running} (frame : Frame r r')
      (broker : r'.fleet.broker = r.fleet.broker.unsubscribe r.pipeline.source)
      (stopped : r'.pipeline.isStopped = true) (cancelled : r.node.cancelled = true) : Moved r r'

theorem Moved.frame {r r' : Running} (h : Moved r r') : Frame r r' := by
  cases h with
  | goes frame steady same => exact frame
  | stops frame broker stopped cancelled => exact frame

theorem sendLetter_spec {f : Fleet} (hb : f.broker.Sound) (sink : Sink) (op : Operation)
    (d : Bus.Delivery) (o : Outcome) :
    (sendLetter f sink op d o).2.nodes = f.nodes ∧ (sendLetter f sink op d o).2.held = f.held ∧
      Steady f.broker (sendLetter f sink op d o).2.broker := by
  unfold sendLetter
  split
  · exact ⟨rfl, rfl, Bus.Broker.steady_publish hb _⟩
  · exact ⟨rfl, rfl, .refl hb⟩

theorem settled_spec {b : Broker} (hb : b.Sound) (queue : String) (p : Bus.Parcel)
    (how : Bus.Settlement) :
    Steady b (match b.settle queue p how with
      | .ok b' => b'
      | .error _ => b) := by
  split
  · next b' hsettle => exact Bus.Broker.steady_settle hb hsettle
  · exact .refl hb

theorem settle_spec {r : Running} (hb : r.fleet.broker.Sound) (copy : Copy) (d : Bus.Delivery)
    (o : Outcome) :
    Frame r (settle r copy d o) ∧ Steady r.fleet.broker (settle r copy d o).fleet.broker ∧
      (settle r copy d o).pipeline.isStopped = false := by
  rcases sendLetter_spec (f := { r.fleet with
    counted := (r.pipeline.operation, o.label) :: r.fleet.counted }) hb r.node.sink
    r.pipeline.operation d o with ⟨hnodes, hheld, hsteady⟩
  exact ⟨⟨hnodes, hheld, rfl, rfl, rfl, rfl⟩,
    hsteady.trans (settled_spec hsteady.sound _ _ _), rfl⟩

theorem begin_spec {r : Running} (hb : r.fleet.broker.Sound) (copy : Copy) :
    Frame r (begin r copy) ∧ Steady r.fleet.broker (begin r copy).fleet.broker ∧
      (begin r copy).pipeline.isStopped = false := by
  unfold begin
  simp only
  split
  · exact settle_spec hb copy _ _
  · exact ⟨⟨rfl, rfl, rfl, rfl, rfl, rfl⟩, .refl hb, rfl⟩

theorem take_ne_closed {b : Broker} (hopen : b.closed = false) (ref : Bus.ConsumerRef) :
    (b.take ref).1 ≠ .closed := by
  unfold Broker.take
  split
  · nofun
  · simp [hopen]

theorem moved_step {r r' : Running} (hb : r.fleet.broker.Sound)
    (hopen : r.fleet.broker.closed = false) (h : step? r = some r') : Moved r r' := by
  unfold step? at h
  cases hstate : r.pipeline.state with
  | stopped => simp [hstate] at h
  | idle =>
      have hrunning : r.pipeline.isStopped = false := by simp [Pipeline.isStopped, hstate]
      cases hcancelled : r.node.cancelled with
      | true =>
          simp only [hstate, hcancelled, if_true, Option.some.injEq] at h
          subst h
          exact .stops ⟨rfl, rfl, rfl, rfl, rfl, rfl⟩ rfl rfl hcancelled
      | false =>
          have hne := take_ne_closed hopen r.pipeline.source
          have hsteady := Bus.Broker.steady_take hb r.pipeline.source
          cases htake : r.fleet.broker.take r.pipeline.source with
          | mk taken b =>
              rw [htake] at hne hsteady
              cases taken with
              | nothing => simp [hstate, hcancelled, htake] at h
              | closed => exact absurd rfl hne
              | copy c =>
                  simp only [hstate, hcancelled, htake, Bool.false_eq_true, if_false,
                    Option.some.injEq] at h
                  subst h
                  have hsame : Frame r { r with fleet := { r.fleet with broker := b } } :=
                    ⟨rfl, rfl, rfl, rfl, rfl, rfl⟩
                  rcases begin_spec (r := { r with fleet := { r.fleet with broker := b } })
                    hsteady.sound c with ⟨hframe, hbegin, hgoes⟩
                  exact .goes (hsame.trans hframe) (hsteady.trans hbegin)
                    (hgoes.trans hrunning.symm)
  | handling inHand =>
      have hrunning : r.pipeline.isStopped = false := by simp [Pipeline.isStopped, hstate]
      simp only [hstate] at h
      split at h
      · cases h
        rcases settle_spec hb inHand.copy inHand.delivery _ with ⟨hframe, hsteady, hgoes⟩
        exact .goes hframe hsteady (hgoes.trans hrunning.symm)
      · rcases Option.map_eq_some_iff.mp h with ⟨⟨stage, adapters⟩, _, rfl⟩
        exact .goes ⟨rfl, rfl, rfl, rfl, rfl, rfl⟩ (.refl hb) hrunning.symm

end Fleet
end Dispatch
end Courier
