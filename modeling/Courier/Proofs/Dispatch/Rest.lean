import Courier.Proofs.Bus.Waiting
import Courier.Proofs.Dispatch.Closing

/-!
# Pipelines come to rest

As long as no dead letter comes to a pipeline's own queue, a turn of the pipeline is over when
it can do nothing more at the time: `still_moves`.
-/

namespace Courier
namespace Dispatch

open Bus (Broker Copy Settlement)

def IsLetter (subject : String) : Prop :=
  ∃ op : Operation, subject = op.deadLetterSubject

namespace Stage

/-- More than the moves that a stage is from its end, by how many attempts are left. -/
def cost (retries : Nat) : Stage → Nat
  | .ready attempt => 3 * (retries + 1 - attempt) + 2
  | .sending attempt _ _ => 3 * (retries + 1 - attempt) + 1
  | .pausing attempt _ => 3 * (retries - attempt) + 3
  | .finished _ => 0

def back : Stage → Nat
  | .finished (.failed _ .cancelled _) => 1
  | _ => 0

variable {σ : Type} {settings : Settings} {send : Send σ} {job : Job} {now : Nat}
  {cancelled : Bool} {s s' : σ} {stage stage' : Stage}

theorem cost_afterAttempt (settings : Settings) (now : Nat) (job : Job) (attempt : Nat)
    (result : Except Unit Provider.Outcome) :
    (afterAttempt settings now job attempt result).cost settings.maxRetries.toNat <
        3 * (settings.maxRetries.toNat + 1 - attempt) + 1 ∧
      (afterAttempt settings now job attempt result).back = 0 := by
  have hfailure : ∀ failure, failure ≠ .cancelled →
      (afterFailure settings now job attempt failure).cost settings.maxRetries.toNat <
          3 * (settings.maxRetries.toNat + 1 - attempt) + 1 ∧
        (afterFailure settings now job attempt failure).back = 0 := by
    intro failure hne
    unfold afterFailure
    split
    · next hleft =>
        refine ⟨?_, rfl⟩
        simp only [cost]
        omega
    · refine ⟨Nat.succ_pos _, ?_⟩
      cases failure with
      | cancelled => exact absurd rfl hne
      | provider e => rfl
      | timeout ms => rfl
      | panic reason => rfl
  cases result with
  | error late => exact hfailure _ nofun
  | ok outcome =>
      cases outcome with
      | success => exact ⟨Nat.succ_pos _, rfl⟩
      | failure e => exact hfailure _ nofun
      | panic reason =>
          refine ⟨Nat.succ_pos _, ?_⟩
          simp only [afterAttempt, Outcome.ofPanic]
          cases settings.panicPolicy <;> rfl

theorem cost_of_step? (h : step? settings send job now cancelled s stage = some (stage', s')) :
    stage'.cost settings.maxRetries.toNat < stage.cost settings.maxRetries.toNat ∧
      (cancelled = false → stage'.back = 0) := by
  cases stage with
  | ready attempt =>
      simp only [step?, Option.some.injEq, Prod.mk.injEq] at h
      rw [← h.left]
      exact ⟨Nat.lt_succ_self _, fun _ => rfl⟩
  | sending attempt since answer =>
      simp only [step?, Option.map_eq_some_iff, Prod.mk.injEq] at h
      rcases h with ⟨result, _, hstage, _⟩
      rw [← hstage]
      have hcost := cost_afterAttempt settings now job attempt result
      exact ⟨hcost.left, fun _ => hcost.right⟩
  | pausing attempt resumeAt =>
      simp only [step?] at h
      split at h
      · cases h
        refine ⟨?_, fun _ => rfl⟩
        simp only [cost]
        omega
      · split at h
        · next hcancelled =>
            cases h
            exact ⟨Nat.succ_pos _, fun hnot => by simp [hnot] at hcancelled⟩
        · cases h
  | finished o => cases h

end Stage

namespace Fleet

/-!
## What is still to do at a time
-/

/-- More than the moves that a delivery takes from the time when it is taken. -/
def perDelivery (settings : Settings) : Nat :=
  3 * settings.maxRetries.toNat + 4

/-- What is left to do when a delivery is settled and so many are put back. -/
def toGoAfter (r : Running) (back : Nat) : Nat :=
  if r.node.cancelled then 1
  else
    perDelivery r.node.settings * (r.fleet.broker.waitingFor r.pipeline.source + back) + 1

/-- More than the moves that the pipeline can make at a time. -/
def toGo (r : Running) : Nat :=
  match r.pipeline.state with
  | .stopped => 0
  | .idle => toGoAfter r 0
  | .handling h =>
    h.stage.cost r.node.settings.maxRetries.toNat + 1 + toGoAfter r h.stage.back

theorem tame_perform {b : Broker} (hb : b.Sound) (r : Running) (adapters : List Provider.Adapter)
    (d : Dealing) :
    Bus.Broker.Tame IsLetter r.pipeline.source.queue b (perform r (b, adapters) d).1 := by
  cases d with
  | took copy => exact Bus.Broker.tame_take hb _
  | called job => exact .refl hb
  | left => exact Bus.Broker.tame_unsubscribe hb _
  | about copy deed =>
      cases deed with
      | offered letter taken =>
          simp only [perform, letterSink]
          cases r.node.sink with
          | bus => exact Bus.Broker.tame_publish hb ⟨r.pipeline.operation, rfl⟩
          | broken => exact .refl hb
      | settled how =>
          simp only [perform, Deed.perform]
          split
          · next b' hsettle => exact Bus.Broker.tame_settle hb hsettle
          · exact .refl hb

theorem tame_done {r : Running} (hb : r.fleet.broker.Sound) (ds : List Dealing)
    (counted : List (Operation × String)) (state : PipelineState) :
    Bus.Broker.Tame IsLetter r.pipeline.source.queue r.fleet.broker
      (r.done ds counted state).fleet.broker := by
  unfold Running.done
  simp only
  generalize r.node.adapters = adapters
  generalize hbroker : r.fleet.broker = b at hb ⊢
  clear hbroker
  induction ds generalizing b adapters with
  | nil => exact .refl hb
  | cons d rest ih =>
      have hfirst := tame_perform hb r adapters d
      exact hfirst.trans (ih _ _ hfirst.sound)

theorem back_finished (o : Outcome) (taken : Bool) :
    (if o.settlement taken = .nack true then 1 else 0) = (Stage.finished o).back := by
  cases o with
  | handled provider attempts => rfl
  | skipped why => rfl
  | failed provider failure attempts => cases failure <;> cases taken <;> rfl

theorem waitingFor_settled (b : Broker) (ref : Bus.ConsumerRef) (p : Bus.Parcel)
    (how : Settlement) :
    ((Deed.settled how).perform ref.queue p b).waitingFor ref ≤
      b.waitingFor ref + if how = .nack true then 1 else 0 := by
  simp only [Deed.perform]
  split
  · next b' hsettle => exact Bus.Broker.waitingFor_settle_le hsettle
  · exact Nat.le_add_right _ _

theorem waitingFor_settle {r : Running} (hb : r.fleet.broker.Sound)
    (hpasses : r.fleet.broker.Passes IsLetter r.pipeline.source.queue) (copy : Copy)
    (d : Bus.Delivery) (o : Outcome) :
    (settle r copy d o).fleet.broker.waitingFor r.pipeline.source ≤
      r.fleet.broker.waitingFor r.pipeline.source + (Stage.finished o).back := by
  rw [broker_settle]
  unfold settling
  cases o.deadLetter? r.pipeline.operation r.fleet.timeText d with
  | none =>
      rw [← back_finished o false]
      exact waitingFor_settled _ _ _ _
  | some letter =>
      have hsame : (letterSink r.node.sink r.pipeline.operation r.fleet.broker letter).2.waitingFor
          r.pipeline.source = r.fleet.broker.waitingFor r.pipeline.source := by
        simp only [letterSink]
        cases r.node.sink with
        | broken => rfl
        | bus =>
            apply Bus.Broker.waitingFor_congr
            exact Bus.Broker.consumer?_publish_of_passes hb ⟨r.pipeline.operation, rfl⟩ hpasses
      rw [← back_finished o (letterSink r.node.sink r.pipeline.operation r.fleet.broker letter).1,
        ← hsame]
      exact waitingFor_settled _ _ _ _

theorem toGoAfter_of_le (r r' : Running) (back back' : Nat)
    (hcancelled : r'.node.cancelled = r.node.cancelled)
    (hsettings : r'.node.settings = r.node.settings)
    (hwaiting : r'.fleet.broker.waitingFor r'.pipeline.source + back' ≤
      r.fleet.broker.waitingFor r.pipeline.source + back) :
    toGoAfter r' back' ≤ toGoAfter r back := by
  unfold toGoAfter
  rw [hcancelled, hsettings]
  split
  · exact Nat.le_refl _
  · exact Nat.succ_le_succ (Nat.mul_le_mul_left _ hwaiting)

/-- A copy that is taken is one less that waits, and this counts for more than handling it. -/
theorem toGo_begin {r : Running} (hb : r.fleet.broker.Sound)
    (hpasses : r.fleet.broker.Passes IsLetter r.pipeline.source.queue)
    (hidle : r.pipeline.state = .idle) (hlive : r.node.cancelled = false) {c : Copy}
    {b : Broker} (htake : r.fleet.broker.take r.pipeline.source = (.copy c, b)) :
    toGo (begin { r with fleet := { r.fleet with broker := b } } c) < toGo r := by
  have hless := Bus.Broker.waitingFor_take htake
  have htame : Bus.Broker.Tame IsLetter r.pipeline.source.queue r.fleet.broker
      (r.fleet.broker.take r.pipeline.source).2 := Bus.Broker.tame_take hb r.pipeline.source
  rw [htake] at htame
  have hbefore : toGo r =
      perDelivery r.node.settings * b.waitingFor r.pipeline.source +
        perDelivery r.node.settings + 1 := by
    simp only [toGo, hidle, toGoAfter, hlive, Bool.false_eq_true, if_false, Nat.add_zero]
    rw [← hless, Nat.mul_succ]
  rw [hbefore]
  unfold begin
  simp only
  split
  · next why _ =>
      have hwaiting := waitingFor_settle (r := { r with fleet := { r.fleet with broker := b } })
        htame.sound (htame.passes hpasses) c
        (Bus.Delivery.ofParcel r.fleet.freshId c.parcel) (.skipped why)
      have hle := toGoAfter_of_le { r with fleet := { r.fleet with broker := b } }
        (settle { r with fleet := { r.fleet with broker := b } } c
          (Bus.Delivery.ofParcel r.fleet.freshId c.parcel) (.skipped why))
        0 0 rfl rfl hwaiting
      refine Nat.lt_of_le_of_lt hle ?_
      simp only [toGoAfter, hlive, Bool.false_eq_true, if_false, Nat.add_zero, perDelivery]
      omega
  · simp only [toGo, toGoAfter, hlive, Bool.false_eq_true, if_false, Stage.back, Nat.add_zero,
      Stage.cost, perDelivery]
    omega

theorem toGo_of_step? {r r' : Running} (hb : r.fleet.broker.Sound)
    (hpasses : r.fleet.broker.Passes IsLetter r.pipeline.source.queue) (h : step? r = some r') :
    toGo r' < toGo r := by
  have hpositive : ∀ back, 0 < toGoAfter r back := by
    intro back
    unfold toGoAfter
    split <;> exact Nat.succ_pos _
  unfold step? at h
  cases hstate : r.pipeline.state with
  | stopped => simp [hstate] at h
  | idle =>
      simp only [hstate] at h
      cases hcancelled : r.node.cancelled with
      | true =>
          simp only [hcancelled, if_true, Option.some.injEq] at h
          rw [← h]
          simp only [toGo, stop, hstate]
          exact hpositive 0
      | false =>
          simp only [hcancelled, Bool.false_eq_true, if_false] at h
          split at h
          · next c b htake =>
              cases h
              exact toGo_begin hb hpasses hstate hcancelled htake
          · cases h
            simp only [toGo, stop, hstate]
            exact hpositive 0
          · cases h
  | handling inHand =>
      simp only [hstate] at h
      split at h
      · next o hstage =>
          cases h
          have hle := toGoAfter_of_le r (settle r inHand.copy inHand.delivery o)
            (Stage.finished o).back 0 rfl rfl
            (waitingFor_settle hb hpasses inHand.copy inHand.delivery o)
          simp only [toGo, hstate, hstage]
          exact Nat.lt_of_le_of_lt hle (by omega)
      · next stage hopen =>
          rcases Option.map_eq_some_iff.mp h with ⟨⟨stage', adapters⟩, hstep, rfl⟩
          rcases Stage.cost_of_step? hstep with ⟨hcost, hback⟩
          simp only [toGo, hstate]
          -- Only a cancelled pipeline puts back what it has not put back yet.
          have hle : toGoAfter { r with
                node := { r.node with adapters := adapters }
                pipeline := { r.pipeline with
                  state := .handling { inHand with stage := stage' } } } stage'.back ≤
              toGoAfter r inHand.stage.back := by
            cases hcancelled : r.node.cancelled with
            | true =>
                simp only [toGoAfter, hcancelled, if_true]
                exact Nat.le_refl _
            | false =>
                rw [hback hcancelled]
                exact toGoAfter_of_le _ _ _ _ rfl rfl (Nat.le_add_right _ _)
          exact Nat.add_lt_add_of_lt_of_le (Nat.succ_lt_succ hcost) hle

theorem cost_le (retries : Nat) (stage : Stage) :
    stage.back = 0 ∧ stage.cost retries ≤ 3 * retries + 5 ∨
      stage.back = 1 ∧ stage.cost retries = 0 := by
  cases stage with
  | ready attempt =>
      left
      simp only [Stage.back, Stage.cost, true_and]
      omega
  | sending attempt since answer =>
      left
      simp only [Stage.back, Stage.cost, true_and]
      omega
  | pausing attempt resumeAt =>
      left
      simp only [Stage.back, Stage.cost, true_and]
      omega
  | finished o =>
      cases o with
      | handled provider attempts => exact .inl ⟨rfl, Nat.zero_le _⟩
      | skipped why => exact .inl ⟨rfl, Nat.zero_le _⟩
      | failed provider failure attempts =>
          cases failure with
          | cancelled => exact .inr ⟨rfl, rfl⟩
          | provider e => exact .inl ⟨rfl, Nat.zero_le _⟩
          | timeout ms => exact .inl ⟨rfl, Nat.zero_le _⟩
          | panic reason => exact .inl ⟨rfl, Nat.zero_le _⟩

theorem toGo_le_moveBound (r : Running) : toGo r ≤ moveBound r := by
  have hafter : ∀ back, toGoAfter r back ≤
      perDelivery r.node.settings * (r.fleet.broker.waitingFor r.pipeline.source + back) + 1 := by
    intro back
    unfold toGoAfter
    split
    · exact Nat.succ_le_succ (Nat.zero_le _)
    · exact Nat.le_refl _
  have hcopies : perDelivery r.node.settings * r.fleet.broker.waitingFor r.pipeline.source ≤
      r.fleet.broker.waitingFor r.pipeline.source *
        (3 * r.node.settings.maxRetries.toNat + 7) := by
    rw [Nat.mul_comm]
    exact Nat.mul_le_mul_left _ (by unfold perDelivery; omega)
  rw [moveBound_eq, Nat.add_mul]
  unfold toGo
  cases r.pipeline.state with
  | stopped => exact Nat.zero_le _
  | idle =>
      have hidle := hafter 0
      simp only [Nat.add_zero] at hidle ⊢
      omega
  | handling h =>
      have hhandling := hafter h.stage.back
      rw [Nat.mul_add] at hhandling
      simp only
      rcases cost_le r.node.settings.maxRetries.toNat h.stage with ⟨hback, hcost⟩ | ⟨hback, hcost⟩
      · rw [hback] at hhandling ⊢
        omega
      · rw [hback] at hhandling ⊢
        unfold perDelivery at hhandling hcopies
        omega

theorem still_moves {fuel : Nat} {r : Running} (hb : r.fleet.broker.Sound)
    (hpasses : r.fleet.broker.Passes IsLetter r.pipeline.source.queue) (hfuel : toGo r ≤ fuel) :
    step? (moves fuel r) = none := by
  induction fuel generalizing r with
  | zero =>
      cases hstep : step? r with
      | none => exact hstep
      | some r' => exact absurd (toGo_of_step? hb hpasses hstep) (by omega)
  | succ fuel ih =>
      unfold moves
      cases hstep : step? r with
      | none => exact hstep
      | some r' =>
          have hless := toGo_of_step? hb hpasses hstep
          rcases exists_done_step hstep with ⟨counted, state, rfl⟩
          have htame := tame_done hb (dealings r) counted state
          exact ih htame.sound (htame.passes hpasses) (by omega)

end Fleet
end Dispatch
end Courier
