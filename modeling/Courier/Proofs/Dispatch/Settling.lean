import Courier.Dispatch.Fleet
import Courier.Proofs.Bus.Deliveries
import Courier.Proofs.Dispatch.Courses

/-!
# How deliveries are settled

A delivery that was handled is settled once. Before that a dead letter is offered to a
sink, if the delivery failed for good; whether the sink takes it decides how the
delivery is settled. So no delivery is acknowledged of which there is no account.

The main statement is `settled_once`.
-/

namespace Courier
namespace Dispatch

open Bus (Broker Copy DeadLetter Parcel Settlement)
open Provider (Handle Registry)

/-- What is done about a delivery that was handled. -/
inductive Deed where
  | offered (letter : DeadLetter) (taken : Bool)
  | settled (how : Settlement)

/-- Takes dead letters or refuses them, by the state it is in. -/
abbrev LetterSink (τ : Type) := τ → DeadLetter → Bool × τ

/-- Settles a delivery by its outcome, after its dead letter was offered if there is one. -/
def settling {τ : Type} (sink : LetterSink τ) (op : Operation) (time : String) (d : Bus.Delivery)
    (o : Outcome) (s : τ) : List Deed × τ :=
  match o.deadLetter? op time d with
  | none => ([.settled (o.settlement false)], s)
  | some letter =>
    let (taken, s) := sink s letter
    ([.offered letter taken, .settled (o.settlement taken)], s)

/-!
## Settling on a bus
-/

def letterSink (sink : Sink) (op : Operation) : LetterSink Broker :=
  fun b letter =>
    match sink with
    | .bus => (true, b.publish (letter.toParcel op.deadLetterSubject))
    | .broken => (false, b)

def Deed.perform (queue : String) (p : Parcel) (b : Broker) : Deed → Broker
  | .offered _ _ => b
  | .settled how =>
    match b.settle queue p how with
    | .ok b => b
    | .error _ => b

/-- A pipeline settles in this way, with its own sink. -/
theorem broker_settle (r : Fleet.Running) (copy : Copy) (d : Bus.Delivery) (o : Outcome) :
    (Fleet.settle r copy d o).fleet.broker =
      let (deeds, b) := settling (letterSink r.node.sink r.pipeline.operation)
        r.pipeline.operation r.fleet.timeText d o r.fleet.broker
      deeds.foldl (Deed.perform r.pipeline.source.queue copy.parcel) b := by
  cases hletter : o.deadLetter? r.pipeline.operation r.fleet.timeText d with
  | none =>
      simp only [Fleet.settle, Fleet.sendLetter, settling, hletter]
      rfl
  | some letter =>
      cases hsink : r.node.sink with
      | bus =>
          simp only [Fleet.settle, Fleet.sendLetter, settling, hletter, hsink, letterSink]
          rfl
      | broken =>
          simp only [Fleet.settle, Fleet.sendLetter, settling, hletter, hsink, letterSink]
          rfl

theorem settled_perform {b : Broker} (hopen : b.closed = false) (queue : String) (p : Parcel)
    (how : Settlement) :
    ((Deed.settled how).perform queue p b).settled = b.settled ++ [⟨queue, p.subject, how⟩] := by
  rcases Broker.stays_or_requeues b queue how with hstays | ⟨rfl, q, hq⟩
  · simp only [Deed.perform, Broker.settle_of_not_requeue hopen hstays]
  · simp only [Deed.perform, Broker.settle_of_requeue hopen hq]

theorem letterSink_state (sink : Sink) (op : Operation) (b : Broker) (letter : DeadLetter) :
    (letterSink sink op b letter).2.closed = b.closed ∧
      (letterSink sink op b letter).2.settled = b.settled := by
  cases sink with
  | bus => simp [letterSink, Broker.publish_eq]
  | broken => exact ⟨rfl, rfl⟩

theorem settled_settle {r : Fleet.Running} (hopen : r.fleet.broker.closed = false) (copy : Copy)
    (d : Bus.Delivery) (o : Outcome) :
    ∃ how, (Fleet.settle r copy d o).fleet.broker.settled =
      r.fleet.broker.settled ++ [⟨r.pipeline.source.queue, copy.parcel.subject, how⟩] := by
  rw [broker_settle]
  unfold settling
  cases hletter : o.deadLetter? r.pipeline.operation r.fleet.timeText d with
  | none => exact ⟨_, settled_perform hopen _ _ _⟩
  | some letter =>
      rcases letterSink_state r.node.sink r.pipeline.operation r.fleet.broker letter with
        ⟨hclosed, hsettled⟩
      refine ⟨o.settlement (letterSink r.node.sink r.pipeline.operation r.fleet.broker letter).1,
        (settled_perform (hclosed.trans hopen) _ _ _).trans ?_⟩
      rw [hsettled]
      rfl

/-!
## What becomes of deliveries
-/

/-- Why there is nothing to be sent for a delivery. -/
inductive Unfit (registry : Registry Handle) (d : Bus.Delivery) : Prop where
  | unrouted (provider : providerOf? d = none)
  | malformed (command : Command.ofBytes? d.payload = none)
  | invalid {command : Command} (read : Command.ofBytes? d.payload = some command)
      (faulty : command.validate ≠ none)
  | unknown {provider : String} (routed : providerOf? d = some provider)
      (sender : registry.sender? provider = none)

theorem unfit_of_error {registry : Registry Handle} {clock : Int64} {op : Operation}
    {d : Bus.Delivery} {why : Skip} (h : jobOf registry clock op d = .error why) :
    Unfit registry d := by
  cases hprovider : providerOf? d with
  | none => exact .unrouted hprovider
  | some provider =>
      cases hcommand : Command.ofBytes? d.payload with
      | none => exact .malformed hcommand
      | some command =>
          cases hvalid : command.validate with
          | some missing => exact .invalid hcommand (by simp [hvalid])
          | none =>
              cases hsender : registry.sender? provider with
              | none => exact .unknown hprovider hsender
              | some sender => simp [jobOf, hprovider, hcommand, hvalid, hsender] at h

theorem fit_of_ok {registry : Registry Handle} {clock : Int64} {op : Operation}
    {d : Bus.Delivery} {job : Job} (h : jobOf registry clock op d = .ok job) :
    ¬ Unfit registry d := by
  intro hunfit
  cases hunfit with
  | unrouted hprovider => simp [jobOf, hprovider] at h
  | malformed hcommand => cases hprovider : providerOf? d <;> simp [jobOf, hprovider, hcommand] at h
  | @invalid command hcommand hfaulty =>
      rcases Option.ne_none_iff_exists'.mp hfaulty with ⟨missing, hmissing⟩
      cases hprovider : providerOf? d <;> simp [jobOf, hprovider, hcommand, hmissing] at h
  | @unknown provider hprovider hsender =>
      cases hcommand : Command.ofBytes? d.payload with
      | none => simp [jobOf, hprovider, hcommand] at h
      | some command =>
          cases hvalid : command.validate <;>
            simp [jobOf, hprovider, hcommand, hvalid, hsender] at h

inductive Fate where
  | handled
  | skipped
  | interrupted
  | failed

section Fates

variable {σ : Type} (registry : Registry Handle) (settings : Settings) (send : Send σ)
  (clock : Int64) (op : Operation) (d : Bus.Delivery) (cancelAt : Option Nat) (adapters : σ)

/-- How a delivery meets its fate: at once, or by the course that its attempts take. -/
inductive Meets : Fate → σ → Nat → Prop where
  | passedOver (unfit : Unfit registry d) : Meets .skipped adapters 0
  | sent {job : Job} {answers : List Provider.Answer} {n t : Nat} {s : σ}
      (fit : ¬ Unfit registry d) (known : jobOf registry clock op d = .ok job)
      (course : Course settings send job cancelAt 1 0 adapters answers (.sent n) s t) :
      Meets .handled s t
  | dropped {job : Job} {answers : List Provider.Answer} {reason : String} {t : Nat} {s : σ}
      (fit : ¬ Unfit registry d) (known : jobOf registry clock op d = .ok job)
      (course : Course settings send job cancelAt 1 0 adapters answers (.panicked reason) s t)
      (policy : settings.panicPolicy = .dropOnPanic) : Meets .skipped s t
  | panicked {job : Job} {answers : List Provider.Answer} {reason : String} {t : Nat} {s : σ}
      (fit : ¬ Unfit registry d) (known : jobOf registry clock op d = .ok job)
      (course : Course settings send job cancelAt 1 0 adapters answers (.panicked reason) s t)
      (policy : settings.panicPolicy = .redeliverOnPanic) : Meets .failed s t
  | exhausted {job : Job} {answers : List Provider.Answer} {f : Failure} {n t : Nat} {s : σ}
      (fit : ¬ Unfit registry d) (known : jobOf registry clock op d = .ok job)
      (course : Course settings send job cancelAt 1 0 adapters answers (.exhausted f n) s t) :
      Meets .failed s t
  | interrupted {job : Job} {answers : List Provider.Answer} {n t : Nat} {s : σ}
      (fit : ¬ Unfit registry d) (known : jobOf registry clock op d = .ok job)
      (course : Course settings send job cancelAt 1 0 adapters answers (.interrupted n) s t) :
      Meets .interrupted s t

end Fates

inductive Fate.Has : Fate → Outcome → Prop where
  | handled (provider : String) (attempts : Nat) : Has .handled (.handled provider attempts)
  | skipped (why : Skip) : Has .skipped (.skipped why)
  | interrupted (provider : Option String) (attempts : Nat) :
      Has .interrupted (.failed provider .cancelled attempts)
  | failed {f : Failure} (lasting : f ≠ .cancelled) (provider : Option String) (attempts : Nat) :
      Has .failed (.failed provider f attempts)

theorem Course.failure_ne_cancelled {σ : Type} {settings : Settings} {send : Send σ} {job : Job}
    {cancelAt : Option Nat} {n now attempts t : Nat} {s s' : σ} {answers : List Provider.Answer}
    {f : Failure}
    (h : Course settings send job cancelAt n now s answers (.exhausted f attempts) s' t) :
    f ≠ .cancelled := by
  generalize hending : Ending.exhausted f attempts = ending at h
  induction h with
  | sent _ _ => cases hending
  | panicked _ _ => cases hending
  | interrupted _ _ _ _ _ => cases hending
  | again _ _ _ _ _ ih => exact ih hending
  | exhausted _ failure _ =>
      cases hending
      intro hf
      subst hf
      unfold failureOf? at failure
      split at failure <;> cases failure

/-- Every delivery meets a fate, and its outcome is one that the fate has. -/
theorem exists_fate {σ : Type} (registry : Registry Handle) (settings : Settings) (send : Send σ)
    (clock : Int64) (op : Operation) (d : Bus.Delivery) (cancelAt : Option Nat) (adapters : σ) :
    ∃ fate : Fate,
      Meets registry settings send clock op d cancelAt adapters fate
        (handle registry settings send clock op d cancelAt adapters).adapters
        (handle registry settings send clock op d cancelAt adapters).elapsed ∧
      fate.Has (handle registry settings send clock op d cancelAt adapters).outcome := by
  cases hjob : jobOf registry clock op d with
  | error why =>
      rw [handle_of_error registry settings send clock op d cancelAt adapters hjob]
      exact ⟨.skipped, .passedOver (unfit_of_error hjob), .skipped why⟩
  | ok job =>
      have hfit := fit_of_ok hjob
      rcases handle_of_job registry settings send clock op d cancelAt adapters hjob with
        ⟨answers, ending, s, t, hcourse, hhandle⟩
      rw [hhandle]
      cases ending with
      | sent n => exact ⟨.handled, .sent hfit hjob hcourse, .handled _ _⟩
      | exhausted f n =>
          exact ⟨.failed, .exhausted hfit hjob hcourse, .failed hcourse.failure_ne_cancelled _ _⟩
      | interrupted n => exact ⟨.interrupted, .interrupted hfit hjob hcourse, .interrupted _ _⟩
      | panicked reason =>
          simp only [Ending.outcome]
          cases hpolicy : settings.panicPolicy with
          | dropOnPanic => exact ⟨.skipped, .dropped hfit hjob hcourse hpolicy, .skipped _⟩
          | redeliverOnPanic =>
              refine ⟨.failed, .panicked hfit hjob hcourse hpolicy, .failed ?_ _ _⟩
              intro h
              cases h

/-!
## How they are settled
-/

/-- How a delivery is settled by its fate, and by what came of the dead letters offered. -/
structure Settles (d : Bus.Delivery) (fate : Fate) (offers : List (DeadLetter × Bool))
    (how : Settlement) : Prop where
  ack : how = .ack ↔ fate = .handled ∨ fate = .skipped ∨ ∃ letter, (letter, true) ∈ offers
  requeue : how = .nack true ↔ fate = .interrupted
  reject : how = .nack false ↔ ∃ letter, (letter, false) ∈ offers
  quiet : fate ≠ .failed → offers = []
  tried : fate = .failed → ∃ letter taken, offers = [(letter, taken)] ∧
    letter.messageId = d.id ∧ letter.envelope = Bus.envelopeOf d.payload

theorem deadLetter?_of_lasting {f : Failure} (hf : f ≠ .cancelled) (op : Operation) (time : String)
    (d : Bus.Delivery) (provider : Option String) (attempts : Nat) :
    ∃ letter, (Outcome.failed provider f attempts).deadLetter? op time d = some letter ∧
      letter.messageId = d.id ∧ letter.envelope = Bus.envelopeOf d.payload := by
  cases f with
  | cancelled => exact absurd rfl hf
  | provider e => exact ⟨_, rfl, rfl, rfl⟩
  | timeout ms => exact ⟨_, rfl, rfl, rfl⟩
  | panic reason => exact ⟨_, rfl, rfl, rfl⟩

theorem settlement_of_lasting {f : Failure} (hf : f ≠ .cancelled) (provider : Option String)
    (attempts : Nat) (taken : Bool) :
    (Outcome.failed provider f attempts).settlement taken =
      if taken then .ack else .nack false := by
  cases f with
  | cancelled => exact absurd rfl hf
  | provider e => rfl
  | timeout ms => rfl
  | panic reason => rfl

def offering (e : DeadLetter × Bool) : Deed :=
  .offered e.1 e.2

theorem settles_of_fate {τ : Type} {fate : Fate} {o : Outcome} (h : fate.Has o)
    (sink : LetterSink τ) (op : Operation) (time : String) (d : Bus.Delivery) (s : τ) :
    ∃ offers how, (settling sink op time d o s).1 = offers.map offering ++ [.settled how] ∧
      Settles d fate offers how := by
  cases h with
  | handled provider attempts =>
      refine ⟨[], .ack, rfl, ?_⟩
      constructor <;> simp
  | skipped why =>
      refine ⟨[], .ack, rfl, ?_⟩
      constructor <;> simp
  | interrupted provider attempts =>
      refine ⟨[], .nack true, rfl, ?_⟩
      constructor <;> simp
  | @failed f lasting provider attempts =>
      rcases deadLetter?_of_lasting lasting op time d provider attempts with
        ⟨letter, hletter, hid, henvelope⟩
      have hhow := settlement_of_lasting lasting provider attempts (sink s letter).1
      refine ⟨[(letter, (sink s letter).1)], _, by simp only [settling, hletter]; rfl, ?_⟩
      rw [hhow]
      cases htaken : (sink s letter).1 with
      | true => constructor <;> simp [hid, henvelope]
      | false => constructor <;> simp [hid, henvelope]

/--
However a delivery comes out, it is settled once, after its dead letter was offered if
there is one, and how it is settled tells what became of it. That it comes out at all
rests on `maxRetries` being less than the greatest number of 32 bits, as in `afterFailure`.
-/
theorem settled_once {σ τ : Type} (registry : Registry Handle) (settings : Settings)
    (send : Send σ) (clock : Int64) (op : Operation) (d : Bus.Delivery) (cancelAt : Option Nat)
    (adapters : σ) (sink : LetterSink τ) (time : String) (s : τ) :
    ∃ fate offers how,
      Meets registry settings send clock op d cancelAt adapters fate
        (handle registry settings send clock op d cancelAt adapters).adapters
        (handle registry settings send clock op d cancelAt adapters).elapsed ∧
      (settling sink op time d
        (handle registry settings send clock op d cancelAt adapters).outcome s).1 =
          offers.map offering ++ [.settled how] ∧
      Settles d fate offers how := by
  rcases exists_fate registry settings send clock op d cancelAt adapters with
    ⟨fate, hmeets, houtcome⟩
  rcases settles_of_fate houtcome sink op time d s with ⟨offers, how, hdeeds, hsettles⟩
  exact ⟨fate, offers, how, hmeets, hdeeds, hsettles⟩

end Dispatch
end Courier
