import Courier.Proofs.Bus.Deliveries

/-!
# Traffic on a bus

Parties on a bus subscribe and leave, publish, take what comes to them, and settle
or forget what they took. A run is a list of such acts, in any order.

The main statement is that every run keeps the broker sound.
-/

namespace Courier
namespace Bus

/-- A broker and what was taken from it and is not yet settled, each with its queue. -/
structure Traffic where
  broker : Broker := {}
  held : List (String × Copy) := []

/-- A copy that was taken is named by its serial number. -/
inductive Act where
  | subscribe (s : Subscription)
  | publish (p : Parcel)
  | next (ref : ConsumerRef)
  | settle (serial : Nat) (how : Settlement)
  | forget (serial : Nat)
  | leave (ref : ConsumerRef)
deriving DecidableEq, Repr

namespace Traffic

def delivery? (t : Traffic) (serial : Nat) : Option (String × Copy) :=
  t.held.find? fun e => e.2.serial = serial

def without (t : Traffic) (serial : Nat) : List (String × Copy) :=
  t.held.filter fun e => e.2.serial ≠ serial

/-- What is refused or not there makes no difference. -/
def step (t : Traffic) : Act → Traffic
  | .subscribe s =>
    match t.broker.subscribe s with
    | .ok (_, b) => { t with broker := b }
    | .error _ => t
  | .publish p => { t with broker := t.broker.publish p }
  | .next ref =>
    match t.broker.take ref with
    | (.copy c, b) => { broker := b, held := (ref.queue, c) :: t.held }
    | (_, b) => { t with broker := b }
  | .settle serial how =>
    match t.delivery? serial with
    | none => t
    | some e =>
      match t.broker.settle e.1 e.2.parcel how with
      | .ok b => { broker := b, held := t.without serial }
      | .error _ => { t with held := t.without serial }
  | .forget serial => { t with held := t.without serial }
  | .leave ref => { t with broker := t.broker.unsubscribe ref }

def run (t : Traffic) (acts : List Act) : Traffic :=
  acts.foldl step t

@[simp] theorem run_nil (t : Traffic) : t.run [] = t := rfl

@[simp] theorem run_cons (t : Traffic) (a : Act) (acts : List Act) :
    t.run (a :: acts) = (t.step a).run acts := rfl

theorem run_append (t : Traffic) (acts more : List Act) :
    t.run (acts ++ more) = (t.run acts).run more :=
  List.foldl_append

theorem run_snoc (t : Traffic) (acts : List Act) (a : Act) :
    t.run (acts ++ [a]) = (t.run acts).step a :=
  run_append t acts [a]

/-!
## What acts come to
-/

/-- All that an act can come to while the bus is there. -/
inductive Turn (t : Traffic) : Act → Traffic → Prop where
  | refused {s : Subscription} {e : TopologyError} (h : t.broker.subscribe s = .error e) :
      Turn t (.subscribe s) t
  | joined {s : Subscription} (valid : s.validate = none)
      (free : ∀ q, t.broker.queue? s.queue = some q → Broker.refuses q s = false) :
      Turn t (.subscribe s) { t with broker := t.broker.joined s }
  | published (p : Parcel) : Turn t (.publish p) { t with broker := t.broker.publish p }
  | took {ref : ConsumerRef} {q : Queue} {k : Consumer} {c : Copy}
      (queue : t.broker.queue? ref.queue = some q) (consumer : q.consumer? ref.id = some k)
      (head : k.buffer.head? = some c) (take : (t.broker.take ref).1 = .copy c) :
      Turn t (.next ref)
        { broker := { t.broker with
            queues := Broker.updateQueue ref.queue (fun q => q.pop ref.id) t.broker.queues }
          held := (ref.queue, c) :: t.held }
  | waited {ref : ConsumerRef} (nothing : ∀ c, (t.broker.take ref).1 ≠ .copy c) :
      Turn t (.next ref) t
  | stray {serial : Nat} (how : Settlement) (absent : t.delivery? serial = none) :
      Turn t (.settle serial how) t
  | settled {serial : Nat} {how : Settlement} {e : String × Copy}
      (delivery : t.delivery? serial = some e)
      (stays : how ≠ .nack true ∨ t.broker.queue? e.1 = none) :
      Turn t (.settle serial how)
        { broker := { t.broker with
            settled := t.broker.settled ++ [⟨e.1, e.2.parcel.subject, how⟩] }
          held := t.without serial }
  | requeued {serial : Nat} {e : String × Copy} {q : Queue}
      (delivery : t.delivery? serial = some e) (queue : t.broker.queue? e.1 = some q) :
      Turn t (.settle serial (.nack true))
        { broker := { t.broker with
            settled := t.broker.settled ++ [⟨e.1, e.2.parcel.subject, .nack true⟩]
            queues := Broker.updateQueue e.1
              (fun q => q.deliver ⟨t.broker.nextSerial, e.2.parcel⟩) t.broker.queues
            nextSerial := t.broker.nextSerial + 1 }
          held := t.without serial }
  | forgot (serial : Nat) : Turn t (.forget serial) { t with held := t.without serial }
  | left (ref : ConsumerRef) :
      Turn t (.leave ref) { t with broker := t.broker.unsubscribe ref }

theorem turn_subscribe (t : Traffic) (s : Subscription) :
    Turn t (.subscribe s) (t.step (.subscribe s)) := by
  rcases t.broker.subscribe_cases s with ⟨e, herror⟩ | ⟨hvalid, hfree, hjoined⟩
  · simp only [step, herror]
    exact .refused herror
  · simp only [step, hjoined]
    exact .joined hvalid hfree

theorem turn_next (t : Traffic) (ref : ConsumerRef) :
    Turn t (.next ref) (t.step (.next ref)) := by
  rcases t.broker.take_cases ref with ⟨q, k, c, hq, hk, hc, htake⟩ | ⟨hnothing, hsame⟩
  · have hcopy : (t.broker.take ref).1 = .copy c := by rw [htake]
    simp only [step, htake]
    exact .took hq hk hc hcopy
  · have hstep : t.step (.next ref) = t := by
      cases htake : t.broker.take ref with
      | mk taken b =>
          rw [htake] at hsame hnothing
          have hb : b = t.broker := hsame
          cases taken with
          | copy c => exact absurd rfl (hnothing c)
          | nothing => simp only [step, htake, hb]
          | closed => simp only [step, htake, hb]
    rw [hstep]
    exact .waited hnothing

theorem turn_settle {t : Traffic} (hopen : t.broker.closed = false) (serial : Nat)
    (how : Settlement) : Turn t (.settle serial how) (t.step (.settle serial how)) := by
  cases hdelivery : t.delivery? serial with
  | none =>
      simp only [step, hdelivery]
      exact .stray how hdelivery
  | some e =>
      rcases Broker.stays_or_requeues t.broker e.1 how with hstays | ⟨rfl, q, hq⟩
      · simp only [step, hdelivery, Broker.settle_of_not_requeue hopen hstays]
        exact .settled hdelivery hstays
      · simp only [step, hdelivery, Broker.settle_of_requeue hopen hq]
        exact .requeued hdelivery hq

theorem turn_step {t : Traffic} (hopen : t.broker.closed = false) (a : Act) :
    Turn t a (t.step a) := by
  cases a with
  | subscribe s => exact turn_subscribe t s
  | publish p => exact .published p
  | next ref => exact turn_next t ref
  | settle serial how => exact turn_settle hopen serial how
  | forget serial => exact .forgot serial
  | leave ref => exact .left ref

/-!
## Sound traffic
-/

structure Sound (t : Traffic) : Prop where
  broker : t.broker.Sound
  isOpen : t.broker.closed = false

theorem sound_empty : ({} : Traffic).Sound := ⟨Broker.sound_empty, rfl⟩

theorem sound_of_turn {t t' : Traffic} {a : Act} (hturn : Turn t a t') (h : t.Sound) :
    t'.Sound := by
  cases hturn with
  | refused _ => exact h
  | joined _ _ => exact ⟨Broker.sound_joined h.broker _, h.isOpen⟩
  | published p =>
      refine ⟨Broker.sound_publish h.broker p, ?_⟩
      rw [Broker.publish_eq]
      exact h.isOpen
  | took _ _ _ _ => exact ⟨Broker.sound_pop h.broker _, h.isOpen⟩
  | waited _ => exact h
  | stray how _ => exact h
  | settled _ _ => exact ⟨⟨h.broker.names, h.broker.queues, h.broker.ids⟩, h.isOpen⟩
  | requeued _ _ => exact ⟨Broker.sound_deliver h.broker rfl rfl, h.isOpen⟩
  | forgot serial => exact ⟨h.broker, h.isOpen⟩
  | left ref => exact ⟨Broker.sound_unsubscribe h.broker ref, h.isOpen⟩

theorem sound_step {t : Traffic} (h : t.Sound) (a : Act) : (t.step a).Sound :=
  sound_of_turn (turn_step h.isOpen a) h

theorem sound_run {t : Traffic} (h : t.Sound) (acts : List Act) : (t.run acts).Sound := by
  induction acts generalizing t with
  | nil => exact h
  | cons a rest ih => exact ih (sound_step h a)

end Traffic
end Bus
end Courier
