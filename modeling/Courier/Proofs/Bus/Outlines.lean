import Courier.Proofs.Bus.Consumers
import Courier.Proofs.Bus.Requests

/-!
# Outlines of queues

The outline of a queue is what can be told of it from outside: copies without their
numbers, and no turn where there is never more than one consumer.

The main statement is that brokers with the same outlines under all names answer
alike, whatever is asked of them.
-/

namespace Courier
namespace Bus

open scoped List

def Copy.blank (c : Copy) : Copy := { c with serial := 0 }

def Consumer.blank (k : Consumer) : Consumer := { k with buffer := k.buffer.map Copy.blank }

@[simp] theorem Copy.blank_blank (c : Copy) : c.blank.blank = c.blank := rfl

@[simp] theorem Consumer.blank_blank (k : Consumer) : k.blank.blank = k.blank := by
  simp [Consumer.blank]

namespace Queue

def outline (q : Queue) : Queue :=
  { q with
    cursor := if q.exclusive then 0 else q.cursor
    consumers := q.consumers.map Consumer.blank
    backlog := q.backlog.map Copy.blank }

@[simp] theorem outline_outline (q : Queue) : q.outline.outline = q.outline := by
  cases hexclusive : q.exclusive <;> simp [outline, hexclusive]

theorem blank_push (c : Copy) (k : Consumer) :
    (Consumer.push c k).blank = Consumer.push c.blank k.blank := by
  simp [Consumer.blank, Consumer.push]

theorem map_modify {α β : Type} {f : α → α} {f' : β → β} {g : α → β}
    (h : ∀ a, g (f a) = f' (g a)) (i : Nat) (l : List α) :
    (l.modify i f).map g = (l.map g).modify i f' := by
  induction l generalizing i with
  | nil => simp
  | cons a rest ih =>
      cases i with
      | zero => simp [h]
      | succ i => simp [ih]

/-- Where there is never more than one consumer, it makes no difference whose turn it is. -/
theorem turn_outline {q : Queue} (h : q.Narrow) (hactive : q.consumers ≠ []) :
    q.outline.cursor.toNat % q.outline.consumers.length =
      q.cursor.toNat % q.consumers.length := by
  simp only [outline, List.length_map]
  cases hexclusive : q.exclusive with
  | false => simp
  | true =>
      have hone : q.consumers.length = 1 := by
        have hle := h hexclusive
        rw [roll, List.length_map] at hle
        exact Nat.le_antisymm hle (List.length_pos_iff.mpr hactive)
      simp [hone, Nat.mod_one]

theorem outline_deliver {q : Queue} (h : q.Narrow) (c : Copy) :
    (q.deliver c).outline = (q.outline.deliver c.blank).outline := by
  by_cases hempty : q.consumers = []
  · have hempty' : q.outline.consumers = [] := by simp [outline, hempty]
    have hauto : q.outline.autoDelete = q.autoDelete := rfl
    simp only [deliver, hempty, hempty', hauto, List.isEmpty_nil, if_true]
    cases q.autoDelete with
    | true => simp
    | false => cases hexclusive : q.exclusive <;> simp [outline, hempty, hexclusive]
  · have hempty' : q.outline.consumers ≠ [] := by simp [outline, hempty]
    have hturn := turn_outline h hempty
    have hmodify := fun i => map_modify (blank_push c) i q.consumers
    have hmodify' := fun i => map_modify (blank_push c.blank) i (q.consumers.map Consumer.blank)
    simp only [deliver, List.isEmpty_iff, hempty, hempty', if_false, hturn]
    cases hexclusive : q.exclusive <;>
      simp [outline, hexclusive, hmodify, hmodify', Function.comp_def]

theorem narrow_deliver {q : Queue} (h : q.Narrow) (c : Copy) : (q.deliver c).Narrow := by
  intro hexclusive
  rw [(alike_deliver q c).exclusive] at hexclusive
  rw [roll_deliver]
  exact h hexclusive

theorem deliver_congr {q q' : Queue} (h : q.Narrow) (h' : q'.Narrow) {c c' : Copy}
    (hq : q.outline = q'.outline) (hc : c.blank = c'.blank) :
    (q.deliver c).outline = (q'.deliver c').outline := by
  rw [outline_deliver h, outline_deliver h', hq, hc]

theorem foldl_deliver_congr {held held' : List Copy} {q q' : Queue} (h : q.Narrow)
    (h' : q'.Narrow) (hq : q.outline = q'.outline)
    (hheld : held.map Copy.blank = held'.map Copy.blank) :
    (held.foldl deliver q).outline = (held'.foldl deliver q').outline := by
  induction held generalizing q q' held' with
  | nil =>
      cases held' with
      | nil => exact hq
      | cons c' rest' => cases hheld
  | cons c rest ih =>
      cases held' with
      | nil => cases hheld
      | cons c' rest' =>
          rw [List.map_cons, List.map_cons, List.cons.injEq] at hheld
          rw [List.foldl_cons, List.foldl_cons]
          exact ih (narrow_deliver h c) (narrow_deliver h' c') (deliver_congr h h' hq hheld.left)
            hheld.right

theorem outline_attach {q : Queue} (h : q.exclusive = true → q.consumers = []) (binding : String)
    {k : Consumer} (hk : k.buffer = []) :
    (q.attach binding k).outline = (q.outline.attach binding k).outline := by
  have hblank : k.blank = k := by
    cases k
    simp only at hk
    simp [Consumer.blank, hk]
  have hnarrow : ({ q with
      binding := binding, consumers := q.consumers ++ [k], backlog := [] } : Queue).Narrow := by
    intro hexclusive
    simp [roll, h hexclusive]
  refine foldl_deliver_congr hnarrow ?_ ?_ ?_
  · intro hexclusive
    simp [roll, outline, h hexclusive]
  · cases hexclusive : q.exclusive <;> simp [outline, hexclusive, hblank]
  · simp [outline]

theorem outline_detach (q : Queue) (id : Nat) : (q.detach id).outline = q.outline.detach id := by
  simp only [outline, detach, List.filter_map]
  rfl

theorem outline_pop (q : Queue) (id : Nat) : (q.pop id).outline = q.outline.pop id := by
  have hpop : ∀ k : Consumer,
      (if k.id = id then { k with buffer := k.buffer.drop 1 } else k : Consumer).blank =
        if k.blank.id = id then { k.blank with buffer := k.blank.buffer.drop 1 } else k.blank := by
    intro k
    by_cases h : k.id = id <;> simp [Consumer.blank, h]
  simp only [outline, pop, List.map_map, Function.comp_def, hpop]
  rfl

theorem consumer?_outline (q : Queue) (id : Nat) :
    q.outline.consumer? id = (q.consumer? id).map Consumer.blank := by
  simp only [consumer?, outline, List.find?_map]
  rfl

theorem isActive_outline (q : Queue) : q.outline.isActive = q.isActive := by
  simp [isActive, outline]

theorem accepts_outline (q : Queue) : q.outline.accepts = q.accepts := by
  rw [accepts, isActive_outline]
  rfl

theorem refuses_outline (q : Queue) (s : Subscription) :
    Broker.refuses q.outline s = Broker.refuses q s := by
  rw [Broker.refuses, isActive_outline]
  rfl

theorem outline_ofSubscription (s : Subscription) :
    (ofSubscription s).outline = ofSubscription s := by
  cases h : s.exclusiveQueue <;> simp [outline, ofSubscription, h]

theorem pop_of_nothing {q : Queue} (hq : q.Sound) {id : Nat}
    (h : (q.consumer? id).bind (fun k => k.buffer.head?) = none) : q.pop id = q := by
  have hsame : ∀ k ∈ q.consumers,
      (if k.id = id then { k with buffer := k.buffer.drop 1 } else k : Consumer) = k := by
    intro k hk
    by_cases hid : k.id = id
    · subst hid
      rw [consumer?_of_mem hq hk, Option.bind_some, List.head?_eq_none_iff] at h
      cases k
      simp only at h
      simp [h]
    · rw [if_neg hid]
  have hmap : q.consumers.map (fun k =>
      (if k.id = id then { k with buffer := k.buffer.drop 1 } else k : Consumer)) =
      q.consumers :=
    (List.map_congr_left hsame).trans (List.map_id' q.consumers)
  simp only [pop, hmap]

end Queue

/-!
## What requests do to outlines
-/

namespace Broker

open Routing (topicMatches)

def outline? (b : Broker) (name : String) : Option Queue :=
  (b.queue? name).map Queue.outline

/-- What a request makes of the outline under a name, by the number of the next consumer. -/
def effect (next : Nat) (name : String) (o : Option Queue) : Request → Option Queue
  | .subscribe s =>
    if s.queue = name ∧ s.validate = none ∧ o.all (fun q => !refuses q s) then
      some ((o.getD (.ofSubscription s)).attach s.binding
        { id := next, exclusive := s.isExclusive }).outline
    else o
  | .publish p =>
    (o.filter Queue.accepts).map fun q =>
      if topicMatches q.binding p.subject then (q.deliver ⟨0, p⟩).outline else q
  | .take ref => if ref.queue = name then o.map fun q => q.pop ref.id else o
  | .settle queue p how =>
    if queue = name ∧ how = .nack true then o.map fun q => (q.deliver ⟨0, p⟩).outline else o
  | .leave ref => if ref.queue = name then o.map fun q => q.detach ref.id else o
  | _ => o

variable {b : Broker}

theorem outline?_of_queues {b' : Broker} (h : b'.queues = b.queues) (name : String) :
    b'.outline? name = b.outline? name := by
  rw [outline?, queue?_congr h]
  rfl

theorem free_iff (b : Broker) (s : Subscription) :
    (∀ q, b.queue? s.queue = some q → refuses q s = false) ↔
      (b.outline? s.queue).all (fun q => !refuses q s) = true := by
  unfold outline?
  cases b.queue? s.queue with
  | none => simp
  | some q => simp [Queue.refuses_outline]

theorem outline_queueFor (b : Broker) (s : Subscription) :
    (b.queueFor s).outline = (b.outline? s.queue).getD (.ofSubscription s) := by
  unfold queueFor outline?
  cases b.queue? s.queue with
  | none => exact Queue.outline_ofSubscription s
  | some q => rfl

theorem respond_subscribe_of_free {s : Subscription} (hvalid : s.validate = none)
    (hfree : (b.outline? s.queue).all (fun q => !refuses q s) = true) :
    b.respond (.subscribe s) = (.joined ⟨s.queue, b.nextConsumer⟩, b.joined s) := by
  simp only [respond, subscribe_of_free hvalid ((free_iff b s).mpr hfree)]

theorem respond_subscribe_of_refused {s : Subscription} (hvalid : s.validate = none)
    (hrefused : ¬ (b.outline? s.queue).all (fun q => !refuses q s) = true) :
    b.respond (.subscribe s) = (.refused (.queueInUse s.queue), b) := by
  rw [← free_iff] at hrefused
  push Not at hrefused
  rcases hrefused with ⟨q, hq, hrefuses⟩
  rw [ne_eq, Bool.not_eq_false] at hrefuses
  simp only [respond, subscribe_of_refused hvalid hq hrefuses]

theorem outline?_subscribe (b : Broker) (s : Subscription) (name : String) :
    (b.respond (.subscribe s)).2.outline? name =
      effect b.nextConsumer name (b.outline? name) (.subscribe s) := by
  cases hvalid : s.validate with
  | some e => simp [respond, subscribe, effect, hvalid]
  | none =>
      by_cases hfree : (b.outline? s.queue).all (fun q => !refuses q s) = true
      · rw [respond_subscribe_of_free hvalid hfree]
        simp only [effect, hvalid, true_and]
        rw [outline?, queue?_joined]
        by_cases hname : name = s.queue
        · subst hname
          rw [if_pos rfl, if_pos ⟨rfl, hfree⟩, Option.map_some, ← outline_queueFor]
          rw [Queue.outline_attach _ s.binding rfl]
          intro hexclusive
          have hroll := roll_queueFor ((free_iff b s).mpr hfree) hexclusive
          exact List.map_eq_nil_iff.mp hroll
        · rw [if_neg hname, if_neg fun h => hname h.left.symm]
          rfl
      · rw [respond_subscribe_of_refused hvalid hfree]
        have hnot : ¬ (s.queue = name ∧ s.validate = none ∧
            (b.outline? name).all (fun q => !refuses q s) = true) := by
          rintro ⟨rfl, -, h⟩
          exact hfree h
        rw [effect, if_neg hnot]

theorem outline?_publish (hb : b.Regular) (p : Parcel) (name : String) :
    (b.respond (.publish p)).2.outline? name =
      effect b.nextConsumer name (b.outline? name) (.publish p) := by
  rcases queue?_publish hb.sound p name with ⟨n, hqueue, _⟩
  simp only [respond, effect, outline?, hqueue]
  cases hq : b.queue? name with
  | none => rfl
  | some q =>
      cases haccepts : q.accepts with
      | false =>
          simp [Option.filter, Queue.accepts_outline, haccepts]
      | true =>
          have hbinding : q.outline.binding = q.binding := rfl
          have hdeliver : (q.deliver ⟨n, p⟩).outline = (q.outline.deliver ⟨0, p⟩).outline :=
            Queue.outline_deliver (hb.narrow q (mem_of_queue? hq)) ⟨n, p⟩
          cases hmatches : topicMatches q.binding p.subject <;>
            simp [Option.filter, Queue.accepts_outline, haccepts, hbinding, hmatches, hdeliver]

def takenOf (o : Option Queue) (id : Nat) : Option Parcel :=
  ((o.bind fun q => q.consumer? id).bind fun k => k.buffer.head?).map Copy.parcel

theorem respond_take (hb : b.Regular) (ref : ConsumerRef) :
    (b.respond (.take ref)).1 = .taken (takenOf (b.outline? ref.queue) ref.id) ∧
      ∀ name, (b.respond (.take ref)).2.outline? name =
        effect b.nextConsumer name (b.outline? name) (.take ref) := by
  have htaken : takenOf (b.outline? ref.queue) ref.id =
      ((b.consumer? ref).bind fun k => k.buffer.head?).map Copy.parcel := by
    unfold takenOf outline? consumer?
    cases hq : b.queue? ref.queue with
    | none => rfl
    | some q =>
        simp only [Option.map_some, Option.bind_some, Option.bind_eq_bind, Queue.consumer?_outline]
        cases hk : q.consumer? ref.id with
        | none => rfl
        | some k => cases hbuffer : k.buffer <;> simp [Consumer.blank, Copy.blank, hbuffer]
  cases hhead : (b.consumer? ref).bind fun k => k.buffer.head? with
  | some c =>
      rw [htaken, hhead]
      have htake : b.take ref = (.copy c,
          { b with queues := updateQueue ref.queue (fun q => q.pop ref.id) b.queues }) := by
        simp only [take, hhead]
      simp only [respond, htake]
      refine ⟨rfl, fun name => ?_⟩
      rw [outline?, queue?_updateQueue (f := fun q => q.pop ref.id) (fun _ => rfl)]
      by_cases hname : name = ref.queue
      · subst hname
        simp [effect, outline?, Function.comp_def, Queue.outline_pop]
      · have hne : ref.queue ≠ name := fun h => hname h.symm
        simp [effect, outline?, hname, hne]
  | none =>
      rw [htaken, hhead]
      have htake : b.take ref = (.nothing, b) := by
        simp [take, hhead, hb.isOpen]
      simp only [respond, htake]
      refine ⟨rfl, fun name => ?_⟩
      by_cases hname : ref.queue = name
      · subst hname
        simp only [effect, if_true, outline?]
        cases hq : b.queue? ref.queue with
        | none => rfl
        | some q =>
            have hnone : (q.consumer? ref.id).bind (fun k => k.buffer.head?) = none := by
              simpa [consumer?, hq] using hhead
            have hpop := Queue.pop_of_nothing (hb.sound.queues q (mem_of_queue? hq)) hnone
            simp only [Option.map_some]
            rw [← Queue.outline_pop, hpop]
      · simp only [effect, if_neg hname]

theorem respond_settle (hb : b.Regular) (queue : String) (p : Parcel) (how : Settlement) :
    (b.respond (.settle queue p how)).1 = .done ∧
      ∀ name, (b.respond (.settle queue p how)).2.outline? name =
        effect b.nextConsumer name (b.outline? name) (.settle queue p how) := by
  rcases b.stays_or_requeues queue how with hstays | ⟨rfl, q, hq⟩
  · simp only [respond, settle_of_not_requeue hb.isOpen hstays]
    refine ⟨trivial, fun name => (outline?_of_queues (b := b) rfl name).trans ?_⟩
    by_cases hputs : queue = name ∧ how = .nack true
    · rcases hputs with ⟨rfl, rfl⟩
      have hnone := hstays.resolve_left (fun h => h rfl)
      simp [effect, outline?, hnone]
    · simp only [effect, if_neg hputs]
  · simp only [respond, settle_of_requeue hb.isOpen hq]
    refine ⟨trivial, fun name => ?_⟩
    have hqueue := queue?_updateQueue (f := fun q => q.deliver ⟨b.nextSerial, p⟩)
      (fun q => (Queue.alike_deliver q _).name) b queue name
    have hdeliver : (q.deliver ⟨b.nextSerial, p⟩).outline =
        (q.outline.deliver ⟨0, p⟩).outline :=
      Queue.outline_deliver (hb.narrow q (mem_of_queue? hq)) ⟨b.nextSerial, p⟩
    have houtline := congrArg (Option.map Queue.outline) hqueue
    refine Eq.trans houtline ?_
    by_cases hname : name = queue
    · subst hname
      simp [effect, outline?, hq, hdeliver]
    · have hne : queue ≠ name := fun h => hname h.symm
      simp [effect, outline?, hname, hne]

theorem outline?_leave (b : Broker) (ref : ConsumerRef) (name : String) :
    (b.respond (.leave ref)).2.outline? name =
      effect b.nextConsumer name (b.outline? name) (.leave ref) := by
  simp only [respond, effect, outline?, queue?_unsubscribe]
  by_cases hname : name = ref.queue
  · subst hname
    simp [Function.comp_def, Queue.outline_detach]
  · have hne : ref.queue ≠ name := fun h => hname h.symm
    simp [hname, hne]

/-- What a request makes of an outline depends on nothing else under any name. -/
theorem outline?_respond (hb : b.Regular) (r : Request) (name : String) :
    (b.respond r).2.outline? name = effect b.nextConsumer name (b.outline? name) r := by
  cases r with
  | subscribe s => exact outline?_subscribe b s name
  | publish p => exact outline?_publish hb p name
  | take ref => exact (respond_take hb ref).right name
  | settle queue p how => exact (respond_settle hb queue p how).right name
  | leave ref => exact outline?_leave b ref name
  | activeQueues => rfl
  | settlements => rfl
  | collect => rfl

/-!
## Brokers with the same outlines
-/

def activeAt (b : Broker) (name : String) : Bool :=
  (b.outline? name).any Queue.isActive

theorem mem_active_iff (hb : b.Regular) (name : String) :
    name ∈ (b.queues.filter Queue.isActive).map Queue.name ↔ b.activeAt name = true := by
  unfold activeAt outline?
  constructor
  · intro h
    rcases List.mem_map.mp h with ⟨q, hq, rfl⟩
    rcases List.mem_filter.mp hq with ⟨hmem, hactive⟩
    rw [queue?_of_mem hb.sound hmem]
    simpa [Queue.isActive_outline] using hactive
  · intro h
    cases hq : b.queue? name with
    | none =>
        rw [hq] at h
        cases h
    | some q =>
        rw [hq, Option.map_some, Option.any_some, Queue.isActive_outline] at h
        exact List.mem_map.mpr ⟨q, List.mem_filter.mpr ⟨mem_of_queue? hq, h⟩, name_of_queue? hq⟩

theorem activeQueues_congr {b' : Broker} (hb : b.Regular) (hb' : b'.Regular)
    (h : ∀ name, b.activeAt name = b'.activeAt name) : b.activeQueues = b'.activeQueues := by
  have hnodup : ∀ {b : Broker}, b.Regular →
      ((b.queues.filter Queue.isActive).map Queue.name).Nodup := fun hb =>
    hb.sound.names.sublist (List.filter_sublist.map Queue.name)
  have hperm : (b.queues.filter Queue.isActive).map Queue.name ~
      (b'.queues.filter Queue.isActive).map Queue.name := by
    rw [List.perm_ext_iff_of_nodup (hnodup hb) (hnodup hb')]
    intro name
    rw [mem_active_iff hb, mem_active_iff hb', h name]
  have hsorted : ∀ l : List String,
      (l.mergeSort fun a c => decide (a ≤ c)).Pairwise fun a c => decide (a ≤ c) = true :=
    List.pairwise_mergeSort
      (fun a c d hac hcd => decide_eq_true (String.le_trans (of_decide_eq_true hac)
        (of_decide_eq_true hcd)))
      (fun a c => by simpa using String.le_total a c)
  refine List.Perm.eq_of_pairwise ?_ (hsorted _) (hsorted _) ?_
  · intro a c _ _ hac hca
    exact String.le_antisymm (of_decide_eq_true hac) (of_decide_eq_true hca)
  · exact (List.mergeSort_perm _ _).trans (hperm.trans (List.mergeSort_perm _ _).symm)

/-- Brokers that are regular and differ in their queues and the numbers of copies only. -/
structure Level (b b' : Broker) : Prop where
  regular : b.Regular
  regular' : b'.Regular
  published : b.published = b'.published
  settled : b.settled = b'.settled
  nextConsumer : b.nextConsumer = b'.nextConsumer

def publishedBy (published : List Parcel) : Request → List Parcel
  | .publish p => published ++ [p]
  | .collect => []
  | _ => published

def settledBy (settled : List Settled) : Request → List Settled
  | .settle queue p how => settled ++ [⟨queue, p.subject, how⟩]
  | _ => settled

def nextConsumerBy (next : Nat) : Answer → Nat
  | .joined _ => next + 1
  | _ => next

/-- What a request does besides the queues. -/
structure Besides (b : Broker) (r : Request) (b' : Broker) : Prop where
  published : b'.published = publishedBy b.published r
  settled : b'.settled = settledBy b.settled r
  nextConsumer : b'.nextConsumer = nextConsumerBy b.nextConsumer (b.respond r).1

theorem besides_respond (hb : b.Regular) (r : Request) : b.Besides r (b.respond r).2 := by
  cases r with
  | subscribe s =>
      rcases b.subscribe_cases s with ⟨e, herror⟩ | ⟨_, _, hjoined⟩
      · constructor <;> simp only [respond, herror] <;> rfl
      · constructor <;> simp only [respond, hjoined] <;> rfl
  | publish p => constructor <;> simp only [respond, publish_eq] <;> rfl
  | take ref =>
      rcases b.take_cases ref with ⟨q, k, c, _, _, _, htake⟩ | ⟨_, hsame⟩
      · constructor <;> simp only [respond, htake] <;> rfl
      · constructor <;> simp only [respond, hsame] <;> rfl
  | settle queue p how =>
      rcases b.stays_or_requeues queue how with hstays | ⟨rfl, q, hq⟩
      · constructor <;> simp only [respond, settle_of_not_requeue hb.isOpen hstays] <;> rfl
      · constructor <;> simp only [respond, settle_of_requeue hb.isOpen hq] <;> rfl
  | leave ref => constructor <;> rfl
  | activeQueues => constructor <;> rfl
  | settlements => constructor <;> rfl
  | collect => constructor <;> rfl

theorem Level.respond {b' : Broker} (h : Level b b') {r : Request}
    (hanswer : (b.respond r).1 = (b'.respond r).1) :
    Level (b.respond r).2 (b'.respond r).2 := by
  have hbesides := besides_respond h.regular r
  have hbesides' := besides_respond h.regular' r
  refine ⟨regular_respond h.regular r, regular_respond h.regular' r, ?_, ?_, ?_⟩
  · rw [hbesides.published, hbesides'.published, h.published]
  · rw [hbesides.settled, hbesides'.settled, h.settled]
  · rw [hbesides.nextConsumer, hbesides'.nextConsumer, hanswer, h.nextConsumer]

/-- An answer depends on the outline under one name at most, and on where somebody is. -/
theorem answer_congr {b' : Broker} (h : Level b b') (r : Request)
    (hsubscribe : ∀ s, r = .subscribe s → s.validate = none →
      b.outline? s.queue = b'.outline? s.queue)
    (htake : ∀ ref, r = .take ref →
      takenOf (b.outline? ref.queue) ref.id = takenOf (b'.outline? ref.queue) ref.id)
    (hactive : ∀ name, b.activeAt name = b'.activeAt name) :
    (b.respond r).1 = (b'.respond r).1 := by
  cases r with
  | subscribe s =>
      cases hvalid : s.validate with
      | some e => simp only [respond, subscribe, hvalid]
      | none =>
          have hsame := hsubscribe s rfl hvalid
          by_cases hfree : (b.outline? s.queue).all (fun q => !refuses q s) = true
          · rw [respond_subscribe_of_free hvalid hfree,
              respond_subscribe_of_free hvalid (hsame ▸ hfree), h.nextConsumer]
          · rw [respond_subscribe_of_refused hvalid hfree,
              respond_subscribe_of_refused hvalid (hsame ▸ hfree)]
  | publish p => rfl
  | take ref =>
      rw [(respond_take h.regular ref).left, (respond_take h.regular' ref).left, htake ref rfl]
  | settle queue p how =>
      rw [(respond_settle h.regular queue p how).left, (respond_settle h.regular' queue p how).left]
  | leave ref => rfl
  | activeQueues =>
      exact congrArg Answer.activeQueues (activeQueues_congr h.regular h.regular' hactive)
  | settlements => exact congrArg Answer.settlements h.settled
  | collect => exact congrArg Answer.collected h.published

/-- Level brokers whose queues have the same outlines. -/
structure Akin (b b' : Broker) : Prop extends Level b b' where
  outlines : ∀ name, b.outline? name = b'.outline? name

theorem simulates_akin : Simulates respond respond Akin := by
  intro b b' r h
  have hanswer : (b.respond r).1 = (b'.respond r).1 := by
    refine answer_congr h.toLevel r (fun s _ _ => h.outlines s.queue) ?_ ?_
    · intro ref _
      rw [h.outlines ref.queue]
    · intro name
      rw [activeAt, activeAt, h.outlines name]
  refine ⟨hanswer, h.toLevel.respond hanswer, ?_⟩
  intro name
  rw [outline?_respond h.regular, outline?_respond h.regular', h.outlines name, h.nextConsumer]

end Broker
end Bus
end Courier
