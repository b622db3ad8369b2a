import Courier.Proofs.Bus.Outlines
import Courier.Proofs.Routing.Names

/-!
# Queues that outlast their last consumer

A queue that goes with its last consumer is cleared away when something is published,
and not before. Whoever subscribes under its name in between finds the queue as it was
left, with the flags of its first subscriber and with the turn where it stood.

The main statement is `indistinct_iff_renews`: this cannot be told from a bus where the
queue is not there, if and only if the first request that decides what becomes of the
queue publishes something, or asks for a queue like it whose turn is where it began.
-/

namespace Courier
namespace Bus

open Routing (topicMatches topicMatches_self)

namespace Request

/-- The requests that clear away a queue left under a name, or that take it up. -/
inductive Decides (name : String) : Request → Prop where
  | publish (p : Parcel) : Decides name (.publish p)
  | subscribe {s : Subscription} (queue : s.queue = name) (valid : s.validate = none) :
      Decides name (.subscribe s)

/-- The requests that leave nothing of a queue as it was left, or ask for it as it is. -/
inductive Renews (q : Queue) : Request → Prop where
  | publish (p : Parcel) : Renews q (.publish p)
  | subscribe {s : Subscription} (exclusive : s.exclusiveQueue = q.exclusive)
      (autoDelete : s.autoDelete = true) (turn : q.exclusive = true ∨ q.cursor = 0) :
      Renews q (.subscribe s)

end Request

/-!
## While the queue is left
-/

namespace Queue

/-- The outline of a queue that goes with its consumers, when none is left. -/
structure Left (o : Queue) : Prop where
  outline : o.outline = o
  autoDelete : o.autoDelete = true
  consumers : o.consumers = []
  backlog : o.backlog = []

theorem left_outline {q : Queue} (hq : q.Sound) (h : q.isAbandoned = true) : q.outline.Left := by
  have hnone : q.accepts = false := by rw [accepts_eq, h, Bool.not_true]
  rcases idle_of_not_accepts hnone with ⟨hconsumers, hauto⟩
  have hbacklog : q.backlog = [] := by
    by_contra hne
    have hkept := (hq.idle hne).right
    rw [hauto] at hkept
    cases hkept
  exact ⟨outline_outline q, hauto, by simp [outline, hconsumers], by simp [outline, hbacklog]⟩

variable {o : Queue}

theorem Left.accepts (h : o.Left) : o.accepts = false := by
  simp [Queue.accepts, isActive, h.consumers, h.autoDelete]

theorem Left.isActive (h : o.Left) : o.isActive = false := by
  simp [Queue.isActive, h.consumers]

theorem Left.deliver (h : o.Left) (c : Copy) : o.deliver c = o :=
  deliver_of_not_accepts h.accepts c

theorem Left.detach (h : o.Left) (id : Nat) : o.detach id = o := by
  cases o
  have hconsumers := h.consumers
  simp only at hconsumers
  simp [Queue.detach, hconsumers]

theorem Left.pop (h : o.Left) (id : Nat) : o.pop id = o := by
  cases o
  have hconsumers := h.consumers
  simp only at hconsumers
  simp [Queue.pop, hconsumers]

theorem Left.cursor_eq_zero (h : o.Left) (hexclusive : o.exclusive = true) : o.cursor = 0 := by
  have houtline := congrArg Queue.cursor h.outline
  simp only [Queue.outline, hexclusive, if_true] at houtline
  exact houtline.symm

end Queue

namespace Broker

variable {name : String} {o : Queue} {b b' : Broker}

/-- Other requests make nothing of a queue that was left, nor of one that is not there. -/
theorem effect_of_not_decides (next : Nat) {r : Request} (hr : ¬ r.Decides name)
    {left : Option Queue} (hleft : ∀ q, left = some q → q.Left) :
    effect next name left r = left := by
  have hmap : ∀ {f : Queue → Queue}, (∀ q, q.Left → f q = q) → left.map f = left := by
    intro f hf
    cases left with
    | none => rfl
    | some q => exact congrArg some (hf q (hleft q rfl))
  cases r with
  | subscribe s =>
      refine if_neg ?_
      rintro ⟨hname, hvalid, _⟩
      exact hr (.subscribe hname hvalid)
  | publish p => exact absurd (.publish p) hr
  | take ref =>
      simp only [effect, hmap fun q hq => hq.pop ref.id, ite_self]
  | settle queue p how =>
      have hdeliver : ∀ q : Queue, q.Left → (q.deliver ⟨0, p⟩).outline = q := by
        intro q hq
        rw [hq.deliver, hq.outline]
      simp only [effect, hmap hdeliver, ite_self]
  | leave ref =>
      simp only [effect, hmap fun q hq => hq.detach ref.id, ite_self]
  | activeQueues => rfl
  | settlements => rfl
  | collect => rfl

/-- A broker with a queue that was left under a name, and one without it. -/
structure Outlasts (name : String) (o : Queue) (b b' : Broker) : Prop extends Level b b' where
  stale : b.outline? name = some o
  absent : b'.outline? name = none
  others : ∀ other, other ≠ name → b.outline? other = b'.outline? other

theorem outlasts_respond (ho : o.Left) (h : Outlasts name o b b') {r : Request}
    (hr : ¬ r.Decides name) :
    (b.respond r).1 = (b'.respond r).1 ∧
      Outlasts name o (b.respond r).2 (b'.respond r).2 := by
  have hanswer : (b.respond r).1 = (b'.respond r).1 := by
    refine answer_congr h.toLevel r ?_ ?_ ?_
    · rintro s rfl hvalid
      exact h.others s.queue fun hname => hr (.subscribe hname hvalid)
    · intro ref _
      by_cases hname : ref.queue = name
      · simp [hname, h.stale, h.absent, takenOf, Queue.consumer?, ho.consumers]
      · rw [h.others ref.queue hname]
    · intro other
      by_cases hname : other = name
      · simp [activeAt, hname, h.stale, h.absent, ho.isActive]
      · rw [activeAt, activeAt, h.others other hname]
  refine ⟨hanswer, h.toLevel.respond hanswer, ?_, ?_, ?_⟩
  · rw [outline?_respond h.regular, h.stale]
    refine effect_of_not_decides _ hr fun q hq => ?_
    cases hq
    exact ho
  · rw [outline?_respond h.regular', h.absent]
    refine effect_of_not_decides _ hr fun q hq => ?_
    cases hq
  · intro other hother
    rw [outline?_respond h.regular, outline?_respond h.regular', h.others other hother,
      h.nextConsumer]

theorem outlasts_after (ho : o.Left) {idle : List Request} (hidle : ∀ r ∈ idle, ¬ r.Decides name)
    (h : Outlasts name o b b') :
    answers respond b idle = answers respond b' idle ∧
      Outlasts name o (after respond b idle) (after respond b' idle) := by
  induction idle generalizing b b' with
  | nil => exact ⟨rfl, h⟩
  | cons r rest ih =>
      rcases outlasts_respond ho h (hidle r List.mem_cons_self) with ⟨hanswer, hnext⟩
      rcases ih (fun r hr => hidle r (List.mem_cons_of_mem _ hr)) hnext with ⟨hrest, hafter⟩
      exact ⟨List.cons_eq_cons.mpr ⟨hanswer, hrest⟩, hafter⟩

def without (b : Broker) (name : String) : Broker :=
  { b with queues := b.queues.filter fun q => q.name ≠ name }

theorem regular_without (hb : b.Regular) (name : String) : (b.without name).Regular where
  sound := by
    have hmem : ∀ q ∈ (b.without name).queues, q ∈ b.queues := fun q hq =>
      (List.mem_filter.mp hq).left
    exact ⟨hb.sound.names.sublist (List.filter_sublist.map Queue.name),
      fun q hq => hb.sound.queues q (hmem q hq), fun q hq => hb.sound.ids q (hmem q hq)⟩
  isOpen := hb.isOpen
  narrow := fun q hq => hb.narrow q (List.mem_filter.mp hq).left

theorem queue?_without (b : Broker) (name other : String) :
    (b.without name).queue? other = if other = name then none else b.queue? other := by
  simp only [queue?, without, List.find?_filter]
  by_cases h : other = name
  · subst h
    rw [if_pos rfl]
    apply List.find?_eq_none.mpr
    intro q _
    by_cases hq : q.name = other <;> simp [hq]
  · rw [if_neg h]
    congr 1
    funext q
    by_cases hq : q.name = other <;> simp [hq, h]

theorem outlasts_without (hb : b.Regular) {q : Queue} (hq : b.queue? name = some q) :
    Outlasts name q.outline b (b.without name) where
  regular := hb
  regular' := regular_without hb name
  published := rfl
  settled := rfl
  nextConsumer := rfl
  stale := by rw [outline?, hq, Option.map_some]
  absent := by rw [outline?, queue?_without, if_pos rfl, Option.map_none]
  others := fun other hother => by rw [outline?, outline?, queue?_without, if_neg hother]

/-!
## When somebody subscribes under the name
-/

structure Joined (b : Broker) (s : Subscription) (id : Nat) (o : Queue) : Prop where
  regular : b.Regular
  valid : s.validate = none
  next : b.nextConsumer = id + 1
  outline : b.outline? s.queue = some o
  binding : o.binding = s.binding
  consumers : o.consumers = [{ id := id, exclusive := s.isExclusive }]
  backlog : o.backlog = []

def joinedBy (s : Subscription) (id : Nat) (o : Queue) : Queue :=
  { o with binding := s.binding, consumers := [{ id := id, exclusive := s.isExclusive }] }

theorem outline_attach_left {o : Queue} (ho : o.Left) (s : Subscription) (id : Nat) :
    (o.attach s.binding { id := id, exclusive := s.isExclusive }).outline = joinedBy s id o := by
  have hcursor := congrArg Queue.cursor ho.outline
  simp only [Queue.outline] at hcursor
  simp [Queue.attach, ho.consumers, ho.backlog, Queue.outline, joinedBy, Consumer.blank, hcursor]

theorem outline_attach_ofSubscription (s : Subscription) (id : Nat) :
    ((Queue.ofSubscription s).attach s.binding { id := id, exclusive := s.isExclusive }).outline =
      joinedBy s id (.ofSubscription s) := by
  cases h : s.exclusiveQueue <;>
    simp [Queue.attach, Queue.ofSubscription, Queue.outline, joinedBy, Consumer.blank, h]

theorem joined_respond (hb : b.Regular) {s : Subscription} (hvalid : s.validate = none)
    (hleft : ∀ q, b.outline? s.queue = some q → q.Left) :
    (b.respond (.subscribe s)).1 = .joined ⟨s.queue, b.nextConsumer⟩ ∧
      Joined (b.respond (.subscribe s)).2 s b.nextConsumer
        (joinedBy s b.nextConsumer ((b.outline? s.queue).getD (.ofSubscription s))) := by
  have hfree : (b.outline? s.queue).all (fun q => !refuses q s) = true := by
    cases h : b.outline? s.queue with
    | none => rfl
    | some q => simp [refuses, (hleft q h).isActive]
  have hanswer : (b.respond (.subscribe s)).1 = .joined ⟨s.queue, b.nextConsumer⟩ := by
    rw [respond_subscribe_of_free hvalid hfree]
  have hbesides := besides_respond hb (.subscribe s)
  refine ⟨hanswer, regular_respond hb _, hvalid, ?_, ?_, rfl, rfl, ?_⟩
  · rw [hbesides.nextConsumer, hanswer]
    rfl
  · rw [outline?_respond hb, effect, if_pos ⟨rfl, hvalid, hfree⟩]
    cases h : b.outline? s.queue with
    | none => exact congrArg some (outline_attach_ofSubscription s _)
    | some q => exact congrArg some (outline_attach_left (hleft q h) s _)
  · cases h : b.outline? s.queue with
    | none => rfl
    | some q => exact (hleft q h).backlog

/-!
## Telling queues apart
-/

variable {s : Subscription} {id : Nat}

theorem Joined.answer_sharing (h : Joined b s id o) :
    (b.respond (.subscribe (sharing s))).1 =
      if o.exclusive then .refused (.queueInUse s.queue) else .joined ⟨s.queue, id + 1⟩ := by
  have hvalid : (sharing s).validate = none := h.valid
  have hall : (b.outline? (sharing s).queue).all (fun q => !refuses q (sharing s)) =
      !o.exclusive := by
    have hq : b.outline? (sharing s).queue = some o := h.outline
    rw [hq]
    simp [refuses, sharing, Subscription.isExclusive, Queue.isActive, h.consumers]
  cases hexclusive : o.exclusive with
  | true =>
      rw [hexclusive] at hall
      rw [respond_subscribe_of_refused hvalid (by rw [hall]; exact Bool.false_ne_true), if_pos rfl]
      rfl
  | false =>
      rw [hexclusive] at hall
      rw [respond_subscribe_of_free hvalid hall, if_neg Bool.false_ne_true, h.next]
      rfl

theorem Joined.respond_leave (h : Joined b s id o) :
    (b.respond (.leave ⟨s.queue, id⟩)).2.outline? s.queue = some { o with consumers := [] } ∧
      (b.respond (.leave ⟨s.queue, id⟩)).2.nextConsumer = id + 1 := by
  constructor
  · rw [outline?_respond h.regular, effect, if_pos rfl, h.outline]
    simp [Queue.detach, h.consumers]
  · rw [(besides_respond h.regular _).nextConsumer]
    exact h.next

theorem answers_subscribe_take (hb : b.Regular) (hvalid : s.validate = none)
    (hfree : (b.outline? s.queue).all (fun q => !refuses q s) = true) :
    answers respond b [.subscribe s, .take ⟨s.queue, b.nextConsumer⟩] =
      [.joined ⟨s.queue, b.nextConsumer⟩,
        .taken (takenOf (some (((b.outline? s.queue).getD (.ofSubscription s)).attach s.binding
          { id := b.nextConsumer, exclusive := s.isExclusive }).outline) b.nextConsumer)] := by
  have hjoined := outline?_respond hb (.subscribe s) s.queue
  rw [effect, if_pos ⟨rfl, hvalid, hfree⟩] at hjoined
  have htaken := (respond_take (regular_respond hb (.subscribe s))
    ⟨s.queue, b.nextConsumer⟩).left
  rw [hjoined] at htaken
  simp only [answers, htaken]
  rw [respond_subscribe_of_free hvalid hfree]

theorem Joined.outline?_left (h : Joined b s id o) {p : Parcel}
    (hp : topicMatches s.binding p.subject = true) :
    (after respond b [.leave ⟨s.queue, id⟩, .publish p]).outline? s.queue =
      if o.autoDelete then none
      else some ({ o with consumers := [], backlog := [⟨0, p⟩] } : Queue).outline := by
  have hpublished := outline?_respond (regular_respond h.regular (.leave ⟨s.queue, id⟩))
    (.publish p) s.queue
  rw [h.respond_leave.left] at hpublished
  refine hpublished.trans ?_
  cases o.autoDelete <;>
    simp [effect, Queue.accepts, Queue.isActive, Option.filter, h.binding, hp, Queue.deliver,
      h.backlog]

theorem Joined.nextConsumer_left (h : Joined b s id o) (p : Parcel) :
    (after respond b [.leave ⟨s.queue, id⟩, .publish p]).nextConsumer = id + 1 :=
  (besides_respond (regular_respond h.regular (.leave ⟨s.queue, id⟩))
    (.publish p)).nextConsumer.trans h.respond_leave.right

theorem Joined.answers_left (h : Joined b s id o) {p : Parcel}
    (hp : topicMatches s.binding p.subject = true) :
    answers respond b
        [.leave ⟨s.queue, id⟩, .publish p, .subscribe s, .take ⟨s.queue, id + 1⟩] =
      [.done, .done, .joined ⟨s.queue, id + 1⟩,
        .taken (if o.autoDelete then none else some p)] := by
  have hregular := regular_after h.regular [.leave ⟨s.queue, id⟩, .publish p]
  have houtline := h.outline?_left hp
  have hnext := h.nextConsumer_left p
  refine (answers_append respond b [.leave ⟨s.queue, id⟩, .publish p]
    [.subscribe s, .take ⟨s.queue, id + 1⟩]).trans ?_
  generalize after respond b [.leave ⟨s.queue, id⟩, .publish p] = b₂ at *
  have hfree : (b₂.outline? s.queue).all (fun q => !refuses q s) = true := by
    rw [houtline]
    cases o.autoDelete <;> simp [refuses, Queue.isActive, Queue.outline]
  rw [← hnext, answers_subscribe_take hregular h.valid hfree, houtline, hnext]
  cases o.autoDelete with
  | true =>
      simp only [if_true, Option.getD_none, outline_attach_ofSubscription]
      simp [answers, respond, takenOf, joinedBy, Queue.consumer?]
  | false =>
      simp [answers, respond, takenOf, Queue.consumer?, Queue.attach, Queue.outline,
        Queue.deliver, Queue.Consumer.push, Consumer.blank, Copy.blank, Nat.mod_one]

/-- A queue that somebody joined first and a number of others have joined since. -/
structure Shared (b : Broker) (s : Subscription) (id others : Nat) (turn : UInt64) : Prop where
  regular : b.Regular
  exists_outline : ∃ o k rest, b.outline? s.queue = some o ∧ o.exclusive = false ∧
    o.binding = s.binding ∧ o.cursor = turn ∧ o.backlog = [] ∧ o.consumers = k :: rest ∧
    k.id = id ∧ k.buffer = [] ∧ rest.length = others

theorem Joined.shared (h : Joined b s id o) (hexclusive : o.exclusive = false) :
    Shared b s id 0 o.cursor :=
  ⟨h.regular, o, _, [], h.outline, hexclusive, h.binding, rfl, h.backlog, h.consumers, rfl, rfl,
    rfl⟩

theorem Shared.more {others : Nat} {turn : UInt64} (h : Shared b s id others turn)
    (hvalid : s.validate = none) :
    Shared (b.respond (.subscribe (sharing s))).2 s id (others + 1) turn := by
  rcases h.exists_outline with ⟨o, k, rest, houtline, hexclusive, hbinding, hcursor, hbacklog,
    hconsumers, hid, hbuffer, hrest⟩
  have hfree : (b.outline? (sharing s).queue).all (fun q => !refuses q (sharing s)) = true := by
    have hq : b.outline? (sharing s).queue = some o := houtline
    rw [hq]
    simp [refuses, hexclusive, sharing, Subscription.isExclusive]
  have hjoined := outline?_respond h.regular (.subscribe (sharing s)) s.queue
  rw [effect, if_pos ⟨rfl, hvalid, hfree⟩, houtline, Option.getD_some] at hjoined
  refine ⟨regular_respond h.regular _, _, k.blank,
    (rest ++ [({ id := b.nextConsumer, exclusive := false } : Consumer)]).map Consumer.blank,
    hjoined, ?_⟩
  simp [Queue.attach, Queue.outline, hexclusive, hcursor, hbacklog, hconsumers, hid, hbuffer,
    hrest, sharing, Consumer.blank, Subscription.isExclusive]

theorem Shared.answers_turn {others : Nat} {turn : UInt64} (h : Shared b s id others turn)
    {p : Parcel} (hp : topicMatches s.binding p.subject = true) :
    answers respond b [.publish p, .take ⟨s.queue, id⟩] =
      [.done, .taken (if turn.toNat % (others + 1) = 0 then some p else none)] := by
  rcases h.exists_outline with ⟨o, k, rest, houtline, hexclusive, hbinding, hcursor, hbacklog,
    hconsumers, hid, hbuffer, hrest⟩
  have hpublished := outline?_respond h.regular (.publish p) s.queue
  have htaken := (respond_take (regular_respond h.regular (.publish p)) ⟨s.queue, id⟩).left
  rw [hpublished, houtline] at htaken
  have hoff : takenOf (effect b.nextConsumer s.queue (some o) (.publish p)) id =
      if turn.toNat % (others + 1) = 0 then some p else none := by
    cases hturn : turn.toNat % (others + 1) with
    | zero =>
        simp [effect, Queue.accepts, Queue.isActive, Option.filter, hconsumers, hbinding, hp,
          Queue.deliver, hcursor, hrest, hturn, takenOf, Queue.consumer?, Queue.outline,
          Queue.Consumer.push, Consumer.blank, Copy.blank, hid, hbuffer]
    | succ i =>
        simp [effect, Queue.accepts, Queue.isActive, Option.filter, hconsumers, hbinding, hp,
          Queue.deliver, hcursor, hrest, hturn, takenOf, Queue.consumer?, Queue.outline,
          Consumer.blank, hid, hbuffer]
  simp only [answers, htaken, hoff]
  rfl

theorem Shared.after {others : Nat} {turn : UInt64} (h : Shared b s id others turn)
    (hvalid : s.validate = none) (more : Nat) :
    Shared (after respond b (List.replicate more (.subscribe (sharing s)))) s id (others + more)
      turn := by
  induction more generalizing b others with
  | zero => exact h
  | succ more ih =>
      have hrest := ih (h.more hvalid)
      rw [Nat.add_right_comm] at hrest
      exact hrest

variable {o' : Queue}

theorem Joined.exclusive_eq (h : Joined b s id o) (h' : Joined b' s id o')
    (hsame : ∀ later, answers respond b later = answers respond b' later) :
    o.exclusive = o'.exclusive := by
  have hanswer := (List.cons.inj (hsame [.subscribe (sharing s)])).left
  rw [h.answer_sharing, h'.answer_sharing] at hanswer
  cases hexclusive : o.exclusive <;> cases hexclusive' : o'.exclusive <;>
    simp [hexclusive, hexclusive'] at hanswer ⊢

theorem Joined.autoDelete_eq (h : Joined b s id o) (h' : Joined b' s id o')
    (hsame : ∀ later, answers respond b later = answers respond b' later) :
    o.autoDelete = o'.autoDelete := by
  have hmatches : topicMatches s.binding (⟨s.binding, [], []⟩ : Parcel).subject = true :=
    topicMatches_self s.binding
  have hanswers := hsame [.leave ⟨s.queue, id⟩, .publish ⟨s.binding, [], []⟩, .subscribe s,
    .take ⟨s.queue, id + 1⟩]
  rw [h.answers_left hmatches, h'.answers_left hmatches] at hanswers
  cases hauto : o.autoDelete <;> cases hauto' : o'.autoDelete <;>
    simp [hauto, hauto'] at hanswers ⊢

theorem Joined.cursor_eq_zero (h : Joined b s id o) (h' : Joined b' s id o')
    (hexclusive : o.exclusive = false) (hexclusive' : o'.exclusive = false)
    (hstart : o'.cursor = 0)
    (hsame : ∀ later, answers respond b later = answers respond b' later) : o.cursor = 0 := by
  have hmatches : topicMatches s.binding (⟨s.binding, [], []⟩ : Parcel).subject = true :=
    topicMatches_self s.binding
  have hshared := (h.shared hexclusive).after h.valid o.cursor.toNat
  have hshared' := (h'.shared hexclusive').after h.valid o.cursor.toNat
  have hanswers := hsame (List.replicate o.cursor.toNat (.subscribe (sharing s)) ++
    [.publish ⟨s.binding, [], []⟩, .take ⟨s.queue, id⟩])
  have hfirst := hsame (List.replicate o.cursor.toNat (.subscribe (sharing s)))
  rw [answers_append, answers_append, hfirst, List.append_cancel_left_eq,
    hshared.answers_turn hmatches, hshared'.answers_turn hmatches, hstart] at hanswers
  have hlt : o.cursor.toNat % (0 + o.cursor.toNat + 1) = o.cursor.toNat :=
    Nat.mod_eq_of_lt (by omega)
  rw [hlt] at hanswers
  by_contra hne
  have hnat : o.cursor.toNat ≠ 0 := fun h0 => hne (UInt64.toNat_inj.mp h0)
  simp [hnat] at hanswers

theorem name_of_outline? (h : b.outline? name = some o) : o.name = name := by
  rcases Option.map_eq_some_iff.mp h with ⟨q, hq, rfl⟩
  show q.name = name
  exact name_of_queue? hq

theorem joinedBy_eq_iff (number : Nat) (ho : o.Left) (hname : o.name = s.queue) :
    joinedBy s number o = joinedBy s number (.ofSubscription s) ↔
      s.exclusiveQueue = o.exclusive ∧ s.autoDelete = true ∧ o.cursor = 0 := by
  constructor
  · intro h
    have hexclusive : o.exclusive = s.exclusiveQueue := congrArg Queue.exclusive h
    have hauto : o.autoDelete = s.autoDelete := congrArg Queue.autoDelete h
    have hcursor : o.cursor = 0 := congrArg Queue.cursor h
    exact ⟨hexclusive.symm, hauto.symm.trans ho.autoDelete, hcursor⟩
  · rintro ⟨hexclusive, hauto, hcursor⟩
    simp [joinedBy, Queue.ofSubscription, hname, hexclusive, hauto, hcursor, ho.autoDelete,
      ho.backlog]

theorem renews_subscribe_iff (ho : o.Left) :
    Request.Renews o (.subscribe s) ↔
      s.exclusiveQueue = o.exclusive ∧ s.autoDelete = true ∧ o.cursor = 0 := by
  constructor
  · intro h
    cases h with
    | subscribe hexclusive hauto hturn =>
        exact ⟨hexclusive, hauto, hturn.elim ho.cursor_eq_zero id⟩
  · rintro ⟨hexclusive, hauto, hzero⟩
    exact .subscribe hexclusive hauto (.inr hzero)

/-- What is asked next decides whether anybody can tell that there had been a queue. -/
theorem outlasts_decided (ho : o.Left) (h : Outlasts name o b b') {r : Request}
    (hr : r.Decides name) :
    (b.respond r).1 = (b'.respond r).1 ∧
      ((∀ later, answers respond (b.respond r).2 later = answers respond (b'.respond r).2 later) ↔
        r.Renews o) := by
  have hothers : ∀ other, other ≠ name →
      (b.respond r).2.outline? other = (b'.respond r).2.outline? other := by
    intro other hother
    rw [outline?_respond h.regular, outline?_respond h.regular', h.others other hother,
      h.nextConsumer]
  have hakin : (b.respond r).1 = (b'.respond r).1 →
      (b.respond r).2.outline? name = (b'.respond r).2.outline? name →
      ∀ later, answers respond (b.respond r).2 later = answers respond (b'.respond r).2 later := by
    intro hanswer hsame
    refine simulates_akin.answers ⟨h.toLevel.respond hanswer, fun other => ?_⟩
    by_cases hother : other = name
    · rw [hother, hsame]
    · exact hothers other hother
  cases hr with
  | publish p =>
      refine ⟨rfl, iff_of_true (hakin rfl ?_) (.publish p)⟩
      rw [outline?_respond h.regular, outline?_respond h.regular', h.stale, h.absent]
      simp [effect, Option.filter, ho.accepts]
  | @subscribe s hqueue hvalid =>
      subst hqueue
      have hleft : ∀ q, b.outline? s.queue = some q → q.Left := by
        intro q hq
        rw [h.stale] at hq
        cases hq
        exact ho
      have hleft' : ∀ q, b'.outline? s.queue = some q → q.Left := by
        intro q hq
        rw [h.absent] at hq
        cases hq
      rcases joined_respond h.regular hvalid hleft with ⟨hanswer, hjoined⟩
      rcases joined_respond h.regular' hvalid hleft' with ⟨hanswer', hjoined'⟩
      rw [← h.nextConsumer] at hanswer' hjoined'
      have hsameAnswer := hanswer.trans hanswer'.symm
      rw [h.stale, Option.getD_some] at hjoined
      rw [h.absent, Option.getD_none] at hjoined'
      refine ⟨hsameAnswer, ?_⟩
      rw [renews_subscribe_iff ho, ← joinedBy_eq_iff b.nextConsumer ho (name_of_outline? h.stale)]
      constructor
      · intro hsame
        have hexclusive := hjoined.exclusive_eq hjoined' hsame
        have hauto := hjoined.autoDelete_eq hjoined' hsame
        have hcursor : o.cursor = 0 := by
          cases hkept : o.exclusive with
          | true => exact ho.cursor_eq_zero hkept
          | false =>
              have hkept' := hexclusive.symm.trans hkept
              exact hjoined.cursor_eq_zero hjoined' hkept hkept' rfl hsame
        rw [joinedBy_eq_iff b.nextConsumer ho (name_of_outline? h.stale)]
        exact ⟨hexclusive.symm, hauto.symm.trans ho.autoDelete, hcursor⟩
      · intro heq
        refine hakin hsameAnswer ?_
        rw [hjoined.outline, hjoined'.outline, heq]

theorem renews_outline_iff (q : Queue) (r : Request) :
    Request.Renews q.outline r ↔ Request.Renews q r := by
  have hturn : (q.outline.exclusive = true ∨ q.outline.cursor = 0) ↔
      (q.exclusive = true ∨ q.cursor = 0) := by
    cases h : q.exclusive <;> simp [Queue.outline, h]
  constructor
  · intro h
    cases h with
    | publish p => exact .publish p
    | subscribe hexclusive hauto hleft => exact .subscribe hexclusive hauto (hturn.mp hleft)
  · intro h
    cases h with
    | publish p => exact .publish p
    | subscribe hexclusive hauto hleft => exact .subscribe hexclusive hauto (hturn.mpr hleft)

/-- From requests on, two brokers answer alike whatever is asked later. -/
def Indistinct (b b' : Broker) (requests : List Request) : Prop :=
  ∀ later, answers respond b (requests ++ later) = answers respond b' (requests ++ later)

/--
After any run, a queue that goes with its consumers and has none left cannot be told
from one that is not there, until a request decides what becomes of it; and from then
on it cannot be told either if and only if that request renews the queue.
-/
theorem indistinct_iff_renews {done : List Request} {name : String} {q : Queue}
    (hq : (after respond {} done).queue? name = some q) (hleft : q.isAbandoned = true)
    {idle : List Request} (hidle : ∀ r ∈ idle, ¬ r.Decides name) {r : Request}
    (hr : r.Decides name) :
    answers respond (after respond {} done) (idle ++ [r]) =
        answers respond ((after respond {} done).without name) (idle ++ [r]) ∧
      (Indistinct (after respond {} done) ((after respond {} done).without name) (idle ++ [r]) ↔
        r.Renews q) := by
  have hregular := regular_after regular_empty done
  have ho := Queue.left_outline (hregular.sound.queues q (mem_of_queue? hq)) hleft
  generalize after respond {} done = b at hq hregular
  rcases outlasts_after ho hidle (outlasts_without hregular hq) with ⟨hsame, hafter⟩
  rcases outlasts_decided ho hafter hr with ⟨hanswer, hdecided⟩
  rw [renews_outline_iff] at hdecided
  constructor
  · rw [answers_append, answers_append, hsame]
    exact congrArg _ (congrArg (fun a => [a]) hanswer)
  · rw [← hdecided]
    simp only [Indistinct, List.append_assoc, List.singleton_append, answers_append, hsame,
      List.append_cancel_left_eq, answers, List.cons.injEq, hanswer, true_and]

/-- The only consumer of a queue of its own has left. -/
def leftBehind : List Request :=
  [.subscribe (.fanOut "q" "events" "a.*"), .leave ⟨"q", 0⟩]

/-- Nothing is left of a queue once something has been published. -/
theorem indistinct_of_published :
    Indistinct (after respond {} leftBehind) ((after respond {} leftBehind).without "q")
      [.activeQueues, .publish ⟨"b", [], []⟩] := by
  have hidle : ∀ r ∈ [Request.activeQueues], ¬ r.Decides "q" := by
    intro r hr hdecides
    rw [List.mem_singleton.mp hr] at hdecides
    cases hdecides
  exact (indistinct_iff_renews (q := { Queue.ofSubscription (.fanOut "q" "events" "a.*") with
    consumers := [] }) rfl rfl hidle (.publish ⟨"b", [], []⟩)).right.mpr (.publish _)

/-- Queues that go with their consumers cannot be told from none when the last has left. -/
def Vanishing (done : List Request) : Prop :=
  ∀ name q, (after respond {} done).queue? name = some q → q.isAbandoned = true →
    Indistinct (after respond {} done) ((after respond {} done).without name) []

/-- Of two who would share a queue that was left, the second is refused for the one who left. -/
theorem not_vanishing_leftBehind : ¬ Vanishing leftBehind := by
  intro h
  have hsame := h "q" _ rfl rfl [.subscribe (sharing (.fanOut "q" "events" "a.*")),
    .subscribe (sharing (.fanOut "q" "events" "a.*"))]
  have hdiffer : ¬ answers respond (after respond {} leftBehind)
      [.subscribe (sharing (.fanOut "q" "events" "a.*")),
        .subscribe (sharing (.fanOut "q" "events" "a.*"))] =
      answers respond ((after respond {} leftBehind).without "q")
      [.subscribe (sharing (.fanOut "q" "events" "a.*")),
        .subscribe (sharing (.fanOut "q" "events" "a.*"))] := by
    decide
  exact hdiffer hsame

end Broker
end Bus
end Courier
