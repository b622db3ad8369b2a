import Courier.Proofs.Bus.Keeping
import Courier.Proofs.Bus.Routes

/-!
# Order at a queue

As long as a queue has one consumer at most, copies are taken from it in the order in which they
were routed to it, whether they came to the consumer at once, were held back for the next one, or
were put back by an earlier one. Left out are copies that go with a consumer who leaves, and those
that come to a queue which goes with its last consumer, when that has left.

The main statement is `keepsOrder_run`.
-/

namespace Courier
namespace Bus

open scoped List

/-!
## Flows
-/

/--
Of what was there and what comes in, something goes out and the rest is there afterwards, all in
order, but for what is left out.
-/
structure Flow (into out omitted before after : List Copy) : Prop where
  order : out ++ after <+ before ++ into
  all : before ++ into ~ out ++ after ++ omitted

namespace Flow

theorem refl (l : List Copy) : Flow [] [] [] l l := by
  constructor
  · rw [List.append_nil, List.nil_append]
  · rw [List.append_nil, List.nil_append, List.append_nil]

variable {into into' out out' omitted omitted' before middle after : List Copy}

theorem trans (h : Flow into out omitted before middle)
    (h' : Flow into' out' omitted' middle after) :
    Flow (into ++ into') (out ++ out') (omitted ++ omitted') before after := by
  constructor
  · calc
      out ++ out' ++ after
      _ = out ++ (out' ++ after) := List.append_assoc ..
      _ <+ out ++ (middle ++ into') := h'.order.append_left out
      _ = out ++ middle ++ into' := (List.append_assoc ..).symm
      _ <+ before ++ into ++ into' := h.order.append_right into'
      _ = before ++ (into ++ into') := List.append_assoc ..
  · -- What is there in between cancels out.
    apply List.perm_iff_count.mpr
    intro c
    have hfirst := h.all.count_eq c
    have hrest := h'.all.count_eq c
    simp only [List.count_append] at hfirst hrest ⊢
    omega

theorem eq_of_none (h : Flow into out [] before after) : before ++ into = out ++ after := by
  have hall := h.all
  rw [List.append_nil] at hall
  exact (h.order.eq_of_length hall.length_eq.symm).symm

theorem filter_eq (h : Flow into out omitted before after) (hnodup : (before ++ into).Nodup) :
    (before ++ into).filter (fun c => c ∉ omitted) = out ++ after := by
  have hapart := (List.nodup_append.mp (h.all.nodup_iff.mp hnodup)).right.right
  have hstays : (out ++ after).filter (fun c => c ∉ omitted) = out ++ after := by
    apply List.filter_eq_self.mpr
    intro c hc
    have hnot : c ∉ omitted := fun homitted => hapart c hc c homitted rfl
    simpa using hnot
  have hgoes : omitted.filter (fun c => c ∉ omitted) = [] := by
    apply List.filter_eq_nil_iff.mpr
    intro c hc
    simpa using hc
  -- What goes out or stays is a sublist of what came, and as long without what is left out.
  have hlength := (h.all.filter fun c => c ∉ omitted).length_eq
  rw [List.filter_append _ omitted, hgoes, List.append_nil] at hlength
  rw [← (h.order.filter fun c => decide (c ∉ omitted)).eq_of_length hlength.symm, hstays]

end Flow

/-!
## Queues with one consumer at most
-/

namespace Queue

variable {q : Queue}

theorem consumers_cases (hq : q.Sound) (hone : q.roll.length ≤ 1) :
    q.consumers = [] ∨ ∃ k, q.consumers = [k] ∧ q.backlog = [] := by
  rw [roll, List.length_map] at hone
  cases hconsumers : q.consumers with
  | nil => exact .inl rfl
  | cons k rest =>
      rw [hconsumers] at hone
      have hrest : rest = [] := List.eq_nil_of_length_eq_zero (Nat.le_zero.mp
        (Nat.le_of_succ_le_succ hone))
      have hbacklog : q.backlog = [] := by
        by_contra hne
        rw [(hq.idle hne).left] at hconsumers
        cases hconsumers
      exact .inr ⟨k, by rw [hrest], hbacklog⟩

theorem contents_of_nobody (h : q.consumers = []) : q.contents = q.backlog := by
  rw [contents, buffered, h]
  rfl

theorem contents_of_lone {k : Consumer} (h : q.consumers = [k]) (hbacklog : q.backlog = []) :
    q.contents = k.buffer := by
  simp [contents, buffered, h, hbacklog]

theorem contents_deliver (hq : q.Sound) (hone : q.roll.length ≤ 1) (haccepts : q.accepts = true)
    (c : Copy) : (q.deliver c).contents = q.contents ++ [c] := by
  rcases consumers_cases hq hone with hnobody | ⟨k, hlone, hbacklog⟩
  · have hkept : q.autoDelete = false := by
      simpa [accepts, isActive, hnobody] using haccepts
    simp [deliver, contents, buffered, hnobody, hkept]
  · simp [deliver, contents, buffered, hlone, hbacklog, Nat.mod_one, Consumer.push]

theorem contents_foldl_deliver (held : List Copy) (hq : q.Sound) (hone : q.roll.length ≤ 1)
    (hactive : q.roll ≠ []) : (held.foldl deliver q).contents = q.contents ++ held := by
  induction held generalizing q with
  | nil => rw [List.foldl_nil, List.append_nil]
  | cons c rest ih =>
      have hfirst := contents_deliver hq hone (accepts_of_roll hactive) c
      rw [← roll_deliver q c] at hone hactive
      rw [List.foldl_cons, ih (sound_deliver hq c) hone hactive, hfirst, List.append_assoc,
        List.singleton_append]

theorem contents_attach_of_nobody (hnobody : q.consumers = []) (binding : String) {k : Consumer}
    (hk : k.buffer = []) : (q.attach binding k).contents = q.contents := by
  have hq : ({ q with binding := binding, consumers := q.consumers ++ [k], backlog := [] } :
      Queue).Sound := by
    constructor
    · simp [roll, hnobody]
    · intro hne
      exact absurd rfl hne
  rw [attach, contents_foldl_deliver q.backlog hq (by simp [roll, hnobody])
    (by simp [roll, hnobody]), contents_of_nobody hnobody]
  simp [contents, buffered, hnobody, hk]

theorem consumers_of_consumer? (hq : q.Sound) (hone : q.roll.length ≤ 1) {id : Nat} {k : Consumer}
    (h : q.consumer? id = some k) : q.consumers = [k] ∧ q.backlog = [] := by
  have hmem := List.mem_of_find?_eq_some h
  rcases consumers_cases hq hone with hnobody | ⟨k', hlone, hbacklog⟩
  · rw [hnobody] at hmem
    cases hmem
  · rw [hlone, List.mem_singleton] at hmem
    exact ⟨hmem ▸ hlone, hbacklog⟩

/-!
## Changes of a queue as flows
-/

theorem flow_deliver (hq : q.Sound) (hone : q.roll.length ≤ 1) (c : Copy) :
    Flow [c] [] (if q.isAbandoned then [c] else []) q.contents (q.deliver c).contents := by
  cases haccepts : q.accepts with
  | true =>
      have hplace : q.isAbandoned = false := by simpa [accepts_eq] using haccepts
      rw [hplace, contents_deliver hq hone haccepts]
      constructor
      · exact List.Sublist.refl _
      · exact List.Perm.of_eq (List.append_nil _).symm
  | false =>
      have hplace : q.isAbandoned = true := by simpa [accepts_eq] using haccepts
      rw [hplace, deliver_of_not_accepts haccepts]
      constructor
      · exact List.sublist_append_left _ _
      · exact List.Perm.refl _

theorem flow_pop (hq : q.Sound) (hone : q.roll.length ≤ 1) {id : Nat} {k : Consumer} {c : Copy}
    (h : q.consumer? id = some k) (hc : k.buffer.head? = some c) :
    Flow [] [c] [] q.contents (q.pop id).contents := by
  have hid : k.id = id := by simpa using List.find?_some h
  rcases consumers_of_consumer? hq hone h with ⟨hlone, hbacklog⟩
  rcases List.head?_eq_some_iff.mp hc with ⟨rest, hbuffer⟩
  have hcontents : q.contents = c :: (q.pop id).contents := by
    simp [contents, buffered, pop, hlone, hbacklog, hid, hbuffer]
  rw [hcontents]
  constructor
  · rw [List.append_nil, List.singleton_append]
  · rw [List.append_nil, List.append_nil, List.singleton_append]

theorem flow_detach (hq : q.Sound) (hone : q.roll.length ≤ 1) (id : Nat) :
    Flow [] [] (q.bufferOf id) q.contents (q.detach id).contents := by
  cases hk : q.consumer? id with
  | none =>
      rw [bufferOf, hk, detach_of_consumer?_none hk]
      exact .refl q.contents
  | some k =>
      have hid : k.id = id := by simpa using List.find?_some hk
      rcases consumers_of_consumer? hq hone hk with ⟨hlone, hbacklog⟩
      have hrest : (q.detach id).contents = [] := by
        simp [contents, buffered, detach, hlone, hbacklog, hid]
      rw [contents_of_lone hlone hbacklog, hrest, bufferOf, hk]
      constructor
      · exact List.nil_sublist _
      · exact List.Perm.of_eq (List.append_nil _)

end Queue

namespace Broker

/-- The copies in the queue of a name, in the order in which they wait. -/
def pendingIn (b : Broker) (name : String) : List Copy :=
  b.bufferedIn name ++ b.backlogIn name

variable {b : Broker} {name : String}

theorem pendingIn_of_queue? {q : Queue} (h : b.queue? name = some q) :
    b.pendingIn name = q.contents := by
  rw [pendingIn, bufferedIn, backlogIn, h]
  rfl

theorem pendingIn_of_none (h : b.queue? name = none) : b.pendingIn name = [] := by
  rw [pendingIn, bufferedIn, backlogIn, h]
  rfl

theorem pendingIn_congr {b' : Broker} (h : b'.queue? name = b.queue? name) :
    b'.pendingIn name = b.pendingIn name := by
  rw [pendingIn, pendingIn, bufferedIn, bufferedIn, backlogIn, backlogIn, h]

theorem contents_queueFor (b : Broker) (s : Subscription) :
    (b.queueFor s).contents = b.pendingIn s.queue := by
  cases hq : b.queue? s.queue with
  | none =>
      rw [queueFor, hq, pendingIn_of_none hq]
      rfl
  | some q => rw [queueFor, hq, pendingIn_of_queue? hq, Option.getD_some]

theorem backlogIn_eq_nil (hb : b.Sound) (h : b.rollAt name ≠ []) : b.backlogIn name = [] := by
  rcases List.exists_mem_of_ne_nil _ h with ⟨e, he⟩
  rcases exists_queue_of_mem_rollAt he with ⟨q, hq, hroll⟩
  rw [backlogIn, hq]
  by_contra hne
  have hnobody := ((hb.queues q (mem_of_queue? hq)).idle hne).left
  rw [Queue.roll, hnobody] at hroll
  cases hroll

theorem leftBy_of_lone (hb : b.Sound) {e : Nat × Bool} (h : b.rollAt name = [e]) :
    b.leftBy ⟨name, e.1⟩ = b.pendingIn name := by
  rcases exists_queue_of_mem_rollAt (h ▸ List.mem_singleton_self e) with ⟨q, hq, _⟩
  rcases Queue.exists_single_of_roll ((rollAt_of_queue? hq).symm.trans h) with ⟨k, hk, hid⟩
  have hbacklog := backlogIn_eq_nil hb (h ▸ List.cons_ne_nil e [])
  rw [pendingIn, hbacklog, List.append_nil, leftBy, consumer?_of_single hq hk hid, bufferedIn, hq]
  simp [Queue.buffered, hk]

theorem bufferedIn_eq_nil (h : b.rollAt name = []) : b.bufferedIn name = [] := by
  cases hq : b.queue? name with
  | none =>
      rw [bufferedIn, hq]
      rfl
  | some q =>
      have hnobody : q.consumers = [] := by
        rw [rollAt_of_queue? hq, Queue.roll] at h
        exact List.map_eq_nil_iff.mp h
      rw [bufferedIn, hq, Option.map_some, Option.getD_some, Queue.buffered, hnobody]
      rfl

end Broker

namespace Traffic

/-!
## One consumer at a time
-/

/-- The copies that go with a consumer who leaves, and those that find no place in the queue. -/
def omitted (t : Traffic) (a : Act) : List (String × Copy) :=
  t.lost a ++ t.turnedAway a

/-- Nobody is at the queue beside somebody else. -/
def Lonely (name : String) (t : Traffic) : Prop :=
  (t.broker.rollAt name).length ≤ 1

instance (name : String) : DecidablePred (Lonely name) :=
  fun _ => inferInstanceAs (Decidable (_ ≤ _))

section OneAtATime

variable {name : String} {t t' : Traffic} {a : Act}

theorem roll_le_one (h : t.Lonely name) {q : Queue} (hq : t.broker.queue? name = some q) :
    q.roll.length ≤ 1 := by
  rw [← Broker.rollAt_of_queue? hq]
  exact h

theorem flow_of_turnAt {into out lost : List Copy} (hsound : t.Sound) (hbefore : t.Lonely name)
    (hafter : t'.Lonely name) (h : TurnAt name t a t' into out lost) :
    Flow into out
      (lost ++ if (t.broker.queue? name).any Queue.isAbandoned then into else [])
      (t.broker.pendingIn name) (t'.broker.pendingIn name) := by
  have hqueue : ∀ {q}, t.broker.queue? name = some q → q.Sound :=
    fun hq => hsound.broker.queues _ (Broker.mem_of_queue? hq)
  cases h with
  | elsewhere same =>
      rw [Broker.pendingIn_congr same, ite_self]
      exact .refl _
  | cleared before idle after =>
      rw [Broker.pendingIn_of_queue? before, Broker.pendingIn_of_none after, ite_self,
        Queue.contents_of_not_accepts (hqueue before) idle]
      exact .refl _
  | @joined s act own after =>
      subst own
      have hroll := roll_le_one hafter after
      rw [Queue.roll_attach, List.length_append] at hroll
      have hnobody : (t.broker.queueFor s).consumers = [] := by
        have hlength : (t.broker.queueFor s).roll.length = 0 := by
          simpa using hroll
        rw [Queue.roll, List.length_map] at hlength
        exact List.eq_nil_of_length_eq_zero hlength
      rw [Broker.pendingIn_of_queue? after, Queue.contents_attach_of_nobody hnobody _ rfl,
        Broker.contents_queueFor, ite_self]
      exact .refl _
  | @routed q c before after =>
      rw [Broker.pendingIn_of_queue? before, Broker.pendingIn_of_queue? after, before]
      exact Queue.flow_deliver (hqueue before) (roll_le_one hbefore before) c
  | taken act before consumer head after =>
      rw [Broker.pendingIn_of_queue? before, Broker.pendingIn_of_queue? after, ite_self]
      exact Queue.flow_pop (hqueue before) (roll_le_one hbefore before) consumer head
  | @left id q act before after =>
      rw [Broker.pendingIn_of_queue? before, Broker.pendingIn_of_queue? after, ite_self,
        Broker.leftBy_of_queue? before, List.append_nil]
      exact Queue.flow_detach (hqueue before) (roll_le_one hbefore before) id

theorem flow_step (hsound : t.Sound) (hbefore : t.Lonely name) (a : Act)
    (hafter : (t.step a).Lonely name) :
    Flow (copiesIn name (t.routed a)) (copiesIn name (t.taken a)) (copiesIn name (t.omitted a))
      (t.broker.pendingIn name) ((t.step a).broker.pendingIn name) := by
  rw [omitted, copiesIn_append, copiesIn_turnedAway]
  exact flow_of_turnAt hsound hbefore hafter (turnAt_step hsound a name)

theorem flow_run (hsound : t.Sound) {acts : List Act} (h : t.Throughout (Lonely name) acts) :
    Flow (copiesIn name (t.log routed acts)) (copiesIn name (t.log taken acts))
      (copiesIn name (t.log omitted acts)) (t.broker.pendingIn name)
      ((t.run acts).broker.pendingIn name) := by
  induction acts generalizing t with
  | nil => exact .refl _
  | cons a rest ih =>
      have hfirst := flow_step hsound h.now a h.later.now
      have hrest := ih (sound_step hsound a) h.later
      simp only [log, copiesIn_append]
      exact hfirst.trans hrest

end OneAtATime

/-!
## The next to come
-/

def takenBy (ref : ConsumerRef) (t : Traffic) (a : Act) : List (String × Copy) :=
  if a = .next ref then t.taken a else []

section Lone

variable {name : String} {t t' : Traffic} {a : Act}

theorem rollAt_of_turnAt {into out lost : List Copy} (h : TurnAt name t a t' into out lost)
    {e : Nat × Bool} (hlone : t.broker.rollAt name = [e]) (hafter : t'.Lonely name)
    (hstays : a ≠ .leave ⟨name, e.1⟩) : t'.broker.rollAt name = [e] := by
  have hroll : ∀ {q}, t.broker.queue? name = some q → q.roll = [e] :=
    fun hq => (Broker.rollAt_of_queue? hq).symm.trans hlone
  cases h with
  | elsewhere same => rw [Broker.rollAt, same, ← Broker.rollAt, hlone]
  | cleared before idle after =>
      rw [Queue.accepts_of_roll (hroll before ▸ List.cons_ne_nil _ _)] at idle
      cases idle
  | joined act own after =>
      have hlength := roll_le_one hafter after
      rw [Queue.roll_attach, Broker.roll_queueFor_eq, own, hlone] at hlength
      cases Nat.not_succ_le_self 1 hlength
  | routed before after =>
      rw [Broker.rollAt_of_queue? after, Queue.roll_deliver, hroll before]
  | taken act before consumer head after =>
      rw [Broker.rollAt_of_queue? after, Queue.roll_pop, hroll before]
  | @left id q act before after =>
      have hother : e.1 ≠ id := fun hid => hstays (hid ▸ act)
      rw [Broker.rollAt_of_queue? after, Queue.roll_detach, hroll before]
      simp [hother]

theorem taken_eq_takenBy (hsound : t.Sound) {id : Nat}
    (honly : ∀ e ∈ t.broker.rollAt name, e.1 = id) (a : Act) :
    copiesIn name (t.taken a) = copiesIn name (t.takenBy ⟨name, id⟩ a) := by
  unfold takenBy
  split
  · rfl
  · next hother =>
      have hat := turnAt_step hsound a name
      rcases hat.taker with hnone | ⟨e, he, hact⟩
      · exact hnone
      · exact absurd (honly e he ▸ hact) hother

theorem omitted_eq_nil (hsound : t.Sound)
    (hstays : ∀ e ∈ t.broker.rollAt name, a ≠ .leave ⟨name, e.1⟩)
    (hplace : (t.broker.queue? name).any Queue.isAbandoned = false) :
    copiesIn name (t.omitted a) = [] := by
  have hat := turnAt_step hsound a name
  have hlost : copiesIn name (t.lost a) = [] := by
    rcases hat.leaver with hnone | ⟨e, he, hact⟩
    · exact hnone
    · exact absurd hact (hstays e he)
  rw [omitted, copiesIn_append, hlost, copiesIn_turnedAway, hplace]
  rfl

def Vacant (name : String) (t : Traffic) : Prop :=
  t.broker.Keeps name ∧ t.broker.rollAt name = []

theorem omitted_of_vacant (hsound : t.Sound) (h : t.Vacant name) (a : Act) :
    copiesIn name (t.omitted a) = [] := by
  rcases h with ⟨⟨q, hq, hkept⟩, hnobody⟩
  refine omitted_eq_nil hsound ?_ ?_
  · rw [hnobody]
    nofun
  · rw [hq, Option.any_some, Queue.isAbandoned, hkept, Bool.false_and]

theorem omitted_of_lone (hsound : t.Sound) {e : Nat × Bool} (h : t.broker.rollAt name = [e])
    (hstays : a ≠ .leave ⟨name, e.1⟩) : copiesIn name (t.omitted a) = [] := by
  rcases Broker.exists_queue_of_mem_rollAt (h ▸ List.mem_singleton_self e) with ⟨q, hq, hroll⟩
  have haccepts := Queue.accepts_of_roll (List.ne_nil_of_mem hroll)
  refine omitted_eq_nil hsound ?_ ?_
  · rw [h]
    intro e' he'
    rwa [List.mem_singleton.mp he']
  · rw [hq, Option.any_some]
    simpa [Queue.accepts_eq] using haccepts

end Lone

/--
Who joins a kept queue that nobody is at gets what was held back there, what comes while nobody is
there and what comes later, in this order.
-/
def ServesNext (t : Traffic) (name : String) (idle : List Act) (s : Subscription)
    (later : List Act) : Prop :=
  t.broker.Keeps name → t.Throughout (fun t => t.broker.rollAt name = []) idle →
    ∀ ref b, (t.run idle).broker.subscribe s = .ok (ref, b) → ref.queue = name →
      Act.leave ref ∉ later →
        t.broker.backlogIn name ++ copiesIn name (t.log routed (idle ++ .subscribe s :: later)) =
          copiesIn name (t.log (takenBy ref) (idle ++ .subscribe s :: later)) ++
            (t.run (idle ++ .subscribe s :: later)).broker.leftBy ref

theorem lone_of_joined {name : String} {t : Traffic} (hnobody : t.broker.rollAt name = [])
    {s : Subscription} {ref : ConsumerRef} {b : Broker} (h : t.broker.subscribe s = .ok (ref, b))
    (hname : ref.queue = name) :
    ∃ e, ref = ⟨name, e.1⟩ ∧ (t.step (.subscribe s)).broker.rollAt name = [e] := by
  rcases t.broker.subscribe_cases s with ⟨e, herror⟩ | ⟨_, _, hok⟩
  · rw [herror] at h
    cases h
  · rw [hok] at h
    cases h
    subst hname
    refine ⟨(t.broker.nextConsumer, s.isExclusive), rfl, ?_⟩
    simp only [step, hok]
    rw [Broker.rollAt_joined, if_pos rfl, hnobody, List.nil_append]

theorem throughout_lone {name : String} {t : Traffic} (hsound : t.Sound) {acts : List Act}
    (hone : t.Throughout (Lonely name) acts) {e : Nat × Bool} (h : t.broker.rollAt name = [e])
    (hstays : Act.leave ⟨name, e.1⟩ ∉ acts) :
    t.Throughout (fun t => t.broker.rollAt name = [e]) acts := by
  refine .of_step (fun {t a} ha ht hlone hafter => ?_) hsound hone h
  have hat := turnAt_step ht a name
  exact rollAt_of_turnAt hat hlone hafter fun hact => hstays (hact ▸ ha)

section Next

variable {t : Traffic} {name : String} {idle later : List Act} {s : Subscription} {e : Nat × Bool}

theorem omitted_of_next (hsound : t.Sound) (hvacant : t.Throughout (Vacant name) idle)
    (hlone : ((t.run idle).step (.subscribe s)).Throughout
      (fun t => t.broker.rollAt name = [e]) later) (hstays : Act.leave ⟨name, e.1⟩ ∉ later) :
    copiesIn name (t.log omitted (idle ++ .subscribe s :: later)) = [] := by
  have hmiddle := sound_run hsound idle
  have hafter := sound_step hmiddle (.subscribe s)
  have hbefore : copiesIn name (t.log omitted idle) = [] :=
    copiesIn_log_eq_nil (fun ht hv _ => omitted_of_vacant ht hv _) hsound hvacant
  have hlater : copiesIn name (((t.run idle).step (.subscribe s)).log omitted later) = [] :=
    copiesIn_log_eq_nil
      (fun ht hl ha => omitted_of_lone ht hl fun hact => hstays (by rwa [← hact])) hafter hlone
  rw [log_append, copiesIn_append, log, copiesIn_append, hbefore, hlater]
  rfl

theorem taken_of_next (hsound : t.Sound) (hvacant : t.Throughout (Vacant name) idle)
    (hlone : ((t.run idle).step (.subscribe s)).Throughout
      (fun t => t.broker.rollAt name = [e]) later) :
    copiesIn name (t.log taken (idle ++ .subscribe s :: later)) =
      copiesIn name (t.log (takenBy ⟨name, e.1⟩) (idle ++ .subscribe s :: later)) := by
  have hnobody : ∀ t : Traffic, t.Vacant name → ∀ e' ∈ t.broker.rollAt name, e'.1 = e.1 := by
    intro t hv
    rw [hv.right]
    nofun
  have honly : t.Throughout (fun t => ∀ e' ∈ t.broker.rollAt name, e'.1 = e.1)
      (idle ++ .subscribe s :: later) := by
    refine throughout_append.mpr ⟨hvacant.mono hnobody,
      throughout_cons.mpr ⟨hnobody _ hvacant.last, hlone.mono ?_⟩⟩
    intro t hl e' he'
    rw [hl] at he'
    rw [List.mem_singleton.mp he']
  exact copiesIn_log_congr (fun ht ho _ => taken_eq_takenBy ht ho _) hsound honly

/-- The next to come misses nothing, and nothing that came earlier comes later. -/
theorem servesNext (hsound : t.Sound)
    (h : t.Throughout (Lonely name) (idle ++ .subscribe s :: later)) :
    t.ServesNext name idle s later := by
  intro hkeeps hidle ref b hjoined hname hstays
  -- Until the consumer comes nobody is there, and from then on nobody else is.
  have hvacant : t.Throughout (Vacant name) idle :=
    .of_step (fun _ ht hv hnobody => ⟨keeps_of_turn ht (turn_step ht.isOpen _) hv.left, hnobody⟩)
      hsound hidle ⟨hkeeps, hidle.now⟩
  rcases lone_of_joined hvacant.last.right hjoined hname with ⟨e, rfl, hroll⟩
  have hmiddle := sound_run hsound idle
  have hafter := sound_step hmiddle (.subscribe s)
  have hlone := throughout_lone hafter (throughout_append.mp h).right.later hroll hstays
  have hflow := flow_run hsound h
  rw [omitted_of_next hsound hvacant hlone hstays] at hflow
  have hbuffered := Broker.bufferedIn_eq_nil hidle.now
  have hleft := Broker.leftBy_of_lone (sound_run hafter later).broker hlone.last
  calc
    t.broker.backlogIn name ++ copiesIn name (t.log routed (idle ++ .subscribe s :: later))
    _ = t.broker.pendingIn name ++
          copiesIn name (t.log routed (idle ++ .subscribe s :: later)) := by
      rw [Broker.pendingIn, hbuffered, List.nil_append]
    _ = _ := hflow.eq_of_none
    _ = _ := by rw [taken_of_next hsound hvacant hlone, run_append, run_cons, hleft]

end Next

/-!
## The order of a queue
-/

/--
What is asked of a queue along a run from an empty bus, but for copies that are omitted: what is
taken from it and what still waits is what was routed to it, in this order; who comes next to it
is served what came in the meantime; and copies are held back only while nobody is there.
-/
structure KeepsOrder (omits : Traffic → Act → List (String × Copy)) (name : String)
    (acts : List Act) : Prop where
  order :
    (copiesIn name (({} : Traffic).log routed acts)).filter
        (fun c => c ∉ copiesIn name (({} : Traffic).log omits acts)) =
      copiesIn name (({} : Traffic).log taken acts) ++
        ((({} : Traffic).run acts).broker.bufferedIn name ++
          (({} : Traffic).run acts).broker.backlogIn name)
  serves : ∀ done idle s later, done ++ (idle ++ .subscribe s :: later) <+: acts →
    (({} : Traffic).run done).ServesNext name idle s later
  idle : ({} : Traffic).Throughout
    (fun t => t.broker.backlogIn name ≠ [] → t.broker.rollAt name = []) acts

theorem keepsOrder_run {name : String} {acts : List Act}
    (h : ({} : Traffic).Throughout (Lonely name) acts) : KeepsOrder omitted name acts := by
  constructor
  · have hnodup := nodup_copiesIn_log_routed numbered_empty acts name
    exact (flow_run sound_empty h).filter_eq hnodup
  · intro done idle s later hbegun
    refine servesNext (sound_run sound_empty done) ?_
    intro during hduring
    rw [← run_append]
    exact h _ (((List.prefix_append_right_inj done).mpr hduring).trans hbegun)
  · intro done _ hbacklog
    by_contra hroll
    exact hbacklog (Broker.backlogIn_eq_nil (sound_run sound_empty done).broker hroll)

/-- Asks to be the only consumer, on a queue that goes with it. -/
def passingConsumer : Subscription :=
  { loneConsumer with autoDelete := true }

/-- A consumer takes a message and leaves, the message is put back, and another consumer comes. -/
def putBackAlone : List Act :=
  [.subscribe passingConsumer, .publish { subject := "a.b", payload := [1] },
    .next ⟨"q", 0⟩, .leave ⟨"q", 0⟩, .settle 0 (.nack true), .subscribe passingConsumer,
    .publish { subject := "a.b", payload := [2] }, .next ⟨"q", 1⟩]

theorem keepsOrder_putBackAlone :
    ({} : Traffic).Throughout (Lonely "q") putBackAlone ∧
      KeepsOrder omitted "q" putBackAlone := by
  have hlonely : ({} : Traffic).Throughout (Lonely "q") putBackAlone := by decide
  exact ⟨hlonely, keepsOrder_run hlonely⟩

/-- The message that is put back did not go with a consumer, and yet nobody gets it. -/
theorem not_keepsOrder_lost :
    ({} : Traffic).Throughout (Lonely "q") putBackAlone ∧ ¬ KeepsOrder lost "q" putBackAlone := by
  refine ⟨by decide, fun h => ?_⟩
  exact absurd h.order (by decide)

end Traffic
end Bus
end Courier
