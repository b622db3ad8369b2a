import Courier.Proofs.Bus.Traffic
import Mathlib.Data.List.Induction

/-!
# Consumers who ask to be alone

A queue is kept for one consumer if it was declared so when it was made. A consumer
who asks to be alone on a queue that is not kept for one is alone when it joins, but
nothing keeps others from joining it.

The main statement is `alone_iff_reserved`.
-/

namespace Courier
namespace Bus

namespace Queue

/-- A queue that is kept for one consumer has one at most. -/
def Narrow (q : Queue) : Prop :=
  q.exclusive = true → q.roll.length ≤ 1

/-- Those who asked to be alone are on a queue that is kept for one consumer. -/
def Reserved (q : Queue) : Prop :=
  ∀ e ∈ q.roll, e.2 = true → q.exclusive = true

theorem roll_eq_nil {q : Queue} {s : Subscription} (hkept : q.exclusive = true)
    (hfree : Broker.refuses q s = false) : q.roll = [] := by
  apply Classical.byContradiction
  intro hne
  simp [Broker.refuses, hkept, (isActive_iff_roll q).mpr hne] at hfree

theorem mem_roll {q : Queue} {k : Consumer} (h : k ∈ q.consumers) : (k.id, k.exclusive) ∈ q.roll :=
  List.mem_map.mpr ⟨k, h, rfl⟩

theorem exists_mem_attach (q : Queue) (binding : String) (k : Consumer) :
    ∃ k' ∈ (q.attach binding k).consumers, k'.exclusive = k.exclusive := by
  have hmem : (k.id, k.exclusive) ∈ (q.attach binding k).roll := by
    rw [roll_attach]
    exact List.mem_append_right _ List.mem_cons_self
  rcases List.mem_map.mp hmem with ⟨k', hk', heq⟩
  exact ⟨k', hk', congrArg Prod.snd heq⟩

end Queue

namespace Broker

/-- Each consumer who asked to be alone is alone, and every other subscription is refused. -/
def Alone (b : Broker) : Prop :=
  ∀ name q, b.queue? name = some q → ∀ k ∈ q.consumers, k.exclusive = true →
    q.consumers = [k] ∧
      ∀ s : Subscription, s.queue = name → s.validate = none →
        b.subscribe s = .error (.queueInUse name)

theorem alone_of_reserved {b : Broker} (hnarrow : ∀ q ∈ b.queues, q.Narrow)
    (hreserved : ∀ q ∈ b.queues, q.Reserved) : b.Alone := by
  intro name q hq k hk hexclusive
  have hmem := mem_of_queue? hq
  have hkept := hreserved q hmem _ (Queue.mem_roll hk) hexclusive
  constructor
  · have hone := hnarrow q hmem hkept
    rw [Queue.roll, List.length_map] at hone
    rcases List.length_eq_one_iff.mp
      (Nat.le_antisymm hone (List.length_pos_of_mem hk)) with ⟨other, hother⟩
    rw [hother] at hk ⊢
    rw [List.mem_singleton.mp hk]
  · intro s hname hvalid
    subst hname
    apply subscribe_of_refused hvalid hq
    have hactive : q.isActive = true :=
      (Queue.isActive_iff_roll q).mpr (List.ne_nil_of_mem (Queue.mem_roll hk))
    simp [refuses, hkept, hactive]

def sharing (s : Subscription) : Subscription :=
  { s with exclusiveQueue := false, exclusiveConsumer := false }

theorem exclusive_of_alone {b : Broker} (h : b.Alone) {s : Subscription} {q : Queue}
    (hq : b.queue? s.queue = some q) (hvalid : s.validate = none) {k : Consumer}
    (hk : k ∈ q.consumers) (hexclusive : k.exclusive = true) : q.exclusive = true := by
  -- Somebody who asks for nothing is refused for the queue's own sake only.
  have hsharing : (sharing s).validate = none := hvalid
  have hrefused := (h s.queue q hq k hk hexclusive).right (sharing s) rfl hsharing
  apply Classical.byContradiction
  intro hshared
  have hfree : ∀ q', b.queue? (sharing s).queue = some q' → refuses q' (sharing s) = false := by
    intro q' hq'
    have heq : q = q' := Option.some.inj (hq.symm.trans hq')
    rw [← heq]
    simp [refuses, hshared, sharing, Subscription.isExclusive]
  rw [subscribe_of_free hsharing hfree] at hrefused
  cases hrefused

theorem roll_queueFor {b : Broker} {s : Subscription}
    (hfree : ∀ q, b.queue? s.queue = some q → refuses q s = false)
    (hkept : (b.queueFor s).exclusive = true) : (b.queueFor s).roll = [] := by
  unfold queueFor at hkept ⊢
  cases hq : b.queue? s.queue with
  | none => rfl
  | some q =>
      rw [hq, Option.getD_some] at hkept
      exact Queue.roll_eq_nil hkept (hfree q hq)

theorem reserved_queueFor {b : Broker} (h : ∀ q ∈ b.queues, q.Reserved) (s : Subscription) :
    (b.queueFor s).Reserved := by
  unfold queueFor
  cases hq : b.queue? s.queue with
  | none =>
      intro e he
      cases he
  | some q => exact h q (mem_of_queue? hq)

end Broker

namespace Traffic

/-- What deliveries and leaving keep is kept by an act, if it holds where a consumer has joined. -/
theorem forall_queues_of_turn {P : Queue → Prop}
    (halike : ∀ q q', Queue.Alike q q' → q'.roll = q.roll → P q → P q')
    (hdetach : ∀ q id, P q → P (q.detach id)) {t t' : Traffic} {a : Act} (hturn : Turn t a t')
    (hsound : t.Sound) (h : ∀ q ∈ t.broker.queues, P q)
    (hjoin : ∀ s, a = .subscribe s → s.validate = none →
      (∀ q, t.broker.queue? s.queue = some q → Broker.refuses q s = false) →
      P ((t.broker.queueFor s).attach s.binding
        { id := t.broker.nextConsumer, exclusive := s.isExclusive })) :
    ∀ q ∈ t'.broker.queues, P q := by
  have hupdate : ∀ {name : String} {f : Queue → Queue}, (∀ q, P q → P (f q)) →
      ∀ q ∈ Broker.updateQueue name f t.broker.queues, P q := fun hf =>
    Broker.forall_updateQueue _ h fun q hq => hf q (h q hq)
  have hdeliver : ∀ q c, P q → P (q.deliver c) := fun q c =>
    halike q _ (Queue.alike_deliver q c) (Queue.roll_deliver q c)
  cases hturn with
  | refused _ => exact h
  | @joined s hvalid hfree =>
      intro q hq
      have hfind := Broker.queue?_of_mem (Broker.sound_joined hsound.broker s) hq
      rw [Broker.queue?_joined] at hfind
      by_cases hname : q.name = s.queue
      · rw [if_pos hname] at hfind
        rw [← Option.some.inj hfind]
        exact hjoin s rfl hvalid hfree
      · rw [if_neg hname] at hfind
        exact h q (Broker.mem_of_queue? hfind)
  | published p =>
      rw [Broker.publish_eq]
      exact Broker.forall_route hdeliver p _ fun q hq => h q (List.mem_filter.mp hq).left
  | took _ _ _ _ => exact hupdate fun q => halike q _ (Queue.alike_pop q _) (Queue.roll_pop q _)
  | waited _ => exact h
  | stray how _ => exact h
  | settled _ _ => exact h
  | requeued _ _ => exact hupdate fun q => hdeliver q _
  | forgot serial => exact h
  | left ref => exact hupdate fun q => hdetach q _

theorem narrow_of_turn {t t' : Traffic} {a : Act} (hturn : Turn t a t') (hsound : t.Sound)
    (h : ∀ q ∈ t.broker.queues, q.Narrow) : ∀ q ∈ t'.broker.queues, q.Narrow := by
  refine forall_queues_of_turn ?_ ?_ hturn hsound h ?_
  · intro q q' halike hroll hq hkept
    rw [hroll]
    exact hq (halike.exclusive ▸ hkept)
  · intro q id hq hkept
    rw [Queue.roll_detach]
    exact Nat.le_trans (List.length_filter_le _ _) (hq hkept)
  · intro s _ _ hfree hkept
    rw [(Queue.alike_attach _ _ _).exclusive] at hkept
    rw [Queue.roll_attach, Broker.roll_queueFor hfree hkept]
    exact Nat.le_refl _

/-- Every consumer who is let in and asks to be alone joins a queue that is kept for one. -/
def AllReserved (acts : List Act) : Prop :=
  ∀ done s, done ++ [.subscribe s] <+: acts → s.isExclusive = true →
    ∀ ref b, (({} : Traffic).run done).broker.subscribe s = .ok (ref, b) →
      ∃ q, b.queue? s.queue = some q ∧ q.exclusive = true

def AlwaysAlone (acts : List Act) : Prop :=
  ∀ done, done <+: acts → (({} : Traffic).run done).broker.Alone

theorem narrow_run (acts : List Act) :
    ∀ q ∈ (({} : Traffic).run acts).broker.queues, q.Narrow := by
  induction acts using List.reverseRecOn with
  | nil =>
      intro q hq
      cases hq
  | append_singleton acts a ih =>
      have hsound := sound_run sound_empty acts
      rw [run_snoc]
      exact narrow_of_turn (turn_step hsound.isOpen a) hsound ih

theorem reserved_run {acts : List Act} (h : AllReserved acts) {done : List Act}
    (hdone : done <+: acts) :
    ∀ q ∈ (({} : Traffic).run done).broker.queues, q.Reserved := by
  induction done using List.reverseRecOn with
  | nil =>
      intro q hq
      cases hq
  | append_singleton done a ih =>
      have hsound := sound_run sound_empty done
      have hbefore := ih ((List.prefix_append _ _).trans hdone)
      rw [run_snoc]
      refine forall_queues_of_turn ?_ ?_ (turn_step hsound.isOpen a) hsound hbefore ?_
      · intro q q' halike hroll hq e he hexclusive
        rw [hroll] at he
        rw [halike.exclusive]
        exact hq e he hexclusive
      · intro q id hq e he hexclusive
        rw [Queue.roll_detach] at he
        exact hq e (List.mem_filter.mp he).left hexclusive
      · intro s ha hvalid hfree e he hexclusive
        subst ha
        rw [Queue.roll_attach] at he
        rcases List.mem_append.mp he with hold | hnew
        · rw [(Queue.alike_attach _ _ _).exclusive]
          exact Broker.reserved_queueFor hbefore s e hold hexclusive
        · rw [List.mem_singleton.mp hnew] at hexclusive
          rcases h done s hdone hexclusive _ _ (Broker.subscribe_of_free hvalid hfree) with
            ⟨q, hq, hkept⟩
          rw [Broker.queue?_joined, if_pos rfl] at hq
          rw [Option.some.inj hq]
          exact hkept

/--
Consumers who asked to be alone are alone and stay alone in just those runs in which
each of them joins a queue that is kept for one consumer.
-/
theorem alone_iff_reserved (acts : List Act) : AlwaysAlone acts ↔ AllReserved acts := by
  constructor
  · intro halone done s hprefix hexclusive ref b hsubscribe
    have hafter := halone _ hprefix
    rw [run_snoc] at hafter
    rcases (({} : Traffic).run done).broker.subscribe_cases s with
      ⟨e, herror⟩ | ⟨hvalid, hfree, hjoined⟩
    · rw [herror] at hsubscribe
      cases hsubscribe
    · simp only [step, hjoined] at hafter
      rw [hjoined] at hsubscribe
      cases hsubscribe
      have hq := Broker.queue?_joined (({} : Traffic).run done).broker s s.queue
      rw [if_pos rfl] at hq
      refine ⟨_, hq, ?_⟩
      rcases Queue.exists_mem_attach _ s.binding
        { id := (({} : Traffic).run done).broker.nextConsumer, exclusive := s.isExclusive } with
        ⟨k, hk, hkexclusive⟩
      exact Broker.exclusive_of_alone hafter hq hvalid hk (hkexclusive.trans hexclusive)
  · intro h done hdone
    exact Broker.alone_of_reserved (narrow_run done) (reserved_run h hdone)

/-- Asks to be the only consumer, on a queue that is not kept for one. -/
def loneConsumer : Subscription where
  exchange := { name := "events" }
  queue := "q"
  binding := "a.*"
  exclusiveQueue := false
  autoDelete := false
  durable := false
  exclusiveConsumer := true

/-- Somebody who shares the queue is let in beside the consumer who asked to be alone. -/
theorem not_alwaysAlone_of_shared :
    ¬ AlwaysAlone [.subscribe loneConsumer, .subscribe (Broker.sharing loneConsumer)] := by
  intro h
  have halone := h _ (List.prefix_refl _)
  have hqueue : (({} : Traffic).run
      [.subscribe loneConsumer, .subscribe (Broker.sharing loneConsumer)]).broker.queue? "q" =
        some
          { name := "q"
            binding := "a.*"
            exclusive := false
            autoDelete := false
            consumers := [{ id := 0, exclusive := true }, { id := 1, exclusive := false }] } := by
    decide
  have hone := (halone "q" _ hqueue _ List.mem_cons_self rfl).left
  cases hone

end Traffic
end Bus
end Courier
