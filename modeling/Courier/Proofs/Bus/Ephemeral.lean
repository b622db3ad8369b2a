import Courier.Proofs.Bus.Accounts
import Courier.Proofs.Bus.Consumers
import Courier.Proofs.Bus.Exclusivity

/-!
# Queues that go with their consumers

On a bus where everybody subscribes alone, to a queue that goes with its last consumer, no
queue holds anything back: what is in a queue is in the buffer of its only consumer, and leaves
with it. So whoever subscribes begins with nothing. This is kept by all that happens there:
`ephemeral_of_used`.
-/

namespace Courier
namespace Bus

/-- Who subscribes by this act asks for a queue of its own that goes with it. -/
def Act.Fans (a : Act) : Prop :=
  ∀ s, a = .subscribe s → s.exclusiveQueue = true ∧ s.autoDelete = true

namespace Broker

structure Ephemeral (b : Broker) : Prop where
  sound : b.Sound
  isOpen : b.closed = false
  queues : ∀ q ∈ b.queues, q.exclusive = true ∧ q.autoDelete = true

theorem ephemeral_empty : ({} : Broker).Ephemeral where
  sound := sound_empty
  isOpen := rfl
  queues := nofun

/-- What comes of a broker by such acts. -/
inductive Used (b : Broker) : Broker → Prop where
  | none : Used b b
  | more {t t' : Traffic} {a : Act} (used : Used b t.broker) (turn : Traffic.Turn t a t')
      (fans : a.Fans) : Used b t'.broker

theorem used_of_turn {t t' : Traffic} {a : Act} (hturn : Traffic.Turn t a t') (hfans : a.Fans) :
    Used t.broker t'.broker :=
  .more .none hturn hfans

theorem Used.trans {b b' b'' : Broker} (h : Used b b') (h' : Used b' b'') : Used b b'' := by
  induction h' with
  | none => exact h
  | more _ turn fans ih => exact .more ih turn fans

/-!
## What is kept
-/

theorem nextConsumer_le_of_turn {t t' : Traffic} {a : Act} (h : Traffic.Turn t a t') :
    t.broker.nextConsumer ≤ t'.broker.nextConsumer := by
  cases h with
  | joined _ _ => exact Nat.le_succ _
  | published p => exact Nat.le_of_eq (by rw [publish_eq])
  | refused _ => exact Nat.le_refl _
  | took _ _ _ _ => exact Nat.le_refl _
  | waited _ => exact Nat.le_refl _
  | stray _ _ => exact Nat.le_refl _
  | settled _ _ => exact Nat.le_refl _
  | requeued _ _ => exact Nat.le_refl _
  | forgot _ => exact Nat.le_refl _
  | left _ => exact Nat.le_refl _

theorem ephemeral_of_turn {t t' : Traffic} {a : Act} (h : t.broker.Ephemeral)
    (hturn : Traffic.Turn t a t') (hfans : a.Fans) : t'.broker.Ephemeral := by
  have hsound := Traffic.sound_of_turn hturn ⟨h.sound, h.isOpen⟩
  refine ⟨hsound.broker, hsound.isOpen, ?_⟩
  refine Traffic.forall_queues_of_turn (P := fun q => q.exclusive = true ∧ q.autoDelete = true)
    ?_ (fun q _ hq => hq) hturn ⟨h.sound, h.isOpen⟩ h.queues ?_
  · intro q q' halike _ hq
    exact ⟨halike.exclusive.trans hq.left, halike.autoDelete.trans hq.right⟩
  · intro s hs _ _
    have halike := Queue.alike_attach (t.broker.queueFor s) s.binding
      { id := t.broker.nextConsumer, exclusive := s.isExclusive }
    rw [halike.exclusive, halike.autoDelete, queueFor]
    cases hq : t.broker.queue? s.queue with
    | none => exact hfans s hs
    | some q => exact h.queues q (mem_of_queue? hq)

theorem ephemeral_of_used {b b' : Broker} (h : b.Ephemeral) (hused : Used b b') :
    b'.Ephemeral := by
  induction hused with
  | none => exact h
  | more _ turn fans ih => exact ephemeral_of_turn ih turn fans

theorem nextConsumer_le_of_used {b b' : Broker} (h : Used b b') :
    b.nextConsumer ≤ b'.nextConsumer := by
  induction h with
  | none => exact Nat.le_refl _
  | more _ turn _ ih => exact Nat.le_trans ih (nextConsumer_le_of_turn turn)

theorem nextSerial_le_of_used {b b' : Broker} (h : Used b b') : b.nextSerial ≤ b'.nextSerial := by
  induction h with
  | none => exact Nat.le_refl _
  | more _ turn _ ih => exact Nat.le_trans ih (Traffic.nextSerial_mono turn)

/-- Copies that were not there before have new numbers. -/
theorem old_or_new_of_used {b b' : Broker} (h : b.Ephemeral) (hused : Used b b')
    {e : String × Copy} (he : e ∈ b'.stock) : e ∈ b.stock ∨ b.nextSerial ≤ e.2.serial := by
  induction hused with
  | none => exact Or.inl he
  | @more t t' a used turn _ ih =>
      have hbefore := ephemeral_of_used h used
      have hmem : e ∈ t.due a ++ t.broker.stock :=
        (Traffic.stock_of_turn ⟨hbefore.sound, hbefore.isOpen⟩ turn).mem_iff.mpr
          (List.mem_append_right _ he)
      rcases List.mem_append.mp hmem with hdue | hold
      · right
        exact Nat.le_trans (nextSerial_le_of_used used) (Traffic.serial_of_mem_due turn hdue).left
      · exact ih hold

/-!
## The only consumer of a queue
-/

theorem Ephemeral.backlog_eq_nil {b : Broker} (h : b.Ephemeral) {q : Queue} (hq : q ∈ b.queues) :
    q.backlog = [] := by
  by_contra hne
  have hkept := ((h.sound.queues q hq).idle hne).right
  rw [(h.queues q hq).right] at hkept
  cases hkept

theorem Ephemeral.queueFor_spec {b : Broker} (h : b.Ephemeral) {s : Subscription}
    (hfree : ∀ q, b.queue? s.queue = some q → refuses q s = false) :
    (b.queueFor s).consumers = [] ∧ (b.queueFor s).backlog = [] := by
  unfold queueFor
  cases hq : b.queue? s.queue with
  | none => exact ⟨rfl, rfl⟩
  | some q =>
      have hmem := mem_of_queue? hq
      have hroll := Queue.roll_eq_nil (h.queues q hmem).left (hfree q hq)
      exact ⟨List.map_eq_nil_iff.mp hroll, h.backlog_eq_nil hmem⟩

theorem Ephemeral.queue?_joined {b : Broker} (h : b.Ephemeral) {s : Subscription}
    (hfree : ∀ q, b.queue? s.queue = some q → refuses q s = false) :
    ∃ q, (b.joined s).queue? s.queue = some q ∧ q.binding = s.binding ∧
      q.consumers = [{ id := b.nextConsumer, exclusive := s.isExclusive }] := by
  rcases h.queueFor_spec hfree with ⟨hconsumers, hbacklog⟩
  have hjoined := Broker.queue?_joined b s s.queue
  rw [if_pos rfl] at hjoined
  refine ⟨_, hjoined, Queue.binding_attach _ _ _, ?_⟩
  simp only [Queue.attach, hbacklog, hconsumers, List.foldl_nil, List.nil_append]

theorem Ephemeral.buffer_of_subscribe {b b' : Broker} (h : b.Ephemeral) {s : Subscription}
    {ref : ConsumerRef} (hsubscribe : b.subscribe s = .ok (ref, b')) :
    ∃ k, b'.consumer? ref = some k ∧ k.buffer = [] := by
  rcases b.subscribe_cases s with ⟨e, herror⟩ | ⟨_, hfree, hjoined⟩
  · rw [herror] at hsubscribe
    cases hsubscribe
  · rw [hjoined] at hsubscribe
    cases hsubscribe
    rcases h.queue?_joined hfree with ⟨q, hq, _, hconsumers⟩
    have hsingle : (b.joined s).consumer? ⟨s.queue, b.nextConsumer⟩ =
        some { id := b.nextConsumer, exclusive := s.isExclusive } :=
      consumer?_of_single hq hconsumers rfl
    exact ⟨_, hsingle, rfl⟩

theorem Ephemeral.serves_joined {b : Broker} (h : b.Ephemeral) {s : Subscription}
    (hfree : ∀ q, b.queue? s.queue = some q → refuses q s = false)
    (hexclusive : s.isExclusive = true) :
    (b.joined s).Serves s.binding ⟨s.queue, b.nextConsumer⟩ := by
  rcases h.queue?_joined hfree with ⟨q, hq, hbinding, hconsumers⟩
  refine ⟨q, hq, hbinding, ?_⟩
  simp [Queue.roll, hconsumers, hexclusive]

theorem Ephemeral.queue?_joined_of_serves {b : Broker} (h : b.Ephemeral) {s : Subscription}
    (hfree : ∀ q, b.queue? s.queue = some q → refuses q s = false) {binding : String}
    {ref : ConsumerRef} (hserves : b.Serves binding ref) :
    (b.joined s).queue? ref.queue = b.queue? ref.queue := by
  rcases hserves with ⟨q, hq, _, hroll⟩
  have hne : ref.queue ≠ s.queue := by
    intro heq
    rw [heq] at hq
    have hempty := Queue.roll_eq_nil (h.queues q (mem_of_queue? hq)).left (hfree q hq)
    rw [hroll] at hempty
    cases hempty
  rw [Broker.queue?_joined, if_neg hne]

theorem exists_consumer?_of_serves {b : Broker} {binding : String} {ref : ConsumerRef}
    (h : b.Serves binding ref) : ∃ k, b.consumer? ref = some k := by
  rcases h with ⟨q, hq, _, hroll⟩
  rcases Queue.exists_single_of_roll hroll with ⟨k, hconsumers, hid⟩
  exact ⟨k, consumer?_of_single hq hconsumers hid⟩

theorem buffer_of_stock_nil {b : Broker} (hb : b.Sound) (hstock : b.stock = []) {binding : String}
    {ref : ConsumerRef} (h : b.Serves binding ref) :
    ∃ k, b.consumer? ref = some k ∧ k.buffer = [] := by
  rcases h with ⟨q, hq, _, hroll⟩
  rcases Queue.exists_single_of_roll hroll with ⟨k, hconsumers, hid⟩
  refine ⟨k, consumer?_of_single hq hconsumers hid, ?_⟩
  apply List.eq_nil_iff_forall_not_mem.mpr
  intro c hc
  have hmem : (ref.queue, c) ∈ b.stock := by
    refine (mem_stock_iff hb).mpr ⟨q, hq, List.mem_append_left _ ?_⟩
    rw [Queue.buffered, hconsumers, List.flatMap_singleton]
    exact hc
  rw [hstock] at hmem
  cases hmem

theorem settle_of_serves {b : Broker} (hopen : b.closed = false) {binding : String}
    {ref : ConsumerRef} (h : b.Serves binding ref) (p : Parcel) :
    ∃ b' k, b.settle ref.queue p (.nack true) = .ok b' ∧ b.consumer? ref = some k ∧
      b'.consumer? ref = some { k with buffer := k.buffer ++ [⟨b.nextSerial, p⟩] } ∧
      b'.settled = b.settled ++ [⟨ref.queue, p.subject, .nack true⟩] ∧
      b'.nextSerial = b.nextSerial + 1 := by
  rcases h with ⟨q, hq, _, hroll⟩
  rcases Queue.exists_single_of_roll hroll with ⟨k, hconsumers, hid⟩
  have hdelivered := queue?_updateQueue (f := fun q => q.deliver ⟨b.nextSerial, p⟩)
    (fun q => (Queue.alike_deliver q _).name) b ref.queue ref.queue
  rw [if_pos rfl, hq, Option.map_some] at hdelivered
  refine ⟨_, k, settle_of_requeue hopen hq p, consumer?_of_single hq hconsumers hid, ?_, rfl, rfl⟩
  exact consumer?_of_single hdelivered (Queue.deliver_of_single hconsumers _) hid

/-- When the consumer of a queue leaves, nothing stays in the queue. -/
theorem Ephemeral.not_mem_stock_unsubscribe {b : Broker} (h : b.Ephemeral) {binding : String}
    {ref : ConsumerRef} (hserves : b.Serves binding ref) (c : Copy) :
    (ref.queue, c) ∉ (b.unsubscribe ref).stock := by
  rcases hserves with ⟨q, hq, _, hroll⟩
  have hqueue := queue?_unsubscribe b ref ref.queue
  rw [if_pos rfl, hq, Option.map_some] at hqueue
  have hnone : (q.detach ref.id).consumers = [] := by
    have hdetach := Queue.roll_detach q ref.id
    rw [hroll, List.filter_cons_of_neg (by simp), List.filter_nil] at hdetach
    exact List.map_eq_nil_iff.mp hdetach
  have hbacklog : (q.detach ref.id).backlog = [] := by
    show q.backlog = []
    exact h.backlog_eq_nil (mem_of_queue? hq)
  rw [mem_stock_iff (sound_unsubscribe h.sound ref)]
  rintro ⟨q', hq', hc⟩
  cases hqueue.symm.trans hq'
  simp [Queue.contents, Queue.buffered, hnone, hbacklog] at hc

end Broker
end Bus
end Courier
