import Courier.Proofs.Bus.Requests

/-!
# Consumers whose leaving is not noticed yet

A bus learns that a consumer has left when it looks after the queue the next time: for
a delivery, for a subscription, whether it is refused or not, and for the names of the
active queues. Until then the consumer lingers in its queue.

The main statement is that a subscription that is refused has no effect, although it
looks after the queue: whatever is asked of the bus later, it answers as if there had
been no such subscription. This holds since a bus where consumers linger answers as one
where they do not.
-/

namespace Courier
namespace Bus

open Broker (updateQueue)

/-!
## Queues without those who are gone
-/

namespace Queue

def without (gone : List ConsumerRef) (q : Queue) : Queue :=
  { q with consumers := q.consumers.filter fun k => (⟨q.name, k.id⟩ : ConsumerRef) ∉ gone }

variable {gone : List ConsumerRef} {q : Queue}

def Noticed (gone : List ConsumerRef) (q : Queue) : Prop :=
  ∀ e ∈ q.roll, (⟨q.name, e.1⟩ : ConsumerRef) ∉ gone

theorem without_of_noticed (h : q.Noticed gone) : q.without gone = q := by
  have hkeep : q.consumers.filter (fun k => (⟨q.name, k.id⟩ : ConsumerRef) ∉ gone) =
      q.consumers := by
    apply List.filter_eq_self.mpr
    intro k hk
    exact decide_eq_true (h _ (mem_roll hk))
  simp only [without, hkeep]

theorem noticed_without (gone : List ConsumerRef) (q : Queue) :
    (q.without gone).Noticed gone := by
  intro e he
  rcases List.mem_map.mp he with ⟨k, hk, rfl⟩
  exact of_decide_eq_true (List.mem_filter.mp hk).right

theorem Noticed.of_alike {q' : Queue} (h : q.Noticed gone) (halike : Alike q q')
    (hroll : q'.roll = q.roll) : q'.Noticed gone := by
  intro e he
  rw [hroll] at he
  rw [halike.name]
  exact h e he

theorem noticed_deliver (h : q.Noticed gone) (c : Copy) : (q.deliver c).Noticed gone :=
  h.of_alike (alike_deliver q c) (roll_deliver q c)

theorem noticed_attach (h : q.Noticed gone) (binding : String) {k : Consumer}
    (hk : (⟨q.name, k.id⟩ : ConsumerRef) ∉ gone) : (q.attach binding k).Noticed gone := by
  intro e he
  rw [roll_attach] at he
  rw [(alike_attach q binding k).name]
  rcases List.mem_append.mp he with he | he
  · exact h e he
  · rw [List.mem_singleton.mp he]
    exact hk

theorem without_pop (gone : List ConsumerRef) (q : Queue) (id : Nat) :
    (q.pop id).without gone = (q.without gone).pop id := by
  simp only [without, pop, List.filter_map]
  congr 2
  apply List.filter_congr
  intro k _
  by_cases h : k.id = id <;> simp [h]

theorem consumer?_without {id : Nat} (h : (⟨q.name, id⟩ : ConsumerRef) ∉ gone) :
    (q.without gone).consumer? id = q.consumer? id := by
  simp only [consumer?, without, List.find?_filter]
  congr 1
  funext k
  by_cases hid : k.id = id
  · simp [hid, h]
  · simp [hid]

theorem consumer?_without_of_mem {id : Nat} (h : (⟨q.name, id⟩ : ConsumerRef) ∈ gone) :
    (q.without gone).consumer? id = none := by
  apply List.find?_eq_none.mpr
  intro k hk hid
  have hstays := of_decide_eq_true (List.mem_filter.mp hk).right
  rw [of_decide_eq_true hid] at hstays
  exact hstays h

theorem without_cons (ref : ConsumerRef) (gone : List ConsumerRef) (q : Queue) :
    q.without (ref :: gone) =
      if q.name = ref.queue then (q.without gone).detach ref.id else q.without gone := by
  by_cases hname : q.name = ref.queue
  · rw [if_pos hname]
    simp only [without, detach, List.filter_filter]
    congr 1
    apply List.filter_congr
    intro k _
    cases ref
    simp_all
  · rw [if_neg hname]
    simp only [without]
    congr 1
    apply List.filter_congr
    intro k _
    cases ref
    simp_all

end Queue

/-!
## A bus where consumers linger
-/

/-- A broker that has not noticed yet who is gone. -/
structure Lingering where
  broker : Broker := {}
  gone : List ConsumerRef := []

namespace Lingering

/-- The broker when it has looked after all queues. -/
def view (l : Lingering) : Broker :=
  { l.broker with queues := l.broker.queues.map (Queue.without l.gone) }

def lookedAfter (l : Lingering) (name : String) : Broker :=
  { l.broker with queues := updateQueue name (Queue.without l.gone) l.broker.queues }

/--
What a bus answers where consumers linger. To subscribe makes the queue and looks
after it before the subscription may be refused. To publish looks after all queues.
-/
def respond (l : Lingering) : Request → Answer × Lingering
  | .subscribe s =>
    match s.validate with
    | some e => (.refused e, l)
    | none =>
      let (answer, b) := ((l.lookedAfter s.queue).declared s).respond (.subscribe s)
      (answer, { l with broker := b })
  | .publish p => (.done, { l with broker := l.view.publish p })
  | .take ref =>
    if ref ∈ l.gone then (.taken none, l)
    else
      let (answer, b) := l.broker.respond (.take ref)
      (answer, { l with broker := b })
  | .settle queue p how =>
    let b := if how = .nack true then l.lookedAfter queue else l.broker
    let (answer, b) := b.respond (.settle queue p how)
    (answer, { l with broker := b })
  | .leave ref =>
    (.done, if ref.id < l.broker.nextConsumer then { l with gone := ref :: l.gone } else l)
  | .activeQueues => (.activeQueues l.view.activeQueues, { l with broker := l.view })
  | .settlements => (.settlements l.broker.settled, l)
  | .collect => (.collected l.broker.collect.1, { l with broker := l.broker.collect.2 })

/-!
## What is seen of it
-/

theorem queue?_view (l : Lingering) (name : String) :
    l.view.queue? name = (l.broker.queue? name).map (Queue.without l.gone) := by
  simp only [view, Broker.queue?, List.find?_map]
  rfl

theorem queue?_lookedAfter (l : Lingering) (name : String) :
    (l.lookedAfter name).queue? name = l.view.queue? name := by
  have h := Broker.queue?_updateQueue (f := Queue.without l.gone) (fun _ => rfl) l.broker name name
  rw [if_pos rfl] at h
  rw [queue?_view]
  exact h

theorem map_without_updateQueue (f g : Queue → Queue) {gone : List ConsumerRef} {name : String}
    {queues : List Queue}
    (h : ∀ q ∈ queues, q.name = name → (f q).without gone = g (q.without gone)) :
    (updateQueue name f queues).map (Queue.without gone) =
      updateQueue name g (queues.map (Queue.without gone)) := by
  simp only [updateQueue, List.map_map]
  apply List.map_congr_left
  intro q hq
  have hname : (q.without gone).name = q.name := rfl
  by_cases hq' : q.name = name
  · simp only [Function.comp_apply, hname, if_pos hq', h q hq hq']
  · simp only [Function.comp_apply, hname, if_neg hq']

theorem map_without_updateQueue_of_noticed {f : Queue → Queue} {gone : List ConsumerRef}
    {name : String} {queues : List Queue}
    (hf : ∀ q, q.name = name → q.Noticed gone → (f q).Noticed gone)
    (h : ∀ q ∈ queues, q.name = name → q.Noticed gone) :
    (updateQueue name f queues).map (Queue.without gone) =
      updateQueue name f (queues.map (Queue.without gone)) := by
  refine map_without_updateQueue f f fun q hq hname => ?_
  rw [Queue.without_of_noticed (h q hq hname)]
  exact Queue.without_of_noticed (hf q hname (h q hq hname))

theorem map_without_of_noticed {gone : List ConsumerRef} {queues : List Queue}
    (h : ∀ q ∈ queues, q.Noticed gone) : queues.map (Queue.without gone) = queues :=
  (List.map_congr_left fun q hq => Queue.without_of_noticed (h q hq)).trans (List.map_id' queues)

theorem noticed_of_mem_view {l : Lingering} {q : Queue} (h : q ∈ l.view.queues) :
    q.Noticed l.gone := by
  rcases List.mem_map.mp h with ⟨q', _, rfl⟩
  exact Queue.noticed_without l.gone q'

theorem view_of_noticed {l : Lingering} (h : ∀ q ∈ l.broker.queues, q.Noticed l.gone) :
    l.view = l.broker := by
  simp only [view, map_without_of_noticed h]

theorem view_lookedAfter (l : Lingering) (name : String) :
    ({ l with broker := l.lookedAfter name } : Lingering).view = l.view := by
  have hmap : (l.lookedAfter name).queues.map (Queue.without l.gone) =
      updateQueue name (fun q => q) (l.broker.queues.map (Queue.without l.gone)) :=
    map_without_updateQueue _ _ fun q _ _ =>
      Queue.without_of_noticed (Queue.noticed_without l.gone q)
  have hid : updateQueue name (fun q => q) (l.broker.queues.map (Queue.without l.gone)) =
      l.broker.queues.map (Queue.without l.gone) := by
    simp [updateQueue]
  simp only [view, hmap, hid]
  rfl

/-- A bus where consumers linger, and the broker that it is seen as. -/
structure Mirrors (l : Lingering) (b : Broker) : Prop where
  view : l.view = b
  regular : b.Regular
  known : ∀ ref ∈ l.gone, ref.id < b.nextConsumer

theorem mirrors_empty : Mirrors {} {} where
  view := rfl
  regular := Broker.regular_empty
  known := nofun

variable {l : Lingering} {b : Broker}

theorem Mirrors.nextConsumer_eq (h : Mirrors l b) : l.broker.nextConsumer = b.nextConsumer := by
  rw [← h.view]
  rfl

theorem Mirrors.isOpen (h : Mirrors l b) : l.broker.closed = false := by
  have hopen := h.regular.isOpen
  rw [← h.view] at hopen
  exact hopen

theorem nextConsumer_le_respond (b : Broker) (r : Request) :
    b.nextConsumer ≤ (b.respond r).2.nextConsumer := by
  cases r with
  | subscribe s =>
      rcases b.subscribe_cases s with ⟨e, herror⟩ | ⟨_, _, hjoined⟩
      · simp only [Broker.respond, herror]
        exact Nat.le_refl _
      · simp only [Broker.respond, hjoined]
        exact Nat.le_succ _
  | publish p =>
      simp only [Broker.respond, Broker.publish_eq]
      exact Nat.le_refl _
  | take ref =>
      rcases b.take_cases ref with ⟨q, k, c, _, _, _, htake⟩ | ⟨_, hsame⟩
      · simp only [Broker.respond, htake]
        exact Nat.le_refl _
      · simp only [Broker.respond, hsame]
        exact Nat.le_refl _
  | settle queue p how =>
      cases hsettle : b.settle queue p how with
      | error e =>
          simp only [Broker.respond, hsettle]
          exact Nat.le_refl _
      | ok b' =>
          simp only [Broker.respond, hsettle]
          rcases Broker.settle_cases hsettle with rfl | ⟨_, q, _, rfl⟩
          · exact Nat.le_refl _
          · exact Nat.le_refl _
  | leave ref => exact Nat.le_refl _
  | activeQueues => exact Nat.le_refl _
  | settlements => exact Nat.le_refl _
  | collect => exact Nat.le_refl _

/-- A step mirrors that of the broker if it is seen as such, and nobody unknown is gone. -/
theorem Mirrors.next (h : Mirrors l b) {r : Request} {l' : Lingering}
    (hview : l'.view = (b.respond r).2) (hgone : ∀ ref ∈ l'.gone, ref.id < b.nextConsumer) :
    Mirrors l' (b.respond r).2 where
  view := hview
  regular := Broker.regular_respond h.regular r
  known := fun ref href => Nat.lt_of_lt_of_le (hgone ref href) (nextConsumer_le_respond b r)

/-!
## Single answers
-/

theorem noticed_of_mem_lookedAfter {name : String} {q : Queue}
    (h : q ∈ (l.lookedAfter name).queues) (hname : q.name = name) : q.Noticed l.gone := by
  rcases List.mem_map.mp h with ⟨q', _, rfl⟩
  by_cases hq' : q'.name = name
  · rw [if_pos hq']
    exact Queue.noticed_without l.gone q'
  · rw [if_neg hq'] at hname
    exact absurd hname hq'

theorem noticed_of_mem_declared {s : Subscription} {q : Queue}
    (h : q ∈ ((l.lookedAfter s.queue).declared s).queues) (hname : q.name = s.queue) :
    q.Noticed l.gone := by
  unfold Broker.declared at h
  cases hq : (l.lookedAfter s.queue).queue? s.queue with
  | some found =>
      simp only [hq] at h
      exact noticed_of_mem_lookedAfter h hname
  | none =>
      simp only [hq] at h
      rcases List.mem_append.mp h with h | h
      · exact noticed_of_mem_lookedAfter h hname
      · rw [List.mem_singleton.mp h]
        exact nofun

theorem view_declared (l : Lingering) (s : Subscription) :
    ({ l with broker := (l.lookedAfter s.queue).declared s } : Lingering).view =
      l.view.declared s := by
  have hview := congrArg Broker.queues (view_lookedAfter l s.queue)
  simp only [view] at hview
  have hnew : (Queue.ofSubscription s).without l.gone = Queue.ofSubscription s := rfl
  unfold Broker.declared
  rw [queue?_lookedAfter]
  cases l.view.queue? s.queue with
  | some q =>
      simp only [view, hview]
      rfl
  | none =>
      simp only [view, List.map_append, hview, List.map_singleton, hnew]
      rfl

theorem declared_declared (b : Broker) (s : Subscription) :
    (b.declared s).declared s = b.declared s := by
  have hq : (b.declared s).queue? s.queue = some (b.queueFor s) := by
    rw [Broker.queue?_declared, if_pos rfl]
  generalize b.declared s = d at hq
  simp only [Broker.declared, hq]

theorem view_joined (h : Mirrors l b) (s : Subscription) :
    ({ l with broker := ((l.lookedAfter s.queue).declared s).joined s } : Lingering).view =
      b.joined s := by
  rcases h.view with rfl
  have hnew : ∀ q : Queue, (⟨q.name, l.view.nextConsumer⟩ : ConsumerRef) ∉ l.gone :=
    fun q hmem => Nat.lt_irrefl _ (h.known _ hmem)
  have hdeclared := congrArg Broker.queues (view_declared l s)
  have hqueues := map_without_updateQueue_of_noticed
    (fun q _ hq => Queue.noticed_attach hq s.binding
      (k := { id := l.view.nextConsumer, exclusive := s.isExclusive }) (hnew q))
    (fun q hq hname => noticed_of_mem_declared (l := l) (s := s) hq hname)
  unfold Broker.joined
  rw [declared_declared, ← hdeclared]
  exact congrArg (fun queues => ({ l.view with
    queues := queues, nextConsumer := l.view.nextConsumer + 1 } : Broker)) hqueues

theorem respond_subscribe (h : Mirrors l b) (s : Subscription) :
    (l.respond (.subscribe s)).1 = (b.respond (.subscribe s)).1 ∧
      (l.respond (.subscribe s)).2.view = (b.respond (.subscribe s)).2 := by
  have hqueue : (l.lookedAfter s.queue).queue? s.queue = b.queue? s.queue := by
    rw [queue?_lookedAfter, h.view]
  have hnext : ((l.lookedAfter s.queue).declared s).nextConsumer = b.nextConsumer :=
    h.nextConsumer_eq
  cases hvalid : s.validate with
  | some e =>
      simp only [respond, Broker.respond, Broker.subscribe, hvalid]
      exact ⟨trivial, h.view⟩
  | none =>
      simp only [respond, hvalid]
      by_cases hfree : ∀ q, b.queue? s.queue = some q → Broker.refuses q s = false
      · have hfree' : ∀ q, ((l.lookedAfter s.queue).declared s).queue? s.queue = some q →
            Broker.refuses q s = false := by
          intro q hq
          rw [Broker.queue?_declared, if_pos rfl, Broker.queueFor, hqueue] at hq
          cases hfound : b.queue? s.queue with
          | some found =>
              rw [hfound] at hq
              cases hq
              exact hfree found hfound
          | none =>
              rw [hfound] at hq
              cases hq
              simp [Broker.refuses, Queue.isActive, Queue.ofSubscription]
        simp only [Broker.respond, Broker.subscribe_of_free hvalid hfree,
          Broker.subscribe_of_free hvalid hfree', hnext]
        exact ⟨trivial, view_joined h s⟩
      · push Not at hfree
        rcases hfree with ⟨q, hq, hrefused⟩
        rw [ne_eq, Bool.not_eq_false] at hrefused
        have hdeclared : (l.lookedAfter s.queue).declared s = l.lookedAfter s.queue := by
          simp only [Broker.declared, hqueue, hq]
        rw [hdeclared]
        simp only [Broker.respond, Broker.subscribe_of_refused hvalid hq hrefused,
          Broker.subscribe_of_refused hvalid (hqueue.trans hq) hrefused]
        exact ⟨trivial, (view_lookedAfter l s.queue).trans h.view⟩

theorem respond_publish (h : Mirrors l b) (p : Parcel) :
    (l.respond (.publish p)).2.view = (b.respond (.publish p)).2 := by
  rcases h.view with rfl
  apply view_of_noticed
  simp only [respond, Broker.publish_eq]
  refine Broker.forall_route (P := Queue.Noticed l.gone)
    (fun q c hq => Queue.noticed_deliver hq c) p _ ?_
  intro q hq
  exact noticed_of_mem_view (List.mem_filter.mp hq).left

theorem respond_take (h : Mirrors l b) (ref : ConsumerRef) :
    (l.respond (.take ref)).1 = (b.respond (.take ref)).1 ∧
      (l.respond (.take ref)).2.view = (b.respond (.take ref)).2 := by
  rcases h.view with rfl
  by_cases hgone : ref ∈ l.gone
  · have hnone : l.view.consumer? ref = none := by
      rw [Broker.consumer?, queue?_view]
      cases hq : l.broker.queue? ref.queue with
      | none => rfl
      | some q =>
          have hname := Broker.name_of_queue? hq
          refine Queue.consumer?_without_of_mem ?_
          rw [hname]
          exact hgone
    have htake : l.view.take ref = (.nothing, l.view) := by
      simp [Broker.take, hnone, h.regular.isOpen]
    simp only [respond, if_pos hgone, Broker.respond, htake]
    exact ⟨rfl, trivial⟩
  · have hsame : l.view.consumer? ref = l.broker.consumer? ref := by
      simp only [Broker.consumer?, queue?_view]
      cases hq : l.broker.queue? ref.queue with
      | none => rfl
      | some q =>
          have hname := Broker.name_of_queue? hq
          refine Queue.consumer?_without ?_
          rw [hname]
          exact hgone
    have hpop := map_without_updateQueue (fun q => q.pop ref.id) (fun q => q.pop ref.id)
      fun q (_ : q ∈ l.broker.queues) (_ : q.name = ref.queue) =>
        Queue.without_pop l.gone q ref.id
    simp only [respond, if_neg hgone, Broker.respond, Broker.take, hsame]
    cases (l.broker.consumer? ref).bind fun k => k.buffer.head? with
    | none => exact ⟨rfl, rfl⟩
    | some c =>
        refine ⟨rfl, ?_⟩
        exact congrArg (fun queues => ({ l.view with queues := queues } : Broker)) hpop

theorem respond_settle (h : Mirrors l b) (queue : String) (p : Parcel) (how : Settlement) :
    (l.respond (.settle queue p how)).1 = (b.respond (.settle queue p how)).1 ∧
      (l.respond (.settle queue p how)).2.view = (b.respond (.settle queue p how)).2 := by
  have hopen := h.isOpen
  have hqueue : (l.lookedAfter queue).queue? queue = b.queue? queue := by
    rw [queue?_lookedAfter, h.view]
  rcases h.view with rfl
  by_cases hhow : how = .nack true
  · subst hhow
    have hlooked := view_lookedAfter l queue
    simp only [respond, if_true, Broker.respond]
    cases hq : l.view.queue? queue with
    | none =>
        rw [Broker.settle_of_not_requeue (b := l.lookedAfter queue) hopen
            (.inr (hqueue.trans hq)) p,
          Broker.settle_of_not_requeue h.regular.isOpen (.inr hq) p]
        exact ⟨rfl, congrArg (fun b : Broker =>
          ({ b with settled := l.broker.settled ++ [⟨queue, p.subject, .nack true⟩] } : Broker))
          hlooked⟩
    | some q =>
        have hdeliver := map_without_updateQueue_of_noticed
          (fun q _ hq => Queue.noticed_deliver hq (⟨l.broker.nextSerial, p⟩ : Copy))
          (fun q (hq : q ∈ (l.lookedAfter queue).queues) hname =>
            noticed_of_mem_lookedAfter hq hname)
        have hseen := congrArg Broker.queues hlooked
        rw [Broker.settle_of_requeue (b := l.lookedAfter queue) hopen (hqueue.trans hq) p,
          Broker.settle_of_requeue h.regular.isOpen hq p]
        refine ⟨rfl, ?_⟩
        rw [← hseen]
        exact congrArg (fun queues => ({ l.view with
          settled := l.broker.settled ++ [⟨queue, p.subject, .nack true⟩]
          queues := queues
          nextSerial := l.broker.nextSerial + 1 } : Broker)) hdeliver
  · simp only [respond, if_neg hhow, Broker.respond,
      Broker.settle_of_not_requeue hopen (.inl hhow),
      Broker.settle_of_not_requeue h.regular.isOpen (.inl hhow)]
    exact ⟨trivial, rfl⟩

theorem respond_leave (h : Mirrors l b) (ref : ConsumerRef) :
    (l.respond (.leave ref)).2.view = b.unsubscribe ref := by
  rcases h.view with rfl
  by_cases hknown : ref.id < l.broker.nextConsumer
  · simp only [respond, if_pos hknown, view, Broker.unsubscribe, updateQueue, List.map_map]
    congr 1
    apply List.map_congr_left
    intro q _
    rw [Queue.without_cons]
    rfl
  · simp only [respond, if_neg hknown]
    have hsame : updateQueue ref.queue (fun q => q.detach ref.id) l.view.queues =
        l.view.queues := by
      have hdetach : ∀ q ∈ l.view.queues, q.detach ref.id = q := by
        intro q hq
        apply Queue.detach_of_consumer?_none
        apply List.find?_eq_none.mpr
        intro k hk hid
        have hlt := h.regular.sound.ids q hq _ (Queue.mem_roll hk)
        rw [of_decide_eq_true hid] at hlt
        exact hknown hlt
      unfold updateQueue
      conv_rhs => rw [← List.map_id' l.view.queues]
      apply List.map_congr_left
      intro q hq
      show (if q.name = ref.queue then q.detach ref.id else q) = q
      rw [hdetach q hq, ite_self]
    rw [Broker.unsubscribe, hsame]

/-!
## All answers
-/

/-- A bus where consumers linger answers as the broker that it is seen as. -/
theorem simulates : Simulates respond Broker.respond Mirrors := by
  intro l b r h
  cases r with
  | subscribe s =>
      rcases respond_subscribe h s with ⟨hanswer, hview⟩
      refine ⟨hanswer, h.next hview ?_⟩
      have hgone : (l.respond (.subscribe s)).2.gone = l.gone := by
        simp only [respond]
        cases s.validate <;> rfl
      rw [hgone]
      exact h.known
  | publish p => exact ⟨rfl, h.next (respond_publish h p) h.known⟩
  | take ref =>
      rcases respond_take h ref with ⟨hanswer, hview⟩
      refine ⟨hanswer, h.next hview ?_⟩
      have hgone : (l.respond (.take ref)).2.gone = l.gone := by
        simp only [respond]
        split <;> rfl
      rw [hgone]
      exact h.known
  | settle queue p how =>
      rcases respond_settle h queue p how with ⟨hanswer, hview⟩
      exact ⟨hanswer, h.next hview h.known⟩
  | leave ref =>
      refine ⟨rfl, h.next (respond_leave h ref) ?_⟩
      rw [← h.nextConsumer_eq]
      intro other hother
      have hold := fun hmem => h.nextConsumer_eq ▸ h.known other hmem
      by_cases hknown : ref.id < l.broker.nextConsumer
      · simp only [respond, if_pos hknown] at hother
        rcases List.mem_cons.mp hother with rfl | hother
        · exact hknown
        · exact hold hother
      · simp only [respond, if_neg hknown] at hother
        exact hold hother
  | activeQueues =>
      refine ⟨?_, h.next ?_ h.known⟩
      · simp only [respond, h.view, Broker.respond]
      · exact (view_of_noticed (l := { l with broker := l.view }) fun q hq =>
          noticed_of_mem_view (l := l) hq).trans h.view
  | settlements =>
      rcases h.view with rfl
      exact ⟨rfl, h⟩
  | collect =>
      rcases h.view with rfl
      exact ⟨rfl, h.next rfl h.known⟩

theorem mirrors_after (requests : List Request) :
    Mirrors (after respond {} requests) (after Broker.respond {} requests) :=
  simulates.after mirrors_empty requests

/--
A subscription that is refused has no effect: after any run, whatever is asked later is
answered as if there had been no such subscription, whether consumers linger or not.
-/
theorem answers_of_refused (done : List Request) (s : Subscription) (e : TopologyError)
    (h : ((after respond {} done).respond (.subscribe s)).1 = .refused e)
    (later : List Request) :
    answers respond (after respond {} (done ++ [.subscribe s])) later =
        answers respond (after respond {} done) later ∧
      answers Broker.respond (after Broker.respond {} (done ++ [.subscribe s])) later =
        answers Broker.respond (after Broker.respond {} done) later := by
  have hmirrors := mirrors_after done
  have hrefused := (simulates _ _ (.subscribe s) hmirrors).left.symm.trans h
  have hsame : after Broker.respond {} (done ++ [.subscribe s]) =
      after Broker.respond {} done := by
    rw [after_append]
    show ((after Broker.respond {} done).respond (.subscribe s)).2 = _
    generalize after Broker.respond {} done = b at hrefused
    simp only [Broker.respond] at hrefused ⊢
    cases hsubscribe : b.subscribe s with
    | error e' => rfl
    | ok joined =>
        rw [hsubscribe] at hrefused
        cases hrefused
  have hmirrors' := mirrors_after (done ++ [.subscribe s])
  rw [hsame] at hmirrors'
  refine ⟨?_, by rw [hsame]⟩
  rw [simulates.answers hmirrors' later, simulates.answers hmirrors later]

/-- Of two who share a queue, the first has left, which nobody has noticed. -/
def halfLeft : List Request :=
  [.subscribe (Broker.sharing (.fanOut "q" "events" "a.*")),
    .subscribe (Broker.sharing (.fanOut "q" "events" "a.*")), .leave ⟨"q", 0⟩]

theorem answers_of_refused_halfLeft :
    ((after respond {} halfLeft).respond (.subscribe (.fanOut "q" "events" "a.*"))).1 =
        .refused (.queueInUse "q") ∧
      answers respond (after respond {} (halfLeft ++ [.subscribe (.fanOut "q" "events" "a.*")]))
          [.publish ⟨"a.b", [], []⟩, .take ⟨"q", 1⟩] =
        answers respond (after respond {} halfLeft)
          [.publish ⟨"a.b", [], []⟩, .take ⟨"q", 1⟩] := by
  have hrefused : ((after respond {} halfLeft).respond
      (.subscribe (.fanOut "q" "events" "a.*"))).1 = .refused (.queueInUse "q") := by
    decide
  exact ⟨hrefused, (answers_of_refused halfLeft _ _ hrefused _).left⟩

end Lingering
end Bus
end Courier
