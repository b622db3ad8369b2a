import Courier.Proofs.Bus.Accounts
import Courier.Proofs.Bus.Exclusivity

/-!
# Queues that are kept

A queue that does not go with its last consumer is there from the time when it is made. What is
routed to it comes into a buffer or is held back, until it is taken; but a consumer that leaves
takes along what is in its buffer. So a kept queue loses nothing just when nobody leaves it
before all in the buffer is taken.

The main statement is `keepsAll_iff_takenFirst`.
-/

namespace Courier
namespace Bus

open scoped List
open Routing (topicMatches)

namespace Broker

/-- There is a queue of the name, and it is kept without consumers. -/
def Keeps (b : Broker) (name : String) : Prop :=
  ∃ q, b.queue? name = some q ∧ q.autoDelete = false

/-- A copy in a kept queue can be had: it is held back, or waits for a consumer. -/
def Holds (b : Broker) (name : String) (c : Copy) : Prop :=
  ∃ q, b.queue? name = some q ∧ q.autoDelete = false ∧
    (c ∈ q.backlog ∨ ∃ k ∈ q.consumers, c ∈ k.buffer)

theorem mem_contents_iff {q : Queue} {c : Copy} :
    c ∈ q.contents ↔ c ∈ q.backlog ∨ ∃ k ∈ q.consumers, c ∈ k.buffer := by
  simp only [Queue.contents, Queue.buffered, List.mem_append, List.mem_flatMap]
  exact or_comm

theorem holds_iff {b : Broker} (hb : b.Sound) {name : String} {c : Copy} :
    b.Holds name c ↔ b.Keeps name ∧ (name, c) ∈ b.stock := by
  rw [mem_stock_iff hb]
  constructor
  · rintro ⟨q, hq, hkept, hc⟩
    exact ⟨⟨q, hq, hkept⟩, q, hq, mem_contents_iff.mpr hc⟩
  · rintro ⟨⟨q, hq, hkept⟩, q', hq', hc⟩
    rw [hq] at hq'
    cases hq'
    exact ⟨q, hq, hkept, mem_contents_iff.mp hc⟩

/-!
## Kept queues stay
-/

theorem keeps_updateQueue {b b' : Broker} {n name : String} {f : Queue → Queue}
    (hqueues : b'.queues = updateQueue n f b.queues) (hf : ∀ q, Queue.Alike q (f q))
    (h : b.Keeps name) : b'.Keeps name := by
  rcases h with ⟨q, hq, hkept⟩
  have hafter : b'.queue? name = if name = n then (b.queue? name).map f else b.queue? name := by
    rw [← queue?_updateQueue (fun q => (hf q).name) b n name]
    simp only [queue?, hqueues]
  rw [hq] at hafter
  by_cases hname : name = n
  · rw [if_pos hname] at hafter
    exact ⟨f q, hafter, (hf q).autoDelete.trans hkept⟩
  · rw [if_neg hname] at hafter
    exact ⟨q, hafter, hkept⟩

theorem keeps_joined {b : Broker} {name : String} (h : b.Keeps name) (s : Subscription) :
    (b.joined s).Keeps name := by
  rcases h with ⟨q, hq, hkept⟩
  have hafter := queue?_joined b s name
  by_cases hname : name = s.queue
  · subst hname
    rw [if_pos rfl, queueFor, hq, Option.getD_some] at hafter
    exact ⟨_, hafter, (Queue.alike_attach q _ _).autoDelete.trans hkept⟩
  · rw [if_neg hname, hq] at hafter
    exact ⟨q, hafter, hkept⟩

theorem keeps_publish {b : Broker} (hb : b.Sound) {name : String} (h : b.Keeps name)
    (p : Parcel) : (b.publish p).Keeps name := by
  rcases h with ⟨q, hq, hkept⟩
  rcases queue?_publish hb p name with ⟨n, hafter, _⟩
  have haccepts : q.accepts = true := (Queue.accepts_iff q).mpr (Or.inr hkept)
  rw [hq, Option.filter_some_pos haccepts, Option.map_some] at hafter
  refine ⟨_, hafter, ?_⟩
  split
  · exact (Queue.alike_deliver q _).autoDelete.trans hkept
  · exact hkept

end Broker

namespace Traffic

open Broker (Keeps Holds)

theorem keeps_of_turn {t t' : Traffic} {a : Act} (h : t.Sound) (hturn : Turn t a t')
    {name : String} (hkeeps : t.broker.Keeps name) : t'.broker.Keeps name := by
  cases hturn with
  | refused _ => exact hkeeps
  | joined _ _ => exact Broker.keeps_joined hkeeps _
  | published p => exact Broker.keeps_publish h.broker hkeeps p
  | took _ _ _ _ => exact Broker.keeps_updateQueue rfl (fun q => Queue.alike_pop q _) hkeeps
  | waited _ => exact hkeeps
  | stray how _ => exact hkeeps
  | settled _ _ => exact hkeeps
  | requeued _ _ =>
      exact Broker.keeps_updateQueue rfl (fun q => Queue.alike_deliver q _) hkeeps
  | forgot serial => exact hkeeps
  | left ref =>
      exact Broker.keeps_updateQueue (f := fun q => q.detach ref.id) rfl
        (fun _ => ⟨rfl, rfl, rfl⟩) hkeeps

theorem holds_of_turn {t t' : Traffic} {a : Act} (h : t.Sound) (hturn : Turn t a t')
    {name : String} {c : Copy} (hholds : t.broker.Holds name c) (htaken : (name, c) ∉ t.taken a)
    (hlost : (name, c) ∉ t.lost a) : t'.broker.Holds name c := by
  rw [Broker.holds_iff h.broker] at hholds
  have hmem : (name, c) ∈ (t.taken a ++ t.lost a) ++ t'.broker.stock :=
    (stock_of_turn h hturn).mem_iff.mp (List.mem_append_right _ hholds.right)
  have hthere : (name, c) ∈ t'.broker.stock := by
    rcases List.mem_append.mp hmem with hgone | hthere
    · exact absurd hgone (by simp [htaken, hlost])
    · exact hthere
  exact (Broker.holds_iff (sound_of_turn hturn h).broker).mpr
    ⟨keeps_of_turn h hturn hholds.left, hthere⟩

theorem nodup_stock_run (acts : List Act) :
    (serials (({} : Traffic).run acts).broker.stock).Nodup := by
  have hbalance := stock_run numbered_empty acts
  have hnone : ({} : Traffic).broker.stock = [] := rfl
  rw [hnone, List.append_nil] at hbalance
  have hserials := (serials_log_created numbered_empty acts).right
  have hall : serials (({} : Traffic).log created acts) ~ _ := hbalance.map _
  rw [hall.nodup_iff, List.map_append] at hserials
  exact (List.nodup_append.mp hserials).right.left

/-!
## The law of kept queues
-/

/-- An act that brings a parcel to a queue: it is published under a subject of it, or put back. -/
inductive Routes (t : Traffic) (q : Queue) : Act → Parcel → Prop where
  | published {p : Parcel} (bound : topicMatches q.binding p.subject = true) :
      Routes t q (.publish p) p
  | putBack {serial : Nat} {e : String × Copy} (delivery : t.delivery? serial = some e)
      (own : q.name = e.1) : Routes t q (.settle serial (.nack true)) e.2.parcel

/--
What is routed to a kept queue comes into it, once, and can be had from it at each later moment
unless it was taken in between.
-/
structure KeepsAll (acts : List Act) : Prop where
  arrives : ∀ done a p name q, done ++ [a] <+: acts →
    (({} : Traffic).run done).broker.queue? name = some q → q.autoDelete = false →
    (({} : Traffic).run done).Routes q a p →
    ∃ c, c.parcel = p ∧ copiesIn name ((({} : Traffic).run done).created a) = [c] ∧
      (({} : Traffic).run (done ++ [a])).broker.Holds name c
  stays : ∀ done later name c, done ++ later <+: acts →
    (({} : Traffic).run done).broker.Holds name c →
    (name, c) ∈ (({} : Traffic).run done).log taken later ∨
      (({} : Traffic).run (done ++ later)).broker.Holds name c

/-- Whoever leaves a kept queue has taken all that came for it. -/
def TakenFirst (acts : List Act) : Prop :=
  ∀ done ref, done ++ [.leave ref] <+: acts →
    (({} : Traffic).run done).broker.Keeps ref.queue →
    (({} : Traffic).run done).broker.leftBy ref = []

theorem reaches_of_routes {t : Traffic} (h : t.Numbered) {q : Queue} {a : Act} {p : Parcel}
    (hroutes : t.Routes q a p) : ∃ isFor : Queue → Prop, isFor q ∧ t.Reaches a p isFor := by
  cases hroutes with
  | published bound => exact ⟨_, bound, reaches_publish h p⟩
  | putBack delivery own => exact ⟨_, own, reaches_requeue h delivery⟩

theorem holds_of_routes {t : Traffic} (h : t.Numbered) {name : String} {q : Queue} {a : Act}
    {p : Parcel} (hq : t.broker.queue? name = some q) (hkept : q.autoDelete = false)
    (hroutes : t.Routes q a p) :
    ∃ c, c.parcel = p ∧ copiesIn name (t.created a) = [c] ∧ (t.step a).broker.Holds name c := by
  rcases reaches_of_routes h hroutes with ⟨isFor, hfor, hreaches⟩
  rcases hreaches.one name q hq hfor (Or.inr hkept) with ⟨c, q', hc, hcreated, hq', hgains⟩
  have hmem : c ∈ q'.contents := hgains.contents.mem_iff.mpr List.mem_cons_self
  exact ⟨c, hc, hcreated, q', hq', hgains.alike.autoDelete.trans hkept,
    Broker.mem_contents_iff.mp hmem⟩

theorem not_mem_lost {t : Traffic} {a : Act} {name : String} {c : Copy}
    (hkeeps : t.broker.Keeps name)
    (h : ∀ ref, a = .leave ref → t.broker.Keeps ref.queue → t.broker.leftBy ref = []) :
    (name, c) ∉ t.lost a := by
  intro hlost
  cases a with
  | leave ref =>
      rcases List.mem_map.mp hlost with ⟨c', hc', heq⟩
      cases heq
      rw [h ref rfl hkeeps] at hc'
      cases hc'
  | subscribe s => cases hlost
  | publish p => cases hlost
  | next ref => cases hlost
  | settle serial how => cases hlost
  | forget serial => cases hlost

/-- Along a run, what is in a kept queue stays there until it is taken. -/
theorem holds_of_takenFirst {acts : List Act} (h : TakenFirst acts) {done later : List Act}
    (hbegun : done ++ later <+: acts) {name : String} {c : Copy}
    (hholds : (({} : Traffic).run done).broker.Holds name c) :
    (name, c) ∈ (({} : Traffic).run done).log taken later ∨
      (({} : Traffic).run (done ++ later)).broker.Holds name c := by
  induction later generalizing done with
  | nil =>
      right
      rwa [List.append_nil]
  | cons a rest ih =>
      have hsound := (numbered_run numbered_empty done).sound
      have hassoc : done ++ a :: rest = (done ++ [a]) ++ rest := by
        rw [List.append_assoc, List.singleton_append]
      rw [hassoc] at hbegun ⊢
      have hfirst : done ++ [a] <+: acts := (List.prefix_append _ rest).trans hbegun
      rw [log]
      by_cases htaken : (name, c) ∈ (({} : Traffic).run done).taken a
      · exact Or.inl (List.mem_append_left _ htaken)
      · have hkeeps := ((Broker.holds_iff hsound.broker).mp hholds).left
        have hlost : (name, c) ∉ (({} : Traffic).run done).lost a := by
          refine not_mem_lost hkeeps ?_
          rintro ref rfl
          exact h done ref hfirst
        have hnext := holds_of_turn hsound (turn_step hsound.isOpen a) hholds htaken hlost
        rw [← run_snoc] at hnext
        rw [← run_snoc]
        exact (ih hbegun hnext).imp_left (List.mem_append_right _)

theorem leftBy_eq_nil_of_stays {done : List Act} {ref : ConsumerRef}
    (hkeeps : (({} : Traffic).run done).broker.Keeps ref.queue)
    (hstays : ∀ c, (({} : Traffic).run done).broker.Holds ref.queue c →
      (({} : Traffic).run (done ++ [.leave ref])).broker.Holds ref.queue c) :
    (({} : Traffic).run done).broker.leftBy ref = [] := by
  rw [List.eq_nil_iff_forall_not_mem]
  intro c hc
  have hsound := (numbered_run numbered_empty done).sound
  have hbalance := Broker.stock_unsubscribe hsound.broker ref
  have hleft : (ref.queue, c) ∈
      ((({} : Traffic).run done).broker.leftBy ref).map fun c => (ref.queue, c) :=
    List.mem_map_of_mem hc
  have hbefore := hbalance.mem_iff.mpr (List.mem_append_left _ hleft)
  have hafter := hstays c ((Broker.holds_iff hsound.broker).mpr ⟨hkeeps, hbefore⟩)
  rw [run_snoc] at hafter
  have hthere := ((Broker.holds_iff
    (sound_of_turn (.left ref) hsound).broker).mp hafter).right
  -- The copy would have been there twice.
  have hnodup := nodup_stock_run done
  have hserials : serials (({} : Traffic).run done).broker.stock ~ _ := hbalance.map _
  rw [hserials.nodup_iff, List.map_append] at hnodup
  exact (List.nodup_append.mp hnodup).right.right _ (List.mem_map_of_mem hleft) _
    (List.mem_map_of_mem hthere) rfl

theorem keepsAll_iff_takenFirst (acts : List Act) : KeepsAll acts ↔ TakenFirst acts := by
  constructor
  · intro hkeepsAll done ref hbegun hkeeps
    apply leftBy_eq_nil_of_stays hkeeps
    intro c hholds
    rcases hkeepsAll.stays done [.leave ref] ref.queue c hbegun hholds with htaken | hthere
    · cases htaken
    · exact hthere
  · intro htaken
    constructor
    · intro done a p name q _ hq hkept hroutes
      rw [run_snoc]
      exact holds_of_routes (numbered_run numbered_empty done) hq hkept hroutes
    · intro done later name c hbegun hholds
      exact holds_of_takenFirst htaken hbegun hholds

/-- A consumer leaves with a message in its buffer, and another one comes to the queue. -/
def leavesEarly : List Act :=
  [.subscribe (Broker.sharing loneConsumer), .publish { subject := "a.b", payload := [] },
    .leave ⟨"q", 0⟩, .subscribe (Broker.sharing loneConsumer)]

/-- The message is gone, though the queue is kept. -/
theorem not_keepsAll_leavesEarly : ¬ KeepsAll leavesEarly := by
  intro h
  have hbefore : (({} : Traffic).run (leavesEarly.take 2)).broker.Holds "q"
      ⟨0, { subject := "a.b", payload := [] }⟩ :=
    ⟨_, rfl, rfl, Or.inr ⟨⟨0, false, [⟨0, { subject := "a.b", payload := [] }⟩]⟩, by decide,
      by decide⟩⟩
  have hafter : (({} : Traffic).run leavesEarly).broker.stock = [] := by decide
  rcases h.stays (leavesEarly.take 2) (leavesEarly.drop 2) "q" _ (List.prefix_refl _) hbefore with
    htaken | hholds
  · cases htaken
  · have hsound := (numbered_run numbered_empty leavesEarly).sound
    have hthere := ((Broker.holds_iff hsound.broker).mp hholds).right
    rw [hafter] at hthere
    cases hthere

end Traffic
end Bus
end Courier
