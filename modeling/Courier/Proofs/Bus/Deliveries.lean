import Courier.Proofs.Bus.Brokers

/-!
# New copies

Copies are made when a parcel is published and when one is put back. Each queue
that matches and accepts gets one copy with a number of its own, and no other queue
gets any.
-/

namespace Courier
namespace Bus

open scoped List
open Routing (topicMatches)

namespace Broker

def recipients (b : Broker) (p : Parcel) : List Queue :=
  b.queues.filter fun q => topicMatches q.binding p.subject && q.accepts

def numbered (p : Parcel) (serial : Nat) (queues : List Queue) : List (String × Copy) :=
  (queues.zipIdx serial).map fun e => (e.1.name, ⟨e.2, p⟩)

def newCopies (b : Broker) (p : Parcel) : List (String × Copy) :=
  numbered p b.nextSerial (b.recipients p)

theorem numbered_cons (p : Parcel) (serial : Nat) (q : Queue) (rest : List Queue) :
    numbered p serial (q :: rest) = (q.name, ⟨serial, p⟩) :: numbered p (serial + 1) rest := by
  simp [numbered, List.zipIdx_cons]

theorem map_fst_numbered (p : Parcel) (serial : Nat) (queues : List Queue) :
    (numbered p serial queues).map Prod.fst = queues.map Queue.name := by
  induction queues generalizing serial with
  | nil => rfl
  | cons q rest ih => simp [numbered_cons, ih]

theorem serials_numbered (p : Parcel) (serial : Nat) (queues : List Queue) :
    (numbered p serial queues).map (fun e => e.2.serial) = List.range' serial queues.length := by
  induction queues generalizing serial with
  | nil => rfl
  | cons q rest ih => simp [numbered_cons, ih, List.range'_succ]

/-!
## Routing
-/

theorem route_cons_of_matches {p : Parcel} {q : Queue} (serial : Nat) (rest : List Queue)
    (h : topicMatches q.binding p.subject = true) :
    route p serial (q :: rest) =
      (q.deliver ⟨serial, p⟩ :: (route p (serial + 1) rest).1, (route p (serial + 1) rest).2) := by
  simp [route, h]

theorem route_cons_of_not_matches {p : Parcel} {q : Queue} (serial : Nat) (rest : List Queue)
    (h : topicMatches q.binding p.subject = false) :
    route p serial (q :: rest) = (q :: (route p serial rest).1, (route p serial rest).2) := by
  simp [route, h]

theorem map_name_route (p : Parcel) (serial : Nat) (queues : List Queue) :
    (route p serial queues).1.map Queue.name = queues.map Queue.name := by
  induction queues generalizing serial with
  | nil => rfl
  | cons q rest ih =>
      cases h : topicMatches q.binding p.subject with
      | true => simp [route_cons_of_matches serial rest h, ih, (Queue.alike_deliver q _).name]
      | false => simp [route_cons_of_not_matches serial rest h, ih]

theorem forall_route {P : Queue → Prop} (hdeliver : ∀ q c, P q → P (q.deliver c)) (p : Parcel)
    (serial : Nat) {queues : List Queue} (h : ∀ q ∈ queues, P q) :
    ∀ q ∈ (route p serial queues).1, P q := by
  induction queues generalizing serial with
  | nil => exact h
  | cons q rest ih =>
      have hrest := fun n => ih n fun other hother => h other (List.mem_cons_of_mem _ hother)
      have hq := h q List.mem_cons_self
      intro other hother
      cases hmatch : topicMatches q.binding p.subject with
      | true =>
          rw [route_cons_of_matches serial rest hmatch] at hother
          rcases List.mem_cons.mp hother with rfl | hother
          · exact hdeliver q _ hq
          · exact hrest _ other hother
      | false =>
          rw [route_cons_of_not_matches serial rest hmatch] at hother
          rcases List.mem_cons.mp hother with rfl | hother
          · exact hq
          · exact hrest _ other hother

theorem snd_route (p : Parcel) (serial : Nat) (queues : List Queue) :
    (route p serial queues).2 =
      serial + (queues.filter fun q => topicMatches q.binding p.subject).length := by
  induction queues generalizing serial with
  | nil => rfl
  | cons q rest ih =>
      cases h : topicMatches q.binding p.subject with
      | true =>
          rw [route_cons_of_matches serial rest h, ih,
            List.filter_cons_of_pos (by exact h), List.length_cons]
          omega
      | false =>
          rw [route_cons_of_not_matches serial rest h, ih,
            List.filter_cons_of_neg (by simp [h])]

theorem stockOf_route (p : Parcel) (serial : Nat) {queues : List Queue}
    (h : ∀ q ∈ queues, q.accepts = true) :
    stockOf (route p serial queues).1 ~
      numbered p serial (queues.filter fun q => topicMatches q.binding p.subject) ++
        stockOf queues := by
  induction queues generalizing serial with
  | nil => exact List.Perm.refl _
  | cons q rest ih =>
      have hrest := fun n => ih n fun other hother => h other (List.mem_cons_of_mem _ hother)
      cases hmatch : topicMatches q.binding p.subject with
      | true =>
          have hgains := Queue.gains_deliver (h q List.mem_cons_self) ⟨serial, p⟩
          have hcontents := hgains.contents.map fun c => ((q.deliver ⟨serial, p⟩).name, c)
          rw [hgains.alike.name, List.map_cons] at hcontents
          rw [route_cons_of_matches serial rest hmatch, List.filter_cons_of_pos (by exact hmatch),
            numbered_cons]
          simp only [stockOf, List.flatMap_cons, hgains.alike.name]
          refine (hcontents.append (hrest (serial + 1))).trans ?_
          rw [List.cons_append, List.cons_append]
          exact (List.perm_append_comm_assoc _ _ _).cons _
      | false =>
          rw [route_cons_of_not_matches serial rest hmatch,
            List.filter_cons_of_neg (by simp [hmatch])]
          simp only [stockOf, List.flatMap_cons]
          exact ((hrest serial).append_left _).trans (List.perm_append_comm_assoc _ _ _)

theorem find?_route (p : Parcel) (serial : Nat) (queues : List Queue) (name : String) :
    ∃ n, (route p serial queues).1.find? (fun q => q.name = name) =
        (queues.find? fun q => q.name = name).map (fun q =>
          if topicMatches q.binding p.subject then q.deliver ⟨n, p⟩ else q) ∧
      ∀ q, queues.find? (fun q => q.name = name) = some q →
        topicMatches q.binding p.subject = true →
        (name, ⟨n, p⟩) ∈
          numbered p serial (queues.filter fun q => topicMatches q.binding p.subject) := by
  induction queues generalizing serial with
  | nil =>
      refine ⟨0, rfl, ?_⟩
      intro q hq
      cases hq
  | cons q rest ih =>
      cases hmatch : topicMatches q.binding p.subject with
      | true =>
          rw [route_cons_of_matches serial rest hmatch, List.filter_cons_of_pos (by exact hmatch),
            numbered_cons]
          have hdelivered := (Queue.alike_deliver q ⟨serial, p⟩).name
          by_cases hname : q.name = name
          · refine ⟨serial, by simp [hdelivered, hname, hmatch], ?_⟩
            intro _ _ _
            rw [hname]
            exact List.mem_cons_self
          · rcases ih (serial + 1) with ⟨n, hfind, hmem⟩
            refine ⟨n, by simp [hdelivered, hname, hfind], ?_⟩
            intro other hother hmatches
            rw [List.find?_cons_of_neg (by simp [hname])] at hother
            exact List.mem_cons_of_mem _ (hmem other hother hmatches)
      | false =>
          rw [route_cons_of_not_matches serial rest hmatch,
            List.filter_cons_of_neg (by simp [hmatch])]
          rcases ih serial with ⟨n, hfind, hmem⟩
          refine ⟨n, ?_, ?_⟩
          · by_cases hname : q.name = name
            · simp [hname, hmatch]
            · simp [hname, hfind]
          · intro other hother hmatches
            by_cases hname : q.name = name
            · rw [List.find?_cons_of_pos (by simp [hname])] at hother
              rw [← Option.some.inj hother, hmatch] at hmatches
              cases hmatches
            · rw [List.find?_cons_of_neg (by simp [hname])] at hother
              exact hmem other hother hmatches

/-!
## Publishing
-/

def kept (b : Broker) : List Queue :=
  b.queues.filter Queue.accepts

theorem publish_eq (b : Broker) (p : Parcel) :
    b.publish p =
      { b with
        queues := (route p b.nextSerial b.kept).1
        nextSerial := (route p b.nextSerial b.kept).2
        published := b.published ++ [p] } := by
  have hkept : b.queues.filter (fun q => !q.isAbandoned) = b.kept := by
    apply List.filter_congr
    intro q _
    exact (Queue.accepts_eq q).symm
  simp only [publish, hkept]

theorem filter_kept (b : Broker) (p : Parcel) :
    b.kept.filter (fun q => topicMatches q.binding p.subject) = b.recipients p := by
  simp only [kept, recipients, List.filter_filter]

theorem stockOf_filter_accepts {queues : List Queue} (h : ∀ q ∈ queues, q.Sound) :
    stockOf (queues.filter Queue.accepts) = stockOf queues := by
  induction queues with
  | nil => rfl
  | cons q rest ih =>
      have hrest := ih fun other hother => h other (List.mem_cons_of_mem _ hother)
      cases haccepts : q.accepts with
      | true =>
          rw [List.filter_cons_of_pos haccepts]
          simp only [stockOf, List.flatMap_cons] at hrest ⊢
          rw [hrest]
      | false =>
          have hnone := Queue.contents_of_not_accepts (h q List.mem_cons_self) haccepts
          rw [List.filter_cons_of_neg (by simp [haccepts]), hrest]
          simp only [stockOf, List.flatMap_cons, hnone, List.map_nil, List.nil_append]

theorem stock_publish {b : Broker} (hb : b.Sound) (p : Parcel) :
    (b.publish p).stock ~ b.newCopies p ++ b.stock := by
  rw [publish_eq, newCopies, ← filter_kept, stock, stock, ← stockOf_filter_accepts hb.queues]
  apply stockOf_route
  intro q hq
  exact (List.mem_filter.mp hq).right

theorem nextSerial_publish (b : Broker) (p : Parcel) :
    (b.publish p).nextSerial = b.nextSerial + (b.newCopies p).length := by
  rw [publish_eq]
  simp only [snd_route, filter_kept, newCopies, numbered, List.length_map, List.length_zipIdx]

theorem sound_publish {b : Broker} (hb : b.Sound) (p : Parcel) : (b.publish p).Sound := by
  rw [publish_eq]
  have hmem : ∀ q ∈ b.kept, q ∈ b.queues := fun q hq => (List.mem_filter.mp hq).left
  constructor
  · rw [map_name_route]
    exact hb.names.sublist (List.filter_sublist.map Queue.name)
  · exact forall_route (fun q c hq => Queue.sound_deliver hq c) p _
      fun q hq => hb.queues q (hmem q hq)
  · refine forall_route (P := fun q => ∀ e ∈ q.roll, e.1 < b.nextConsumer) ?_ p _
      fun q hq => hb.ids q (hmem q hq)
    intro q c hq
    rw [Queue.roll_deliver]
    exact hq

theorem queue?_kept {b : Broker} (hb : b.Sound) (name : String) :
    b.kept.find? (fun q => q.name = name) = (b.queue? name).filter Queue.accepts := by
  cases h : b.queue? name with
  | none =>
      apply List.find?_eq_none.mpr
      intro q hq
      exact List.find?_eq_none.mp h q (List.mem_filter.mp hq).left
  | some q =>
      have hname := name_of_queue? h
      rcases exists_split_of_queue? hb h with ⟨before, after, hsplit, hothers, _⟩
      have hnone : ∀ l : List Queue, (∀ other ∈ l, other ∈ before ++ after) →
          (l.filter Queue.accepts).find? (fun q => q.name = name) = none := by
        intro l hl
        apply List.find?_eq_none.mpr
        intro other hother
        simpa using hothers other (hl other (List.mem_filter.mp hother).left)
      have hbefore := hnone before fun other => List.mem_append_left after
      have hafter := hnone after fun other => List.mem_append_right before
      rw [kept, hsplit, List.filter_append, List.find?_append, hbefore, Option.none_or]
      cases haccepts : q.accepts with
      | true =>
          rw [List.filter_cons_of_pos haccepts, List.find?_cons_of_pos (by simp [hname]),
            Option.filter_some_pos haccepts]
      | false =>
          rw [List.filter_cons_of_neg (by simp [haccepts]), hafter,
            Option.filter_some_neg haccepts]

theorem queue?_publish {b : Broker} (hb : b.Sound) (p : Parcel) (name : String) :
    ∃ n, (b.publish p).queue? name =
        ((b.queue? name).filter Queue.accepts).map (fun q =>
          if topicMatches q.binding p.subject then q.deliver ⟨n, p⟩ else q) ∧
      ∀ q, b.queue? name = some q → q.accepts = true →
        topicMatches q.binding p.subject = true → (name, ⟨n, p⟩) ∈ b.newCopies p := by
  rcases find?_route p b.nextSerial b.kept name with ⟨n, hfind, hmem⟩
  rw [queue?_kept hb] at hfind
  refine ⟨n, ?_, ?_⟩
  · rw [publish_eq]
    exact hfind
  · intro q hq haccepts hmatches
    rw [newCopies, ← filter_kept]
    refine hmem q ?_ hmatches
    rw [queue?_kept hb, hq]
    simp [haccepts]

/-!
## Settling
-/

def requeued (b : Broker) (queue : String) (p : Parcel) : List (String × Copy) :=
  if (b.queue? queue).any Queue.accepts then [(queue, ⟨b.nextSerial, p⟩)] else []

/-- Settling is written down, and does nothing else unless a copy is put back. -/
theorem settle_of_not_requeue {b : Broker} (hopen : b.closed = false) {queue : String}
    {how : Settlement} (h : how ≠ .nack true ∨ b.queue? queue = none) (p : Parcel) :
    b.settle queue p how =
      .ok { b with settled := b.settled ++ [⟨queue, p.subject, how⟩] } := by
  cases how with
  | ack => simp [settle, hopen]
  | nack requeue =>
      cases requeue with
      | false => simp [settle, hopen]
      | true =>
          have hnone : b.queues.find? (fun q => decide (q.name = queue)) = none := by
            rcases h with h | h
            · exact absurd rfl h
            · exact h
          simp [settle, hopen, queue?, hnone]

theorem settle_of_requeue {b : Broker} (hopen : b.closed = false) {queue : String} {q : Queue}
    (hq : b.queue? queue = some q) (p : Parcel) :
    b.settle queue p (.nack true) =
      .ok { b with
        settled := b.settled ++ [⟨queue, p.subject, .nack true⟩]
        queues := updateQueue queue (fun q => q.deliver ⟨b.nextSerial, p⟩) b.queues
        nextSerial := b.nextSerial + 1 } := by
  have hfind : b.queues.find? (fun q => decide (q.name = queue)) = some q := hq
  simp [settle, hopen, queue?, hfind]

theorem stays_or_requeues (b : Broker) (queue : String) (how : Settlement) :
    (how ≠ .nack true ∨ b.queue? queue = none) ∨
      how = .nack true ∧ ∃ q, b.queue? queue = some q := by
  by_cases hstays : how ≠ .nack true ∨ b.queue? queue = none
  · exact .inl hstays
  · rw [not_or, not_not] at hstays
    exact .inr ⟨hstays.left, Option.ne_none_iff_exists'.mp hstays.right⟩

theorem settle_cases {b b' : Broker} {queue : String} {p : Parcel} {how : Settlement}
    (h : b.settle queue p how = .ok b') :
    b' = { b with settled := b.settled ++ [⟨queue, p.subject, how⟩] } ∨
      how = .nack true ∧ ∃ q, b.queue? queue = some q ∧ b' = { b with
        settled := b.settled ++ [⟨queue, p.subject, .nack true⟩]
        queues := updateQueue queue (fun q => q.deliver ⟨b.nextSerial, p⟩) b.queues
        nextSerial := b.nextSerial + 1 } := by
  have hopen : b.closed = false := by
    cases hclosed : b.closed with
    | false => rfl
    | true => simp [settle, hclosed] at h
  rcases stays_or_requeues b queue how with hstays | ⟨rfl, q, hq⟩
  · rw [settle_of_not_requeue hopen hstays] at h
    cases h
    exact .inl rfl
  · rw [settle_of_requeue hopen hq] at h
    cases h
    exact .inr ⟨rfl, q, hq, rfl⟩

theorem stock_deliver {b : Broker} (hb : b.Sound) {queue : String} {q : Queue}
    (hq : b.queue? queue = some q) (p : Parcel) :
    stockOf (updateQueue queue (fun q => q.deliver ⟨b.nextSerial, p⟩) b.queues) ~
      b.requeued queue p ++ b.stock := by
  have hname : ∀ q : Queue, (q.deliver ⟨b.nextSerial, p⟩).name = q.name :=
    fun q => (Queue.alike_deliver q _).name
  cases haccepts : q.accepts with
  | true =>
      have hgains := Queue.gains_deliver haccepts ⟨b.nextSerial, p⟩
      have hmoved := stock_updateQueue [] [⟨b.nextSerial, p⟩] hb hq hname
        hgains.contents
      simpa [requeued, hq, haccepts] using hmoved
  | false =>
      have hsame : (q.deliver ⟨b.nextSerial, p⟩).contents ~ q.contents := by
        rw [Queue.deliver_of_not_accepts haccepts]
      have hmoved := stock_updateQueue [] [] hb hq hname hsame
      simpa [requeued, hq, haccepts] using hmoved

theorem sound_deliver {b b' : Broker} (hb : b.Sound) {queue : String} {c : Copy}
    (hqueues : b'.queues = updateQueue queue (fun q => q.deliver c) b.queues)
    (hnext : b'.nextConsumer = b.nextConsumer) : b'.Sound := by
  refine sound_updateQueue hb hqueues (fun q => (Queue.alike_deliver q c).name) ?_
    (Nat.le_of_eq hnext.symm) ?_
  · intro q hq
    exact Queue.sound_deliver (hb.queues q hq) c
  · intro q hq e he
    rw [Queue.roll_deliver] at he
    rw [hnext]
    exact hb.ids q hq e he

end Broker
end Bus
end Courier
