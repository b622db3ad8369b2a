import Courier.Proofs.Bus.Traffic

/-!
# Accounts of copies

An act makes copies, hands a copy out, or takes copies along with a consumer that
leaves. What acts made is, at every moment, what they handed out, what is still in
the queues, and what went with consumers.

The main statement is `accounted_run`.
-/

namespace Courier
namespace Bus

open scoped List
open Routing (topicMatches)

def copiesIn (name : String) (l : List (String × Copy)) : List Copy :=
  (l.filter fun e => e.1 = name).map Prod.snd

def serials (l : List (String × Copy)) : List Nat :=
  l.map fun e => e.2.serial

@[simp] theorem copiesIn_append (name : String) (l l' : List (String × Copy)) :
    copiesIn name (l ++ l') = copiesIn name l ++ copiesIn name l' := by
  simp [copiesIn]

@[simp] theorem serials_append (l l' : List (String × Copy)) :
    serials (l ++ l') = serials l ++ serials l' :=
  List.map_append

theorem copiesIn_perm {l l' : List (String × Copy)} (h : l ~ l') (name : String) :
    copiesIn name l ~ copiesIn name l' :=
  (h.filter _).map _

theorem copiesIn_eq_nil {name : String} {l : List (String × Copy)} (h : ∀ e ∈ l, e.1 ≠ name) :
    copiesIn name l = [] := by
  have hnone : l.filter (fun e => e.1 = name) = [] := by
    apply List.filter_eq_nil_iff.mpr
    intro e he
    simpa using h e he
  rw [copiesIn, hnone, List.map_nil]

theorem copiesIn_map (name : String) (l : List Copy) :
    copiesIn name (l.map fun c => (name, c)) = l := by
  simp [copiesIn, List.filter_map, Function.comp_def]

theorem copiesIn_of_mem {l : List (String × Copy)} (hnames : (l.map Prod.fst).Nodup)
    {name : String} {c : Copy} (h : (name, c) ∈ l) : copiesIn name l = [c] := by
  rcases List.append_of_mem h with ⟨before, after, hsplit⟩
  rw [hsplit, List.map_append, List.map_cons] at hnames
  have hnot := (List.nodup_cons.mp (List.nodup_middle.mp hnames)).left
  rw [← List.map_append] at hnot
  have hothers : copiesIn name (before ++ after) = [] := by
    apply copiesIn_eq_nil
    intro e he heq
    apply hnot
    exact List.mem_map.mpr ⟨e, he, heq⟩
  rw [copiesIn_append] at hothers
  rcases List.append_eq_nil_iff.mp hothers with ⟨hbefore, hafter⟩
  have hhead : copiesIn name ((name, c) :: after) = c :: copiesIn name after := by
    simp [copiesIn]
  rw [hsplit, copiesIn_append, hhead, hbefore, hafter, List.nil_append]

namespace Broker

def bufferedIn (b : Broker) (name : String) : List Copy :=
  ((b.queue? name).map Queue.buffered).getD []

def backlogIn (b : Broker) (name : String) : List Copy :=
  ((b.queue? name).map Queue.backlog).getD []

theorem copiesIn_stock {b : Broker} (hb : b.Sound) (name : String) :
    copiesIn name b.stock = b.bufferedIn name ++ b.backlogIn name := by
  have hnone : ∀ l : List Queue, (∀ q ∈ l, q.name ≠ name) → copiesIn name (stockOf l) = [] := by
    intro l hl
    apply copiesIn_eq_nil
    intro e he
    rcases List.mem_flatMap.mp he with ⟨q, hq, he⟩
    rcases List.mem_map.mp he with ⟨c, _, rfl⟩
    exact hl q hq
  cases hq : b.queue? name with
  | none =>
      have hothers : ∀ q ∈ b.queues, q.name ≠ name := by
        intro q hmem
        simpa using List.find?_eq_none.mp hq q hmem
      rw [stock, hnone _ hothers]
      simp [bufferedIn, backlogIn, hq]
  | some q =>
      rcases exists_split_of_queue? hb hq with ⟨before, after, hsplit, hothers, _⟩
      have hbefore := hnone before fun other h => hothers other (List.mem_append_left _ h)
      have hafter := hnone after fun other h => hothers other (List.mem_append_right _ h)
      have hown : stockOf (before ++ q :: after) =
          stockOf before ++ ((q.contents.map fun c => (name, c)) ++ stockOf after) := by
        simp [stockOf, name_of_queue? hq]
      rw [stock, hsplit, hown, copiesIn_append, copiesIn_append, hbefore, hafter, copiesIn_map]
      simp [bufferedIn, backlogIn, hq, Queue.contents]

theorem nodup_names_newCopies {b : Broker} (hb : b.Sound) (p : Parcel) :
    ((b.newCopies p).map Prod.fst).Nodup := by
  rw [newCopies, map_fst_numbered]
  exact hb.names.sublist (List.filter_sublist.map Queue.name)

theorem exists_queue_of_mem_newCopies {b : Broker} (hb : b.Sound) {p : Parcel}
    {e : String × Copy} (h : e ∈ b.newCopies p) :
    ∃ q, b.queue? e.1 = some q ∧ topicMatches q.binding p.subject = true ∧ q.accepts = true := by
  have hname : e.1 ∈ (b.newCopies p).map Prod.fst := List.mem_map_of_mem h
  rw [newCopies, map_fst_numbered] at hname
  rcases List.mem_map.mp hname with ⟨q, hq, hname⟩
  rcases List.mem_filter.mp hq with ⟨hmem, hfits⟩
  rw [Bool.and_eq_true] at hfits
  exact ⟨q, hname ▸ queue?_of_mem hb hmem, hfits⟩

theorem of_mem_requeued {b : Broker} {name : String} {p : Parcel} {e : String × Copy}
    (h : e ∈ b.requeued name p) :
    e.1 = name ∧ ∃ q, b.queue? name = some q ∧ q.accepts = true := by
  unfold requeued at h
  cases hq : b.queue? name with
  | none => simp [hq] at h
  | some q =>
      cases haccepts : q.accepts with
      | false => simp [hq, haccepts] at h
      | true =>
          simp only [hq, Option.any_some, haccepts, if_true, List.mem_singleton] at h
          exact ⟨congrArg Prod.fst h, q, rfl, haccepts⟩

end Broker

namespace Traffic

/-!
## What an act makes, hands out and loses
-/

def created (t : Traffic) (a : Act) : List (String × Copy) :=
  (t.step a).broker.stock.filter fun e => e ∉ t.broker.stock

def taken (t : Traffic) : Act → List (String × Copy)
  | .next ref =>
    match (t.broker.take ref).1 with
    | .copy c => [(ref.queue, c)]
    | _ => []
  | _ => []

/-- The copies that were buffered for a consumer who leaves. -/
def lost (t : Traffic) : Act → List (String × Copy)
  | .leave ref => (t.broker.leftBy ref).map fun c => (ref.queue, c)
  | _ => []

def log (f : Traffic → Act → List (String × Copy)) (t : Traffic) :
    List Act → List (String × Copy)
  | [] => []
  | a :: rest => f t a ++ log f (t.step a) rest

/-- The copies that an act is to make, by the rules of publishing and of putting back. -/
def due (t : Traffic) : Act → List (String × Copy)
  | .publish p => t.broker.newCopies p
  | .settle serial (.nack true) =>
    match t.delivery? serial with
    | some e => t.broker.requeued e.1 e.2.parcel
    | none => []
  | _ => []

theorem due_settle_of_ne (t : Traffic) (serial : Nat) {how : Settlement} (h : how ≠ .nack true) :
    t.due (.settle serial how) = [] := by
  cases how with
  | ack => rfl
  | nack requeue =>
      cases requeue with
      | false => rfl
      | true => exact absurd rfl h

theorem due_eq_nil (t : Traffic) {a : Act} (hpublish : ∀ p, a ≠ .publish p)
    (hrequeue : ∀ serial, a ≠ .settle serial (.nack true)) : t.due a = [] := by
  cases a with
  | publish p => exact absurd rfl (hpublish p)
  | settle serial how =>
      apply due_settle_of_ne
      intro h
      exact hrequeue serial (h ▸ rfl)
  | subscribe s => rfl
  | next ref => rfl
  | forget serial => rfl
  | leave ref => rfl

theorem due_of_settled {t : Traffic} {serial : Nat} {how : Settlement} {e : String × Copy}
    (hdelivery : t.delivery? serial = some e)
    (hstays : how ≠ .nack true ∨ t.broker.queue? e.1 = none) :
    t.due (.settle serial how) = [] := by
  by_cases h : how = .nack true
  · have hnone := hstays.resolve_left (not_not_intro h)
    subst h
    simp [due, hdelivery, Broker.requeued, hnone]
  · exact due_settle_of_ne t serial h

theorem due_of_stray {t : Traffic} {serial : Nat} (h : t.delivery? serial = none)
    (how : Settlement) : t.due (.settle serial how) = [] := by
  by_cases hhow : how = .nack true
  · rw [hhow, due, h]
  · exact due_settle_of_ne t serial hhow

theorem taken_of_waited {t : Traffic} {ref : ConsumerRef}
    (h : ∀ c, (t.broker.take ref).1 ≠ .copy c) : t.taken (.next ref) = [] := by
  unfold taken
  cases htake : (t.broker.take ref).1 with
  | copy c => exact absurd htake (h c)
  | nothing => simp only [htake]
  | closed => simp only [htake]

/-- What is due and what was there is handed out, lost, or there afterwards. -/
theorem stock_of_turn {t t' : Traffic} {a : Act} (h : t.Sound) (hturn : Turn t a t') :
    t.due a ++ t.broker.stock ~ (t.taken a ++ t.lost a) ++ t'.broker.stock := by
  cases hturn with
  | refused _ => exact List.Perm.refl _
  | joined _ _ => exact (Broker.stock_joined h.broker _).symm
  | published p => exact (Broker.stock_publish h.broker p).symm
  | took hqueue hconsumer hhead htake =>
      simp only [taken, htake]
      exact Broker.stock_take h.broker hqueue hconsumer hhead
  | waited hnothing =>
      rw [taken_of_waited hnothing]
      exact List.Perm.refl _
  | stray how habsent =>
      rw [due_of_stray habsent]
      exact List.Perm.refl _
  | settled hdelivery hstays =>
      rw [due_of_settled hdelivery hstays]
      exact List.Perm.refl _
  | requeued hdelivery hqueue =>
      simp only [due, hdelivery]
      exact (Broker.stock_deliver h.broker hqueue _).symm
  | forgot serial => exact List.Perm.refl _
  | left ref => exact Broker.stock_unsubscribe h.broker ref

theorem serials_due {t t' : Traffic} {a : Act} (hturn : Turn t a t') :
    ∃ n, serials (t.due a) = List.range' t.broker.nextSerial n ∧
      t.broker.nextSerial + n ≤ t'.broker.nextSerial := by
  cases hturn with
  | published p =>
      refine ⟨(t.broker.recipients p).length, Broker.serials_numbered p _ _, ?_⟩
      rw [Broker.nextSerial_publish]
      simp [Broker.newCopies, Broker.numbered]
  | @requeued serial e q hdelivery hqueue =>
      cases haccepts : q.accepts with
      | true =>
          refine ⟨1, ?_, Nat.le_refl _⟩
          simp [due, hdelivery, Broker.requeued, hqueue, haccepts, serials]
      | false =>
          refine ⟨0, ?_, Nat.le_succ _⟩
          simp [due, hdelivery, Broker.requeued, hqueue, haccepts, serials]
  | settled hdelivery hstays =>
      rw [due_of_settled hdelivery hstays]
      exact ⟨0, rfl, Nat.le_refl _⟩
  | stray how habsent =>
      rw [due_of_stray habsent]
      exact ⟨0, rfl, Nat.le_refl _⟩
  | refused _ => exact ⟨0, rfl, Nat.le_refl _⟩
  | joined _ _ => exact ⟨0, rfl, Nat.le_refl _⟩
  | took _ _ _ _ => exact ⟨0, rfl, Nat.le_refl _⟩
  | waited _ => exact ⟨0, rfl, Nat.le_refl _⟩
  | forgot serial => exact ⟨0, rfl, Nat.le_refl _⟩
  | left ref => exact ⟨0, rfl, Nat.le_refl _⟩

/-!
## Copies with numbers of their own
-/

structure Numbered (t : Traffic) : Prop where
  sound : t.Sound
  old : ∀ e ∈ t.broker.stock, e.2.serial < t.broker.nextSerial

theorem numbered_empty : ({} : Traffic).Numbered := by
  refine ⟨sound_empty, ?_⟩
  intro e he
  cases he

theorem serial_of_mem_due {t t' : Traffic} {a : Act} (hturn : Turn t a t') {e : String × Copy}
    (he : e ∈ t.due a) :
    t.broker.nextSerial ≤ e.2.serial ∧ e.2.serial < t'.broker.nextSerial := by
  rcases serials_due hturn with ⟨n, hserials, hnext⟩
  have hmem : e.2.serial ∈ serials (t.due a) := List.mem_map_of_mem he
  rw [hserials, List.mem_range'_1] at hmem
  exact ⟨hmem.left, Nat.lt_of_lt_of_le hmem.right hnext⟩

theorem nextSerial_mono {t t' : Traffic} {a : Act} (hturn : Turn t a t') :
    t.broker.nextSerial ≤ t'.broker.nextSerial := by
  rcases serials_due hturn with ⟨n, _, hnext⟩
  omega

theorem numbered_of_turn {t t' : Traffic} {a : Act} (h : t.Numbered) (hturn : Turn t a t') :
    t'.Numbered := by
  refine ⟨sound_of_turn hturn h.sound, ?_⟩
  intro e he
  have hmem : e ∈ t.due a ++ t.broker.stock :=
    (stock_of_turn h.sound hturn).mem_iff.mpr (List.mem_append_right _ he)
  rcases List.mem_append.mp hmem with hdue | hold
  · exact (serial_of_mem_due hturn hdue).right
  · exact Nat.lt_of_lt_of_le (h.old e hold) (nextSerial_mono hturn)

theorem numbered_step {t : Traffic} (h : t.Numbered) (a : Act) : (t.step a).Numbered :=
  numbered_of_turn h (turn_step h.sound.isOpen a)

theorem mem_stock_of_gone {t t' : Traffic} {a : Act} (h : t.Sound) (hturn : Turn t a t')
    {e : String × Copy} (he : e ∈ t.taken a ++ t.lost a) : e ∈ t.broker.stock := by
  have hmem : e ∈ t.due a ++ t.broker.stock :=
    (stock_of_turn h hturn).mem_iff.mpr (List.mem_append_left _ he)
  cases a with
  | next ref => exact hmem
  | leave ref => exact hmem
  | subscribe s => cases he
  | publish p => cases he
  | settle serial how => cases he
  | forget serial => cases he

theorem created_perm {t : Traffic} (h : t.Numbered) (a : Act) : t.created a ~ t.due a := by
  have hturn := turn_step h.sound.isOpen a
  -- Of the balance only what was not there before is kept.
  have hbalance := (stock_of_turn h.sound hturn).filter fun e => e ∉ t.broker.stock
  have hdue : (t.due a).filter (fun e => e ∉ t.broker.stock) = t.due a := by
    apply List.filter_eq_self.mpr
    intro e he
    have hnew := (serial_of_mem_due hturn he).left
    have hfresh : e ∉ t.broker.stock := fun hold => absurd (h.old e hold) (by omega)
    simpa using hfresh
  have hgone : (t.taken a ++ t.lost a).filter (fun e => e ∉ t.broker.stock) = [] := by
    apply List.filter_eq_nil_iff.mpr
    intro e he
    simpa using mem_stock_of_gone h.sound hturn he
  have hstock : t.broker.stock.filter (fun e => e ∉ t.broker.stock) = [] := by
    apply List.filter_eq_nil_iff.mpr
    intro e he
    simpa using he
  rw [List.filter_append, List.filter_append, hdue, hgone, hstock, List.append_nil,
    List.nil_append] at hbalance
  exact hbalance.symm

/-!
## Balance along runs
-/

theorem stock_step {t : Traffic} (h : t.Numbered) (a : Act) :
    t.created a ++ t.broker.stock ~ (t.taken a ++ t.lost a) ++ (t.step a).broker.stock :=
  ((created_perm h a).append_right _).trans
    (stock_of_turn h.sound (turn_step h.sound.isOpen a))

theorem stock_run {t : Traffic} (h : t.Numbered) (acts : List Act) :
    t.log created acts ++ t.broker.stock ~
      (t.log taken acts ++ t.log lost acts) ++ (t.run acts).broker.stock := by
  induction acts generalizing t with
  | nil => exact List.Perm.refl _
  | cons a rest ih =>
      have hfirst := stock_step h a
      have hrest := ih (numbered_step h a)
      -- What is there after the first act cancels out; counting does without reordering.
      apply List.perm_iff_count.mpr
      intro e
      have hfirst := hfirst.count_eq e
      have hrest := hrest.count_eq e
      simp only [log, run_cons, List.count_append] at hfirst hrest ⊢
      omega

theorem serials_log {f : Traffic → Act → List (String × Copy)}
    (hfresh : ∀ {t a}, t.Numbered → ∃ n, serials (f t a) ~ List.range' t.broker.nextSerial n ∧
      t.broker.nextSerial + n ≤ (t.step a).broker.nextSerial)
    {t : Traffic} (h : t.Numbered) (acts : List Act) :
    (∀ n ∈ serials (t.log f acts), t.broker.nextSerial ≤ n) ∧ (serials (t.log f acts)).Nodup := by
  induction acts generalizing t with
  | nil =>
      refine ⟨?_, List.nodup_nil⟩
      intro n hn
      cases hn
  | cons a rest ih =>
      rcases ih (numbered_step h a) with ⟨hlater, hrest⟩
      rcases hfresh (a := a) h with ⟨n, hfirst, hnext⟩
      have hbounds : ∀ m ∈ serials (f t a),
          t.broker.nextSerial ≤ m ∧ m < (t.step a).broker.nextSerial := by
        intro m hm
        have hrange := List.mem_range'_1.mp (hfirst.mem_iff.mp hm)
        omega
      have hmono := nextSerial_mono (turn_step h.sound.isOpen a)
      simp only [log, serials_append]
      constructor
      · intro m hm
        rcases List.mem_append.mp hm with hm | hm
        · exact (hbounds m hm).left
        · exact Nat.le_trans hmono (hlater m hm)
      · refine List.nodup_append.mpr ⟨hfirst.nodup_iff.mpr (List.nodup_range' ..), hrest, ?_⟩
        intro m hm m' hm' heq
        have hlt := (hbounds m hm).right
        have hle := hlater m' hm'
        omega

theorem serials_log_created {t : Traffic} (h : t.Numbered) (acts : List Act) :
    (∀ n ∈ serials (t.log created acts), t.broker.nextSerial ≤ n) ∧
      (serials (t.log created acts)).Nodup := by
  refine serials_log ?_ h acts
  intro t a ht
  rcases serials_due (turn_step ht.sound.isOpen a) with ⟨n, hserials, hnext⟩
  refine ⟨n, ?_, hnext⟩
  rw [← hserials]
  exact (created_perm ht a).map _

theorem numbered_run {t : Traffic} (h : t.Numbered) (acts : List Act) : (t.run acts).Numbered := by
  induction acts generalizing t with
  | nil => exact h
  | cons a rest ih => exact ih (numbered_step h a)

/-!
## Who gets a copy
-/

/--
An act makes one copy of a parcel in each queue it is for, if that has consumers or
is kept without; the copy comes to one consumer, or is held back. No other queue
gets a copy.
-/
structure Reaches (t : Traffic) (a : Act) (p : Parcel) (isFor : Queue → Prop) : Prop where
  one : ∀ name q, t.broker.queue? name = some q → isFor q →
    q.isActive = true ∨ q.autoDelete = false →
    ∃ c q', c.parcel = p ∧ copiesIn name (t.created a) = [c] ∧
      (t.step a).broker.queue? name = some q' ∧ Queue.Gains c q q'
  none : ∀ name,
    (∀ q, t.broker.queue? name = some q → isFor q → q.isActive = false ∧ q.autoDelete = true) →
    copiesIn name (t.created a) = []

theorem not_accepts {q : Queue} (h : q.isActive = false ∧ q.autoDelete = true) :
    q.accepts ≠ true := by
  simp [Queue.accepts, h.left, h.right]

theorem reaches_publish {t : Traffic} (h : t.Numbered) (p : Parcel) :
    t.Reaches (.publish p) p fun q => topicMatches q.binding p.subject = true := by
  have hcreated := created_perm h (.publish p)
  constructor
  · intro name q hq hmatches haccepts
    have haccepts := (Queue.accepts_iff q).mpr haccepts
    rcases Broker.queue?_publish h.sound.broker p name with ⟨n, hqueue, hmem⟩
    have hnames := Broker.nodup_names_newCopies h.sound.broker p
    have hdue := copiesIn_of_mem hnames (hmem q hq haccepts hmatches)
    refine ⟨⟨n, p⟩, q.deliver ⟨n, p⟩, rfl, ?_, ?_, Queue.gains_deliver haccepts _⟩
    · rw [← List.perm_singleton, ← hdue]
      exact copiesIn_perm hcreated name
    · rw [hq, Option.filter_some_pos haccepts, Option.map_some, if_pos hmatches] at hqueue
      exact hqueue
  · intro name hnone
    apply copiesIn_eq_nil
    intro e he hname
    have hdue : e ∈ t.broker.newCopies p := hcreated.mem_iff.mp he
    rcases Broker.exists_queue_of_mem_newCopies h.sound.broker hdue with
      ⟨q, hq, hmatches, haccepts⟩
    exact not_accepts (hnone q (hname ▸ hq) hmatches) haccepts

theorem reaches_requeue {t : Traffic} (h : t.Numbered) {serial : Nat} {e : String × Copy}
    (he : t.delivery? serial = some e) :
    t.Reaches (.settle serial (.nack true)) e.2.parcel fun q => q.name = e.1 := by
  have hcreated := created_perm h (.settle serial (.nack true))
  simp only [due, he] at hcreated
  constructor
  · intro name q hq hfor haccepts
    have haccepts := (Queue.accepts_iff q).mpr haccepts
    have hname : name = e.1 := (Broker.name_of_queue? hq).symm.trans hfor
    subst hname
    refine ⟨⟨t.broker.nextSerial, e.2.parcel⟩, _, rfl, ?_, ?_, Queue.gains_deliver haccepts _⟩
    · rw [← List.perm_singleton]
      refine (copiesIn_perm hcreated e.1).trans ?_
      simp [Broker.requeued, hq, haccepts, copiesIn]
    · have hafter := Broker.queue?_updateQueue
        (f := fun q => q.deliver ⟨t.broker.nextSerial, e.2.parcel⟩)
        (fun q => (Queue.alike_deliver q _).name) t.broker e.1 e.1
      rw [if_pos rfl, hq] at hafter
      simp only [step, he, Broker.settle_of_requeue h.sound.isOpen hq]
      exact hafter
  · intro name hnone
    apply copiesIn_eq_nil
    intro e' he' hname
    rcases Broker.of_mem_requeued (hcreated.mem_iff.mp he') with ⟨hqueue, q, hq, haccepts⟩
    have hown : e.1 = name := hqueue.symm.trans hname
    exact not_accepts (hnone q (hown ▸ hq) (Broker.name_of_queue? hq)) haccepts

/-!
## Accounts
-/

/-- What holds of copies at the end of a run from an empty bus. -/
structure Accounted (acts : List Act) : Prop where
  published : ∀ p, (({} : Traffic).run acts).Reaches (.publish p) p
    fun q => topicMatches q.binding p.subject = true
  putBack : ∀ serial e, (({} : Traffic).run acts).delivery? serial = some e →
    (({} : Traffic).run acts).Reaches (.settle serial (.nack true)) e.2.parcel
      fun q => q.name = e.1
  otherwise : ∀ a, (∀ p, a ≠ .publish p) → (∀ serial, a ≠ .settle serial (.nack true)) →
    (({} : Traffic).run acts).created a = []
  once : (serials (({} : Traffic).log taken acts)).Nodup
  balance : ∀ name,
    copiesIn name (({} : Traffic).log created acts) ~
      copiesIn name (({} : Traffic).log taken acts) ++
        (({} : Traffic).run acts).broker.bufferedIn name ++
        (({} : Traffic).run acts).broker.backlogIn name ++
        copiesIn name (({} : Traffic).log lost acts)

theorem accounted_run (acts : List Act) : Accounted acts := by
  have hnumbered := numbered_run numbered_empty acts
  have hstock := stock_run numbered_empty acts
  have hnone : ({} : Traffic).broker.stock = [] := rfl
  rw [hnone, List.append_nil] at hstock
  constructor
  · exact reaches_publish hnumbered
  · intro serial e he
    exact reaches_requeue hnumbered he
  · intro a hpublish hrequeue
    have hcreated := created_perm hnumbered a
    rw [due_eq_nil _ hpublish hrequeue] at hcreated
    exact List.perm_nil.mp hcreated
  · have hserials := (serials_log_created numbered_empty acts).right
    have hall : serials (({} : Traffic).log created acts) ~ _ := hstock.map _
    rw [hall.nodup_iff, List.map_append, List.map_append] at hserials
    exact (List.nodup_append.mp (List.nodup_append.mp hserials).left).left
  · intro name
    have hin := copiesIn_perm hstock name
    rw [copiesIn_append, copiesIn_append, Broker.copiesIn_stock hnumbered.sound.broker] at hin
    refine hin.trans ?_
    simp only [List.append_assoc]
    refine List.Perm.append_left _ ?_
    rw [← List.append_assoc (Broker.bufferedIn _ _)]
    exact List.perm_append_comm

end Traffic
end Bus
end Courier
