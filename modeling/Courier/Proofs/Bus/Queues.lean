import Courier.Bus.Queue
import Mathlib.Data.List.Nodup

/-!
# What is in a queue

A queue has copies in the buffers of its consumers and copies that it holds back.
A delivered copy comes to the end of exactly one of these places, and a queue that
holds copies back has no consumers.
-/

namespace Courier
namespace Bus

open scoped List

theorem map_ite_of_ne {α β : Type} [DecidableEq β] {key : α → β} {x : β} (f : α → α)
    {l : List α} (h : ∀ a ∈ l, key a ≠ x) :
    l.map (fun a => if key a = x then f a else a) = l := by
  have hsame : l.map (fun a => if key a = x then f a else a) = l.map fun a => a := by
    apply List.map_congr_left
    intro a ha
    exact if_neg (h a ha)
  exact hsame.trans (List.map_id' l)

namespace Queue

def buffered (q : Queue) : List Copy :=
  q.consumers.flatMap Consumer.buffer

/-- All copies in a queue that nobody has taken. -/
def contents (q : Queue) : List Copy :=
  q.buffered ++ q.backlog

/-- The consumers by their numbers, and whether each asked to be alone. -/
def roll (q : Queue) : List (Nat × Bool) :=
  q.consumers.map fun k => (k.id, k.exclusive)

def accepts (q : Queue) : Bool :=
  q.isActive || !q.autoDelete

/-- What a queue is from the time when it is made. -/
structure Alike (q q' : Queue) : Prop where
  name : q'.name = q.name
  exclusive : q'.exclusive = q.exclusive
  autoDelete : q'.autoDelete = q.autoDelete

theorem Alike.refl (q : Queue) : Alike q q := ⟨rfl, rfl, rfl⟩

theorem Alike.trans {q q' q'' : Queue} (h : Alike q q') (h' : Alike q' q'') : Alike q q'' :=
  ⟨h'.name.trans h.name, h'.exclusive.trans h.exclusive, h'.autoDelete.trans h.autoDelete⟩

theorem accepts_eq (q : Queue) : q.accepts = !q.isAbandoned := by
  unfold accepts isAbandoned isActive
  cases q.autoDelete <;> cases q.consumers.isEmpty <;> rfl

theorem accepts_iff (q : Queue) :
    q.accepts = true ↔ q.isActive = true ∨ q.autoDelete = false := by
  simp [accepts]

theorem idle_of_not_accepts {q : Queue} (h : q.accepts = false) :
    q.consumers = [] ∧ q.autoDelete = true := by
  simpa [accepts, isActive] using h

/-!
## Delivery
-/

/-- A copy comes to one consumer, or is held back where there is none. -/
inductive Gains (c : Copy) (q : Queue) : Queue → Prop where
  | handed {before after : List Consumer} {k : Consumer} {cursor : UInt64}
      (consumers : q.consumers = before ++ k :: after) :
      Gains c q
        { q with consumers := before ++ Consumer.push c k :: after, cursor := cursor }
  | heldBack (idle : q.consumers = []) (kept : q.autoDelete = false) :
      Gains c q { q with backlog := q.backlog ++ [c] }

theorem gains_deliver {q : Queue} (h : q.accepts = true) (c : Copy) :
    Gains c q (q.deliver c) := by
  cases hconsumers : q.consumers with
  | nil =>
      have hkept : q.autoDelete = false := by
        simpa [accepts, isActive, hconsumers] using h
      have heq : q.deliver c = { q with backlog := q.backlog ++ [c] } := by
        simp [deliver, hconsumers, hkept]
      rw [heq]
      exact .heldBack hconsumers hkept
  | cons first rest =>
      have hturn : q.cursor.toNat % q.consumers.length < q.consumers.length := by
        apply Nat.mod_lt
        simp [hconsumers]
      rcases List.exists_of_modify (Consumer.push c) hturn with
        ⟨before, k, after, hsplit, _, hmodify⟩
      have heq : q.deliver c =
          { q with consumers := before ++ Consumer.push c k :: after, cursor := q.cursor + 1 } := by
        rw [← hmodify]
        simp [deliver, hconsumers]
      rw [heq]
      exact .handed hsplit

theorem deliver_of_not_accepts {q : Queue} (h : q.accepts = false) (c : Copy) :
    q.deliver c = q := by
  rcases idle_of_not_accepts h with ⟨hnone, hgoes⟩
  simp [deliver, hnone, hgoes]

theorem Gains.alike {c : Copy} {q q' : Queue} (h : Gains c q q') : Alike q q' := by
  cases h with
  | handed consumers => exact ⟨rfl, rfl, rfl⟩
  | heldBack idle kept => exact ⟨rfl, rfl, rfl⟩

theorem Gains.roll {c : Copy} {q q' : Queue} (h : Gains c q q') : q'.roll = q.roll := by
  cases h with
  | handed consumers => simp [Queue.roll, consumers, Consumer.push]
  | heldBack idle kept => rfl

theorem Gains.contents {c : Copy} {q q' : Queue} (h : Gains c q q') :
    q'.contents.Perm (c :: q.contents) := by
  cases h with
  | @handed before after k cursor consumers =>
      have hpush : before.flatMap Consumer.buffer ++
            ((k.buffer ++ [c]) ++ after.flatMap Consumer.buffer) ++ q.backlog =
          (before.flatMap Consumer.buffer ++ k.buffer) ++
            c :: (after.flatMap Consumer.buffer ++ q.backlog) := by
        simp
      simp only [Queue.contents, buffered, consumers, List.flatMap_append, List.flatMap_cons,
        Consumer.push, hpush]
      refine List.perm_middle.trans ?_
      simp
  | heldBack idle kept =>
      simp only [Queue.contents, buffered]
      rw [← List.append_assoc]
      exact List.perm_append_singleton _ _

theorem alike_deliver (q : Queue) (c : Copy) : Alike q (q.deliver c) := by
  cases h : q.accepts with
  | true => exact (gains_deliver h c).alike
  | false =>
      rw [deliver_of_not_accepts h]
      exact Alike.refl q

theorem roll_deliver (q : Queue) (c : Copy) : (q.deliver c).roll = q.roll := by
  cases h : q.accepts with
  | true => exact (gains_deliver h c).roll
  | false => rw [deliver_of_not_accepts h]

/-!
## Consumers that come, take and go
-/

theorem isActive_iff_roll (q : Queue) : q.isActive = true ↔ q.roll ≠ [] := by
  simp [isActive, roll]

theorem accepts_of_roll {q : Queue} (h : q.roll ≠ []) : q.accepts = true := by
  simp [accepts, (isActive_iff_roll q).mpr h]

theorem foldl_deliver (held : List Copy) {q : Queue} (h : q.roll ≠ []) :
    Alike q (held.foldl deliver q) ∧ (held.foldl deliver q).roll = q.roll ∧
      (held.foldl deliver q).backlog = q.backlog ∧
      (held.foldl deliver q).contents.Perm (held ++ q.contents) := by
  induction held generalizing q with
  | nil => exact ⟨Alike.refl q, rfl, rfl, List.Perm.refl _⟩
  | cons c rest ih =>
      have hgains := gains_deliver (accepts_of_roll h) c
      have hroll := hgains.roll
      have hbacklog : (q.deliver c).backlog = q.backlog := by
        generalize q.deliver c = q' at hgains
        cases hgains with
        | handed consumers => rfl
        | heldBack idle kept => simp [roll, idle] at h
      rw [← hroll] at h
      rcases ih h with ⟨halike, hroll', hbacklog', hcontents⟩
      refine ⟨hgains.alike.trans halike, hroll'.trans hroll, hbacklog'.trans hbacklog, ?_⟩
      calc
        (rest.foldl deliver (q.deliver c)).contents
        _ ~ rest ++ (q.deliver c).contents := hcontents
        _ ~ rest ++ c :: q.contents := hgains.contents.append_left rest
        _ ~ c :: (rest ++ q.contents) := List.perm_middle

/-- Once a consumer has joined, nothing is held back. -/
theorem attach_spec (q : Queue) (binding : String) (k : Consumer) :
    Alike q (q.attach binding k) ∧ (q.attach binding k).roll = q.roll ++ [(k.id, k.exclusive)] ∧
      (q.attach binding k).backlog = [] ∧
      (q.attach binding k).contents.Perm (q.backlog ++ (q.buffered ++ k.buffer)) := by
  have hroll : ({ q with binding := binding, consumers := q.consumers ++ [k], backlog := [] } :
      Queue).roll = q.roll ++ [(k.id, k.exclusive)] := by
    simp [roll]
  have hcontents : ({ q with binding := binding, consumers := q.consumers ++ [k], backlog := [] } :
      Queue).contents = q.buffered ++ k.buffer := by
    simp [contents, buffered]
  have hne : ({ q with binding := binding, consumers := q.consumers ++ [k], backlog := [] } :
      Queue).roll ≠ [] := by
    rw [hroll]
    simp
  rcases foldl_deliver q.backlog hne with ⟨halike, hroll', hbacklog, hperm⟩
  rw [hcontents] at hperm
  exact ⟨⟨halike.name, halike.exclusive, halike.autoDelete⟩, hroll'.trans hroll, hbacklog, hperm⟩

theorem alike_attach (q : Queue) (binding : String) (k : Consumer) :
    Alike q (q.attach binding k) :=
  (attach_spec q binding k).left

theorem roll_attach (q : Queue) (binding : String) (k : Consumer) :
    (q.attach binding k).roll = q.roll ++ [(k.id, k.exclusive)] :=
  (attach_spec q binding k).right.left

theorem contents_attach (q : Queue) (binding : String) {k : Consumer} (hk : k.buffer = []) :
    (q.attach binding k).contents.Perm q.contents := by
  rcases attach_spec q binding k with ⟨_, _, _, hcontents⟩
  rw [hk, List.append_nil] at hcontents
  exact hcontents.trans List.perm_append_comm

theorem roll_detach (q : Queue) (id : Nat) :
    (q.detach id).roll = q.roll.filter fun e => e.1 ≠ id := by
  simp [roll, detach, List.filter_map, Function.comp_def]

theorem alike_pop (q : Queue) (id : Nat) : Alike q (q.pop id) := ⟨rfl, rfl, rfl⟩

theorem roll_pop (q : Queue) (id : Nat) : (q.pop id).roll = q.roll := by
  simp only [roll, pop, List.map_map]
  apply List.map_congr_left
  intro k _
  by_cases h : k.id = id <;> simp [h]

/-!
## Sound queues
-/

/-- Consumers have numbers of their own, and copies are held back only for want of consumers. -/
structure Sound (q : Queue) : Prop where
  ids : (q.roll.map Prod.fst).Nodup
  idle : q.backlog ≠ [] → q.consumers = [] ∧ q.autoDelete = false

theorem sound_ofSubscription (s : Subscription) : (ofSubscription s).Sound :=
  ⟨List.nodup_nil, fun h => absurd rfl h⟩

theorem contents_of_not_accepts {q : Queue} (hq : q.Sound) (h : q.accepts = false) :
    q.contents = [] := by
  rcases idle_of_not_accepts h with ⟨hnone, hgoes⟩
  have hbacklog : q.backlog = [] := by
    apply Classical.byContradiction
    intro hne
    rw [(hq.idle hne).right] at hgoes
    cases hgoes
  simp [contents, buffered, hnone, hbacklog]

theorem sound_deliver {q : Queue} (hq : q.Sound) (c : Copy) : (q.deliver c).Sound := by
  constructor
  · rw [roll_deliver]
    exact hq.ids
  · cases h : q.accepts with
    | false =>
        rw [deliver_of_not_accepts h]
        exact hq.idle
    | true =>
        have hgains := gains_deliver h c
        generalize q.deliver c = q' at hgains
        cases hgains with
        | heldBack idle kept => exact fun _ => ⟨idle, kept⟩
        | handed consumers =>
            intro hne
            have hnone := (hq.idle hne).left
            rw [hnone] at consumers
            simp at consumers

theorem sound_attach {q : Queue} (hq : q.Sound) (binding : String) {k : Consumer}
    (hk : k.id ∉ q.roll.map Prod.fst) : (q.attach binding k).Sound := by
  constructor
  · rw [roll_attach, List.map_append, List.map_singleton, List.nodup_append]
    refine ⟨hq.ids, List.nodup_singleton _, ?_⟩
    intro id hid id' hid' heq
    rw [List.mem_singleton] at hid'
    rw [heq, hid'] at hid
    exact hk hid
  · intro hne
    exact absurd (attach_spec q binding k).right.right.left hne

theorem sound_detach {q : Queue} (hq : q.Sound) (id : Nat) : (q.detach id).Sound := by
  constructor
  · rw [roll_detach]
    exact hq.ids.sublist (List.filter_sublist.map Prod.fst)
  · intro hne
    rcases hq.idle hne with ⟨hnone, hkept⟩
    exact ⟨by simp [detach, hnone], hkept⟩

theorem sound_pop {q : Queue} (hq : q.Sound) (id : Nat) : (q.pop id).Sound := by
  constructor
  · rw [roll_pop]
    exact hq.ids
  · intro hne
    rcases hq.idle hne with ⟨hnone, hkept⟩
    exact ⟨by simp [pop, hnone], hkept⟩

theorem consumer?_of_mem {q : Queue} (hq : q.Sound) {k : Consumer} (hk : k ∈ q.consumers) :
    q.consumer? k.id = some k := by
  have hids : (q.consumers.map Consumer.id).Nodup := by
    have hnodup := hq.ids
    rw [roll, List.map_map] at hnodup
    exact hnodup
  cases hfind : q.consumer? k.id with
  | none => exact absurd (decide_eq_true rfl) (List.find?_eq_none.mp hfind k hk)
  | some other =>
      have hother : other.id = k.id := by simpa using List.find?_some hfind
      rw [List.inj_on_of_nodup_map hids (List.mem_of_find?_eq_some hfind) hk hother]

theorem exists_split_of_consumer? {q : Queue} (hq : q.Sound) {id : Nat} {k : Consumer}
    (h : q.consumer? id = some k) :
    ∃ before after, q.consumers = before ++ k :: after ∧ k.id = id ∧
      ∀ other ∈ before ++ after, other.id ≠ id := by
  have hid : k.id = id := by simpa using List.find?_some h
  rcases List.append_of_mem (List.mem_of_find?_eq_some h) with ⟨before, after, hsplit⟩
  refine ⟨before, after, hsplit, hid, ?_⟩
  have hids := hq.ids
  simp only [roll, List.map_map, Function.comp_def, hsplit, List.map_append, List.map_cons]
    at hids
  have hnot := (List.nodup_cons.mp (List.nodup_middle.mp hids)).left
  intro other hother heq
  apply hnot
  rw [← List.map_append, hid, ← heq]
  exact List.mem_map_of_mem hother

theorem contents_detach {q : Queue} (hq : q.Sound) {id : Nat} {k : Consumer}
    (h : q.consumer? id = some k) :
    q.contents.Perm (k.buffer ++ (q.detach id).contents) := by
  rcases exists_split_of_consumer? hq h with ⟨before, after, hsplit, hid, hothers⟩
  have hrest : (q.detach id).consumers = before ++ after := by
    have hkeep : (before ++ after).filter (fun other => other.id ≠ id) = before ++ after := by
      apply List.filter_eq_self.mpr
      intro other hother
      simpa using hothers other hother
    rw [List.filter_append] at hkeep
    simp only [detach, hsplit, List.filter_append]
    rw [List.filter_cons_of_neg (by simp [hid]), hkeep]
  have hbacklog : (q.detach id).backlog = q.backlog := rfl
  simp only [contents, buffered, hsplit, hrest, hbacklog, List.flatMap_append, List.flatMap_cons,
    List.append_assoc]
  exact List.perm_append_comm_assoc _ _ _

theorem detach_of_consumer?_none {q : Queue} {id : Nat} (h : q.consumer? id = none) :
    q.detach id = q := by
  have hkeep : q.consumers.filter (fun k => k.id ≠ id) = q.consumers := by
    apply List.filter_eq_self.mpr
    intro k hk
    have hne := List.find?_eq_none.mp h k hk
    simpa using hne
  simp only [detach, hkeep]

theorem contents_pop {q : Queue} (hq : q.Sound) {id : Nat} {k : Consumer} {c : Copy}
    (h : q.consumer? id = some k) (hc : k.buffer.head? = some c) :
    q.contents.Perm (c :: (q.pop id).contents) := by
  rcases exists_split_of_consumer? hq h with ⟨before, after, hsplit, hid, hothers⟩
  rcases List.head?_eq_some_iff.mp hc with ⟨rest, hbuffer⟩
  have hrest : (q.pop id).consumers = before ++ { k with buffer := rest } :: after := by
    simp only [pop, hsplit, List.map_append, List.map_cons]
    rw [map_ite_of_ne _ (fun other h => hothers other (List.mem_append_left _ h)),
      map_ite_of_ne _ (fun other h => hothers other (List.mem_append_right _ h)), if_pos hid,
      hbuffer]
    rfl
  have hbacklog : (q.pop id).backlog = q.backlog := rfl
  simp only [contents, buffered, hsplit, hrest, hbacklog, List.flatMap_append, List.flatMap_cons,
    hbuffer]
  rw [List.cons_append, ← List.cons_append]
  exact List.perm_middle.append_right _

end Queue
end Bus
end Courier
