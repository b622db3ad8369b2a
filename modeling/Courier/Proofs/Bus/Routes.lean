import Courier.Proofs.Bus.Accounts
import Courier.Proofs.Bus.Rolls
import Mathlib.Data.List.Infix

/-!
# Acts at one queue

A parcel is routed to a queue when it is published under a subject of the queue, and when it is
put back into it. Of all that an act does, only little concerns the queue of one name: a copy is
routed to it, taken from it or lost with a consumer who leaves, or somebody joins.

The main statement is `turnAt_of_turn`.
-/

namespace Courier
namespace Bus

open Routing (topicMatches)

theorem copiesIn_map_of_ne {name other : String} (h : other ≠ name) (l : List Copy) :
    copiesIn name (l.map fun c => (other, c)) = [] := by
  apply copiesIn_eq_nil
  intro e he
  rcases List.mem_map.mp he with ⟨c, _, rfl⟩
  exact h

def Queue.bufferOf (q : Queue) (id : Nat) : List Copy :=
  ((q.consumer? id).map Consumer.buffer).getD []

theorem Broker.leftBy_of_queue? {b : Broker} {name : String} {q : Queue}
    (h : b.queue? name = some q) (id : Nat) : b.leftBy ⟨name, id⟩ = q.bufferOf id := by
  rw [leftBy, consumer?, h]
  rfl

namespace Traffic

/-- The copies that an act routes to queues, also to one that has no place for them. -/
def routed (t : Traffic) : Act → List (String × Copy)
  | .publish p => t.broker.newCopies p
  | .settle serial (.nack true) =>
    match t.delivery? serial with
    | some e =>
      if (t.broker.queue? e.1).isSome then [(e.1, ⟨t.broker.nextSerial, e.2.parcel⟩)] else []
    | none => []
  | _ => []

/-- The copies that are routed to a queue that goes with its last consumer, and has none. -/
def turnedAway (t : Traffic) (a : Act) : List (String × Copy) :=
  (t.routed a).filter fun e => (t.broker.queue? e.1).any Queue.isAbandoned

theorem routed_settle_of_ne (t : Traffic) (serial : Nat) {how : Settlement}
    (h : how ≠ .nack true) : t.routed (.settle serial how) = [] := by
  cases how with
  | ack => rfl
  | nack requeue =>
      cases requeue with
      | false => rfl
      | true => exact absurd rfl h

theorem routed_of_stray {t : Traffic} {serial : Nat} (h : t.delivery? serial = none)
    (how : Settlement) : t.routed (.settle serial how) = [] := by
  by_cases hhow : how = .nack true
  · rw [hhow, routed, h]
  · exact routed_settle_of_ne t serial hhow

theorem routed_of_settled {t : Traffic} {serial : Nat} {how : Settlement} {e : String × Copy}
    (hdelivery : t.delivery? serial = some e)
    (hstays : how ≠ .nack true ∨ t.broker.queue? e.1 = none) :
    t.routed (.settle serial how) = [] := by
  by_cases hhow : how = .nack true
  · have hnone := hstays.resolve_left (not_not_intro hhow)
    simp only [hhow, routed, hdelivery, hnone, Option.isSome_none, Bool.false_eq_true, if_false]
  · exact routed_settle_of_ne t serial hhow

theorem routed_of_requeued {t : Traffic} {serial : Nat} {e : String × Copy} {q : Queue}
    (hdelivery : t.delivery? serial = some e) (hq : t.broker.queue? e.1 = some q) :
    t.routed (.settle serial (.nack true)) = [(e.1, ⟨t.broker.nextSerial, e.2.parcel⟩)] := by
  simp only [routed, hdelivery, hq, Option.isSome_some, if_true]

theorem serials_routed {t t' : Traffic} {a : Act} (hturn : Turn t a t') :
    ∃ n, serials (t.routed a) = List.range' t.broker.nextSerial n ∧
      t.broker.nextSerial + n ≤ t'.broker.nextSerial := by
  cases hturn with
  | published p =>
      refine ⟨(t.broker.recipients p).length, Broker.serials_numbered p _ _, ?_⟩
      rw [Broker.nextSerial_publish]
      simp [Broker.newCopies, Broker.numbered]
  | requeued hdelivery hqueue =>
      rw [routed_of_requeued hdelivery hqueue]
      exact ⟨1, rfl, Nat.le_refl _⟩
  | settled hdelivery hstays =>
      rw [routed_of_settled hdelivery hstays]
      exact ⟨0, rfl, Nat.le_refl _⟩
  | stray how habsent =>
      rw [routed_of_stray habsent]
      exact ⟨0, rfl, Nat.le_refl _⟩
  | refused _ => exact ⟨0, rfl, Nat.le_refl _⟩
  | joined _ _ => exact ⟨0, rfl, Nat.le_refl _⟩
  | took _ _ _ _ => exact ⟨0, rfl, Nat.le_refl _⟩
  | waited _ => exact ⟨0, rfl, Nat.le_refl _⟩
  | forgot serial => exact ⟨0, rfl, Nat.le_refl _⟩
  | left ref => exact ⟨0, rfl, Nat.le_refl _⟩

theorem nodup_copiesIn_log_routed {t : Traffic} (h : t.Numbered) (acts : List Act)
    (name : String) : (copiesIn name (t.log routed acts)).Nodup := by
  have hserials := (serials_log (f := routed) (fun {t a} ht =>
    (serials_routed (turn_step ht.sound.isOpen a)).imp fun n hn => ⟨.of_eq hn.left, hn.right⟩)
    h acts).right
  have hnumbers : ((copiesIn name (t.log routed acts)).map Copy.serial).Nodup := by
    rw [copiesIn, List.map_map]
    exact hserials.sublist (List.filter_sublist.map _)
  exact hnumbers.of_map

theorem copiesIn_turnedAway (t : Traffic) (a : Act) (name : String) :
    copiesIn name (t.turnedAway a) =
      if (t.broker.queue? name).any Queue.isAbandoned then copiesIn name (t.routed a) else [] := by
  have hname : ∀ e : String × Copy, (decide (e.1 = name) &&
      (t.broker.queue? e.1).any Queue.isAbandoned) =
        (decide (e.1 = name) && (t.broker.queue? name).any Queue.isAbandoned) := by
    intro e
    by_cases he : e.1 = name <;> simp [he]
  unfold copiesIn turnedAway
  rw [List.filter_filter]
  simp only [hname]
  cases (t.broker.queue? name).any Queue.isAbandoned with
  | true => simp
  | false => simp

/-!
## What an act comes to at a queue
-/

/--
All that an act can come to at the queue of a name, with the copies that it routes to it, takes
from it and loses there.
-/
inductive TurnAt (name : String) (t : Traffic) (a : Act) (t' : Traffic) :
    List Copy → List Copy → List Copy → Prop where
  | elsewhere (same : t'.broker.queue? name = t.broker.queue? name) : TurnAt name t a t' [] [] []
  | cleared {q : Queue} (before : t.broker.queue? name = some q) (idle : q.accepts = false)
      (after : t'.broker.queue? name = none) : TurnAt name t a t' [] [] []
  | joined {s : Subscription} (act : a = .subscribe s) (own : s.queue = name)
      (after : t'.broker.queue? name = some ((t.broker.queueFor s).attach s.binding
        { id := t.broker.nextConsumer, exclusive := s.isExclusive })) :
      TurnAt name t a t' [] [] []
  | routed {q : Queue} {c : Copy} (before : t.broker.queue? name = some q)
      (after : t'.broker.queue? name = some (q.deliver c)) : TurnAt name t a t' [c] [] []
  | taken {id : Nat} {q : Queue} {k : Consumer} {c : Copy} (act : a = .next ⟨name, id⟩)
      (before : t.broker.queue? name = some q) (consumer : q.consumer? id = some k)
      (head : k.buffer.head? = some c) (after : t'.broker.queue? name = some (q.pop id)) :
      TurnAt name t a t' [] [c] []
  | left {id : Nat} {q : Queue} (act : a = .leave ⟨name, id⟩)
      (before : t.broker.queue? name = some q)
      (after : t'.broker.queue? name = some (q.detach id)) :
      TurnAt name t a t' [] [] (t.broker.leftBy ⟨name, id⟩)

theorem turnAt_published {t : Traffic} (h : t.Sound) (p : Parcel) (name : String) :
    TurnAt name t (.publish p) { t with broker := t.broker.publish p }
      (copiesIn name (t.broker.newCopies p)) [] [] := by
  rcases Broker.queue?_publish h.broker p name with ⟨n, hafter, hnew⟩
  have hnone : (∀ q, t.broker.queue? name = some q → topicMatches q.binding p.subject = true →
      q.accepts = false) → copiesIn name (t.broker.newCopies p) = [] := by
    intro hidle
    apply copiesIn_eq_nil
    rintro e he rfl
    rcases Broker.exists_queue_of_mem_newCopies h.broker he with ⟨q, hq, hmatches, haccepts⟩
    rw [hidle q hq hmatches] at haccepts
    cases haccepts
  cases hq : t.broker.queue? name with
  | none =>
      rw [hq] at hafter
      rw [hnone (by rw [hq]; nofun)]
      exact .elsewhere (hafter.trans hq.symm)
  | some q =>
      rw [hq] at hafter
      cases haccepts : q.accepts with
      | false =>
          rw [Option.filter_some_neg (by simp [haccepts])] at hafter
          rw [hnone (by rw [hq]; rintro _ ⟨⟩ _; exact haccepts)]
          exact .cleared hq haccepts hafter
      | true =>
          rw [Option.filter_some_pos haccepts, Option.map_some] at hafter
          cases hmatches : topicMatches q.binding p.subject with
          | false =>
              rw [if_neg (by simp [hmatches])] at hafter
              rw [hnone (by rw [hq]; rintro _ ⟨⟩ h; rw [hmatches] at h; cases h)]
              exact .elsewhere (hafter.trans hq.symm)
          | true =>
              rw [if_pos hmatches] at hafter
              rw [copiesIn_of_mem (Broker.nodup_names_newCopies h.broker p)
                (hnew q hq haccepts hmatches)]
              exact .routed hq hafter

theorem turnAt_of_turn {t t' : Traffic} {a : Act} (h : t.Sound) (hturn : Turn t a t')
    (name : String) :
    TurnAt name t a t' (copiesIn name (t.routed a)) (copiesIn name (t.taken a))
      (copiesIn name (t.lost a)) := by
  cases hturn with
  | refused _ => exact .elsewhere rfl
  | @joined s _ _ =>
      have hafter := Broker.queue?_joined t.broker s name
      by_cases hname : name = s.queue
      · rw [if_pos hname] at hafter
        exact .joined rfl hname.symm hafter
      · rw [if_neg hname] at hafter
        exact .elsewhere hafter
  | published p => exact turnAt_published h p name
  | @took ref q k c hq hk hc htake =>
      have hafter := Broker.queue?_updateQueue (f := fun q => q.pop ref.id) (fun _ => rfl)
        t.broker ref.queue name
      have htaken : t.taken (.next ref) = [(ref.queue, c)] := by simp only [taken, htake]
      rw [htaken]
      by_cases hname : name = ref.queue
      · subst hname
        rw [if_pos rfl, hq, Option.map_some] at hafter
        have hone : copiesIn ref.queue [(ref.queue, c)] = [c] := copiesIn_map ref.queue [c]
        rw [hone]
        exact .taken rfl hq hk hc hafter
      · rw [if_neg hname] at hafter
        have hnone : copiesIn name [(ref.queue, c)] = [] :=
          copiesIn_map_of_ne (Ne.symm hname) [c]
        rw [hnone]
        exact .elsewhere hafter
  | waited hnothing =>
      rw [taken_of_waited hnothing]
      exact .elsewhere rfl
  | stray how habsent =>
      rw [routed_of_stray habsent]
      exact .elsewhere rfl
  | settled hdelivery hstays =>
      rw [routed_of_settled hdelivery hstays]
      exact .elsewhere rfl
  | @requeued serial e q hdelivery hq =>
      have hafter := Broker.queue?_updateQueue
        (f := fun q => q.deliver ⟨t.broker.nextSerial, e.2.parcel⟩)
        (fun q => (Queue.alike_deliver q _).name) t.broker e.1 name
      rw [routed_of_requeued hdelivery hq]
      by_cases hname : name = e.1
      · subst hname
        rw [if_pos rfl, hq, Option.map_some] at hafter
        have hone : copiesIn e.1 [(e.1, (⟨t.broker.nextSerial, e.2.parcel⟩ : Copy))] =
            [⟨t.broker.nextSerial, e.2.parcel⟩] := copiesIn_map e.1 [_]
        rw [hone]
        exact .routed hq hafter
      · rw [if_neg hname] at hafter
        have hnone : copiesIn name [(e.1, (⟨t.broker.nextSerial, e.2.parcel⟩ : Copy))] = [] :=
          copiesIn_map_of_ne (Ne.symm hname) [_]
        rw [hnone]
        exact .elsewhere hafter
  | forgot serial => exact .elsewhere rfl
  | left ref =>
      have hafter := Broker.queue?_updateQueue (f := fun q => q.detach ref.id) (fun _ => rfl)
        t.broker ref.queue name
      by_cases hname : name = ref.queue
      · subst hname
        have hlost : copiesIn ref.queue (t.lost (.leave ref)) = t.broker.leftBy ref :=
          copiesIn_map ref.queue _
        rw [if_pos rfl] at hafter
        rw [hlost]
        cases hq : t.broker.queue? ref.queue with
        | none =>
            have hnobody : t.broker.leftBy ref = [] := by
              simp [Broker.leftBy, Broker.consumer?, hq]
            rw [hq] at hafter
            rw [hnobody]
            exact .elsewhere (hafter.trans hq.symm)
        | some q =>
            rw [hq] at hafter
            exact .left rfl hq hafter
      · rw [if_neg hname] at hafter
        have hnone : copiesIn name (t.lost (.leave ref)) = [] :=
          copiesIn_map_of_ne (Ne.symm hname) _
        rw [hnone]
        exact .elsewhere hafter

theorem turnAt_step {t : Traffic} (h : t.Sound) (a : Act) (name : String) :
    TurnAt name t a (t.step a) (copiesIn name (t.routed a)) (copiesIn name (t.taken a))
      (copiesIn name (t.lost a)) :=
  turnAt_of_turn h (turn_step h.isOpen a) name

section Whereabouts

variable {name : String} {t t' : Traffic} {a : Act} {routed taken lost : List Copy}

theorem TurnAt.taker (h : TurnAt name t a t' routed taken lost) :
    taken = [] ∨ ∃ e ∈ t.broker.rollAt name, a = .next ⟨name, e.1⟩ := by
  cases h with
  | @taken id q k c act before consumer head after =>
      have hconsumer : t.broker.consumer? ⟨name, id⟩ = some k := by
        rw [Broker.consumer?, before]
        exact consumer
      rcases Broker.exists_mem_rollAt_of_consumer? hconsumer with ⟨exclusive, hroll⟩
      exact .inr ⟨_, hroll, act⟩
  | elsewhere same => exact .inl rfl
  | cleared before idle after => exact .inl rfl
  | joined act own after => exact .inl rfl
  | routed before after => exact .inl rfl
  | left act before after => exact .inl rfl

theorem TurnAt.leaver (h : TurnAt name t a t' routed taken lost) :
    lost = [] ∨ ∃ e ∈ t.broker.rollAt name, a = .leave ⟨name, e.1⟩ := by
  cases h with
  | @left id q act before after =>
      cases hconsumer : t.broker.consumer? ⟨name, id⟩ with
      | none =>
          left
          rw [Broker.leftBy, hconsumer]
          rfl
      | some k =>
          rcases Broker.exists_mem_rollAt_of_consumer? hconsumer with ⟨exclusive, hroll⟩
          exact .inr ⟨_, hroll, act⟩
  | elsewhere same => exact .inl rfl
  | cleared before idle after => exact .inl rfl
  | joined act own after => exact .inl rfl
  | routed before after => exact .inl rfl
  | taken act before consumer head after => exact .inl rfl

end Whereabouts

/-!
## Along a run
-/

def Throughout (t : Traffic) (P : Traffic → Prop) (acts : List Act) : Prop :=
  ∀ done, done <+: acts → P (t.run done)

instance (t : Traffic) (P : Traffic → Prop) [DecidablePred P] (acts : List Act) :
    Decidable (t.Throughout P acts) :=
  decidable_of_iff (∀ done ∈ acts.inits, P (t.run done))
    (forall_congr' fun done => by rw [List.mem_inits])

section Throughout

variable {t : Traffic} {P : Traffic → Prop}

theorem throughout_cons {a : Act} {rest : List Act} :
    t.Throughout P (a :: rest) ↔ P t ∧ (t.step a).Throughout P rest := by
  constructor
  · intro h
    refine ⟨h [] List.nil_prefix, fun done hdone => ?_⟩
    exact h (a :: done) ((List.prefix_cons_inj a).mpr hdone)
  · rintro ⟨hfirst, hrest⟩ done hdone
    cases done with
    | nil => exact hfirst
    | cons b done =>
        rcases List.cons_prefix_cons.mp hdone with ⟨rfl, hprefix⟩
        exact hrest done hprefix

theorem Throughout.now {acts : List Act} (h : t.Throughout P acts) : P t :=
  h [] List.nil_prefix

theorem Throughout.later {a : Act} {rest : List Act} (h : t.Throughout P (a :: rest)) :
    (t.step a).Throughout P rest :=
  (throughout_cons.mp h).right

theorem throughout_append {acts more : List Act} :
    t.Throughout P (acts ++ more) ↔ t.Throughout P acts ∧ (t.run acts).Throughout P more := by
  induction acts generalizing t with
  | nil =>
      have hnow : t.Throughout P more → t.Throughout P [] := by
        intro h done hdone
        rw [List.prefix_nil.mp hdone]
        exact h.now
      exact ⟨fun h => ⟨hnow h, h⟩, And.right⟩
  | cons a rest ih =>
      rw [List.cons_append, throughout_cons, throughout_cons, ih, and_assoc, run_cons]

theorem Throughout.mono {P' : Traffic → Prop} (hP : ∀ t, P t → P' t) {acts : List Act}
    (h : t.Throughout P acts) : t.Throughout P' acts :=
  fun done hdone => hP _ (h done hdone)

theorem Throughout.last {acts : List Act} (h : t.Throughout P acts) : P (t.run acts) :=
  h acts (List.prefix_refl _)

/-- What each act leaves so stays so, under what holds at each moment. -/
theorem Throughout.of_step {Q : Traffic → Prop} {acts : List Act}
    (hstep : ∀ {t a}, a ∈ acts → t.Sound → P t → Q (t.step a) → P (t.step a)) (hsound : t.Sound)
    (h : t.Throughout Q acts) (hfirst : P t) : t.Throughout P acts := by
  induction acts generalizing t with
  | nil =>
      intro done hdone
      rw [List.prefix_nil.mp hdone]
      exact hfirst
  | cons a rest ih =>
      have hnext := hstep List.mem_cons_self hsound hfirst h.later.now
      exact throughout_cons.mpr ⟨hfirst, ih (fun ha => hstep (List.mem_cons_of_mem _ ha))
        (sound_step hsound a) h.later hnext⟩

theorem log_append (t : Traffic) (f : Traffic → Act → List (String × Copy)) (acts more : List Act) :
    t.log f (acts ++ more) = t.log f acts ++ (t.run acts).log f more := by
  induction acts generalizing t with
  | nil => rfl
  | cons a rest ih =>
      rw [List.cons_append, log, log, ih (t.step a), List.append_assoc]
      rfl

theorem copiesIn_log_congr {name : String} {f g : Traffic → Act → List (String × Copy)}
    {acts : List Act}
    (hsame : ∀ {t a}, t.Sound → P t → a ∈ acts → copiesIn name (f t a) = copiesIn name (g t a))
    (hsound : t.Sound) (h : t.Throughout P acts) :
    copiesIn name (t.log f acts) = copiesIn name (t.log g acts) := by
  induction acts generalizing t with
  | nil => rfl
  | cons a rest ih =>
      have hfirst := hsame hsound h.now List.mem_cons_self
      have hrest := ih (fun ht hP ha => hsame ht hP (List.mem_cons_of_mem _ ha))
        (sound_step hsound a) h.later
      rw [log, log, copiesIn_append, copiesIn_append, hfirst, hrest]

theorem copiesIn_log_eq_nil {name : String} {f : Traffic → Act → List (String × Copy)}
    {acts : List Act} (hnone : ∀ {t a}, t.Sound → P t → a ∈ acts → copiesIn name (f t a) = [])
    (hsound : t.Sound) (h : t.Throughout P acts) : copiesIn name (t.log f acts) = [] := by
  have hempty : ∀ (t : Traffic) (acts : List Act), t.log (fun _ _ => []) acts = [] := by
    intro t acts
    induction acts generalizing t with
    | nil => rfl
    | cons a rest ih => exact ih (t.step a)
  rw [copiesIn_log_congr (g := fun _ _ => []) hnone hsound h, hempty]
  rfl

end Throughout

end Traffic
end Bus
end Courier
