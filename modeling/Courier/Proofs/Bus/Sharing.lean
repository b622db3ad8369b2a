import Courier.Proofs.Bus.Exclusivity
import Courier.Proofs.Bus.Routes
import Mathlib.Data.Int.CardIntervalMod

/-!
# Shares of a queue

The consumers of a queue are dealt copies in turn. As long as the same ones are there and the turn
does not start again from zero, each gets its part of what is routed to the queue, rounded down or
up, wherever the turn was at first, and nothing comes to two of them.

The main statement is `sharedEvenly_run`.
-/

namespace Courier
namespace Bus

/-!
## Dealing in turn
-/

/-- What comes to the place of a number, of copies that are dealt in turn to so many. -/
def dealtTo (n i : Nat) : Nat → List Copy → List Copy
  | _, [] => []
  | turn, c :: rest => (if turn % n = i then [c] else []) ++ dealtTo n i (turn + 1) rest

theorem dealtTo_append (n i turn : Nat) (l l' : List Copy) :
    dealtTo n i turn (l ++ l') = dealtTo n i turn l ++ dealtTo n i (turn + l.length) l' := by
  induction l generalizing turn with
  | nil => rfl
  | cons c rest ih =>
      rw [List.cons_append, dealtTo, dealtTo, ih, List.append_assoc, List.length_cons,
        Nat.add_right_comm turn 1, Nat.add_assoc turn]

theorem dealtTo_sublist (n i turn : Nat) (l : List Copy) : (dealtTo n i turn l).Sublist l := by
  induction l generalizing turn with
  | nil => exact List.Sublist.refl _
  | cons c rest ih =>
      rw [dealtTo]
      split
      · exact (ih (turn + 1)).cons_cons c
      · exact (ih (turn + 1)).cons c

theorem mem_dealtTo_iff {n i turn : Nat} {l : List Copy} {c : Copy} :
    c ∈ dealtTo n i turn l ↔ ∃ j, l[j]? = some c ∧ (turn + j) % n = i := by
  induction l generalizing turn with
  | nil => simp [dealtTo]
  | cons first rest ih =>
      rw [dealtTo, List.mem_append, ih]
      constructor
      · rintro (hfirst | ⟨j, hj, hturn⟩)
        · by_cases hturn : turn % n = i
          · rw [if_pos hturn, List.mem_singleton] at hfirst
            exact ⟨0, by rw [hfirst, List.getElem?_cons_zero], hturn⟩
          · rw [if_neg hturn] at hfirst
            cases hfirst
        · rw [Nat.add_right_comm, Nat.add_assoc] at hturn
          exact ⟨j + 1, by rw [List.getElem?_cons_succ, hj], hturn⟩
      · rintro ⟨j, hj, hturn⟩
        cases j with
        | zero =>
            rw [List.getElem?_cons_zero, Option.some.injEq] at hj
            have hnow : turn % n = i := hturn
            left
            rw [if_pos hnow, hj]
            exact List.mem_singleton_self c
        | succ j =>
            rw [List.getElem?_cons_succ] at hj
            exact .inr ⟨j, hj, by rwa [Nat.add_right_comm, Nat.add_assoc]⟩

theorem existsUnique_dealtTo {n : Nat} (hn : 0 < n) (turn : Nat) {l : List Copy} (hnodup : l.Nodup)
    {c : Copy} (hc : c ∈ l) : ∃ i, i < n ∧ c ∈ dealtTo n i turn l ∧
      ∀ i', c ∈ dealtTo n i' turn l → i' = i := by
  rcases List.getElem?_of_mem hc with ⟨j, hj⟩
  refine ⟨(turn + j) % n, Nat.mod_lt _ hn, mem_dealtTo_iff.mpr ⟨j, hj, rfl⟩, ?_⟩
  intro i' hi'
  rcases mem_dealtTo_iff.mp hi' with ⟨j', hj', rfl⟩
  have hlt : j' < l.length := (List.getElem?_eq_some_iff.mp hj').choose
  rw [(List.getElem?_inj hlt hnodup).mp (hj'.trans hj.symm)]

/-!
## How much comes to each
-/

theorem length_dealtTo (n i turn : Nat) (l : List Copy) :
    (dealtTo n i turn l).length = l.length.count fun j => (turn + j) % n = i := by
  induction l generalizing turn with
  | nil => rfl
  | cons c rest ih =>
      have hrest : (fun j => (turn + 1 + j) % n = i) = fun j => (turn + (j + 1)) % n = i := by
        funext j
        rw [Nat.add_right_comm, Nat.add_assoc]
      have hfirst : (if turn % n = i then [c] else []).length =
          if (turn + 0) % n = i then 1 else 0 := by
        rw [Nat.add_zero]
        split <;> rfl
      rw [dealtTo, List.length_append, hfirst, ih, List.length_cons, Nat.count_succ', Nat.add_comm]
      simp only [hrest]

theorem turn_iff {n i : Nat} (hi : i < n) (turn j : Nat) :
    (turn + j) % n = i ↔ j ≡ i + (n - turn % n) [MOD n] := by
  have hfull : turn + (i + (n - turn % n)) = i + n * (turn / n + 1) := by
    have hturn := Nat.div_add_mod turn n
    have hlt := Nat.mod_lt turn (Nat.zero_lt_of_lt hi)
    rw [Nat.mul_add, Nat.mul_one]
    omega
  have hplace : turn + (i + (n - turn % n)) ≡ i [MOD n] := by
    rw [hfull]
    exact Nat.add_mul_mod_self_left i n _
  calc
    (turn + j) % n = i
    _ ↔ turn + j ≡ i [MOD n] := by rw [Nat.ModEq, Nat.mod_eq_of_lt hi]
    _ ↔ turn + j ≡ turn + (i + (n - turn % n)) [MOD n] :=
      ⟨fun h => h.trans hplace.symm, fun h => h.trans hplace⟩
    _ ↔ j ≡ i + (n - turn % n) [MOD n] :=
      ⟨Nat.ModEq.add_left_cancel' turn, Nat.ModEq.add_left turn⟩

theorem div_add_one_eq {m n : Nat} (hn : 0 < n) (hrest : 0 < m % n) :
    m / n + 1 = (m + n - 1) / n := by
  have hlast : (n - 1) % n = n - 1 := Nat.mod_eq_of_lt (Nat.sub_one_lt_of_lt hn)
  have hzero : (n - 1) / n = 0 := Nat.div_eq_of_lt (Nat.sub_one_lt_of_lt hn)
  have hfull : n ≤ m % n + (n - 1) % n := by omega
  rw [Nat.add_sub_assoc hn, Nat.add_div_eq_of_le_mod_add_mod hfull hn, hzero, Nat.add_zero]

/-- In turn, each gets its part of the whole, rounded down or up. -/
theorem length_dealtTo_eq {n i : Nat} (hi : i < n) (turn : Nat) (l : List Copy) :
    (dealtTo n i turn l).length = l.length / n ∨
      (dealtTo n i turn l).length = (l.length + n - 1) / n := by
  have hn := Nat.zero_lt_of_lt hi
  simp only [length_dealtTo, turn_iff hi, Nat.count_modEq_card _ hn]
  split
  · next hmore => exact .inr (div_add_one_eq hn (Nat.zero_lt_of_lt hmore))
  · exact .inl (Nat.add_zero _)

/-!
## What comes to a consumer
-/

namespace Queue

/-- Each consumer has the rest of what it had, and then its part of what has come. -/
structure Deals (into : List Copy) (q q' : Queue) : Prop where
  cursor : q'.cursor = q.cursor + .ofNat into.length
  buffer : ∀ i e, q.roll[i]? = some e → ∃ rest, rest ⊆ q.bufferOf e.1 ∧
    q'.bufferOf e.1 = rest ++ dealtTo q.roll.length i q.cursor.toNat into

variable {q : Queue}

theorem bufferOf_of_getElem? (hq : q.Sound) {i : Nat} {k : Consumer}
    (h : q.consumers[i]? = some k) : q.bufferOf k.id = k.buffer := by
  rw [bufferOf, consumer?_of_mem hq (List.mem_of_getElem? h)]
  rfl

theorem Deals.refl (q : Queue) : Deals [] q q where
  cursor := (UInt64.add_zero q.cursor).symm
  buffer := fun _ e _ => ⟨q.bufferOf e.1, List.Subset.refl _, (List.append_nil _).symm⟩

theorem deals_deliver (hq : q.Sound) (hsome : q.roll ≠ []) (c : Copy) :
    Deals [c] q (q.deliver c) := by
  have hconsumers : q.consumers ≠ [] := fun h => hsome (List.map_eq_nil_iff.mpr h)
  have hdeliver : q.deliver c = { q with
      consumers := q.consumers.modify (q.cursor.toNat % q.consumers.length) (Consumer.push c)
      cursor := q.cursor + 1 } := by
    rw [deliver, if_neg (by simpa using hconsumers)]
  have hafter := sound_deliver hq c
  constructor
  · rw [hdeliver]
    rfl
  · intro i e he
    rw [roll, List.getElem?_map, Option.map_eq_some_iff] at he
    rcases he with ⟨k, hk, rfl⟩
    have hk' : (q.deliver c).consumers[i]? =
        some (if q.cursor.toNat % q.consumers.length = i then Consumer.push c k else k) := by
      rw [hdeliver, List.getElem?_modify, hk]
      split <;> rfl
    refine ⟨k.buffer, ?_, ?_⟩
    · rw [bufferOf_of_getElem? hq hk]
      exact List.Subset.refl _
    · have hbuffer := bufferOf_of_getElem? hafter hk'
      rw [roll, List.length_map, dealtTo, dealtTo, List.append_nil]
      split at hbuffer
      · next hturn =>
          rw [if_pos hturn]
          exact hbuffer
      · next hturn =>
          rw [if_neg hturn, List.append_nil]
          exact hbuffer

theorem deals_pop (q : Queue) (id : Nat) : Deals [] q (q.pop id) := by
  refine ⟨(UInt64.add_zero q.cursor).symm, fun i e _ => ⟨(q.pop id).bufferOf e.1, ?_, ?_⟩⟩
  · rw [bufferOf, bufferOf, consumer?_pop_eq_map]
    cases q.consumer? e.1 with
    | none => exact List.Subset.refl _
    | some k =>
        simp only [Option.map_some, Option.getD_some]
        split
        · exact List.drop_subset 1 k.buffer
        · exact List.Subset.refl _
  · exact (List.append_nil _).symm

end Queue

namespace Broker

/-- Whose turn it is at the queue of a name, counted from the first turn on. -/
def cursorAt (b : Broker) (name : String) : UInt64 :=
  ((b.queue? name).map Queue.cursor).getD 0

variable {b : Broker} {name : String}

theorem cursorAt_of_queue? {q : Queue} (h : b.queue? name = some q) :
    b.cursorAt name = q.cursor := by
  rw [cursorAt, h]
  rfl

theorem mem_stock_of_leftBy (hb : b.Sound) {id : Nat} {c : Copy} (h : c ∈ b.leftBy ⟨name, id⟩) :
    (name, c) ∈ b.stock := by
  cases hconsumer : b.consumer? ⟨name, id⟩ with
  | none =>
      rw [leftBy, hconsumer] at h
      cases h
  | some k =>
      rw [leftBy, hconsumer] at h
      rcases Option.bind_eq_some_iff.mp hconsumer with ⟨q, hq, hk⟩
      have hbuffered : c ∈ q.buffered :=
        List.mem_flatMap.mpr ⟨k, List.mem_of_find?_eq_some hk, h⟩
      exact (mem_stock_iff hb).mpr ⟨q, hq, List.mem_append_left _ hbuffered⟩

end Broker

namespace Traffic

def received (ref : ConsumerRef) (t : Traffic) (a : Act) : List (String × Copy) :=
  (((t.step a).broker.leftBy ref).filter fun c => c ∉ t.broker.leftBy ref).map
    fun c => (ref.queue, c)

section Deals

variable {name : String} {t t' : Traffic} {a : Act}

theorem deals_of_turnAt {into out lost : List Copy} (hsound : t.Sound)
    (h : TurnAt name t a t' into out lost) (hsome : t.broker.rollAt name ≠ [])
    (hsame : t'.broker.rollAt name = t.broker.rollAt name) :
    ∃ q q', t.broker.queue? name = some q ∧ t'.broker.queue? name = some q' ∧
      q.Deals into q' := by
  have hroll : ∀ {q}, t.broker.queue? name = some q → q.roll ≠ [] :=
    fun hq => Broker.rollAt_of_queue? hq ▸ hsome
  cases h with
  | elsewhere same =>
      rcases List.exists_mem_of_ne_nil _ hsome with ⟨e, he⟩
      rcases Broker.exists_queue_of_mem_rollAt he with ⟨q, hq, _⟩
      exact ⟨q, q, hq, same.trans hq, .refl q⟩
  | cleared before idle after =>
      rw [Queue.accepts_of_roll (hroll before)] at idle
      cases idle
  | joined act own after =>
      rw [Broker.rollAt_of_queue? after, Queue.roll_attach, Broker.roll_queueFor_eq, own] at hsame
      exact absurd hsame (by simp)
  | @routed q c before after =>
      have hq := hsound.broker.queues q (Broker.mem_of_queue? before)
      exact ⟨q, _, before, after, Queue.deals_deliver hq (hroll before) c⟩
  | @taken id q k c act before consumer head after =>
      exact ⟨q, _, before, after, Queue.deals_pop q id⟩
  | @left id q act before after =>
      refine ⟨q, _, before, after, ?_⟩
      cases hconsumer : q.consumer? id with
      | none =>
          rw [Queue.detach_of_consumer?_none hconsumer]
          exact .refl q
      | some k =>
          -- Whoever left would be missed.
          have hid : k.id = id := by simpa using List.find?_some hconsumer
          have hmem : (k.id, k.exclusive) ∈ q.roll :=
            Queue.mem_roll (List.mem_of_find?_eq_some hconsumer)
          rw [Broker.rollAt_of_queue? after, Broker.rollAt_of_queue? before,
            Queue.roll_detach] at hsame
          rw [← hsame] at hmem
          exact absurd hid (by simpa using (List.mem_filter.mp hmem).right)

theorem not_mem_leftBy_of_routed (h : t.Numbered) {c : Copy}
    (hc : c ∈ copiesIn name (t.routed a)) (id : Nat) : c ∉ t.broker.leftBy ⟨name, id⟩ := by
  intro hold
  have hbelow := h.old _ (Broker.mem_stock_of_leftBy h.sound.broker hold)
  rcases serials_routed (turn_step h.sound.isOpen a) with ⟨n, hserials, _⟩
  rcases List.mem_map.mp hc with ⟨e, he, rfl⟩
  have hmem : e.2.serial ∈ serials (t.routed a) :=
    List.mem_map_of_mem (List.mem_filter.mp he).left
  rw [hserials, List.mem_range'_1] at hmem
  exact absurd hbelow (Nat.not_lt.mpr hmem.left)

theorem received_step (h : t.Numbered) (hsome : t.broker.rollAt name ≠ [])
    (hsame : (t.step a).broker.rollAt name = t.broker.rollAt name) {i : Nat} {e : Nat × Bool}
    (he : (t.broker.rollAt name)[i]? = some e) :
    copiesIn name (t.received ⟨name, e.1⟩ a) =
        dealtTo (t.broker.rollAt name).length i (t.broker.cursorAt name).toNat
          (copiesIn name (t.routed a)) ∧
      (t.step a).broker.cursorAt name =
        t.broker.cursorAt name + .ofNat (copiesIn name (t.routed a)).length := by
  have hat := turnAt_step h.sound a name
  rcases deals_of_turnAt h.sound hat hsome hsame with ⟨q, q', hq, hq', hdeals⟩
  rw [Broker.cursorAt_of_queue? hq, Broker.cursorAt_of_queue? hq', Broker.rollAt_of_queue? hq]
  rw [Broker.rollAt_of_queue? hq] at he
  refine ⟨?_, hdeals.cursor⟩
  rcases hdeals.buffer i e he with ⟨rest, hrest, hbuffer⟩
  have hbefore := Broker.leftBy_of_queue? hq e.1
  rw [received, copiesIn_map, Broker.leftBy_of_queue? hq', hbuffer, List.filter_append]
  -- What the consumer had before is not received, and what is routed was not there before.
  have hold : rest.filter (fun c => c ∉ t.broker.leftBy ⟨name, e.1⟩) = [] := by
    apply List.filter_eq_nil_iff.mpr
    intro c hc
    simpa [hbefore] using hrest hc
  have hnew := List.filter_eq_self (p := fun c => decide (c ∉ t.broker.leftBy ⟨name, e.1⟩)).mpr
    fun c hc => decide_eq_true (not_mem_leftBy_of_routed h
      ((dealtTo_sublist q.roll.length i q.cursor.toNat (copiesIn name (t.routed a))).subset hc) e.1)
  rw [hold, List.nil_append]
  exact hnew

/-- Along a run with the same consumers, each gets its part of all that is routed to the queue. -/
theorem received_run {roll : List (Nat × Bool)} (h : t.Numbered) (hsome : roll ≠ [])
    {acts : List Act}
    (hsame : t.Throughout (fun t => t.broker.rollAt name = roll) acts)
    (hcursor : (t.broker.cursorAt name).toNat + (copiesIn name (t.log routed acts)).length <
      UInt64.size) {i : Nat} {e : Nat × Bool} (he : roll[i]? = some e) :
    copiesIn name (t.log (received ⟨name, e.1⟩) acts) =
      dealtTo roll.length i (t.broker.cursorAt name).toNat (copiesIn name (t.log routed acts)) := by
  induction acts generalizing t with
  | nil => rfl
  | cons a rest ih =>
      have hroll := hsame.now
      rcases received_step (a := a) h (hroll ▸ hsome) (hsame.later.now.trans hroll.symm)
        (hroll ▸ he) with ⟨hfirst, hnext⟩
      rw [log, copiesIn_append, List.length_append] at hcursor
      have hturn : ((t.step a).broker.cursorAt name).toNat =
          (t.broker.cursorAt name).toNat + (copiesIn name (t.routed a)).length := by
        have hlength : (copiesIn name (t.routed a)).length < UInt64.size := by omega
        rw [hnext, UInt64.toNat_add, UInt64.toNat_ofNat_of_lt' hlength, Nat.mod_eq_of_lt]
        exact Nat.lt_of_le_of_lt (Nat.add_le_add_left (Nat.le_add_right _ _) _) hcursor
      have hrest := ih (numbered_step h a) hsame.later (by rw [hturn]; omega)
      rw [log, log, copiesIn_append, copiesIn_append, dealtTo_append, hfirst, hrest, hturn, hroll]

end Deals

/-- What is asked of a run for the consumers of a queue who are there all the time. -/
structure SharedEvenly (t : Traffic) (name : String) (acts : List Act) : Prop where
  own : ∀ e ∈ t.broker.rollAt name,
    (copiesIn name (t.log (received ⟨name, e.1⟩) acts)).Sublist (copiesIn name (t.log routed acts))
  even : ∀ e ∈ t.broker.rollAt name,
    (copiesIn name (t.log (received ⟨name, e.1⟩) acts)).length =
        (copiesIn name (t.log routed acts)).length / (t.broker.rollAt name).length ∨
      (copiesIn name (t.log (received ⟨name, e.1⟩) acts)).length =
        ((copiesIn name (t.log routed acts)).length + (t.broker.rollAt name).length - 1) /
          (t.broker.rollAt name).length
  once : ∀ c ∈ copiesIn name (t.log routed acts),
    ∃! e, e ∈ t.broker.rollAt name ∧ c ∈ copiesIn name (t.log (received ⟨name, e.1⟩) acts)

theorem sharedEvenly_run {t : Traffic} (h : t.Numbered) {name : String} {acts : List Act}
    (hsome : t.broker.rollAt name ≠ [])
    (hsame : t.Throughout (fun t' => t'.broker.rollAt name = t.broker.rollAt name) acts)
    (hcursor : (t.broker.cursorAt name).toNat + (copiesIn name (t.log routed acts)).length <
      UInt64.size) : t.SharedEvenly name acts := by
  have hreceived := fun {i e} => received_run (i := i) (e := e) h hsome hsame hcursor
  constructor
  · intro e he
    rcases List.getElem?_of_mem he with ⟨i, hi⟩
    rw [hreceived hi]
    exact dealtTo_sublist _ _ _ _
  · intro e he
    rcases List.getElem?_of_mem he with ⟨i, hi⟩
    rw [hreceived hi]
    exact length_dealtTo_eq (List.getElem?_eq_some_iff.mp hi).choose _ _
  · intro c hc
    have hnodup := nodup_copiesIn_log_routed h acts name
    rcases existsUnique_dealtTo (List.length_pos_iff.mpr hsome) (t.broker.cursorAt name).toNat
      hnodup hc with ⟨i, hi, hdealt, honly⟩
    have he := List.getElem?_eq_getElem hi
    refine ⟨_, ⟨List.getElem_mem hi, ?_⟩, ?_⟩
    · rw [hreceived he]
      exact hdealt
    · rintro e' ⟨he', hc'⟩
      rcases List.getElem?_of_mem he' with ⟨i', hi'⟩
      rw [hreceived hi'] at hc'
      rw [honly i' hc', he, Option.some.injEq] at hi'
      exact hi'.symm

/-- Two consumers share a queue of which one copy was taken before the second came. -/
def benched : Traffic :=
  ({} : Traffic).run
    [.subscribe (Broker.sharing loneConsumer), .publish { subject := "a.b", payload := [] },
      .next ⟨"q", 0⟩, .subscribe (Broker.sharing loneConsumer)]

/-- Messages are published, and one that was taken is put back among them. -/
def rounds : List Act :=
  [.publish { subject := "a.b", payload := [1] }, .settle 0 (.nack true), .next ⟨"q", 1⟩,
    .publish { subject := "a.b", payload := [2] }]

theorem sharedEvenly_rounds :
    benched.Numbered ∧ benched.broker.rollAt "q" ≠ [] ∧
      benched.Throughout (fun t => t.broker.rollAt "q" = benched.broker.rollAt "q") rounds ∧
      (benched.broker.cursorAt "q").toNat + (copiesIn "q" (benched.log routed rounds)).length <
        UInt64.size ∧
      benched.SharedEvenly "q" rounds := by
  have hnumbered : benched.Numbered := numbered_run numbered_empty _
  have hsome : benched.broker.rollAt "q" ≠ [] := by decide
  have hsame : benched.Throughout
      (fun t => t.broker.rollAt "q" = benched.broker.rollAt "q") rounds := by decide
  have hcursor : (benched.broker.cursorAt "q").toNat +
      (copiesIn "q" (benched.log routed rounds)).length < UInt64.size := by decide
  exact ⟨hnumbered, hsome, hsame, hcursor, sharedEvenly_run hnumbered hsome hsame hcursor⟩

end Traffic
end Bus
end Courier
