import Courier.Proofs.Dispatch.Launches

/-!
# Starts that are refused half way

Once a subscription is refused, the pipelines that were subscribed before only finish what they
have in hand and leave, whatever waits for them. When they have left, the same queues are active
as before the start. If nothing is refused, there is one more for each operation.

The main statement is `allOrNothing_start`.
-/

namespace Courier
namespace Dispatch

open Bus (Broker ConsumerRef Copy Request TopologyError)
open Fleet (Running step? subscriptionOf)

namespace Launch

/-- What the second has in hand, if anything, the first had in hand already. -/
def HoldsNoMore (p p' : Pipeline) : Prop :=
  ∀ h', p'.state = .handling h' → ∃ h, p.state = .handling h ∧ h'.copy = h.copy

/-- Since it was `p` on the bus `b`, a pipeline has taken no copy, or it has left. -/
inductive Rests (b : Broker) (p : Pipeline) (b' : Broker) (p' : Pipeline) : Prop where
  | left (stopped : p'.isStopped = true)
  | stays (hand : HoldsNoMore p p')
      (buffer : ∃ k k', b.consumer? p.source = some k ∧ b'.consumer? p.source = some k' ∧
        k.buffer <+: k'.buffer)

/-- A start of a dispatcher on a bus leaves all of its pipelines there, or none. -/
structure AllOrNothing (exchange id : String) (f : Fleet) (node : Node) : Prop where
  /-- Where nothing comes between its subscriptions, `start` is such a run. -/
  starts : ∃ l, Runs exchange id (ofNode f node) [] l ∧ l.rest = [] ∧
    (f.start exchange id node).1 = l.fault ∧
    (f.start exchange id node).2.broker = l.fleet.broker ∧
    ∃ n, (f.start exchange id node).2.nodes.getLast? = some n ∧
      n.pipelines = l.node.pipelines ∧ (l.fault ≠ none → n.cancelled = true)
  fails : ∀ {attended l op rest e}, Runs exchange id (ofNode f node) attended l →
    l.rest = op :: rest →
    l.fleet.broker.subscribe (subscriptionOf exchange id op) = .error e →
    ∀ {more l'}, Runs exchange id (l.subscribe exchange id) more l' →
      l'.fault = some e ∧ l'.rest = []
  /-- From then on no pipeline takes a copy, whatever waits for it. -/
  rests : ∀ {attended l e}, Runs exchange id (ofNode f node) attended l → l.fault = some e →
    ∀ {more l'}, Runs exchange id l more l' →
      l'.node.pipelines.length = l.node.pipelines.length ∧
      ∀ {i p}, l.At i p → ∃ p', l'.At i p' ∧ p'.source = p.source ∧
        Rests l.fleet.broker p l'.fleet.broker p'
  /-- A pipeline with nothing in hand can go on, and all that it can do is to leave. -/
  leaves : ∀ {attended l e}, Runs exchange id (ofNode f node) attended l → l.fault = some e →
    ∀ {i p}, l.At i p → p.state = .idle →
      step? ⟨l.fleet, l.node, p⟩ = some (Fleet.stop ⟨l.fleet, l.node, p⟩)
  /-- When they have ended, the same queues are active as before. -/
  restores : ∀ {attended l e}, Runs exchange id (ofNode f node) attended l → l.fault = some e →
    l.node.isStopped = true → ∀ name, name ∉ attended →
      (name ∈ l.fleet.broker.activeQueues ↔ name ∈ f.broker.activeQueues)
  /-- If nothing is refused, there is one more active queue for each operation. -/
  adds : ∀ {attended l}, Runs exchange id (ofNode f node) attended l → l.rest = [] →
    l.fault = none →
      (∀ op : Operation, op.queueName id ∈ l.fleet.broker.activeQueues ∧
        (op.queueName id ∉ attended → op.queueName id ∉ f.broker.activeQueues)) ∧
      ∀ name, name ∉ attended → (name ∈ l.fleet.broker.activeQueues ↔
        name ∈ f.broker.activeQueues ∨ ∃ op : Operation, name = op.queueName id)
  names : (Operation.all.map fun op => op.queueName id).Nodup

/-!
## After a refusal
-/

theorem HoldsNoMore.refl (p : Pipeline) : HoldsNoMore p p :=
  fun h hstate => ⟨h, hstate, rfl⟩

theorem HoldsNoMore.trans {p p' p'' : Pipeline} (h : HoldsNoMore p p')
    (h' : HoldsNoMore p' p'') : HoldsNoMore p p'' := by
  intro inHand'' hstate''
  rcases h' inHand'' hstate'' with ⟨inHand', hstate', hcopy'⟩
  rcases h inHand' hstate' with ⟨inHand, hstate, hcopy⟩
  exact ⟨inHand, hstate, hcopy'.trans hcopy⟩

section Stands

variable {id : String} {b : Broker} {attended : List String} {l : Launch}

theorem subscribe_of_rest_nil (h : l.rest = []) (exchange id : String) :
    l.subscribe exchange id = l := by
  simp only [subscribe, h]

def RestsNext (l l' : Launch) (i : Nat) (p : Pipeline) : Prop :=
  ∃ p', l'.At i p' ∧ p'.source = p.source ∧ (p'.isStopped = true ∨ p.isStopped = false ∧
    HoldsNoMore p p' ∧ Bus.Broker.Spared p.source l.fleet.broker l'.fleet.broker)

theorem restsNext_of_at {l' : Launch} {i : Nat} {p : Pipeline} (hat : l'.At i p)
    (hspared : Bus.Broker.Spared p.source l.fleet.broker l'.fleet.broker) :
    RestsNext l l' i p := by
  refine ⟨p, hat, rfl, ?_⟩
  cases hruns : p.isStopped with
  | true => exact .inl rfl
  | false => exact .inr ⟨rfl, .refl p, hspared⟩

theorem restsNext_of_step (h : Stands id b attended l) (hfault : l.fault ≠ none)
    {exchange : String} {next : List String} {l' : Launch} (hstep : Step exchange id l next l')
    {i : Nat} {p : Pipeline} (hat : l.At i p) : RestsNext l l' i p := by
  rcases h.ended hfault with ⟨hcancelled, hrest⟩
  cases hstep with
  | subscribes =>
      rw [subscribe_of_rest_nil hrest]
      exact restsNext_of_at hat (.refl h.sound)
  | @moves j p₀ r here step =>
      by_cases hi : i = j
      · subst hi
        cases hat.symm.trans here
        refine ⟨r.pipeline, (at_put_iff here step).mpr (.inl ⟨rfl, rfl⟩),
          (Fleet.frame_of_step step).source, ?_⟩
        -- Its own move leaves the buffer alone, as it is cancelled and has a delivery in hand.
        rcases Fleet.step_of_cancelled hcancelled step with hstopped | ⟨inHand, hstate, hsame⟩
        · exact .inl hstopped
        · have hidle := Fleet.not_isConsuming_of_handling hstate
          exact .inr ⟨Fleet.isStopped_of_step step, fun h' hh' => ⟨inHand, hstate, hsame h' hh'⟩,
            Fleet.spared_step h.sound step fun d hd hconsuming => absurd hconsuming (hidle d hd)⟩
      · exact restsNext_of_at ((at_put_iff here step).mpr (.inr ⟨hi, hat⟩))
          (h.spared here step hat hi)
  | others r spares =>
      have hmem : p.source ∈ l.sources := List.mem_map_of_mem (List.mem_of_getElem? hat)
      exact restsNext_of_at hat (Bus.Broker.spared_respond h.sound spares hmem)
  | passes f adapters same =>
      exact restsNext_of_at hat (.of_queues (same ▸ h.sound) (congrArg Broker.queues same))

theorem fault_of_step (h : Stands id b attended l) {e : TopologyError} (hfault : l.fault = some e)
    {exchange : String} {next : List String} {l' : Launch} (hstep : Step exchange id l next l') :
    l'.fault = some e ∧ l'.node.pipelines.length = l.node.pipelines.length := by
  cases hstep with
  | subscribes =>
      rw [subscribe_of_rest_nil (h.ended (by simp [hfault])).right]
      exact ⟨hfault, rfl⟩
  | moves here step =>
      refine ⟨hfault, ?_⟩
      have hpipelines := (Fleet.frame_of_step step).pipelines
      rw [put, List.length_set, hpipelines]
  | others r spares => exact ⟨hfault, rfl⟩
  | passes f adapters same => exact ⟨hfault, rfl⟩

theorem rests_of_runs (h : Stands id b attended l) {e : TopologyError} (hfault : l.fault = some e)
    {exchange : String} {more : List String} {l' : Launch} (hruns : Runs exchange id l more l') :
    l'.fault = some e ∧ l'.node.pipelines.length = l.node.pipelines.length ∧
      ∀ {i p}, l.At i p → ∃ p', l'.At i p' ∧ p'.source = p.source ∧
        Rests l.fleet.broker p l'.fleet.broker p' := by
  induction hruns with
  | none =>
      refine ⟨hfault, rfl, fun {i p} hat => ⟨p, hat, rfl, ?_⟩⟩
      cases hp : p.isStopped with
      | true => exact .left hp
      | false =>
          rcases h.present hat hp with ⟨k, hk⟩
          exact .stays (.refl p) ⟨k, k, hk, hk, List.prefix_refl _⟩
  | more runs step ih =>
      rcases ih with ⟨hfault', hlength, hrests⟩
      have hstands := stands_of_runs h runs
      rcases fault_of_step hstands hfault' step with ⟨hfault'', hlength'⟩
      refine ⟨hfault'', hlength'.trans hlength, fun {i p} hat => ?_⟩
      rcases hrests hat with ⟨p', hat', hsource, hrest⟩
      rcases restsNext_of_step hstands (by simp [hfault']) step hat' with
        ⟨p'', hat'', hsource', hstopped | ⟨hran, hhand, hspared⟩⟩
      · exact ⟨p'', hat'', hsource'.trans hsource, .left hstopped⟩
      · refine ⟨p'', hat'', hsource'.trans hsource, ?_⟩
        cases hrest with
        | left stopped =>
            rw [hran] at stopped
            cases stopped
        | stays hand buffer =>
            rcases buffer with ⟨k, k', hk, hk', hprefix⟩
            rw [hsource] at hspared
            rcases hspared.buffer k' hk' with ⟨k'', hk'', hprefix'⟩
            exact .stays (hand.trans hhand) ⟨k, k'', hk, hk'', hprefix.trans hprefix'⟩

/-!
## The queues that are active in the end
-/

theorem mem_activeQueues_of_stopped (h : Stands id b attended l) (hb : b.Sound)
    (hstopped : l.node.isStopped = true) {name : String} (hname : name ∉ attended) :
    name ∈ l.fleet.broker.activeQueues ↔ name ∈ b.activeQueues := by
  rw [Bus.Broker.mem_activeQueues_iff h.sound, Bus.Broker.mem_activeQueues_iff hb]
  refine exists_congr fun e => (h.rolls name hname e).trans (or_iff_left ?_)
  rintro ⟨i, p, hat, hruns, _⟩
  have hp := List.all_eq_true.mp hstopped p (List.mem_of_getElem? hat)
  rw [hruns] at hp
  cases hp

theorem mem_activeQueues_of_at (h : Stands id b attended l) {i : Nat} {p : Pipeline}
    (hat : l.At i p) (hruns : p.isStopped = false) :
    p.source.queue ∈ l.fleet.broker.activeQueues := by
  rcases h.present hat hruns with ⟨k, hk⟩
  rcases Bus.Broker.exists_mem_rollAt_of_consumer? hk with ⟨exclusive, hmem⟩
  exact (Bus.Broker.mem_activeQueues_iff h.sound _).mpr ⟨_, hmem⟩

theorem exists_at_of_going (h : Stands id b attended l) (hfault : l.fault = none)
    (hrest : l.rest = []) (op : Operation) :
    ∃ i p, l.At i p ∧ p.isStopped = false ∧ p.source.queue = op.queueName id := by
  rcases h.going hfault with ⟨_, hruns, hall⟩
  have hop : op ∈ l.node.pipelines.map Pipeline.operation := by
    rw [hrest, List.append_nil] at hall
    rw [hall]
    cases op <;> decide
  rcases List.mem_map.mp hop with ⟨p, hp, rfl⟩
  rcases List.mem_iff_getElem?.mp hp with ⟨i, hat⟩
  exact ⟨i, p, hat, hruns hat, h.named hat⟩

theorem mem_activeQueues_of_going (h : Stands id b attended l) (hb : b.Sound)
    (hfault : l.fault = none) (hrest : l.rest = []) {name : String} (hname : name ∉ attended) :
    name ∈ l.fleet.broker.activeQueues ↔
      name ∈ b.activeQueues ∨ ∃ op : Operation, name = op.queueName id := by
  constructor
  · intro hactive
    rcases (Bus.Broker.mem_activeQueues_iff h.sound name).mp hactive with ⟨e, he⟩
    rcases (h.rolls name hname e).mp he with hold | ⟨i, p, hat, _, rfl, _⟩
    · exact .inl ((Bus.Broker.mem_activeQueues_iff hb name).mpr ⟨e, hold⟩)
    · exact .inr ⟨p.operation, h.named hat⟩
  · rintro (hbefore | ⟨op, rfl⟩)
    · rcases (Bus.Broker.mem_activeQueues_iff hb name).mp hbefore with ⟨e, he⟩
      exact (Bus.Broker.mem_activeQueues_iff h.sound name).mpr
        ⟨e, (h.rolls name hname e).mpr (.inl he)⟩
    · rcases exists_at_of_going h hfault hrest op with ⟨i, p, hat, hruns, hqueue⟩
      rw [← hqueue]
      exact mem_activeQueues_of_at h hat hruns

theorem adds_of_going (h : Stands id b attended l) (hb : b.Sound) (hfault : l.fault = none)
    (hrest : l.rest = []) (op : Operation) : op.queueName id ∈ l.fleet.broker.activeQueues ∧
      (op.queueName id ∉ attended → op.queueName id ∉ b.activeQueues) := by
  rcases exists_at_of_going h hfault hrest op with ⟨i, p, hat, hruns, hqueue⟩
  rw [← hqueue]
  refine ⟨mem_activeQueues_of_at h hat hruns, fun hname hbefore => ?_⟩
  rcases (Bus.Broker.mem_activeQueues_iff hb _).mp hbefore with ⟨e, he⟩
  rw [h.unclaimed hat hname] at he
  cases he

end Stands

/-!
## A start without interruption
-/

theorem Runs.trans {exchange id : String} {attended more : List String} {l l' l'' : Launch}
    (h : Runs exchange id l attended l') (h' : Runs exchange id l' more l'') :
    Runs exchange id l (attended ++ more) l'' := by
  induction h' with
  | none =>
      rw [List.append_nil]
      exact h
  | more _ step ih =>
      rw [← List.append_assoc]
      exact .more ih step

theorem exists_runs_subscribeAll (exchange id : String) {l : Launch} (hfault : l.fault = none) :
    ∃ l', Runs exchange id l [] l' ∧ l'.rest = [] ∧
      Fleet.subscribeAll exchange id l.rest l.fleet.broker l.node.pipelines =
        (l'.fault, l'.fleet.broker, l'.node.pipelines) := by
  generalize hrest : l.rest = ops
  induction ops generalizing l with
  | nil => exact ⟨l, .none, hrest, by rw [hfault]; rfl⟩
  | cons op rest ih =>
      have hstep : Runs exchange id l [] (l.subscribe exchange id) := .more .none .subscribes
      cases hsubscribe : l.fleet.broker.subscribe (subscriptionOf exchange id op) with
      | error e =>
          refine ⟨_, hstep, ?_, ?_⟩
          · simp only [subscribe, hrest, hsubscribe]
          · simp only [subscribe, hrest, Fleet.subscribeAll, hsubscribe]
      | ok joined =>
          have hseat : l.subscribe exchange id = l.seat op joined.1 joined.2 := by
            simp only [subscribe, hrest, hsubscribe]
          have htail : (l.seat op joined.1 joined.2).rest = rest := by
            rw [seat, hrest, List.tail_cons]
          rcases ih (l := l.seat op joined.1 joined.2) hfault htail with ⟨l', hruns, hover, hall⟩
          rw [hseat] at hstep
          refine ⟨l', hstep.trans hruns, hover, ?_⟩
          simp only [Fleet.subscribeAll, hsubscribe]
          exact hall

theorem starts_ofNode (exchange id : String) (f : Fleet) (node : Node) :
    ∃ l, Runs exchange id (ofNode f node) [] l ∧ l.rest = [] ∧
      (f.start exchange id node).1 = l.fault ∧
      (f.start exchange id node).2.broker = l.fleet.broker ∧
      ∃ n, (f.start exchange id node).2.nodes.getLast? = some n ∧
        n.pipelines = l.node.pipelines ∧ (l.fault ≠ none → n.cancelled = true) := by
  have hnew : (ofNode f node).fault = none := rfl
  rcases exists_runs_subscribeAll exchange id hnew with ⟨l, hruns, hover, hall⟩
  refine ⟨l, hruns, hover, ?_⟩
  have hall' : Fleet.subscribeAll exchange id Operation.all f.broker [] =
      (l.fault, l.fleet.broker, l.node.pipelines) := hall
  unfold Fleet.start
  rw [hall']
  cases l.fault with
  | some e => exact ⟨rfl, rfl, _, List.getLast?_concat, rfl, fun _ => rfl⟩
  | none => exact ⟨rfl, rfl, _, List.getLast?_concat, rfl, fun h => absurd rfl h⟩

/-- Whatever has been asked of a bus before, a start there is all or nothing. -/
theorem allOrNothing_start {f : Fleet} {requests : List Request}
    (hbus : f.broker = Bus.after Broker.respond {} requests) (exchange id : String) (node : Node) :
    AllOrNothing exchange id f node := by
  have hregular : f.broker.Regular :=
    hbus ▸ Bus.Broker.regular_after Bus.Broker.regular_empty requests
  have hstands : ∀ {attended l}, Runs exchange id (ofNode f node) attended l →
      Stands id f.broker attended l :=
    fun hruns => stands_of_runs (stands_ofNode hregular id node) hruns
  constructor
  · exact starts_ofNode exchange id f node
  · intro attended l op rest e hruns hrest herror more l' hmore
    have hrefused := stands_subscribe (hstands hruns) exchange
    have hfault : (l.subscribe exchange id).fault = some e := by
      simp only [subscribe, hrest, herror]
    have hfault' := (rests_of_runs hrefused hfault hmore).left
    exact ⟨hfault', ((stands_of_runs hrefused hmore).ended (by simp [hfault'])).right⟩
  · exact fun hruns hfault _ _ hmore => (rests_of_runs (hstands hruns) hfault hmore).right
  · intro attended l e hruns hfault i p _ hidle
    have hcancelled := ((hstands hruns).ended (by simp [hfault])).left
    simp only [step?, hidle, hcancelled, if_true]
  · exact fun hruns _ hstopped name hname =>
      mem_activeQueues_of_stopped (hstands hruns) hregular.sound hstopped hname
  · intro attended l hruns hrest hfault
    exact ⟨adds_of_going (hstands hruns) hregular.sound hfault hrest, fun name hname =>
      mem_activeQueues_of_going (hstands hruns) hregular.sound hfault hrest hname⟩
  · have hall : Operation.all.Nodup := by decide
    exact hall.map fun op op' h => (Operation.eq_of_queueName_eq h).left

def moveAt (l : Launch) (i : Nat) : Launch :=
  match l.node.pipelines[i]? with
  | none => l
  | some p =>
    match step? ⟨l.fleet, l.node, p⟩ with
    | none => l
    | some r => l.put i r

theorem runs_moveAt (exchange id : String) (l : Launch) (i : Nat) :
    Runs exchange id l [] (l.moveAt i) := by
  unfold moveAt
  split
  · exact .none
  · next p here =>
      split
      · exact .none
      · next r hstep => exact .more .none (.moves here hstep)

def occupied : Fleet where
  broker := Bus.after Broker.respond {}
    [.subscribe (subscriptionOf "im_message.events" "a" .sendImage)]

/-- A dispatcher has subscribed one pipeline there, for which a message waits. -/
def served : Launch :=
  ((ofNode occupied (FanOut.plainNode "a")).subscribe "im_message.events" "a").answer
    (.publish ⟨plainDelivery.subject, plainDelivery.metadata, plainDelivery.payload⟩)

def refused : Launch :=
  served.subscribe "im_message.events" "a"

theorem runs_refused :
    Runs "im_message.events" "a" (ofNode occupied (FanOut.plainNode "a")) [] refused := by
  have hserved : Runs "im_message.events" "a" (ofNode occupied (FanOut.plainNode "a")) [] served :=
    .more (.more .none .subscribes) (.others (.publish _) trivial)
  exact .more hserved .subscribes

/-- The message waits as long as the pipeline is there, and then the queues are as before. -/
theorem allOrNothing_start_occupied :
    refused.fault = some (.queueInUse (Operation.sendImage.queueName "a")) ∧
      (refused.node.pipelines.map fun p =>
        (refused.fleet.broker.consumer? p.source).map fun k => k.buffer.length) = [some 1] ∧
      (refused.moveAt 0).node.isStopped = true ∧
      ∀ name, name ∈ (refused.moveAt 0).fleet.broker.activeQueues ↔
        name ∈ occupied.broker.activeQueues := by
  have hfault : refused.fault = some (.queueInUse (Operation.sendImage.queueName "a")) := by
    decide +kernel
  have hwaits : (refused.node.pipelines.map fun p =>
      (refused.fleet.broker.consumer? p.source).map fun k => k.buffer.length) = [some 1] := by
    decide +kernel
  have hstopped : (refused.moveAt 0).node.isStopped = true := by decide +kernel
  have hfault' : (refused.moveAt 0).fault =
      some (.queueInUse (Operation.sendImage.queueName "a")) := by decide +kernel
  have hall := allOrNothing_start (f := occupied) rfl "im_message.events" "a"
    (FanOut.plainNode "a")
  have hruns := runs_refused.trans (runs_moveAt "im_message.events" "a" refused 0)
  exact ⟨hfault, hwaits, hstopped,
    fun name => hall.restores hruns hfault' hstopped name List.not_mem_nil⟩

end Launch
end Dispatch
end Courier
