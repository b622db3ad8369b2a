import Courier.Proofs.Bus.Ephemeral
import Courier.Proofs.Dispatch.Ticks

/-!
# Dispatchers on a bus of their own

Dispatchers are started, shut down and started again, for instances of any names, on a bus to
which nobody else subscribes; a start may be refused. All the time each pipeline that runs is the
only consumer of its queue, which goes with it: `lodged_of_follows`.
-/

namespace Courier
namespace Dispatch

open Bus (Act Broker Copy ConsumerRef Parcel Traffic)
open Bus.Broker (Ephemeral Used)

namespace Fleet

/-!
## What dispatchers do to the bus
-/

theorem used_take (b : Broker) (ref : ConsumerRef) : Used b (b.take ref).2 := by
  have hturn := Traffic.turn_next { broker := b } ref
  have hused := Bus.Broker.used_of_turn hturn nofun
  have hsame : (({ broker := b } : Traffic).step (.next ref)).broker = (b.take ref).2 := by
    rcases htake : b.take ref with ⟨taken, b'⟩
    simp only [Traffic.step, htake]
    cases taken <;> rfl
  rw [hsame] at hused
  exact hused

theorem used_publish (b : Broker) (p : Parcel) : Used b (b.publish p) :=
  Bus.Broker.used_of_turn (.published (t := { broker := b }) p) nofun

theorem used_unsubscribe (b : Broker) (ref : ConsumerRef) : Used b (b.unsubscribe ref) :=
  Bus.Broker.used_of_turn (.left (t := { broker := b }) ref) nofun

theorem used_settled {b : Broker} (hopen : b.closed = false) (queue : String) (p : Parcel)
    (how : Bus.Settlement) : Used b ((Deed.settled how).perform queue p b) := by
  have hturn := Traffic.turn_settle (t := { broker := b, held := [(queue, ⟨0, p⟩)] }) hopen 0 how
  have hused := Bus.Broker.used_of_turn hturn nofun
  have hsame : (({ broker := b, held := [(queue, ⟨0, p⟩)] } : Traffic).step
      (.settle 0 how)).broker = (Deed.settled how).perform queue p b := by
    simp only [Traffic.step, Traffic.delivery?, List.find?_cons, decide_true, Deed.perform]
    cases b.settle queue p how <;> rfl
  rw [hsame] at hused
  exact hused

theorem used_perform {b : Broker} (hopen : b.closed = false) (r : Running)
    (adapters : List Provider.Adapter) (d : Dealing) : Used b (perform r (b, adapters) d).1 := by
  cases d with
  | took copy => exact used_take b _
  | called job => exact .none
  | left => exact used_unsubscribe b _
  | about copy deed =>
      cases deed with
      | settled how => exact used_settled hopen _ _ how
      | offered letter taken =>
          simp only [perform, letterSink]
          cases r.node.sink with
          | bus => exact used_publish b _
          | broken => exact .none

theorem used_done {r : Running} (h : r.fleet.broker.Ephemeral) (ds : List Dealing)
    (counted : List (Operation × String)) (state : PipelineState) :
    Used r.fleet.broker (r.done ds counted state).fleet.broker := by
  unfold Running.done
  simp only
  generalize r.node.adapters = adapters
  generalize hbroker : r.fleet.broker = b at h ⊢
  clear hbroker
  induction ds generalizing b adapters with
  | nil => exact .none
  | cons d rest ih =>
      have hfirst := used_perform h.isOpen r adapters d
      exact hfirst.trans (ih _ _ (Bus.Broker.ephemeral_of_used h hfirst))

theorem used_step {r r' : Running} (h : r.fleet.broker.Ephemeral) (hstep : step? r = some r') :
    Used r.fleet.broker r'.fleet.broker := by
  rcases exists_done_step hstep with ⟨counted, state, rfl⟩
  exact used_done h _ _ _

/-- What new pipelines come to, which leave the others alone. -/
structure Boards (b b' : Broker) (pipelines : List Pipeline) : Prop where
  used : Used b b'
  others : ∀ {binding ref}, b.Serves binding ref → b'.queue? ref.queue = b.queue? ref.queue
  idle : ∀ p ∈ pipelines, p.state = .idle
  serves : ∀ p ∈ pipelines, b'.Serves p.operation.bindingPattern p.source
  numbered : ∀ p ∈ pipelines, b.nextConsumer ≤ p.source.id ∧ p.source.id < b'.nextConsumer
  apart : (pipelines.map fun p => p.source.id).Nodup

theorem Boards.nil (b : Broker) : Boards b b [] where
  used := .none
  others := fun _ => rfl
  idle := fun _ hp => absurd hp List.not_mem_nil
  serves := fun _ hp => absurd hp List.not_mem_nil
  numbered := fun _ hp => absurd hp List.not_mem_nil
  apart := List.nodup_nil

theorem Boards.index_eq {b b' : Broker} {pipelines : List Pipeline} (h : Boards b b' pipelines)
    {i j : Nat} {p p' : Pipeline} (hp : pipelines[i]? = some p) (hp' : pipelines[j]? = some p')
    (hid : p.source.id = p'.source.id) : i = j := by
  have hi : (pipelines.map fun p => p.source.id)[i]? = some p.source.id := by
    rw [List.getElem?_map, hp, Option.map_some]
  have hj : (pipelines.map fun p => p.source.id)[j]? = some p'.source.id := by
    rw [List.getElem?_map, hp', Option.map_some]
  rcases List.getElem?_eq_some_iff.mp hi with ⟨hlength, _⟩
  exact (List.getElem?_inj hlength h.apart).mp (by rw [hi, hj, hid])

theorem Boards.cons {exchange id : String} {op : Operation} {b b' : Broker}
    {pipelines : List Pipeline} (hb : b.Ephemeral)
    (hvalid : (subscriptionOf exchange id op).validate = none)
    (hfree : ∀ q, b.queue? (op.queueName id) = some q →
      Broker.refuses q (subscriptionOf exchange id op) = false)
    (h : Boards (b.joined (subscriptionOf exchange id op)) b' pipelines) :
    Boards b b'
      ({ operation := op, source := ⟨op.queueName id, b.nextConsumer⟩ } :: pipelines) := by
  have hjoined : Used b (b.joined (subscriptionOf exchange id op)) := by
    refine Bus.Broker.used_of_turn (.joined (t := { broker := b }) hvalid hfree) ?_
    intro s hs
    cases hs
    exact ⟨rfl, rfl⟩
  have hserves := hb.serves_joined (s := subscriptionOf exchange id op) hfree rfl
  have hnext := Bus.Broker.nextConsumer_le_of_used h.used
  have hlater : ∀ p ∈ pipelines, b.nextConsumer < p.source.id :=
    fun p hp => (h.numbered p hp).left
  constructor
  · exact hjoined.trans h.used
  · intro binding ref href
    have hsame := hb.queue?_joined_of_serves (s := subscriptionOf exchange id op) hfree href
    exact (h.others (href.congr hsame)).trans hsame
  · exact List.forall_mem_cons.mpr ⟨rfl, h.idle⟩
  · exact List.forall_mem_cons.mpr ⟨hserves.congr (h.others hserves), h.serves⟩
  · refine List.forall_mem_cons.mpr ⟨⟨Nat.le_refl _, hnext⟩, ?_⟩
    intro p hp
    exact ⟨Nat.le_of_lt (hlater p hp), (h.numbered p hp).right⟩
  · refine List.nodup_cons.mpr ⟨?_, h.apart⟩
    intro hmem
    rcases List.mem_map.mp hmem with ⟨p, hp, hid⟩
    exact absurd hid (Nat.ne_of_gt (hlater p hp))

theorem boards_subscribeAll (exchange id : String) (ops : List Operation) {b : Broker}
    (hb : b.Ephemeral) (before : List Pipeline) :
    ∃ e b' pipelines, subscribeAll exchange id ops b before = (e, b', before ++ pipelines) ∧
      Boards b b' pipelines := by
  induction ops generalizing b before with
  | nil => exact ⟨none, b, [], by rw [List.append_nil]; rfl, .nil b⟩
  | cons op rest ih =>
      rcases b.subscribe_cases (subscriptionOf exchange id op) with
        ⟨e, herror⟩ | ⟨hvalid, hfree, hsubscribe⟩
      · exact ⟨some e, b, [], by simp only [subscribeAll, herror, List.append_nil], .nil b⟩
      · have hjoined : Used b (b.joined (subscriptionOf exchange id op)) :=
          (Boards.cons hb hvalid hfree (.nil _)).used
        rcases ih (Bus.Broker.ephemeral_of_used hb hjoined)
          (before ++ [{ operation := op, source := ⟨op.queueName id, b.nextConsumer⟩ }]) with
          ⟨e, b', pipelines, hall, hboards⟩
        refine ⟨e, b', _, ?_, hboards.cons hb hvalid hfree⟩
        rw [List.append_assoc] at hall
        simp only [subscribeAll, hsubscribe]
        exact hall

theorem exists_start {f : Fleet} (h : f.broker.Ephemeral) (exchange instanceId : String)
    (node : Node) : ∃ b' g new, (f.start exchange instanceId node).2 =
        { f with broker := b', nodes := f.nodes.map g ++ [new] } ∧
      (∀ n, (g n).pipelines = n.pipelines ∧ (g n).cancelled = n.cancelled) ∧
      Boards f.broker b' new.pipelines := by
  rcases boards_subscribeAll exchange instanceId Operation.all h [] with
    ⟨e, b', pipelines, hall, hboards⟩
  unfold start
  rw [hall]
  cases e with
  | none =>
      refine ⟨b', _, _, rfl, ?_, hboards⟩
      intro n
      split <;> exact ⟨rfl, rfl⟩
  | some e =>
      refine ⟨b', id, { node with name := none, cancelled := true, pipelines := pipelines }, ?_,
        fun n => ⟨rfl, rfl⟩, hboards⟩
      rw [List.map_id]
      rfl

section Start

variable {f : Fleet} {b : Broker} {g : Node → Node} {new : Node}
  (hg : ∀ n, (g n).pipelines = n.pipelines ∧ (g n).cancelled = n.cancelled)
include hg

theorem at_start_of_at {place : Place} {n : Node} {p : Pipeline} (h : f.At place n p) :
    ({ f with broker := b, nodes := f.nodes.map g ++ [new] } : Fleet).At place (g n) p := by
  rcases h with ⟨hn, hp⟩
  rcases List.getElem?_eq_some_iff.mp hn with ⟨hlength, _⟩
  constructor
  · rw [List.getElem?_append_left (by rwa [List.length_map]), List.getElem?_map, hn,
      Option.map_some]
  · rw [(hg n).left]
    exact hp

theorem cases_at_start {place : Place} {n : Node} {p : Pipeline}
    (h : ({ f with broker := b, nodes := f.nodes.map g ++ [new] } : Fleet).At place n p) :
    (∃ n₀, f.At place n₀ p ∧ n.cancelled = n₀.cancelled) ∨
      (place.node = f.nodes.length ∧ new.pipelines[place.pipeline]? = some p) := by
  rcases h with ⟨hn, hp⟩
  simp only [List.getElem?_append, List.length_map, List.getElem?_map] at hn
  split at hn
  · rcases Option.map_eq_some_iff.mp hn with ⟨n₀, hn₀, rfl⟩
    rw [(hg n₀).left] at hp
    exact .inl ⟨n₀, ⟨hn₀, hp⟩, (hg n₀).right⟩
  · next hnot =>
      rcases List.getElem?_eq_some_iff.mp hn with ⟨hlength, hlast⟩
      rw [List.length_singleton] at hlength
      have hplace : place.node = f.nodes.length := by omega
      simp only [hplace, Nat.sub_self, List.getElem_cons_zero] at hlast
      rw [← hlast] at hp
      exact .inr ⟨hplace, hp⟩

end Start

/-!
## All that happens
-/

/-- What can happen to dispatchers on a bus to which nobody else subscribes. -/
inductive Occurs (f : Fleet) : Fleet → Prop where
  | started (exchange instanceId : String) (node : Node) :
      Occurs f (f.start exchange instanceId node).2
  | published (p : Parcel) : Occurs f { f with broker := f.broker.publish p }
  | ticked {f' : Fleet} {log : List (Copy × Outcome)} (tick : Tick f log f') : Occurs f f'
  | waited (ms : Nat) : Occurs f { f with now := f.now + ms }
  | cancelled (name : String) : Occurs f (f.cancel name)

inductive Follows (f : Fleet) : Fleet → Prop where
  | none : Follows f f
  | more {f' f'' : Fleet} (follows : Follows f f') (occurs : Occurs f' f'') : Follows f f''

theorem Follows.trans {f f' f'' : Fleet} (h : Follows f f') (h' : Follows f' f'') :
    Follows f f'' := by
  induction h' with
  | none => exact h
  | more _ occurs ih => exact .more ih occurs

theorem follows_of_ticks {f f' : Fleet} {log : List (Copy × Outcome)} (h : Ticks f log f') :
    Follows f f' := by
  induction h with
  | none => exact .none
  | more _ tick ih => exact .more ih (.ticked tick)

/-- Each pipeline that runs is alone on its queue, and is interrupted only when cancelled. -/
structure Lodged (f : Fleet) : Prop where
  ephemeral : f.broker.Ephemeral
  held : f.held = true
  serves : ∀ {place n p}, f.At place n p → p.isStopped = false →
    f.broker.Serves p.operation.bindingPattern p.source
  numbered : ∀ {place n p}, f.At place n p → p.source.id < f.broker.nextConsumer
  apart : ∀ {place place' n n' p p'}, f.At place n p → f.At place' n' p' →
    p.source.id = p'.source.id → place = place'
  interrupted : ∀ {place n p h}, f.At place n p → p.state = .handling h → h.stage.back = 1 →
    n.cancelled = true

structure IsNew (f : Fleet) : Prop where
  broker : f.broker = {}
  nodes : f.nodes = []
  held : f.held = true

theorem lodged_of_isNew {f : Fleet} (h : f.IsNew) : f.Lodged := by
  have hnone : ∀ {place n p}, ¬ f.At place n p := by
    intro place n p hat
    have hn := hat.left
    rw [h.nodes] at hn
    cases hn
  refine ⟨?_, h.held, fun hat => absurd hat hnone, fun hat => absurd hat hnone,
    fun hat => absurd hat hnone, fun hat => absurd hat hnone⟩
  rw [h.broker]
  exact Bus.Broker.ephemeral_empty

theorem Lodged.same_place {f : Fleet} (h : f.Lodged) {place place' : Place} {n n' : Node}
    {p p' : Pipeline} (hat : f.At place n p) (hat' : f.At place' n' p')
    (hruns : p.isStopped = false) (hruns' : p'.isStopped = false)
    (hqueue : p.source.queue = p'.source.queue) : place = place' := by
  rcases h.serves hat hruns with ⟨q, hq, _, hroll⟩
  rcases h.serves hat' hruns' with ⟨q', hq', _, hroll'⟩
  rw [hqueue] at hq
  cases hq.symm.trans hq'
  have hid : p.source.id = p'.source.id := by simpa using hroll.symm.trans hroll'
  exact h.apart hat hat' hid

theorem fit_of_lodged {f : Fleet} (h : f.Lodged) : f.Fit where
  sound := h.ephemeral.sound
  passes := by
    intro place n p hat hruns q hq subject hsubject
    rcases h.serves hat hruns with ⟨q', hq', hbinding, _⟩
    cases hq.symm.trans hq'
    rw [hbinding]
    exact not_matches_letter p.operation hsubject
  apart := fun hat hat' hruns hruns' => h.same_place hat hat' hruns hruns'

theorem Lodged.of_at {f f' : Fleet} (h : f.Lodged) (hbroker : f'.broker = f.broker)
    (hheld : f'.held = f.held) (hat : ∀ {place n' p'}, f'.At place n' p' →
      ∃ n p, f.At place n p ∧ p'.operation = p.operation ∧ p'.source = p.source ∧
        p'.state = p.state ∧ (n.cancelled = true → n'.cancelled = true)) : f'.Lodged where
  ephemeral := hbroker ▸ h.ephemeral
  held := hheld.trans h.held
  serves := by
    intro place n' p' hat' hruns
    rcases hat hat' with ⟨n, p, hbefore, hop, hsource, hstate, _⟩
    have hran : p.isStopped = false := by
      rw [Pipeline.isStopped, ← hstate]
      exact hruns
    rw [hbroker, hop, hsource]
    exact h.serves hbefore hran
  numbered := by
    intro place n' p' hat'
    rcases hat hat' with ⟨n, p, hbefore, _, hsource, _, _⟩
    rw [hbroker, hsource]
    exact h.numbered hbefore
  apart := by
    intro place₁ place₂ n₁ n₂ p₁ p₂ hat₁ hat₂ hid
    rcases hat hat₁ with ⟨m₁, q₁, hbefore₁, _, hsource₁, _, _⟩
    rcases hat hat₂ with ⟨m₂, q₂, hbefore₂, _, hsource₂, _, _⟩
    rw [hsource₁, hsource₂] at hid
    exact h.apart hbefore₁ hbefore₂ hid
  interrupted := by
    intro place n' p' inHand hat' hstate hback
    rcases hat hat' with ⟨n, p, hbefore, _, _, hsame, hcancelled⟩
    exact hcancelled (h.interrupted hbefore (hsame.symm.trans hstate) hback)

/-!
## Moves
-/

theorem cancelled_of_back {r r' : Running} (hstep : step? r = some r') {h : InHand}
    (hstate : r'.pipeline.state = .handling h) (hback : h.stage.back = 1) :
    r.node.cancelled = true := by
  unfold step? at hstep
  cases hbefore : r.pipeline.state with
  | stopped => simp [hbefore] at hstep
  | idle =>
      simp only [hbefore] at hstep
      split at hstep
      · cases hstep
        cases hstate
      · split at hstep
        · cases hstep
          unfold begin at hstate
          simp only at hstate
          split at hstate
          · cases hstate
          · cases hstate
            cases hback
        · cases hstep
          cases hstate
        · cases hstep
  | handling inHand =>
      simp only [hbefore] at hstep
      split at hstep
      · cases hstep
        cases hstate
      · rcases Option.map_eq_some_iff.mp hstep with ⟨⟨stage, adapters⟩, hstage, rfl⟩
        cases hstate
        cases hcancelled : r.node.cancelled with
        | true => rfl
        | false =>
            rw [(Stage.cost_of_step? hstage).right hcancelled] at hback
            cases hback

theorem isStopped_of_step {r r' : Running} (hstep : step? r = some r') :
    r.pipeline.isStopped = false := by
  cases hstate : r.pipeline.state with
  | stopped => simp [step?, hstate] at hstep
  | idle => simp [Pipeline.isStopped, hstate]
  | handling inHand => simp [Pipeline.isStopped, hstate]

section Move

variable {f : Fleet} {place : Place} {n : Node} {p : Pipeline} {r : Running} (h : f.Lodged)
  (hat : f.At place n p) (hstep : step? ⟨f, n, p⟩ = some r)
include h hat hstep

theorem serves_move {place' : Place} {n' : Node} {p' : Pipeline}
    (hat' : (r.put place).At place' n' p') (hruns' : p'.isStopped = false) :
    r.fleet.broker.Serves p'.operation.bindingPattern p'.source := by
  have hmoved := moved_step (r := ⟨f, n, p⟩) h.ephemeral.sound h.ephemeral.isOpen hstep
  have hruns := isStopped_of_step hstep
  rcases cases_at_put hat hmoved.frame hat' with ⟨_, _, rfl⟩ | ⟨hne, n₀, hbefore, _⟩
  · have hserves := h.serves hat hruns
    rw [hmoved.frame.operation, hmoved.frame.source]
    cases hmoved with
    | goes frame steady same => exact steady.serves hserves
    | stops frame broker stopped cancelled =>
        rw [stopped] at hruns'
        cases hruns'
  · have hserves := h.serves hbefore hruns'
    cases hmoved with
    | goes frame steady same => exact steady.serves hserves
    | stops frame broker stopped cancelled =>
        rw [broker]
        refine Bus.Broker.serves_unsubscribe ?_ hserves
        intro hqueue
        exact hne (h.same_place hbefore hat hruns' hruns hqueue)

theorem consumer?_move {place' : Place} {n' : Node} {p' : Pipeline} (hat' : f.At place' n' p')
    (hne : place' ≠ place) (hruns' : p'.isStopped = false) :
    r.fleet.broker.consumer? p'.source = f.broker.consumer? p'.source := by
  have hruns := isStopped_of_step hstep
  rcases exists_done_step hstep with ⟨counted, state, rfl⟩
  have htame := tame_done (r := ⟨f, n, p⟩) h.ephemeral.sound (dealings ⟨f, n, p⟩) counted state
  refine htame.consumers p'.source ?_ ((fit_of_lodged h).passes hat' hruns')
  exact fun hqueue => hne (h.same_place hat' hat hruns' hruns hqueue)

theorem lodged_move : (r.put place).Lodged := by
  have hframe := frame_of_step hstep
  have hused : Used f.broker r.fleet.broker := used_step (r := ⟨f, n, p⟩) h.ephemeral hstep
  have hbefore : ∀ {place' n' p'}, (r.put place).At place' n' p' →
      ∃ n₀ p₀, f.At place' n₀ p₀ ∧ p'.source = p₀.source := by
    intro place' n' p' hat'
    rcases cases_at_put hat hframe hat' with ⟨rfl, _, rfl⟩ | ⟨_, n₀, hold, _⟩
    · exact ⟨n, p, hat, hframe.source⟩
    · exact ⟨n₀, p', hold, rfl⟩
  constructor
  · exact Bus.Broker.ephemeral_of_used h.ephemeral hused
  · exact hframe.held.trans h.held
  · exact fun hat' hruns => serves_move h hat hstep hat' hruns
  · intro place' n' p' hat'
    rcases hbefore hat' with ⟨n₀, p₀, hold, hsource⟩
    rw [hsource]
    exact Nat.lt_of_lt_of_le (h.numbered hold) (Bus.Broker.nextConsumer_le_of_used hused)
  · intro place₁ place₂ n₁ n₂ p₁ p₂ hat₁ hat₂ hid
    rcases hbefore hat₁ with ⟨m₁, q₁, hold₁, hsource₁⟩
    rcases hbefore hat₂ with ⟨m₂, q₂, hold₂, hsource₂⟩
    rw [hsource₁, hsource₂] at hid
    exact h.apart hold₁ hold₂ hid
  · intro place' n' p' inHand hat' hstate hback
    rcases cases_at_put hat hframe hat' with ⟨_, rfl, rfl⟩ | ⟨_, n₀, hold, hcancelled⟩
    · exact hframe.cancelled.trans (cancelled_of_back hstep hstate hback)
    · rw [hcancelled]
      exact h.interrupted hold hstate hback

end Move

theorem at_turn {f : Fleet} {place place' : Place} {n n' : Node} {p p' : Pipeline}
    (hat : f.At place n p)
    (hat' : (Running.put ⟨{ f with turn := f.turn + 1 }, n,
      { p with turn := f.turn }⟩ place).At place' n' p') :
    ∃ n₀ p₀, f.At place' n₀ p₀ ∧ p'.operation = p₀.operation ∧ p'.source = p₀.source ∧
      p'.state = p₀.state ∧ (n₀.cancelled = true → n'.cancelled = true) := by
  rcases cases_at_put hat (frame_turn f n p) hat' with ⟨rfl, rfl, rfl⟩ | ⟨_, n₀, hbefore, hcancelled⟩
  · exact ⟨n, p, hat, rfl, rfl, rfl, id⟩
  · exact ⟨n₀, p', hbefore, rfl, rfl, rfl, hcancelled.trans⟩

theorem lodged_tick {f f' : Fleet} {log : List (Copy × Outcome)} (h : f.Lodged)
    (htick : Tick f log f') : f'.Lodged := by
  cases htick with
  | move here step => exact lodged_move h here step
  | turn here => exact h.of_at rfl rfl (at_turn here)
  | pass still later due => exact h.of_at rfl rfl fun hat => ⟨_, _, hat, rfl, rfl, rfl, id⟩

/-!
## Starts
-/

theorem lodged_start {f : Fleet} (h : f.Lodged) (exchange instanceId : String) (node : Node) :
    (f.start exchange instanceId node).2.Lodged := by
  rcases exists_start h.ephemeral exchange instanceId node with ⟨b, g, new, hstart, hg, hboards⟩
  have hnew : ∀ {place : Place} {p : Pipeline}, new.pipelines[place.pipeline]? = some p →
      p ∈ new.pipelines := fun hp => List.mem_of_getElem? hp
  rw [hstart]
  constructor
  · exact Bus.Broker.ephemeral_of_used h.ephemeral hboards.used
  · exact h.held
  · intro place n p hat hruns
    rcases cases_at_start hg hat with ⟨n₀, hold, _⟩ | ⟨_, hp⟩
    · have hserves := h.serves hold hruns
      exact hserves.congr (hboards.others hserves)
    · exact hboards.serves p (hnew hp)
  · intro place n p hat
    rcases cases_at_start hg hat with ⟨n₀, hold, _⟩ | ⟨_, hp⟩
    · exact Nat.lt_of_lt_of_le (h.numbered hold)
        (Bus.Broker.nextConsumer_le_of_used hboards.used)
    · exact (hboards.numbered p (hnew hp)).right
  · intro place place' n n' p p' hat hat' hid
    -- Those that were there before have lower numbers than the new ones.
    rcases cases_at_start hg hat with ⟨n₀, hold, _⟩ | ⟨hnode, hp⟩
    · rcases cases_at_start hg hat' with ⟨n₁, hold', _⟩ | ⟨_, hp'⟩
      · exact h.apart hold hold' hid
      · have hlow := h.numbered hold
        have hhigh := (hboards.numbered p' (hnew hp')).left
        omega
    · rcases cases_at_start hg hat' with ⟨n₁, hold', _⟩ | ⟨hnode', hp'⟩
      · have hlow := h.numbered hold'
        have hhigh := (hboards.numbered p (hnew hp)).left
        omega
      · exact place_ext (hnode.trans hnode'.symm) (hboards.index_eq hp hp' hid)
  · intro place n p inHand hat hstate hback
    rcases cases_at_start hg hat with ⟨n₀, hold, hcancelled⟩ | ⟨_, hp⟩
    · rw [hcancelled]
      exact h.interrupted hold hstate hback
    · rw [hboards.idle p (hnew hp)] at hstate
      cases hstate

theorem at_cancel_spec {f : Fleet} {name : String} {place : Place} {n : Node} {p : Pipeline}
    (h : (f.cancel name).At place n p) :
    ∃ n₀, f.At place n₀ p ∧ (n₀.cancelled = true → n.cancelled = true) := by
  rcases h with ⟨hn, hp⟩
  simp only [cancel, updateNode, List.getElem?_map, Option.map_eq_some_iff] at hn
  rcases hn with ⟨n₀, hn₀, rfl⟩
  by_cases hname : n₀.name = some name
  · rw [if_pos hname] at hp ⊢
    exact ⟨n₀, ⟨hn₀, hp⟩, fun _ => rfl⟩
  · rw [if_neg hname] at hp ⊢
    exact ⟨n₀, ⟨hn₀, hp⟩, fun hcancelled => hcancelled⟩

theorem lodged_publish {f : Fleet} (h : f.Lodged) (p : Parcel) :
    ({ f with broker := f.broker.publish p } : Fleet).Lodged := by
  have hused := used_publish f.broker p
  have hsteady := Bus.Broker.steady_publish h.ephemeral.sound p
  exact ⟨Bus.Broker.ephemeral_of_used h.ephemeral hused, h.held,
    fun hat hruns => hsteady.serves (h.serves hat hruns),
    fun hat => Nat.lt_of_lt_of_le (h.numbered hat) (Bus.Broker.nextConsumer_le_of_used hused),
    h.apart, h.interrupted⟩

theorem lodged_of_occurs {f f' : Fleet} (h : f.Lodged) (hoccurs : Occurs f f') : f'.Lodged := by
  cases hoccurs with
  | started exchange instanceId node => exact lodged_start h exchange instanceId node
  | published p => exact lodged_publish h p
  | ticked tick => exact lodged_tick h tick
  | waited ms => exact h.of_at rfl rfl fun hat => ⟨_, _, hat, rfl, rfl, rfl, id⟩
  | cancelled name =>
      refine h.of_at rfl rfl ?_
      intro place n p hat
      rcases at_cancel_spec hat with ⟨n₀, hbefore, hcancelled⟩
      exact ⟨n₀, p, hbefore, rfl, rfl, rfl, hcancelled⟩

/-- However dispatchers come and go, their pipelines are lodged. -/
theorem lodged_of_follows {f f' : Fleet} (h : f.Lodged) (hfollows : Follows f f') :
    f'.Lodged := by
  induction hfollows with
  | none => exact h
  | more _ occurs ih => exact lodged_of_occurs ih occurs

end Fleet

/-!
## Runs of events
-/

namespace FanOut

theorem follows_apply {f : Fleet} (h : f.Lodged) (e : Event) : f.Follows (e.apply f).2 := by
  cases e with
  | start exchange instanceId node => exact .more .none (.started exchange instanceId node)
  | publish p => exact .more .none (.published p)
  | wait ms => exact .more .none (.waited ms)
  | sleep ms =>
      rcases Fleet.ticks_sleep h.held (Fleet.fit_of_lodged h) ms with ⟨log, hticks⟩
      exact Fleet.follows_of_ticks hticks
  | shutdown name grace =>
      rcases Fleet.ticks_shutdown h.held (Fleet.fit_of_lodged h) name grace with ⟨log, hticks⟩
      exact (Fleet.Follows.more .none (.cancelled name)).trans (Fleet.follows_of_ticks hticks)
  | move place =>
      simp only [Event.apply, moveAt]
      split
      · exact .none
      · next n hn =>
          split
          · exact .none
          · next p hp =>
              split
              · exact .none
              · next r hstep => exact .more .none (.ticked (.move ⟨hn, hp⟩ hstep))

theorem follows_foldl {f : Fleet} (h : f.Lodged) (events : List Event) :
    f.Follows (events.foldl (fun f e => (e.apply f).2) f) := by
  induction events generalizing f with
  | nil => exact .none
  | cons e rest ih =>
      have hfirst := follows_apply h e
      exact hfirst.trans (ih (Fleet.lodged_of_follows h hfirst))

theorem isNew_empty : ({} : Fleet).IsNew := ⟨rfl, rfl, rfl⟩

theorem follows_run (events : List Event) : ({} : Fleet).Follows (run events) :=
  follows_foldl (Fleet.lodged_of_isNew isNew_empty) events

theorem follows_run_append (events more : List Event) :
    (run events).Follows (run (events ++ more)) := by
  have hlodged := Fleet.lodged_of_follows (Fleet.lodged_of_isNew isNew_empty) (follows_run events)
  rw [run, run, List.foldl_append]
  exact follows_foldl hlodged more

end FanOut
end Dispatch
end Courier
