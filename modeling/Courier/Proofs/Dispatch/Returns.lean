import Courier.Proofs.Dispatch.Lodging

/-!
# What is put back at the end

A pipeline whose wait for another attempt is interrupted by shutdown puts its delivery back.
This makes a new copy at the end of the pipeline's own stream, from which nobody else takes and
from which the pipeline takes nothing any more. There the copy waits until the pipeline leaves
with its stream, and then it is gone, as the queue is there for this pipeline only:
`putBack_of_interrupted`.
-/

namespace Courier
namespace Dispatch

open Bus (Broker ConsumerRef Copy Parcel Subscription)

namespace Fleet

/-- The fleet comes of dispatchers on a bus that was new. -/
def Arises (f : Fleet) : Prop :=
  ∃ f₀ : Fleet, f₀.IsNew ∧ Follows f₀ f

theorem lodged_of_arises {f : Fleet} (h : f.Arises) : f.Lodged := by
  rcases h with ⟨f₀, hnew, hfollows⟩
  exact lodged_of_follows (lodged_of_isNew hnew) hfollows

/-!
## What others do meanwhile
-/

/-- A pipeline is as it was, but for what it has to take. -/
structure Bides (f : Fleet) (n : Node) (p : Pipeline) (f' : Fleet) (n' : Node) (p' : Pipeline) :
    Prop where
  source : p'.source = p.source
  state : p'.state = p.state
  cancelled : n.cancelled = true → n'.cancelled = true
  buffer : p.isStopped = false → ∃ k more, f.broker.consumer? p.source = some k ∧
    f'.broker.consumer? p.source = some { k with buffer := k.buffer ++ more }

section Occurs

variable {f f' : Fleet} (h : f.Lodged) {place : Place} {n : Node} {p : Pipeline}
  (hat : f.At place n p)
include h hat

theorem bides_of_consumer? {n' : Node} {p' : Pipeline} (hsource : p'.source = p.source)
    (hstate : p'.state = p.state) (hcancelled : n.cancelled = true → n'.cancelled = true)
    (hsame : p.isStopped = false →
      f'.broker.consumer? p.source = f.broker.consumer? p.source) : Bides f n p f' n' p' := by
  refine ⟨hsource, hstate, hcancelled, fun hruns => ?_⟩
  rcases Bus.Broker.exists_consumer?_of_serves (h.serves hat hruns) with ⟨k, hk⟩
  refine ⟨k, [], hk, ?_⟩
  rw [List.append_nil, hsame hruns]
  exact hk

theorem bides_of_tick {log : List (Copy × Outcome)} (htick : Tick f log f') :
    (∃ r, step? ⟨f, n, p⟩ = some r ∧ f' = r.put place) ∨
      ∃ n' p', f'.At place n' p' ∧ Bides f n p f' n' p' := by
  cases htick with
  | @move place' n₁ p₁ r here hstep =>
      by_cases hplace : place = place'
      · subst hplace
        cases here.left.symm.trans hat.left
        cases here.right.symm.trans hat.right
        exact .inl ⟨r, hstep, rfl⟩
      · rcases at_put_of_ne (frame_of_step hstep) hat hplace here with ⟨n', hat', hcancelled⟩
        refine .inr ⟨n', p, hat', bides_of_consumer? h hat rfl rfl hcancelled.trans ?_⟩
        exact fun hruns => consumer?_move h here hstep hat hplace hruns
  | @turn place' n₁ p₁ here =>
      have hframe := frame_turn f n₁ p₁
      right
      by_cases hplace : place = place'
      · subst hplace
        cases here.left.symm.trans hat.left
        cases here.right.symm.trans hat.right
        exact ⟨_, _, at_put_self hat hframe, bides_of_consumer? h hat rfl rfl id fun _ => rfl⟩
      · rcases at_put_of_ne hframe hat hplace here with ⟨n', hat', hcancelled⟩
        exact ⟨n', p, hat', bides_of_consumer? h hat rfl rfl hcancelled.trans fun _ => rfl⟩
  | pass still later due =>
      exact .inr ⟨n, p, hat, bides_of_consumer? h hat rfl rfl id fun _ => rfl⟩

omit h in
theorem at_cancel_of_at (name : String) : ∃ n', (f.cancel name).At place n' p ∧
    (n.cancelled = true → n'.cancelled = true) := by
  rcases hat with ⟨hn, hp⟩
  have hafter : (f.cancel name).nodes[place.node]? = some (if n.name = some name then
      { n with cancelled := true, shutDown := true } else n) := by
    simp only [cancel, updateNode, List.getElem?_map, hn, Option.map_some]
  by_cases hname : n.name = some name
  · rw [if_pos hname] at hafter
    exact ⟨_, ⟨hafter, hp⟩, fun _ => rfl⟩
  · rw [if_neg hname] at hafter
    exact ⟨_, ⟨hafter, hp⟩, id⟩

theorem bides_of_occurs (hoccurs : Occurs f f') :
    (∃ r, step? ⟨f, n, p⟩ = some r ∧ f' = r.put place) ∨
      ∃ n' p', f'.At place n' p' ∧ Bides f n p f' n' p' := by
  cases hoccurs with
  | started exchange instanceId node =>
      rcases exists_start h.ephemeral exchange instanceId node with
        ⟨b, g, new, hstart, hg, hboards⟩
      rw [hstart]
      refine .inr ⟨g n, p, at_start_of_at hg hat,
        bides_of_consumer? h hat rfl rfl ((hg n).right.trans ·) fun hruns => ?_⟩
      rw [Broker.consumer?, Broker.consumer?, hboards.others (h.serves hat hruns)]
  | published parcel =>
      refine .inr ⟨n, p, hat, rfl, rfl, id, fun hruns => ?_⟩
      rcases Bus.Broker.consumer?_publish h.ephemeral.sound (h.serves hat hruns) parcel with
        ⟨k, _, hk, hafter⟩
      exact ⟨k, _, hk, hafter⟩
  | ticked tick => exact bides_of_tick h hat tick
  | waited ms => exact .inr ⟨n, p, hat, bides_of_consumer? h hat rfl rfl id fun _ => rfl⟩
  | cancelled name =>
      rcases at_cancel_of_at hat name with ⟨n', hat', hcancelled⟩
      exact .inr ⟨n', p, hat', bides_of_consumer? h hat rfl rfl hcancelled fun _ => rfl⟩

end Occurs

theorem used_of_occurs {f f' : Fleet} (h : f.Lodged) (hoccurs : Occurs f f') :
    Bus.Broker.Used f.broker f'.broker := by
  cases hoccurs with
  | started exchange instanceId node =>
      rcases exists_start h.ephemeral exchange instanceId node with
        ⟨b, g, new, hstart, _, hboards⟩
      rw [hstart]
      exact hboards.used
  | published parcel => exact used_publish _ parcel
  | ticked tick =>
      cases tick with
      | @move place n p r here hstep => exact used_step (r := ⟨f, n, p⟩) h.ephemeral hstep
      | turn here => exact .none
      | pass still later due => exact .none
  | waited ms => exact .none
  | cancelled name => exact .none

/-!
## Copies at the end of a stream
-/

/-- A copy waits in the stream of a pipeline that takes nothing any more. -/
structure Waits (f : Fleet) (place : Place) (source : ConsumerRef) (c : Copy) : Prop where
  pipeline : ∃ n p, f.At place n p ∧ n.cancelled = true ∧ p.state = .idle ∧ p.source = source
  held : ∃ k, f.broker.consumer? source = some k ∧ c ∈ k.buffer
  made : c.serial < f.broker.nextSerial

/-- The pipeline has stopped, and its queue does not hold the copy of that number. -/
structure Gone (f : Fleet) (place : Place) (source : ConsumerRef) (serial : Nat) : Prop where
  pipeline : ∃ n p, f.At place n p ∧ p.state = .stopped ∧ p.source = source
  absent : ∀ c, (source.queue, c) ∈ f.broker.stock → c.serial ≠ serial
  made : serial < f.broker.nextSerial

section Copies

variable {f f' : Fleet} {place : Place} {source : ConsumerRef}

theorem not_gone_of_waits {c : Copy} {serial : Nat} (h : f.Waits place source c) :
    ¬ f.Gone place source serial := by
  rintro ⟨⟨n', p', hat', hstopped, _⟩, _, _⟩
  rcases h.pipeline with ⟨n, p, hat, _, hidle, _⟩
  cases hat.left.symm.trans hat'.left
  cases hat.right.symm.trans hat'.right
  rw [hidle] at hstopped
  cases hstopped

/-- The next that the pipeline does is to leave. -/
theorem waits_of_occurs (h : f.Lodged) {c : Copy} (hwaits : f.Waits place source c)
    (hoccurs : Occurs f f') : f'.Waits place source c ∨
      f'.broker = f.broker.unsubscribe source ∧ f'.Gone place source c.serial := by
  rcases hwaits with ⟨⟨n, p, hat, hcancelled, hidle, rfl⟩, ⟨k, hk, hmem⟩, hmade⟩
  have hruns : p.isStopped = false := by rw [Pipeline.isStopped, hidle]
  rcases bides_of_occurs h hat hoccurs with ⟨r, hstep, rfl⟩ | ⟨n', p', hat', hbides⟩
  · right
    have hstop : r = stop ⟨f, n, p⟩ := by simpa [step?, hidle, hcancelled] using hstep.symm
    subst hstop
    refine ⟨rfl, ⟨_, _, at_put_self hat (frame_of_step hstep), rfl, rfl⟩, ?_, hmade⟩
    exact fun c hc =>
      absurd hc (h.ephemeral.not_mem_stock_unsubscribe (h.serves hat hruns) c)
  · left
    rcases hbides.buffer hruns with ⟨k', more, hk', hafter⟩
    cases hk.symm.trans hk'
    refine ⟨⟨n', p', hat', hbides.cancelled hcancelled, hbides.state.trans hidle, hbides.source⟩,
      ⟨_, hafter, List.mem_append_left _ hmem⟩, ?_⟩
    exact Nat.lt_of_lt_of_le hmade
      (Bus.Broker.nextSerial_le_of_used (used_of_occurs h hoccurs))

theorem gone_of_occurs (h : f.Lodged) {serial : Nat} (hgone : f.Gone place source serial)
    (hoccurs : Occurs f f') : f'.Gone place source serial := by
  rcases hgone with ⟨⟨n, p, hat, hstopped, rfl⟩, habsent, hmade⟩
  have hused := used_of_occurs h hoccurs
  rcases bides_of_occurs h hat hoccurs with ⟨r, hstep, rfl⟩ | ⟨n', p', hat', hbides⟩
  · simp [step?, hstopped] at hstep
  · refine ⟨⟨n', p', hat', hbides.state.trans hstopped, hbides.source⟩, ?_,
      Nat.lt_of_lt_of_le hmade (Bus.Broker.nextSerial_le_of_used hused)⟩
    intro c hc
    rcases Bus.Broker.old_or_new_of_used h.ephemeral hused hc with hold | hnew
    · exact habsent c hold
    · exact Nat.ne_of_gt (Nat.lt_of_lt_of_le hmade hnew)

theorem waits_or_gone_of_follows (h : f.Lodged) {c : Copy} (hwaits : f.Waits place source c)
    (hfollows : Follows f f') : f'.Waits place source c ∨ f'.Gone place source c.serial := by
  induction hfollows with
  | none => exact .inl hwaits
  | more follows occurs ih =>
      have hbefore := lodged_of_follows h follows
      rcases ih with hstill | hgone
      · exact (waits_of_occurs hbefore hstill occurs).imp_right And.right
      · exact .inr (gone_of_occurs hbefore hgone occurs)

end Copies

/-!
## Putting back
-/

theorem broker_settle_of_interrupted (r : Running) (c : Copy) (d : Bus.Delivery)
    (provider : Option String) (attempts : Nat) :
    (settle r c d (.failed provider .cancelled attempts)).fleet.broker =
      (Deed.settled (.nack true)).perform r.pipeline.source.queue c.parcel r.fleet.broker := by
  rw [broker_settle]
  rfl

/-- The pipeline was cancelled, and what it puts back comes to the end of its own stream. -/
structure Comes (f : Fleet) (n : Node) (p : Pipeline) (r : Running) (parcel : Parcel) : Prop where
  cancelled : n.cancelled = true
  idle : r.pipeline.state = .idle
  settled : r.fleet.broker.settled =
    f.broker.settled ++ [⟨p.source.queue, parcel.subject, .nack true⟩]
  numbered : r.fleet.broker.nextSerial = f.broker.nextSerial + 1
  joins : ∃ k, f.broker.consumer? p.source = some k ∧
    r.fleet.broker.consumer? p.source =
      some { k with buffer := k.buffer ++ [⟨f.broker.nextSerial, parcel⟩] }

section Interrupted

variable {f : Fleet} (h : f.Lodged) {place : Place} {n : Node} {p : Pipeline}
  (hat : f.At place n p) {r : Running} (hstep : step? ⟨f, n, p⟩ = some r) {c : Copy}
  {provider : Option String} {attempts : Nat}
  (hinterrupted : (c, .failed provider .cancelled attempts) ∈ concluded ⟨f, n, p⟩)
include h hat hstep hinterrupted

theorem comes_of_interrupted : Comes f n p r c.parcel := by
  rcases concluded_cases hinterrupted with ⟨inHand, hstate, rfl, hstage, hsettle⟩ | ⟨_, _, _, ho, _⟩
  case inr => cases ho
  have hstate : p.state = .handling inHand := hstate
  have hruns : p.isStopped = false := by rw [Pipeline.isStopped, hstate]
  have hr := Option.some.inj (hstep.symm.trans hsettle)
  rcases Bus.Broker.settle_of_serves h.ephemeral.isOpen (h.serves hat hruns)
    inHand.copy.parcel with ⟨b, k, hback, hk, hbuffer, hsettled, hnext⟩
  have hbroker : r.fleet.broker = b := by
    rw [hr, broker_settle_of_interrupted]
    simp only [Deed.perform, hback]
  constructor
  · refine h.interrupted hat hstate ?_
    rw [hstage]
    rfl
  · rw [hr]
    rfl
  · exact hbroker ▸ hsettled
  · exact hbroker ▸ hnext
  · exact ⟨k, hk, hbroker ▸ hbuffer⟩

theorem waits_of_interrupted :
    (r.put place).Waits place p.source ⟨f.broker.nextSerial, c.parcel⟩ := by
  have hcomes := comes_of_interrupted h hat hstep hinterrupted
  have hframe := frame_of_step hstep
  rcases hcomes.joins with ⟨k, _, hbuffer⟩
  refine ⟨⟨_, _, at_put_self hat hframe, hframe.cancelled.trans hcomes.cancelled, hcomes.idle,
    hframe.source⟩, ⟨_, hbuffer, List.mem_append_right _ List.mem_cons_self⟩, ?_⟩
  exact Nat.lt_of_lt_of_eq (Nat.lt_succ_self _) hcomes.numbered.symm

end Interrupted

/--
A parcel is put back by a move of the pipeline at a place, which was cancelled. It comes once more
to the end of the pipeline's stream and waits there, whatever happens, until the pipeline drops its
stream; from then on the queue does not hold it. Who is let in at the queue begins with nothing.
-/
structure PutBack (f : Fleet) (place : Place) (n : Node) (p : Pipeline) (r : Running)
    (parcel : Parcel) : Prop where
  comes : Comes f n p r parcel
  alone : r.fleet.broker.Serves p.operation.bindingPattern p.source
  stays : ∀ {g}, Follows (r.put place) g → g.Waits place p.source ⟨f.broker.nextSerial, parcel⟩ ∨
    g.Gone place p.source f.broker.nextSerial
  leaves : ∀ {g g'}, Follows (r.put place) g →
    g.Waits place p.source ⟨f.broker.nextSerial, parcel⟩ → Occurs g g' →
      g'.Gone place p.source f.broker.nextSerial → g'.broker = g.broker.unsubscribe p.source
  begins : ∀ {g s ref b}, Follows (r.put place) g → s.queue = p.source.queue →
    g.broker.subscribe s = .ok (ref, b) → ∃ k, b.consumer? ref = some k ∧ k.buffer = []

/-- What shutdown has put back waits for nobody but the pipeline that put it back. -/
theorem putBack_of_interrupted {f : Fleet} (harises : f.Arises) {place : Place} {n : Node}
    {p : Pipeline} (hat : f.At place n p) {r : Running} (hstep : step? ⟨f, n, p⟩ = some r)
    {c : Copy} {provider : Option String} {attempts : Nat}
    (hinterrupted : (c, .failed provider .cancelled attempts) ∈ concluded ⟨f, n, p⟩) :
    PutBack f place n p r c.parcel := by
  have hlodged := lodged_of_arises harises
  have hafter := lodged_move hlodged hat hstep
  have hcomes := comes_of_interrupted hlodged hat hstep hinterrupted
  have hframe := frame_of_step hstep
  constructor
  · exact hcomes
  · have hserves := hafter.serves (at_put_self hat hframe)
      (by rw [Pipeline.isStopped, hcomes.idle])
    rw [hframe.source, hframe.operation] at hserves
    exact hserves
  · have hwaits := waits_of_interrupted hlodged hat hstep hinterrupted
    exact fun {g} hfollows => waits_or_gone_of_follows hafter hwaits hfollows
  · intro g g' hfollows hstill hoccurs hgone
    rcases waits_of_occurs (lodged_of_follows hafter hfollows) hstill hoccurs with
      hwaits | ⟨hleft, _⟩
    · exact absurd hgone (not_gone_of_waits hwaits)
    · exact hleft
  · intro g s ref b hfollows _ hsubscribe
    exact (lodged_of_follows hafter hfollows).ephemeral.buffer_of_subscribe hsubscribe

/-!
## A shutdown
-/

/-- What is put back by shutdown is there for the next consumer, once all pipelines have stopped. -/
def SurvivesShutdown : Prop :=
  ∀ {f g : Fleet} {place : Place} {n : Node} {p : Pipeline} {r : Running} {c : Copy}
    {provider : Option String} {attempts : Nat}, f.Arises → f.At place n p →
    step? ⟨f, n, p⟩ = some r →
    (c, .failed provider .cancelled attempts) ∈ concluded ⟨f, n, p⟩ →
    Follows (r.put place) g → (∀ n ∈ g.nodes, n.isStopped = true) →
    (∃ c', (p.source.queue, c') ∈ g.broker.stock ∧ c'.parcel = c.parcel) ∧
      ∀ {s ref b}, s.queue = p.source.queue → g.broker.subscribe s = .ok (ref, b) →
        ∃ k, b.consumer? ref = some k ∧ ∃ c' ∈ k.buffer, c'.parcel = c.parcel

/-- A message waits to be sent again when its dispatcher is shut down, and it is interrupted. -/
def interruption : List FanOut.Event :=
  [.start "im_message.events" "n"
      { FanOut.plainNode "n" with adapters := [{ script := [.unavailable] }] },
    .publish ⟨plainDelivery.subject, plainDelivery.metadata, plainDelivery.payload⟩,
    .sleep 5, .shutdown "n" 0, .move ⟨0, 0⟩]

def departure : List FanOut.Event :=
  [.move ⟨0, 0⟩, .move ⟨0, 0⟩, .move ⟨0, 1⟩, .move ⟨0, 2⟩]

theorem arises_run (events : List FanOut.Event) : (FanOut.run events).Arises :=
  ⟨{}, FanOut.isNew_empty, FanOut.follows_run events⟩

theorem exists_interruption : ∃ n p r c provider attempts,
    (FanOut.run interruption).At ⟨0, 0⟩ n p ∧
      step? ⟨FanOut.run interruption, n, p⟩ = some r ∧
      (c, .failed provider .cancelled attempts) ∈ concluded ⟨FanOut.run interruption, n, p⟩ := by
  have hstate : ((FanOut.run interruption).nodes[0]?).any (fun n => n.pipelines[0]?.any fun p =>
      (concluded ⟨FanOut.run interruption, n, p⟩).any fun e =>
        e.2 = .failed (some "whatsapp") .cancelled 1) = true := by
    decide +kernel
  rcases (Option.any_eq_true _ _).mp hstate with ⟨n, hn, hstate⟩
  rcases (Option.any_eq_true _ _).mp hstate with ⟨p, hp, hstate⟩
  rcases List.any_eq_true.mp hstate with ⟨⟨c, o⟩, hmem, ho⟩
  cases of_decide_eq_true ho
  rcases exists_settle_of_concluded hmem with ⟨_, _, hstep⟩
  exact ⟨n, p, _, c, _, _, ⟨hn, hp⟩, hstep, hmem⟩

theorem putBack_interruption : ∃ n p r c provider attempts,
    (FanOut.run interruption).At ⟨0, 0⟩ n p ∧
      step? ⟨FanOut.run interruption, n, p⟩ = some r ∧
      (c, .failed provider .cancelled attempts) ∈ concluded ⟨FanOut.run interruption, n, p⟩ ∧
      PutBack (FanOut.run interruption) ⟨0, 0⟩ n p r c.parcel := by
  rcases exists_interruption with ⟨n, p, r, c, provider, attempts, hat, hstep, hmem⟩
  exact ⟨n, p, r, c, provider, attempts, hat, hstep, hmem,
    putBack_of_interrupted (arises_run interruption) hat hstep hmem⟩

theorem run_snoc_of_step {events : List FanOut.Event} {place : Place} {n : Node} {p : Pipeline}
    {r : Running} (hat : (FanOut.run events).At place n p)
    (hstep : step? ⟨FanOut.run events, n, p⟩ = some r) :
    FanOut.run (events ++ [.move place]) = r.put place := by
  rw [FanOut.run_snoc]
  simp only [FanOut.Event.apply, FanOut.moveAt, hat.left, hat.right, hstep]

/-- The stream goes, and with it what waits there. -/
theorem not_survivesShutdown : ¬ SurvivesShutdown := by
  intro h
  rcases exists_interruption with ⟨n, p, r, c, provider, attempts, hat, hstep, hmem⟩
  have hfollows : Follows (r.put ⟨0, 0⟩) (FanOut.run (interruption ++ departure)) := by
    rw [← run_snoc_of_step hat hstep]
    exact FanOut.follows_run_append (interruption ++ [.move ⟨0, 0⟩]) departure.tail
  have hafter : (∀ n ∈ (FanOut.run (interruption ++ departure)).nodes, n.isStopped = true) ∧
      (FanOut.run (interruption ++ departure)).broker.stock = [] := by
    decide +kernel
  rcases hafter with ⟨hstopped, hempty⟩
  rcases (h (arises_run _) hat hstep hmem hfollows hstopped).left with ⟨c', hheld, _⟩
  rw [hempty] at hheld
  cases hheld

end Fleet
end Dispatch
end Courier
