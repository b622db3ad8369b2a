import Courier.Proofs.Dispatch.Shutdowns

/-!
# The ticks of a fleet

While time passes pipelines make moves, one at a time, and the clock goes on when none can move,
no further than to the next time that one of them waits for. All that the schedule does comes to
such ticks: `ticks_sleep` and `ticks_shutdown`. So what each tick keeps is kept all the time.
-/

namespace Courier
namespace Dispatch

open Bus (Broker Copy)

namespace Fleet

/-- The delivery that a pipeline settles by its next move, with the outcome that it settles by. -/
def concluded (r : Running) : List (Copy × Outcome) :=
  match r.pipeline.state with
  | .stopped => []
  | .idle =>
    if r.node.cancelled then []
    else
      match r.fleet.broker.take r.pipeline.source with
      | (.copy c, _) =>
        match jobOf r.node.registry r.fleet.clock r.pipeline.operation
            (Bus.Delivery.ofParcel r.fleet.freshId c.parcel) with
        | .error why => [(c, .skipped why)]
        | .ok _ => []
      | _ => []
  | .handling h =>
    match h.stage with
    | .finished o => [(h.copy, o)]
    | _ => []

theorem concluded_cases {r : Running} {c : Copy} {o : Outcome} (h : (c, o) ∈ concluded r) :
    (∃ inHand, r.pipeline.state = .handling inHand ∧ inHand.copy = c ∧
        inHand.stage = .finished o ∧ step? r = some (settle r c inHand.delivery o)) ∨
      ∃ b why, r.pipeline.state = .idle ∧ o = .skipped why ∧
        step? r = some (settle { r with fleet := { r.fleet with broker := b } } c
          (.ofParcel r.fleet.freshId c.parcel) o) := by
  unfold concluded at h
  cases hstate : r.pipeline.state with
  | stopped => simp [hstate] at h
  | idle =>
      right
      simp only [hstate] at h
      split at h
      · cases h
      · next hlive =>
          rcases htake : r.fleet.broker.take r.pipeline.source with ⟨taken, b⟩
          rw [htake] at h
          cases taken with
          | nothing => cases h
          | closed => cases h
          | copy c' =>
              cases hjob : jobOf r.node.registry r.fleet.clock r.pipeline.operation
                  (.ofParcel r.fleet.freshId c'.parcel) with
              | ok job => simp [hjob] at h
              | error why =>
                  simp only [hjob] at h
                  cases List.mem_singleton.mp h
                  exact ⟨b, why, rfl, rfl, by simp only [step?, hstate, hlive, htake, begin, hjob,
                    Bool.false_eq_true, if_false]⟩
  | handling inHand =>
      left
      simp only [hstate] at h
      split at h
      · next o hstage =>
          cases List.mem_singleton.mp h
          exact ⟨inHand, rfl, rfl, hstage, by simp only [step?, hstate, hstage]⟩
      · cases h

theorem exists_settle_of_concluded {f : Fleet} {n : Node} {p : Pipeline} {c : Copy} {o : Outcome}
    (h : (c, o) ∈ concluded ⟨f, n, p⟩) : ∃ b d,
      step? ⟨f, n, p⟩ = some (settle ⟨{ f with broker := b }, n, p⟩ c d o) := by
  rcases concluded_cases h with ⟨inHand, _, _, _, hstep⟩ | ⟨b, _, _, _, hstep⟩
  · exact ⟨f.broker, inHand.delivery, hstep⟩
  · exact ⟨b, _, hstep⟩

/-- What can happen next, with the deliveries that are settled by it. -/
inductive Tick (f : Fleet) : List (Copy × Outcome) → Fleet → Prop where
  | move {place : Place} {n : Node} {p : Pipeline} {r : Running} (here : f.At place n p)
      (step : step? ⟨f, n, p⟩ = some r) : Tick f (concluded ⟨f, n, p⟩) (r.put place)
  /-- A pipeline whose turn is over is put behind the others. -/
  | turn {place : Place} {n : Node} {p : Pipeline} (here : f.At place n p) :
      Tick f [] (Running.put ⟨{ f with turn := f.turn + 1 }, n, { p with turn := f.turn }⟩ place)
  | pass {time : Nat} (still : f.Still) (later : f.now ≤ time)
      (due : ∀ {place n p t}, f.At place n p → f.readyTime n p = some t → time ≤ t) :
      Tick f [] { f with now := time }

inductive Ticks (f : Fleet) : List (Copy × Outcome) → Fleet → Prop where
  | none : Ticks f [] f
  | more {f' f'' : Fleet} {log further : List (Copy × Outcome)} (ticks : Ticks f log f')
      (tick : Tick f' further f'') : Ticks f (log ++ further) f''

theorem Tick.ticks {f f' : Fleet} {log : List (Copy × Outcome)} (h : Tick f log f') :
    Ticks f log f' :=
  .more .none h

theorem Ticks.trans {f f' f'' : Fleet} {log more : List (Copy × Outcome)} (h : Ticks f log f')
    (h' : Ticks f' more f'') : Ticks f (log ++ more) f'' := by
  induction h' with
  | none =>
      rw [List.append_nil]
      exact h
  | more _ tick ih =>
      rw [← List.append_assoc]
      exact .more ih tick

/-!
## What is at a place after a move
-/

theorem frame_of_step {r r' : Running} (h : step? r = some r') : Frame r r' := by
  rcases exists_done_step h with ⟨counted, state, rfl⟩
  exact ⟨rfl, rfl, rfl, rfl, rfl, rfl⟩

theorem frame_turn (f : Fleet) (n : Node) (p : Pipeline) :
    Frame ⟨f, n, p⟩ ⟨{ f with turn := f.turn + 1 }, n, { p with turn := f.turn }⟩ :=
  ⟨rfl, rfl, rfl, rfl, rfl, rfl⟩

section Put

variable {f : Fleet} {place place' : Place} {n n' : Node} {p p' : Pipeline} {r : Running}

theorem at_put_self (h : f.At place n p) (hframe : Frame ⟨f, n, p⟩ r) :
    (r.put place).At place (r.seat place) r.pipeline := by
  have hseated := h.seated.left.of_frame hframe
  exact ⟨List.getElem?_set_self hseated.node, List.getElem?_set_self hseated.pipeline⟩

theorem exists_at_put_of_ne (hframe : Frame ⟨f, n, p⟩ r) (h' : f.At place' n' p')
    (hne : place' ≠ place) (h : f.At place n p) :
    ∃ n₁, (r.put place).At place' n₁ p' ∧ (n₁ = n' ∨ n' = n ∧ n₁ = r.seat place) := by
  rcases h with ⟨hn, hp⟩
  rcases h' with ⟨hn', hp'⟩
  simp only [Running.put, At, hframe.nodes, List.getElem?_set]
  by_cases hnode : place.node = place'.node
  · have hpipeline : place.pipeline ≠ place'.pipeline :=
      fun heq => hne (place_ext hnode heq).symm
    rw [← hnode] at hn'
    cases hn.symm.trans hn'
    rcases List.getElem?_eq_some_iff.mp hn with ⟨hlength, _⟩
    refine ⟨r.seat place, ⟨?_, ?_⟩, .inr ⟨rfl, rfl⟩⟩
    · rw [if_pos hnode, if_pos hlength]
      rfl
    · simp only [Running.seat, hframe.pipelines]
      rw [List.getElem?_set_ne hpipeline]
      exact hp'
  · rw [if_neg hnode]
    exact ⟨n', ⟨hn', hp'⟩, .inl rfl⟩

theorem at_put_of_ne (hframe : Frame ⟨f, n, p⟩ r) (h' : f.At place' n' p')
    (hne : place' ≠ place) (h : f.At place n p) :
    ∃ n₁, (r.put place).At place' n₁ p' ∧ n₁.cancelled = n'.cancelled := by
  rcases exists_at_put_of_ne hframe h' hne h with ⟨n₁, hat, rfl | ⟨rfl, rfl⟩⟩
  · exact ⟨n₁, hat, rfl⟩
  · exact ⟨r.seat place, hat, hframe.cancelled⟩

theorem cases_at_put (h : f.At place n p) (hframe : Frame ⟨f, n, p⟩ r)
    (h' : (r.put place).At place' n' p') :
    (place' = place ∧ n' = r.seat place ∧ p' = r.pipeline) ∨
      (place' ≠ place ∧ ∃ n₀, f.At place' n₀ p' ∧ n'.cancelled = n₀.cancelled) := by
  have hself := at_put_self h hframe
  by_cases hplace : place' = place
  · subst hplace
    left
    cases hself.left.symm.trans h'.left
    exact ⟨rfl, rfl, Option.some.inj (h'.right.symm.trans hself.right)⟩
  · right
    refine ⟨hplace, ?_⟩
    rcases h' with ⟨hn', hp'⟩
    simp only [Running.put, hframe.nodes, List.getElem?_set] at hn'
    by_cases hnode : place.node = place'.node
    · have hpipeline : place.pipeline ≠ place'.pipeline :=
        fun heq => hplace (place_ext hnode heq).symm
      rcases List.getElem?_eq_some_iff.mp h.left with ⟨hlength, _⟩
      rw [if_pos hnode, if_pos hlength] at hn'
      cases hn'
      simp only [hframe.pipelines, List.getElem?_set_ne hpipeline] at hp'
      exact ⟨n, ⟨hnode ▸ h.left, hp'⟩, hframe.cancelled⟩
    · rw [if_neg hnode] at hn'
      exact ⟨n', ⟨hn', hp'⟩, rfl⟩

end Put

/-!
## Turns of the schedule
-/

/-- A running pipeline with other pipelines about it. -/
def Running.among (r : Running) (nodes : List Node) (pipelines : List Pipeline) : Running :=
  { r with
    fleet := { r.fleet with nodes := nodes }
    node := { r.node with pipelines := pipelines } }

theorem settle_among (r : Running) (nodes : List Node) (pipelines : List Pipeline) (c : Copy)
    (d : Bus.Delivery) (o : Outcome) :
    settle (r.among nodes pipelines) c d o = (settle r c d o).among nodes pipelines := by
  simp only [settle, sendLetter, Running.among]
  cases o.deadLetter? r.pipeline.operation r.fleet.timeText d with
  | none => rfl
  | some letter => cases r.node.sink <;> rfl

theorem begin_among (r : Running) (nodes : List Node) (pipelines : List Pipeline) (c : Copy) :
    begin (r.among nodes pipelines) c = (begin r c).among nodes pipelines := by
  have hsettle := settle_among r nodes pipelines c
  simp only [begin, Running.among] at hsettle ⊢
  split
  · exact hsettle _ _
  · rfl

theorem step?_among (r : Running) (nodes : List Node) (pipelines : List Pipeline) :
    step? (r.among nodes pipelines) = (step? r).map fun r' => r'.among nodes pipelines := by
  have hpipeline : (r.among nodes pipelines).pipeline = r.pipeline := rfl
  have hcancelled : (r.among nodes pipelines).node.cancelled = r.node.cancelled := rfl
  have hbroker : (r.among nodes pipelines).fleet.broker = r.fleet.broker := rfl
  simp only [step?, hpipeline, hcancelled, hbroker]
  cases r.pipeline.state with
  | stopped => rfl
  | idle =>
      simp only
      split
      · rfl
      · rcases r.fleet.broker.take r.pipeline.source with ⟨taken, b⟩
        cases taken with
        | copy c =>
            exact congrArg some
              (begin_among { r with fleet := { r.fleet with broker := b } } nodes pipelines c)
        | closed => rfl
        | nothing => rfl
  | handling h =>
      simp only
      split
      · exact congrArg some (settle_among r nodes pipelines h.copy h.delivery _)
      · rw [Option.map_map]
        rfl

section Schedule

variable {place : Place}

theorem at_put {r : Running} (h : r.Seated place) :
    (r.put place).At place (r.seat place) r.pipeline :=
  ⟨List.getElem?_set_self h.node, List.getElem?_set_self h.pipeline⟩

theorem put_among {r : Running} (nodes : List Node) (pipelines : List Pipeline) {m : Node}
    {p : Pipeline} (hnodes : nodes = r.fleet.nodes.set place.node m)
    (hpipelines : pipelines = r.node.pipelines.set place.pipeline p) :
    (r.among nodes pipelines).put place = r.put place := by
  simp only [Running.put, Running.among, hnodes, hpipelines, List.set_set]

theorem tick_step {r r' : Running} (hseated : r.Seated place) (hstep : step? r = some r') :
    ∃ log, Tick (r.put place) log (r'.put place) := by
  have hframe := frame_of_step hstep
  have hmove : step? ⟨r.put place, r.seat place, r.pipeline⟩ =
      some (r'.among (r.put place).nodes (r.seat place).pipelines) := by
    have hamong := step?_among r (r.put place).nodes (r.seat place).pipelines
    rw [hstep] at hamong
    exact hamong
  have htick := Tick.move (at_put hseated) hmove
  have hsame : (r'.among (r.put place).nodes (r.seat place).pipelines).put place =
      r'.put place := by
    refine put_among _ _ (m := r.seat place) (p := r.pipeline) ?_ ?_
    · rw [hframe.nodes]
      rfl
    · rw [hframe.pipelines]
      rfl
  rw [hsame] at htick
  exact ⟨_, htick⟩

theorem ticks_moves (fuel : Nat) {r : Running} (hseated : r.Seated place) :
    (moves fuel r).Seated place ∧ ∃ log, Ticks (r.put place) log ((moves fuel r).put place) := by
  induction fuel generalizing r with
  | zero => exact ⟨hseated, [], .none⟩
  | succ fuel ih =>
      unfold moves
      cases hstep : step? r with
      | none => exact ⟨hseated, [], .none⟩
      | some r' =>
          rcases ih (hseated.of_frame (frame_of_step hstep)) with ⟨hseated', more, hmore⟩
          rcases tick_step hseated hstep with ⟨log, hfirst⟩
          exact ⟨hseated', log ++ more, hfirst.ticks.trans hmore⟩

theorem ticks_poll {r : Running} (hseated : r.Seated place) :
    ∃ log, Ticks (r.put place) log ((poll r).put place) := by
  rcases ticks_moves (moveBound r) hseated with ⟨hseated', log, hmoves⟩
  have hturn := Tick.turn (at_put hseated')
  have hsame : Running.put
      ⟨{ (moves (moveBound r) r).put place with
          turn := ((moves (moveBound r) r).put place).turn + 1 },
        (moves (moveBound r) r).seat place,
        { (moves (moveBound r) r).pipeline with
          turn := ((moves (moveBound r) r).put place).turn }⟩ place =
      (poll r).put place := by
    simp only [Running.put, Running.seat, poll, List.set_set]
  rw [hsame] at hturn
  exact ⟨_, .more hmoves hturn⟩

theorem held_poll (r : Running) : (poll r).fleet.held = r.fleet.held := by
  rcases exists_done_moves (moveBound r) r with ⟨counted, state, hmoves⟩
  unfold poll
  simp only [hmoves]
  rfl

variable {f : Fleet}

theorem ticks_pollAt (hheld : f.held = true) {n : Node} {p : Pipeline} (h : f.At place n p) :
    (f.pollAt place n p).held = true ∧ ∃ log, Ticks f log (f.pollAt place n p) := by
  rcases h.seated with ⟨hseated, hput⟩
  rcases ticks_poll hseated with ⟨log, hticks⟩
  have hheld' : ((poll ⟨f, n, p⟩).put place).held = true := (held_poll ⟨f, n, p⟩).trans hheld
  have hsame : f.pollAt place n p = (poll ⟨f, n, p⟩).put place := closeIfDropped_of_held hheld'
  rw [hsame]
  rw [hput] at hticks
  exact ⟨hheld', log, hticks⟩

theorem ticks_runReady (fuel : Nat) {f : Fleet} (hheld : f.held = true) :
    (runReady fuel f).held = true ∧ ∃ log, Ticks f log (runReady fuel f) := by
  induction fuel generalizing f with
  | zero => exact ⟨hheld, [], .none⟩
  | succ fuel ih =>
      unfold runReady
      cases hnext : f.next? with
      | none => exact ⟨hheld, [], .none⟩
      | some x =>
          rcases x with ⟨place, n, p⟩
          rcases ticks_pollAt hheld (at_of_next? hnext) with ⟨hheld', log, hfirst⟩
          rcases ih hheld' with ⟨hheld'', more, hmore⟩
          exact ⟨hheld'', log ++ more, hfirst.trans hmore⟩

end Schedule

/-!
## Time
-/

structure Quiet (f : Fleet) (time : Nat) : Prop where
  still : f.Still
  now : f.now ≤ time
  due : ∀ {place n p t}, f.At place n p → f.readyTime n p = some t → time ≤ t

theorem Quiet.tick {f : Fleet} {time : Nat} (h : f.Quiet time) :
    Tick f [] { f with now := time } :=
  .pass h.still h.now h.due

theorem quiet_nextTime {f : Fleet} (hstill : f.Still) {t : Nat} (h : f.nextTime = some t) :
    f.now < t ∧ f.Quiet t := by
  rcases List.min?_eq_some_iff.mp h with ⟨hmem, hleast⟩
  rcases List.mem_filterMap.mp hmem with ⟨⟨place, n, p⟩, hplace, hready⟩
  have hlater : f.now < t := by
    apply Nat.lt_of_not_le
    intro hle
    apply hstill (at_of_mem_places hplace)
    simp only at hready
    rw [Ready, hready]
    exact decide_eq_true hle
  exact ⟨hlater, hstill, Nat.le_of_lt hlater, fun hat hsome => hleast _ (mem_times_of_at hat hsome)⟩

theorem Quiet.mono {f : Fleet} {time earlier : Nat} (h : f.Quiet time) (hnow : f.now ≤ earlier)
    (hle : earlier ≤ time) : f.Quiet earlier :=
  ⟨h.still, hnow, fun hat hready => Nat.le_trans hle (h.due hat hready)⟩

theorem quiet_of_nextTime_none {f : Fleet} (hstill : f.Still) (h : f.nextTime = none)
    {time : Nat} (hnow : f.now ≤ time) : f.Quiet time := by
  refine ⟨hstill, hnow, ?_⟩
  intro place n p t hat hready
  rcases exists_nextTime hstill hat hready with ⟨next, hnext, _⟩
  rw [h] at hnext
  cases hnext

/-- Running until a time: it is stopped early, or nothing goes on before the time any more. -/
theorem ticks_runUntil (stop : Fleet → Bool) (time fuel : Nat) {f : Fleet}
    (hheld : f.held = true) (hfit : f.Fit) (hnow : f.now ≤ time) (hfuel : time - f.now < fuel) :
    ∃ log f', Ticks f log f' ∧
      (runUntil stop time fuel f = (true, f') ∧ stop f' = true ∨
        runUntil stop time fuel f = (false, { f' with now := time }) ∧ f'.Quiet time) := by
  induction fuel generalizing f with
  | zero => exact absurd hfuel (Nat.not_lt_zero _)
  | succ fuel ih =>
      have hpart : f.runNow.held = true ∧ ∃ log, Ticks f log f.runNow :=
        ticks_runReady f.turnBound hheld
      have hsame : f.runNow.now = f.now := (turns_runReady 0 f.turnBound f).right.left
      rcases still_runNow hfit with ⟨hfit', hstill⟩
      unfold runUntil
      simp only
      generalize f.runNow = f₁ at hpart hsame hfit' hstill ⊢
      rcases hpart with ⟨hheld', log, hticks⟩
      rw [← hsame] at hnow hfuel
      cases hstop : stop f₁ with
      | true => exact ⟨log, f₁, hticks, .inl ⟨by rw [if_pos rfl], hstop⟩⟩
      | false =>
          rw [if_neg Bool.false_ne_true]
          cases hnext : f₁.nextTime with
          | none => exact ⟨log, f₁, hticks, .inr ⟨rfl, quiet_of_nextTime_none hstill hnext hnow⟩⟩
          | some t =>
              rcases quiet_nextTime hstill hnext with ⟨hlater, hquiet⟩
              simp only
              by_cases hbefore : t < time
              · rw [if_pos hbefore, Nat.max_eq_right (Nat.le_of_lt hlater)]
                rcases ih (f := { f₁ with now := t }) hheld' (fit_now hfit' t)
                  (Nat.le_of_lt hbefore) (by simp only; omega) with ⟨more, f', hmore, hresult⟩
                exact ⟨_, f', (Ticks.more hticks hquiet.tick).trans hmore, hresult⟩
              · rw [if_neg hbefore]
                exact ⟨log, f₁, hticks, .inr ⟨rfl, hquiet.mono hnow (Nat.le_of_not_lt hbefore)⟩⟩

theorem exists_quiet_sleep {f : Fleet} (hheld : f.held = true) (hfit : f.Fit) {ms : Nat}
    (hms : 0 < ms) : ∃ log f', Ticks f log f' ∧ f'.Quiet (f.now + ms) ∧
      f.sleep ms = { f' with now := f.now + ms } := by
  have hsleep : f.sleep ms = (runUntil (fun _ => false) (f.now + ms) (ms + 1) f).2 := by
    unfold sleep
    rw [if_neg (Nat.ne_of_gt hms)]
    rfl
  rcases ticks_runUntil (fun _ => false) (f.now + ms) (ms + 1) hheld hfit
    (Nat.le_add_right _ _) (by omega) with ⟨log, f', hticks, ⟨_, hstop⟩ | ⟨hresult, hquiet⟩⟩
  · cases hstop
  · refine ⟨log, f', hticks, hquiet, ?_⟩
    rw [hsleep, hresult]

theorem ticks_sleep {f : Fleet} (hheld : f.held = true) (hfit : f.Fit) (ms : Nat) :
    ∃ log, Ticks f log (f.sleep ms) := by
  rcases Nat.eq_zero_or_pos ms with rfl | hms
  · exact ⟨[], .none⟩
  · rcases exists_quiet_sleep hheld hfit hms with ⟨log, f', hticks, hquiet, hsleep⟩
    rw [hsleep]
    exact ⟨_, .more hticks hquiet.tick⟩

/-- From the cancellation on, shutting down is nothing but waiting. -/
theorem ticks_shutdown {f : Fleet} (hheld : f.held = true) (hfit : f.Fit) (name : String)
    (grace : Nat) : ∃ log, Ticks (f.cancel name) log (f.shutdown name grace).2 := by
  rw [shutdown_eq]
  split
  · exact ⟨[], .none⟩
  · split
    · exact ⟨[], .none⟩
    · rcases ticks_runUntil (hasStopped name) ((f.cancel name).now + grace) (grace + 1)
        (f := f.cancel name) hheld (fit_cancel hfit name) (Nat.le_add_right _ _) (by omega) with
        ⟨log, f', hticks, ⟨hresult, _⟩ | ⟨hresult, hquiet⟩⟩
      · refine ⟨log, ?_⟩
        rw [passTime, hresult]
        exact hticks
      · refine ⟨log ++ [], ?_⟩
        rw [passTime, hresult]
        exact .more hticks hquiet.tick

end Fleet
end Dispatch
end Courier
