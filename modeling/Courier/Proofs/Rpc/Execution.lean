import Courier.Proofs.Rpc.Attempts

/-!
# Calls made alone

A call that nothing else goes on beside runs through a course of attempts. Each of
them takes a few moves and waits, so that the bound of the run is never reached.

The main statement is that every such call returns, with a log whose marks are all
that the call does to the breakers, the lookups and the endpoints.
-/

namespace Courier
namespace Rpc

namespace Call

variable {α δ : Type} {rules : CallRules} {resolve : Resolve δ}
  {plan : Nat → Endpoint → Reply α} {now : Nat} {w w' : Shared δ} {c c' : Call α}

/-!
## Waits
-/

theorem exists_trace_of_wait {k t later : Nat} {marks : List (Nat × Mark α)}
    (wake : wakeTime rules c = some t) (hle : now ≤ t)
    (still : now < t → step? rules resolve plan now w c = none)
    (rest : Trace rules resolve plan k t w c marks later w' c') :
    ∃ k', k' ≤ k + 1 ∧ Trace rules resolve plan k' now w c marks later w' c' := by
  by_cases hlater : now < t
  · rw [← Nat.max_eq_right hle] at rest
    exact ⟨k + 1, Nat.le_refl _, .wait (still hlater) wake rest⟩
  · have heq : now = t := Nat.le_antisymm hle (Nat.le_of_not_lt hlater)
    subst heq
    exact ⟨k, Nat.le_succ k, rest⟩

theorem exists_trace_of_looking {k later : Nat} {marks : List (Nat × Mark α)} {permit : Permit}
    {lookup : Lookup} (stage : c.stage = .looking permit now lookup)
    (rest : Trace rules resolve plan k (now + lookup.after) w c marks later w' c') :
    ∃ k', k' ≤ k + 1 ∧ Trace rules resolve plan k' now w c marks later w' c' := by
  refine exists_trace_of_wait ?_ (Nat.le_add_right now lookup.after) ?_ rest
  · simp only [wakeTime, stage]
  · intro hlater
    simp only [step?, stage, if_neg (Nat.not_le_of_lt hlater)]

theorem exists_trace_of_pausing {k resumeAt later : Nat} {marks : List (Nat × Mark α)}
    (stage : c.stage = .pausing resumeAt) (hle : now ≤ resumeAt)
    (rest : Trace rules resolve plan k resumeAt w c marks later w' c') :
    ∃ k', k' ≤ k + 1 ∧ Trace rules resolve plan k' now w c marks later w' c' := by
  refine exists_trace_of_wait ?_ hle ?_ rest
  · simp only [wakeTime, stage]
  · intro hlater
    simp only [step?, stage, if_neg (Nat.not_le_of_lt hlater)]

theorem answerBy_of_lt {timeout since : Nat} {reply : Reply α}
    (h : now < answerTime timeout since reply) : answerBy timeout since now reply = none := by
  unfold answerTime at h
  unfold answerBy
  cases hafter : reply.after with
  | none =>
      rw [hafter] at h
      simp only [Option.map_none, Option.getD_none] at h
      simp [Nat.not_le_of_lt h]
  | some d =>
      rw [hafter] at h
      simp only [Option.map_some, Option.getD_some] at h
      have hreply : ¬ since + d ≤ now := by omega
      have htimeout : ¬ since + timeout ≤ now := by omega
      simp [hreply, htimeout]

theorem answerBy_answerTime (timeout since : Nat) (reply : Reply α) :
    answerBy timeout since (answerTime timeout since reply) reply =
      some (reply.within timeout) := by
  unfold answerBy answerTime Reply.within
  cases reply.after with
  | none => simp
  | some d =>
      by_cases hd : d ≤ timeout
      · simp [hd]
      · have hmin : min d timeout = timeout := Nat.min_eq_right (Nat.le_of_not_le hd)
        simp [hd, hmin]

theorem exists_trace_of_calling {k later : Nat} {marks : List (Nat × Mark α)} {permit : Permit}
    {reply : Reply α} (stage : c.stage = .calling permit now reply)
    (rest : Trace rules resolve plan k (answerTime rules.timeout now reply) w c marks later w' c') :
    ∃ k', k' ≤ k + 1 ∧ Trace rules resolve plan k' now w c marks later w' c' := by
  have hle : now ≤ answerTime rules.timeout now reply := Nat.le_add_right now _
  refine exists_trace_of_wait ?_ hle ?_ rest
  · simp only [wakeTime, stage]
  · intro hlater
    simp only [step?, stage, answerBy_of_lt hlater, Option.map_none]

/-!
## One attempt
-/

/-- What a call has come to after an attempt that began with it as it was at a time. -/
inductive Attempted (rules : CallRules) (plan : Nat → Endpoint → Reply α) (now : Nat)
    (c : Call α) : Attempt α → Call α → Prop where
  | refused :
      Attempted rules plan now c (.refused now)
        { c with
          attempts := c.attempts + 1
          stage := .finished (.error (.breakerOpen rules.service)) }
  | unlocated {permit : Permit} {lookup : Lookup} {e : DiscoveryError}
      (found : endpointOf rules.service lookup.found = .error e) :
      Attempted rules plan now c (.unlocated now permit lookup)
        { c with attempts := c.attempts + 1, stage := .finished (.error (.discovery e)) }
  | called {a : Attempt α} {outcome : Except CallError α} {endpoint : Endpoint}
      (calls : a.Calls rules plan c.tried.length now outcome)
      (endpoint_eq : a.endpoint? = some endpoint) :
      Attempted rules plan now c a
        { c with
          attempts := c.attempts + 1
          tried := endpoint :: c.tried
          stage := stageAfter rules (a.ended rules.timeout) (c.attempts + 1) outcome }

variable (rules resolve plan)

theorem exists_trace_settled (w : Shared δ) (c : Call α) {permit : Permit} {reply : Reply α}
    (stage : c.stage = .calling permit now reply) :
    ∃ k w', k ≤ 2 ∧
      Trace rules resolve plan k now w c
        [(answerTime rules.timeout now reply,
          .settled permit (.ofOutcome (reply.within rules.timeout)))]
        (answerTime rules.timeout now reply) w'
        { c with
          stage := stageAfter rules (answerTime rules.timeout now reply) c.attempts
            (reply.within rules.timeout) } := by
  have hmove : Move rules resolve plan (answerTime rules.timeout now reply) w c _ _ _ :=
    .settled stage (answerBy_answerTime rules.timeout now reply)
  rcases exists_trace_of_calling stage (.move hmove .done) with ⟨k, hk, htrace⟩
  exact ⟨k, _, hk, htrace⟩

theorem exists_attempt_of_looking (now : Nat) (w : Shared δ) (c : Call α) {permit : Permit}
    {lookup : Lookup} :
    ∃ a k w' c' marks, k ≤ 4 ∧ Attempted rules plan now c a c' ∧
      a.marks rules.timeout = (now, .admitted permit lookup) :: marks ∧
      Trace rules resolve plan k now w
        { c with attempts := c.attempts + 1, stage := .looking permit now lookup } marks
        (a.ended rules.timeout) w' c' := by
  generalize hbegun : ({ c with
    attempts := c.attempts + 1, stage := .looking permit now lookup } : Call α) = begun
  have stage : begun.stage = .looking permit now lookup := by rw [← hbegun]
  cases hfound : endpointOf rules.service lookup.found with
  | error e =>
      have hmove : Move rules resolve plan (now + lookup.after) w begun _ _ _ :=
        .unlocated stage (Nat.le_refl _) hfound
      rcases exists_trace_of_looking stage (.move hmove .done) with ⟨k, hk, htrace⟩
      subst hbegun
      exact ⟨_, k, _, _, _, by omega, .unlocated hfound, rfl, htrace⟩
  | ok endpoint =>
      have hmove : Move rules resolve plan (now + lookup.after) w begun _ _ _ :=
        .called stage (Nat.le_refl _) hfound
      rcases exists_trace_settled rules resolve plan w
        { begun with
          tried := endpoint :: begun.tried
          stage := .calling permit (now + lookup.after) (plan begun.tried.length endpoint) }
        rfl with ⟨k, w', hk, hsettled⟩
      rcases exists_trace_of_looking stage (.move hmove hsettled) with ⟨k', hk', htrace⟩
      subst hbegun
      exact ⟨_, k', w', _, _, by omega, .called (.mk hfound rfl) rfl, rfl, htrace⟩

theorem exists_attempt (now : Nat) (w : Shared δ) (c : Call α) (stage : c.stage = .ready) :
    ∃ a k w' c', k ≤ 5 ∧ Attempted rules plan now c a c' ∧
      Trace rules resolve plan k now w c (a.marks rules.timeout) (a.ended rules.timeout) w' c' := by
  cases hask : w.breakers.acquire now rules.service with
  | mk permit b =>
      cases permit with
      | none =>
          exact ⟨_, 1, _, _, by decide, .refused, .move (.refused stage hask) .done⟩
      | some permit =>
          cases hlook : resolve w.lookups rules.service with
          | mk lookup lookups =>
              have hmove : Move rules resolve plan now w c _ _ _ :=
                .admitted stage hask hlook
              rcases exists_attempt_of_looking rules resolve plan now ⟨b, lookups⟩ c with
                ⟨a, k, w', c', marks, hk, hattempted, hmarks, htrace⟩
              refine ⟨a, k + 1, w', c', by omega, hattempted, ?_⟩
              rw [hmarks]
              exact .move hmove htrace

/-!
## All attempts
-/

variable {rules resolve plan}

theorem attempts_of_attempted {a : Attempt α} (h : Attempted rules plan now c a c') :
    c'.attempts = c.attempts + 1 := by
  cases h with
  | refused => rfl
  | unlocated found => rfl
  | called calls endpoint_eq => rfl

theorem tried_of_attempted {a : Attempt α} (h : Attempted rules plan now c a c') :
    c'.tried = (Log.endpoints [a]).reverse ++ c.tried := by
  cases h with
  | refused => rfl
  | unlocated found => rfl
  | called calls endpoint_eq =>
      rw [Log.endpoints, List.filterMap_cons_some endpoint_eq]
      rfl

theorem attempted_cases {a : Attempt α} (h : Attempted rules plan now c a c')
    (htried : c.tried.length = c.attempts) (hmore : c.attempts < rules.retry.attempts) :
    (∃ result, c'.stage = .finished result ∧ Course rules plan c.attempts now [a] result) ∨
      ∃ causes, a.Calls rules plan c.attempts now (.error (.transient causes)) ∧
        c.attempts + 1 < rules.retry.attempts ∧
        c'.stage = .pausing (a.ended rules.timeout +
          (rules.retry.backoff (c.attempts + 1)
            (rules.draw (c.attempts + 1))).ceilMilliseconds) := by
  cases h with
  | refused => exact Or.inl ⟨_, rfl, .refused⟩
  | unlocated found => exact Or.inl ⟨_, rfl, .unlocated found⟩
  | @called a outcome endpoint calls _ =>
      rw [htried] at calls
      cases outcome with
      | ok value => exact Or.inl ⟨_, rfl, .answered calls (.ok value)⟩
      | error e =>
          cases e with
          | application status message =>
              exact Or.inl ⟨_, rfl, .answered calls (.application status message)⟩
          | transient causes =>
              by_cases hlast : rules.retry.attempts ≤ c.attempts + 1
              · refine Or.inl ⟨_, if_pos hlast, .exhausted calls ?_⟩
                exact Nat.le_antisymm hmore hlast
              · exact Or.inr ⟨causes, calls, Nat.lt_of_not_le hlast, if_neg hlast⟩

/-- How a call that is ready at a time returns, and after how many moves and waits. -/
structure Returns (rules : CallRules) (resolve : Resolve δ) (plan : Nat → Endpoint → Reply α)
    (now : Nat) (w : Shared δ) (c : Call α) (k : Nat) (log : List (Attempt α))
    (result : Except Error α) (later : Nat) (w' : Shared δ) (c' : Call α) : Prop where
  course : Course rules plan c.attempts now log result
  trace : Trace rules resolve plan k now w c (Log.marks rules.timeout log) later w' c'
  stage : c'.stage = .finished result
  attempts : c'.attempts = c.attempts + log.length
  tried : c'.tried = (Log.endpoints log).reverse ++ c.tried

theorem Returns.again {a : Attempt α} {causes : Causes} {k k' resumeAt later : Nat}
    {w₁ : Shared δ} {c₁ : Call α} {log : List (Attempt α)} {result : Except Error α}
    (attempted : Attempted rules plan now c a c₁)
    (first : Trace rules resolve plan k now w c (a.marks rules.timeout) (a.ended rules.timeout)
      w₁ c₁)
    (calls : a.Calls rules plan c.attempts now (.error (.transient causes)))
    (more : c.attempts + 1 < rules.retry.attempts)
    (resume : resumeAt = a.ended rules.timeout +
      (rules.retry.backoff (c.attempts + 1) (rules.draw (c.attempts + 1))).ceilMilliseconds)
    (stage : c₁.stage = .pausing resumeAt)
    (rest : Returns rules resolve plan resumeAt w₁ { c₁ with stage := .ready } k' log result later
      w' c') :
    ∃ k'', k'' ≤ k + (k' + 2) ∧
      Returns rules resolve plan now w c k'' (a :: log) result later w' c' := by
  have hle : a.ended rules.timeout ≤ resumeAt := by
    rw [resume]
    exact Nat.le_add_right _ _
  have hmove : Move rules resolve plan resumeAt w₁ c₁ none w₁ { c₁ with stage := .ready } :=
    .resumed stage (Nat.le_refl _)
  rcases exists_trace_of_pausing stage hle (.move hmove rest.trace) with ⟨m, hm, hsecond⟩
  have hattempts := attempts_of_attempted attempted
  have hcourse := rest.course
  refine ⟨k + m, by omega, ?_, ?_, rest.stage, ?_, ?_⟩
  · simp only [hattempts] at hcourse
    rw [resume] at hcourse
    exact .again calls more hcourse
  · exact first.trans hsecond
  · rw [rest.attempts, hattempts, List.length_cons]
    omega
  · rw [rest.tried, tried_of_attempted attempted, ← List.append_assoc, ← List.reverse_append]
    exact congrArg (fun endpoints => List.reverse endpoints ++ c.tried)
      List.filterMap_append.symm

/-- A call returns, by induction on the attempts that it has left. -/
theorem exists_returns (left now : Nat) (w : Shared δ) (c : Call α) (stage : c.stage = .ready)
    (htried : c.tried.length = c.attempts) (hmore : c.attempts < rules.retry.attempts)
    (hleft : c.attempts + left = rules.retry.attempts) :
    ∃ k log result later w' c', k ≤ 7 * left ∧
      Returns rules resolve plan now w c k log result later w' c' := by
  induction left generalizing now w c with
  | zero => omega
  | succ left ih =>
      rcases exists_attempt rules resolve plan now w c stage with
        ⟨a, k, w₁, c₁, hk, hattempted, htrace⟩
      have hattempts := attempts_of_attempted hattempted
      have htried₁ := tried_of_attempted hattempted
      rcases attempted_cases hattempted htried hmore with
        ⟨result, hstage, hcourse⟩ | ⟨causes, hcalls, hnext, hstage⟩
      · have hmarks : Log.marks rules.timeout [a] = a.marks rules.timeout :=
          List.flatMap_singleton _ a
        rw [← hmarks] at htrace
        exact ⟨k, [a], result, _, w₁, c₁, by omega, hcourse, htrace, hstage, hattempts, htried₁⟩
      · rcases hcalls.exists_endpoint with ⟨endpoint, hendpoint⟩
        have hone : (Log.endpoints [a]).length = 1 := by
          rw [Log.endpoints, List.filterMap_cons_some hendpoint]
          rfl
        have hlength : c₁.tried.length = c₁.attempts := by
          rw [htried₁, List.length_append, List.length_reverse, hone, htried, hattempts,
            Nat.add_comm]
        have hmore₁ : c₁.attempts < rules.retry.attempts := by omega
        have hleft₁ : c₁.attempts + left = rules.retry.attempts := by omega
        rcases ih _ w₁ { c₁ with stage := .ready } rfl hlength hmore₁ hleft₁ with
          ⟨k', log, result, later, w', c', hk', hrest⟩
        rcases hrest.again hattempted htrace hcalls hnext rfl hstage with ⟨k'', hk'', hreturns⟩
        exact ⟨k'', a :: log, result, later, w', c', by omega, hreturns⟩

theorem Returns.result?_eq {k : Nat} {log : List (Attempt α)} {result : Except Error α}
    {later : Nat} (h : Returns rules resolve plan now w c k log result later w' c') :
    c'.result? = some result := by
  rw [result?, h.stage]

theorem Returns.endpoints_eq {k : Nat} {log : List (Attempt α)} {result : Except Error α}
    {later : Nat} (h : Returns rules resolve plan now w {} k log result later w' c') :
    c'.tried.reverse = Log.endpoints log := by
  rw [h.tried]
  simp

theorem exists_returns_execute (rules : CallRules) (resolve : Resolve δ)
    (plan : Nat → Endpoint → Reply α) (now : Nat) (w : Shared δ) :
    ∃ (c : Call α) (w' : Shared δ) (later k : Nat) (log : List (Attempt α))
      (result : Except Error α),
      execute rules resolve plan now w = (c, w', later) ∧
        Returns rules resolve plan now w {} k log result later w' c := by
  have hpos : 0 < rules.retry.attempts :=
    Nat.lt_of_lt_of_le Nat.zero_lt_one (Nat.le_max_right _ 1)
  rcases exists_returns rules.retry.attempts now w {} rfl rfl hpos (Nat.zero_add _) with
    ⟨k, log, result, later, w', c, hk, hreturns⟩
  refine ⟨c, w', later, k, log, result, ?_, hreturns⟩
  have hfuel : 7 * rules.retry.attempts = k + (7 * rules.retry.attempts - k) := by omega
  rw [execute, hfuel, alone_of_trace hreturns.trace, alone_of_finished hreturns.stage]

/--
A call made alone returns, whatever the state of its breaker, and keeps the rules of
retrying. The marks of its log are all that it does outside of itself.
-/
theorem execute_conforms (rules : CallRules) (resolve : Resolve δ)
    (plan : Nat → Endpoint → Reply α) (now : Nat) (w : Shared δ) :
    ∃ (c : Call α) (w' : Shared δ) (later k : Nat) (log : List (Attempt α))
      (result : Except Error α),
      execute rules resolve plan now w = (c, w', later) ∧
        Trace rules resolve plan k now w {} (Log.marks rules.timeout log) later w' c ∧
        c.result? = some result ∧ c.attempts = log.length ∧
        c.tried.reverse = Log.endpoints log ∧
        Course rules plan 0 now log result ∧ Conforms rules log result := by
  rcases exists_returns_execute rules resolve plan now w with
    ⟨c, w', later, k, log, result, hexecute, hreturns⟩
  have hattempts : c.attempts = log.length :=
    hreturns.attempts.trans (Nat.zero_add _)
  exact ⟨c, w', later, k, log, result, hexecute, hreturns.trace, hreturns.result?_eq, hattempts,
    hreturns.endpoints_eq, hreturns.course, conforms_of_course hreturns.course⟩

/-- The failure of the first attempt opens the breaker, which refuses the second one. -/
example :
    let find : Resolve Unit := .atOnce fun lookups _ => (.ok [⟨"http://gw"⟩], lookups)
    let plan : Nat → Endpoint → Reply Unit := fun _ _ => ⟨some 0, .error (.transient ["down"])⟩
    let breakers : Breakers := { settings := { failureThreshold := 1 } }
    let call := (execute { service := "gw" } find plan 0 ⟨breakers, ()⟩).1
    call.result? = some (.error (.breakerOpen "gw")) ∧ call.attempts = 2 ∧
      call.tried = [⟨"http://gw"⟩] :=
  ⟨rfl, rfl, rfl⟩

end Call
end Rpc
end Courier
