import Courier.Proofs.Rpc.Moves

/-!
# Attempts of a call

A call that has its breaker to itself makes one attempt after another. Its log says
how each of them went; the marks of the call are those of the attempts in its log.

The main statement is that the log of every call keeps the rules of retrying, and
that what the call returns can be read off its log.
-/

namespace Courier
namespace Rpc

open Call

variable {α δ : Type}

def Reply.within (timeout : Nat) (reply : Reply α) : Except CallError α :=
  if reply.after.any fun d => d ≤ timeout then reply.outcome
  else .error (.transient (timeoutCauses timeout))

/-- One attempt, with the time at which it began. -/
inductive Attempt (α : Type) where
  | refused (began : Nat)
  | unlocated (began : Nat) (permit : Permit) (lookup : Lookup)
  | called (began : Nat) (permit : Permit) (lookup : Lookup) (endpoint : Endpoint)
      (reply : Reply α)

namespace Attempt

def lookup? : Attempt α → Option Lookup
  | .refused _ => none
  | .unlocated _ _ lookup => some lookup
  | .called _ _ lookup _ _ => some lookup

def endpoint? : Attempt α → Option Endpoint
  | .called _ _ _ endpoint _ => some endpoint
  | _ => none

def outcome? (timeout : Nat) : Attempt α → Option (Except CallError α)
  | .called _ _ _ _ reply => some (reply.within timeout)
  | _ => none

def ended (timeout : Nat) : Attempt α → Nat
  | .refused began => began
  | .unlocated began _ lookup => began + lookup.after
  | .called began _ lookup _ reply => answerTime timeout (began + lookup.after) reply

/-- The marks of an attempt: a permit that was given out is given back once, at the end. -/
def marks (timeout : Nat) : Attempt α → List (Nat × Mark α)
  | .refused began => [(began, .refused)]
  | .unlocated began permit lookup =>
    [(began, .admitted permit lookup), (began + lookup.after, .settled permit .release)]
  | .called began permit lookup endpoint reply =>
    [(began, .admitted permit lookup), (began + lookup.after, .called endpoint reply),
      (answerTime timeout (began + lookup.after) reply,
        .settled permit (.ofOutcome (reply.within timeout)))]

/-- An attempt that calls the first endpoint that its lookup finds, and what comes of it. -/
inductive Calls (rules : CallRules) (plan : Nat → Endpoint → Reply α) (n began : Nat) :
    Attempt α → Except CallError α → Prop where
  | mk {permit : Permit} {lookup : Lookup} {endpoint : Endpoint} {outcome : Except CallError α}
      (found : endpointOf rules.service lookup.found = .ok endpoint)
      (answer : (plan n endpoint).within rules.timeout = outcome) :
      Calls rules plan n began (.called began permit lookup endpoint (plan n endpoint)) outcome

variable {rules : CallRules} {plan : Nat → Endpoint → Reply α} {n began : Nat} {a : Attempt α}
  {outcome : Except CallError α}

theorem Calls.outcome?_eq (h : a.Calls rules plan n began outcome) :
    a.outcome? rules.timeout = some outcome := by
  cases h with
  | mk found answer => exact congrArg some answer

theorem Calls.exists_lookup (h : a.Calls rules plan n began outcome) :
    ∃ lookup endpoint, a.lookup? = some lookup ∧
      endpointOf rules.service lookup.found = .ok endpoint := by
  cases h with
  | mk found answer => exact ⟨_, _, rfl, found⟩

theorem Calls.ne_refused (h : a.Calls rules plan n began outcome) (t : Nat) :
    a ≠ .refused t := by
  cases h with
  | mk found answer =>
      intro heq
      cases heq

theorem Calls.exists_endpoint (h : a.Calls rules plan n began outcome) :
    ∃ endpoint, a.endpoint? = some endpoint := by
  cases h with
  | mk found answer => exact ⟨_, rfl⟩

end Attempt

/-!
## Courses of attempts
-/

/-- An outcome that ends a call at once, and what the call returns then. -/
inductive Final : Except CallError α → Except Error α → Prop where
  | ok (value : α) : Final (.ok value) (.ok value)
  | application (status : Option UInt16) (message : String) :
      Final (.error (.application status message)) (.error (.application status message))

/--
How attempts follow one another, from the one after the first `n`, and to what
result they lead. Only a failure in transit is followed by another attempt, which
begins after a pause.
-/
inductive Course (rules : CallRules) (plan : Nat → Endpoint → Reply α) :
    Nat → Nat → List (Attempt α) → Except Error α → Prop where
  | refused {n now : Nat} :
      Course rules plan n now [.refused now] (.error (.breakerOpen rules.service))
  | unlocated {n now : Nat} {permit : Permit} {lookup : Lookup} {e : DiscoveryError}
      (found : endpointOf rules.service lookup.found = .error e) :
      Course rules plan n now [.unlocated now permit lookup] (.error (.discovery e))
  | answered {n now : Nat} {a : Attempt α} {outcome : Except CallError α}
      {result : Except Error α} (calls : a.Calls rules plan n now outcome)
      (final : Final outcome result) :
      Course rules plan n now [a] result
  | exhausted {n now : Nat} {a : Attempt α} {causes : Causes}
      (calls : a.Calls rules plan n now (.error (.transient causes)))
      (last : n + 1 = rules.retry.attempts) :
      Course rules plan n now [a] (.error (.transient rules.service (n + 1) causes))
  | again {n now : Nat} {a : Attempt α} {causes : Causes} {log : List (Attempt α)}
      {result : Except Error α}
      (calls : a.Calls rules plan n now (.error (.transient causes)))
      (more : n + 1 < rules.retry.attempts)
      (rest : Course rules plan (n + 1)
        (a.ended rules.timeout +
          (rules.retry.backoff (n + 1) (rules.draw (n + 1))).ceilMilliseconds) log result) :
      Course rules plan n now (a :: log) result

namespace Log

/-- What came of the calls to endpoints, in order. -/
def outcomes (timeout : Nat) (log : List (Attempt α)) : List (Except CallError α) :=
  log.filterMap (Attempt.outcome? timeout)

def lookups (log : List (Attempt α)) : List Lookup :=
  log.filterMap Attempt.lookup?

def endpoints (log : List (Attempt α)) : List Endpoint :=
  log.filterMap Attempt.endpoint?

def marks (timeout : Nat) (log : List (Attempt α)) : List (Nat × Mark α) :=
  log.flatMap (Attempt.marks timeout)

end Log

namespace Course

variable {rules : CallRules} {plan : Nat → Endpoint → Reply α} {n now : Nat}
  {log : List (Attempt α)} {result : Except Error α}

/-!
## What the log of a course tells
-/

theorem getLast?_cons_of_ne {β : Type} {x y : β} {rest : List β} (hne : x ≠ y) :
    (x :: rest).getLast? = some y ↔ rest.getLast? = some y := by
  cases rest with
  | nil => simp [hne]
  | cons z rest => rw [List.getLast?_cons_cons]

theorem outcomes_cons {a : Attempt α} {outcome : Except CallError α}
    (calls : a.Calls rules plan n now outcome) (log : List (Attempt α)) :
    Log.outcomes rules.timeout (a :: log) = outcome :: Log.outcomes rules.timeout log :=
  List.filterMap_cons_some calls.outcome?_eq

theorem length_outcomes (h : Course rules plan n now log result)
    (hn : n < rules.retry.attempts) :
    n + (Log.outcomes rules.timeout log).length ≤ rules.retry.attempts := by
  induction h with
  | refused => exact Nat.le_of_lt hn
  | unlocated found => exact Nat.le_of_lt hn
  | answered calls final =>
      rw [outcomes_cons calls]
      exact hn
  | exhausted calls last =>
      rw [outcomes_cons calls]
      exact hn
  | again calls more rest ih =>
      have hlater := ih more
      rw [outcomes_cons calls, List.length_cons]
      omega

theorem single_ne_append {β : Type} {x y : β} {before after : List β} (hafter : after ≠ []) :
    [x] ≠ before ++ y :: after := by
  intro heq
  have hlength := congrArg List.length heq
  have hpos := List.length_pos_iff.mpr hafter
  simp only [List.length_append, List.length_cons, List.length_nil] at hlength
  omega

/-- Only an attempt that failed in transit is followed by another one. -/
theorem outcome?_of_followed (h : Course rules plan n now log result)
    {before after : List (Attempt α)} {a : Attempt α} (hlog : log = before ++ a :: after)
    (hafter : after ≠ []) :
    ∃ causes, a.outcome? rules.timeout = some (.error (.transient causes)) := by
  induction h generalizing before with
  | refused => exact absurd hlog (single_ne_append hafter)
  | unlocated found => exact absurd hlog (single_ne_append hafter)
  | answered calls final => exact absurd hlog (single_ne_append hafter)
  | exhausted calls last => exact absurd hlog (single_ne_append hafter)
  | again calls more rest ih =>
      cases before with
      | nil =>
          rw [List.nil_append, List.cons.injEq] at hlog
          rw [← hlog.left]
          exact ⟨_, calls.outcome?_eq⟩
      | cons b before =>
          rw [List.cons_append, List.cons.injEq] at hlog
          exact ih hlog.right

theorem eq_iff_of_final (h : Course rules plan n now log result)
    {outcome : Except CallError α} {returned : Except Error α} (hfinal : Final outcome returned) :
    result = returned ↔ (Log.outcomes rules.timeout log).getLast? = some outcome := by
  induction h with
  | refused => cases hfinal <;> simp [Log.outcomes, Attempt.outcome?]
  | unlocated found => cases hfinal <;> simp [Log.outcomes, Attempt.outcome?]
  | answered calls final =>
      rw [outcomes_cons calls]
      cases final <;> cases hfinal <;> simp [Log.outcomes]
  | exhausted calls last =>
      rw [outcomes_cons calls]
      cases hfinal <;> simp [Log.outcomes]
  | @again n now a causes log result calls more rest ih =>
      have hne : .error (.transient causes) ≠ outcome := by
        cases hfinal <;> simp
      rw [outcomes_cons calls, getLast?_cons_of_ne hne]
      exact ih

/-- All attempts that there are have failed in transit, and the last one in a given way. -/
structure Exhausts (rules : CallRules) (n : Nat) (log : List (Attempt α)) (causes : Causes) :
    Prop where
  all : n + (Log.outcomes rules.timeout log).length = rules.retry.attempts
  transient : ∀ outcome ∈ Log.outcomes rules.timeout log, ∃ causes,
    outcome = .error (.transient causes)
  last : (Log.outcomes rules.timeout log).getLast? = some (.error (.transient causes))

theorem exhausts_cons_iff {a : Attempt α} {causes : Causes}
    (calls : a.Calls rules plan n now (.error (.transient causes)))
    (more : n + 1 < rules.retry.attempts) (log : List (Attempt α)) (causes' : Causes) :
    Exhausts rules n (a :: log) causes' ↔ Exhausts rules (n + 1) log causes' := by
  have hcons := outcomes_cons calls log
  constructor
  · rintro ⟨hall, htransient, hlast⟩
    rw [hcons] at hall htransient hlast
    rw [List.length_cons] at hall
    refine ⟨by omega, fun outcome h => htransient outcome (List.mem_cons_of_mem _ h), ?_⟩
    -- There are calls left to be made, so that the last one is not this one.
    cases hrest : Log.outcomes rules.timeout log with
    | nil =>
        rw [hrest, List.length_nil] at hall
        omega
    | cons outcome others =>
        rw [hrest, List.getLast?_cons_cons] at hlast
        exact hlast
  · rintro ⟨hall, htransient, hlast⟩
    constructor
    · rw [hcons, List.length_cons]
      omega
    · intro outcome h
      rw [hcons, List.mem_cons] at h
      rcases h with h | h
      · exact ⟨causes, h⟩
      · exact htransient outcome h
    · rw [hcons]
      cases hrest : Log.outcomes rules.timeout log with
      | nil =>
          rw [hrest] at hlast
          cases hlast
      | cons outcome others =>
          rw [List.getLast?_cons_cons, ← hrest]
          exact hlast

theorem not_exhausts_of_getLast?_ne {causes : Causes}
    (h : (Log.outcomes rules.timeout log).getLast? ≠ some (.error (.transient causes))) :
    ¬ Exhausts rules n log causes :=
  fun hexhausts => h hexhausts.last

theorem exhausts_single_iff {a : Attempt α} {causes : Causes}
    (calls : a.Calls rules plan n now (.error (.transient causes)))
    (last : n + 1 = rules.retry.attempts) (causes' : Causes) :
    Exhausts rules n [a] causes' ↔ causes = causes' := by
  have hcons : Log.outcomes rules.timeout [a] = [.error (.transient causes)] :=
    outcomes_cons calls []
  constructor
  · intro hexhausts
    have hlast := hexhausts.last
    rw [hcons] at hlast
    cases hlast
    rfl
  · rintro rfl
    refine ⟨?_, ?_, ?_⟩
    · rw [hcons]
      exact last
    · intro outcome hmem
      rw [hcons] at hmem
      exact ⟨causes, List.mem_singleton.mp hmem⟩
    · rw [hcons]
      rfl

theorem eq_transient_iff (h : Course rules plan n now log result)
    (hn : n < rules.retry.attempts) (target : String) (attempts : Nat) (causes : Causes) :
    result = .error (.transient target attempts causes) ↔
      target = rules.service ∧ attempts = rules.retry.attempts ∧
        Exhausts rules n log causes := by
  induction h with
  | refused =>
      exact iff_of_false (by simp) fun h =>
        not_exhausts_of_getLast?_ne (by simp [Log.outcomes, Attempt.outcome?]) h.right.right
  | unlocated found =>
      exact iff_of_false (by simp) fun h =>
        not_exhausts_of_getLast?_ne (by simp [Log.outcomes, Attempt.outcome?]) h.right.right
  | answered calls final =>
      refine iff_of_false ?_ fun h => not_exhausts_of_getLast?_ne ?_ h.right.right
      · cases final <;> simp
      · rw [outcomes_cons calls]
        cases final <;> simp [Log.outcomes]
  | exhausted calls last =>
      rw [exhausts_single_iff calls last, last]
      constructor
      · intro heq
        cases heq
        exact ⟨rfl, rfl, rfl⟩
      · rintro ⟨rfl, rfl, rfl⟩
        rfl
  | again calls more rest ih =>
      rw [exhausts_cons_iff calls more]
      exact ih more

theorem lookups_cons {a : Attempt α} {outcome : Except CallError α}
    (calls : a.Calls rules plan n now outcome) (log : List (Attempt α)) :
    ∃ lookup endpoint, Log.lookups (a :: log) = lookup :: Log.lookups log ∧
      endpointOf rules.service lookup.found = .ok endpoint := by
  rcases calls.exists_lookup with ⟨lookup, endpoint, hlookup, hfound⟩
  exact ⟨lookup, endpoint, List.filterMap_cons_some hlookup, hfound⟩

/-- The last lookup that an admitted attempt made found no endpoint. -/
def LostAt (rules : CallRules) (log : List (Attempt α)) (e : DiscoveryError) : Prop :=
  ∃ lookup, (Log.lookups log).getLast? = some lookup ∧
    endpointOf rules.service lookup.found = .error e

theorem lostAt_cons_iff {a : Attempt α} {outcome : Except CallError α}
    (calls : a.Calls rules plan n now outcome) (log : List (Attempt α)) (e : DiscoveryError) :
    LostAt rules (a :: log) e ↔ LostAt rules log e := by
  rcases lookups_cons calls log with ⟨lookup, endpoint, hcons, hfound⟩
  unfold LostAt
  rw [hcons]
  constructor
  · rintro ⟨last, hlast, hlost⟩
    have hne : lookup ≠ last := by
      intro heq
      rw [← heq, hfound] at hlost
      cases hlost
    exact ⟨last, (getLast?_cons_of_ne hne).mp hlast, hlost⟩
  · rintro ⟨last, hlast, hlost⟩
    have hne : lookup ≠ last := by
      intro heq
      rw [← heq, hfound] at hlost
      cases hlost
    exact ⟨last, (getLast?_cons_of_ne hne).mpr hlast, hlost⟩

theorem not_lostAt_single {a : Attempt α} {outcome : Except CallError α}
    (calls : a.Calls rules plan n now outcome) (e : DiscoveryError) :
    ¬ LostAt rules [a] e := by
  rw [lostAt_cons_iff calls]
  rintro ⟨last, hlast, _⟩
  cases hlast

theorem eq_discovery_iff (h : Course rules plan n now log result) (e : DiscoveryError) :
    result = .error (.discovery e) ↔ LostAt rules log e := by
  induction h with
  | refused =>
      constructor
      · intro heq
        cases heq
      · rintro ⟨last, hlast, _⟩
        cases hlast
  | unlocated found =>
      constructor
      · intro heq
        cases heq
        exact ⟨_, rfl, found⟩
      · rintro ⟨last, hlast, hlost⟩
        rw [← Option.some.inj hlast] at hlost
        cases found.symm.trans hlost
        rfl
  | answered calls final =>
      exact iff_of_false (by cases final <;> simp) (not_lostAt_single calls e)
  | exhausted calls last => exact iff_of_false (by simp) (not_lostAt_single calls e)
  | again calls more rest ih =>
      rw [lostAt_cons_iff calls]
      exact ih

theorem eq_breakerOpen_iff (h : Course rules plan n now log result) (target : String) :
    result = .error (.breakerOpen target) ↔
      target = rules.service ∧ ∃ began, Attempt.refused began ∈ log := by
  have hsingle : ∀ {n now a} {outcome : Except CallError α},
      a.Calls rules plan n now outcome → ¬ ∃ began, Attempt.refused began ∈ [a] := by
    rintro n now a outcome calls ⟨began, hmem⟩
    exact calls.ne_refused began (List.mem_singleton.mp hmem).symm
  induction h with
  | refused =>
      constructor
      · intro heq
        cases heq
        exact ⟨rfl, _, List.mem_singleton_self _⟩
      · rintro ⟨rfl, _⟩
        rfl
  | unlocated found => simp
  | answered calls final =>
      exact iff_of_false (by cases final <;> simp) (fun h => hsingle calls h.right)
  | exhausted calls last => exact iff_of_false (by simp) (fun h => hsingle calls h.right)
  | again calls more rest ih =>
      constructor
      · intro heq
        rcases ih.mp heq with ⟨htarget, began, hmem⟩
        exact ⟨htarget, began, List.mem_cons_of_mem _ hmem⟩
      · rintro ⟨htarget, began, hmem⟩
        rcases List.mem_cons.mp hmem with heq | hmem
        · exact absurd heq.symm (calls.ne_refused began)
        · exact ih.mpr ⟨htarget, began, hmem⟩

theorem ne_invalidRequest (h : Course rules plan n now log result) (message : String) :
    result ≠ .error (.invalidRequest message) := by
  induction h with
  | refused => simp
  | unlocated found => simp
  | answered calls final => cases final <;> simp
  | exhausted calls last => simp
  | again calls more rest ih => exact ih

theorem endpointOf_eq_error_iff (service : String)
    (found : Except DiscoveryError (List Endpoint)) (e : DiscoveryError) :
    endpointOf service found = .error e ↔
      found = .error e ∨ found = .ok [] ∧ e = .noEndpoints service := by
  cases found with
  | error e' => simp [endpointOf]
  | ok endpoints =>
      cases endpoints with
      | nil => simp [endpointOf, eq_comm]
      | cons endpoint rest => simp [endpointOf]

end Course

/-- What is asked of the log of a call and of what the call returns. -/
structure Conforms (rules : CallRules) (log : List (Attempt α)) (result : Except Error α) :
    Prop where
  bounded : (Log.outcomes rules.timeout log).length ≤ max 1 rules.retry.maxAttempts
  retried : ∀ before a after, log = before ++ a :: after → after ≠ [] →
    ∃ causes, a.outcome? rules.timeout = some (.error (.transient causes))
  ok_iff : ∀ value, result = .ok value ↔
    (Log.outcomes rules.timeout log).getLast? = some (.ok value)
  application_iff : ∀ status message, result = .error (.application status message) ↔
    (Log.outcomes rules.timeout log).getLast? = some (.error (.application status message))
  transient_iff : ∀ target attempts causes, result = .error (.transient target attempts causes) ↔
    target = rules.service ∧ attempts = max 1 rules.retry.maxAttempts ∧
      (Log.outcomes rules.timeout log).length = attempts ∧
      (∀ outcome ∈ Log.outcomes rules.timeout log, ∃ causes,
        outcome = .error (.transient causes)) ∧
      (Log.outcomes rules.timeout log).getLast? = some (.error (.transient causes))
  discovery_iff : ∀ e, result = .error (.discovery e) ↔
    ∃ lookup, (Log.lookups log).getLast? = some lookup ∧
      (lookup.found = .error e ∨ lookup.found = .ok [] ∧ e = .noEndpoints rules.service)
  breakerOpen_iff : ∀ target, result = .error (.breakerOpen target) ↔
    target = rules.service ∧ ∃ began, Attempt.refused began ∈ log
  valid : ∀ message, result ≠ .error (.invalidRequest message)

theorem RetryPolicy.attempts_eq (p : RetryPolicy) : p.attempts = max 1 p.maxAttempts :=
  Nat.max_comm _ _

theorem conforms_of_course {rules : CallRules} {plan : Nat → Endpoint → Reply α} {now : Nat}
    {log : List (Attempt α)} {result : Except Error α}
    (h : Course rules plan 0 now log result) : Conforms rules log result := by
  have hpos : 0 < rules.retry.attempts :=
    Nat.lt_of_lt_of_le Nat.zero_lt_one (Nat.le_max_right _ 1)
  constructor
  · rw [← RetryPolicy.attempts_eq, ← Nat.zero_add (List.length _)]
    exact h.length_outcomes hpos
  · intro before a after hlog hafter
    exact h.outcome?_of_followed hlog hafter
  · intro value
    exact h.eq_iff_of_final (.ok value)
  · intro status message
    exact h.eq_iff_of_final (.application status message)
  · intro target attempts causes
    rw [h.eq_transient_iff hpos, ← RetryPolicy.attempts_eq]
    constructor
    · rintro ⟨htarget, hattempts, hall, htransient, hlast⟩
      rw [Nat.zero_add, ← hattempts] at hall
      exact ⟨htarget, hattempts, hall, htransient, hlast⟩
    · rintro ⟨htarget, hattempts, hall, htransient, hlast⟩
      rw [hattempts] at hall
      exact ⟨htarget, hattempts, (Nat.zero_add _).trans hall, htransient, hlast⟩
  · intro e
    rw [h.eq_discovery_iff, Course.LostAt]
    simp only [Course.endpointOf_eq_error_iff]
  · exact h.eq_breakerOpen_iff
  · exact h.ne_invalidRequest

end Rpc
end Courier
