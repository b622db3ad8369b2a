import Courier.Rpc.Backoff
import Courier.Rpc.Breaker
import Courier.Rpc.Discovery

/-!
# Calls

A call to a service makes attempts until one is answered. Each attempt asks the
breaker for admission, looks up the service, which may take a while, and calls
the first endpoint within a time bound. An attempt that fails in transit is made
again after a pause.

A call is a machine: it moves as far as it can at a given time, and then waits.
-/

namespace Courier
namespace Rpc

/-- What an endpoint does when it is called: after how many milliseconds, and what. -/
structure Reply (α : Type) where
  /-- `none` if it never answers. -/
  after : Option Nat
  outcome : Except CallError α
deriving Inhabited

structure CallRules where
  service : String
  retry : RetryPolicy := {}
  /-- The time bound of one attempt, in milliseconds. -/
  timeout : Nat := 10000
  /-- The draw of chance for the pause after an attempt. -/
  draw : Nat → Nat := fun _ => 0

structure Lookup where
  after : Nat := 0
  found : Except DiscoveryError (List Endpoint)
deriving Inhabited

/-- How a lookup goes, from the state that lookups are in. -/
abbrev Resolve (δ : Type) := δ → String → Lookup × δ

def Resolve.atOnce {δ : Type} (find : δ → String → Except DiscoveryError (List Endpoint) × δ) :
    Resolve δ :=
  fun lookups service =>
    let (found, lookups) := find lookups service
    ({ found := found }, lookups)

structure Shared (δ : Type) where
  breakers : Breakers
  lookups : δ

inductive Stage (α : Type) where
  | ready
  | looking (permit : Permit) (since : Nat) (lookup : Lookup)
  | calling (permit : Permit) (since : Nat) (reply : Reply α)
  | pausing (resumeAt : Nat)
  | finished (result : Except Error α)

structure Call (α : Type) where
  attempts : Nat := 0
  /-- The endpoints called, latest first. -/
  tried : List Endpoint := []
  stage : Stage α := .ready

namespace Call

variable {α δ : Type}

def timeoutCauses (timeout : Nat) : Causes :=
  ["call timed out after " ++ (Time.Span.ofMilliseconds timeout).describe]

def answerBy (timeout since now : Nat) (reply : Reply α) : Option (Except CallError α) :=
  if reply.after.any fun d => since + d ≤ now then some reply.outcome
  else if since + timeout ≤ now then some (.error (.transient (timeoutCauses timeout)))
  else none

def answerTime (timeout since : Nat) (reply : Reply α) : Nat :=
  since + (reply.after.map fun d => min d timeout).getD timeout

def permit? (c : Call α) : Option Permit :=
  match c.stage with
  | .looking permit _ _ => some permit
  | .calling permit _ _ => some permit
  | _ => none

def ask (rules : CallRules) (resolve : Resolve δ) (now : Nat) (w : Shared δ) (c : Call α) :
    Call α × Shared δ :=
  let c := { c with attempts := c.attempts + 1 }
  match w.breakers.acquire now rules.service with
  | (none, breakers) =>
    ({ c with stage := .finished (.error (.breakerOpen rules.service)) },
      { w with breakers := breakers })
  | (some permit, breakers) =>
    let (lookup, lookups) := resolve w.lookups rules.service
    ({ c with stage := .looking permit now lookup }, ⟨breakers, lookups⟩)

def endpointOf (service : String) :
    Except DiscoveryError (List Endpoint) → Except DiscoveryError Endpoint
  | .error e => .error e
  | .ok [] => .error (.noEndpoints service)
  | .ok (endpoint :: _) => .ok endpoint

def connect (rules : CallRules) (plan : Nat → Endpoint → Reply α) (now : Nat) (permit : Permit)
    (found : Except DiscoveryError (List Endpoint)) (w : Shared δ) (c : Call α) :
    Call α × Shared δ :=
  match endpointOf rules.service found with
  | .error e =>
    ({ c with stage := .finished (.error (.discovery e)) },
      { w with breakers := w.breakers.release now permit })
  | .ok endpoint =>
    ({ c with
        tried := endpoint :: c.tried
        stage := .calling permit now (plan c.tried.length endpoint) }, w)

def settle (rules : CallRules) (now : Nat) (permit : Permit) (outcome : Except CallError α)
    (w : Shared δ) (c : Call α) : Call α × Shared δ :=
  match outcome with
  | .ok value =>
    ({ c with stage := .finished (.ok value) },
      { w with breakers := w.breakers.succeed now permit })
  | .error (.application status message) =>
    ({ c with stage := .finished (.error (.application status message)) },
      { w with breakers := w.breakers.succeed now permit })
  | .error (.transient causes) =>
    let w := { w with breakers := w.breakers.fail now permit }
    if rules.retry.attempts ≤ c.attempts then
      ({ c with stage := .finished (.error (.transient rules.service c.attempts causes)) }, w)
    else
      let pause := rules.retry.backoff c.attempts (rules.draw c.attempts)
      ({ c with stage := .pausing (now + pause.ceilMilliseconds) }, w)

/-- One move at a time, or `none` while the call waits or when it is finished. -/
def step? (rules : CallRules) (resolve : Resolve δ) (plan : Nat → Endpoint → Reply α) (now : Nat)
    (w : Shared δ) (c : Call α) : Option (Call α × Shared δ) :=
  match c.stage with
  | .ready => some (ask rules resolve now w c)
  | .looking permit since lookup =>
    if since + lookup.after ≤ now then some (connect rules plan now permit lookup.found w c)
    else none
  | .calling permit since reply =>
    (answerBy rules.timeout since now reply).map fun outcome =>
      settle rules now permit outcome w c
  | .pausing resumeAt =>
    if resumeAt ≤ now then some ({ c with stage := .ready }, w) else none
  | .finished _ => none

def moves (rules : CallRules) (resolve : Resolve δ) (plan : Nat → Endpoint → Reply α) (now : Nat) :
    Nat → Shared δ → Call α → Call α × Shared δ
  | 0, w, c => (c, w)
  | fuel + 1, w, c =>
    match step? rules resolve plan now w c with
    | none => (c, w)
    | some (c, w) => moves rules resolve plan now fuel w c

def poll (rules : CallRules) (resolve : Resolve δ) (plan : Nat → Endpoint → Reply α) (now : Nat)
    (w : Shared δ) (c : Call α) : Call α × Shared δ :=
  moves rules resolve plan now (4 * rules.retry.attempts) w c

def wakeTime (rules : CallRules) (c : Call α) : Option Nat :=
  match c.stage with
  | .ready => some 0
  | .looking _ since lookup => some (since + lookup.after)
  | .calling _ since reply => some (answerTime rules.timeout since reply)
  | .pausing resumeAt => some resumeAt
  | .finished _ => none

/-- Gives the call up; a permit it holds is released unsettled. -/
def cancel (now : Nat) (w : Shared δ) (c : Call α) : Shared δ :=
  match c.permit? with
  | some permit => { w with breakers := w.breakers.release now permit }
  | none => w

def result? (c : Call α) : Option (Except Error α) :=
  match c.stage with
  | .finished r => some r
  | _ => none

/-- Moves and waits in turn, at most so often; gives the time reached as well. -/
def alone (rules : CallRules) (resolve : Resolve δ) (plan : Nat → Endpoint → Reply α) :
    Nat → Nat → Shared δ → Call α → Call α × Shared δ × Nat
  | 0, now, w, c => (c, w, now)
  | fuel + 1, now, w, c =>
    match step? rules resolve plan now w c with
    | some (c, w) => alone rules resolve plan fuel now w c
    | none =>
      match wakeTime rules c with
      | none => (c, w, now)
      | some t => alone rules resolve plan fuel (max now t) w c

def execute (rules : CallRules) (resolve : Resolve δ) (plan : Nat → Endpoint → Reply α) (now : Nat)
    (w : Shared δ) : Call α × Shared δ × Nat :=
  alone rules resolve plan (7 * rules.retry.attempts) now w {}

end Call
end Rpc
end Courier
