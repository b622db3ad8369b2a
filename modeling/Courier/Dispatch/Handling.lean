import Courier.Dispatch.Outcome
import Courier.Provider.Adapter
import Courier.Provider.Registry

/-!
# Handling a delivery

The provider is found by the routing key, the command is read and validated, and
its message is sent: again after a failure, as often as allowed, with a pause
before each further attempt. Shutdown interrupts pauses only.

Handling is a machine: it moves as far as it can at a given time, and then
waits. How adapters answer is left to the state they are in.
-/

namespace Courier
namespace Dispatch

open Provider (Answer Handle Registry)

structure Job where
  operation : Operation
  provider : String
  handle : Handle
  message : Message
deriving Repr

def providerOf? (d : Bus.Delivery) : Option String :=
  Routing.keyOf? d.header? >>= Routing.providerOf?

/-- What is to be sent for a delivery, or why nothing is; `now` is the current time. -/
def jobOf (registry : Registry Handle) (now : Int64) (op : Operation) (d : Bus.Delivery) :
    Except Skip Job :=
  match providerOf? d with
  | none => .error .noRoutingKey
  | some provider =>
    match Command.ofBytes? d.payload with
    | none => .error .malformed
    | some command =>
      match command.validate with
      | some missing => .error (.invalid missing)
      | none =>
        match registry.sender? provider with
        | none => .error (.unknownProvider provider)
        | some handle => .ok ⟨op, provider, handle, command.toMessage now⟩

/-- How adapters answer, from the state they are in. -/
abbrev Send (σ : Type) := σ → Job → Answer × σ

inductive Stage where
  | ready (attempt : Nat)
  | sending (attempt since : Nat) (answer : Answer)
  | pausing (attempt resumeAt : Nat)
  | finished (outcome : Outcome)
deriving Repr

namespace Stage

variable {σ : Type}

def answerBy (timeout since now : Nat) (a : Answer) : Option (Except Unit Provider.Outcome) :=
  if since + a.after ≤ now then some (.ok a.outcome)
  else if since + timeout ≤ now then some (.error ())
  else none

/--
After a failed attempt: a pause, or the end when no attempt is left. Attempts are counted
without end here, but in 32 bits when they are made: with the greatest `maxRetries` of all
their number would wrap before it is past it. So `maxRetries` is taken to be less.
-/
def afterFailure (settings : Settings) (now : Nat) (job : Job) (attempt : Nat)
    (failure : Failure) : Stage :=
  if failure.isRetryable ∧ attempt ≤ settings.maxRetries.toNat then
    .pausing attempt (now + settings.retryInterval)
  else .finished (.failed (some job.provider) failure attempt)

def afterAttempt (settings : Settings) (now : Nat) (job : Job) (attempt : Nat) :
    Except Unit Provider.Outcome → Stage
  | .ok .success => .finished (.handled job.provider attempt)
  | .ok (.failure e) => afterFailure settings now job attempt (.provider e)
  | .ok (.panic reason) =>
    .finished (Outcome.ofPanic settings.panicPolicy (some job.provider) reason)
  | .error () => afterFailure settings now job attempt (.timeout settings.handlerTimeout)

/--
One move at a time, or `none` while it waits or when it is finished. A pause that is over
at the very time of the cancellation, as one of no length always is, counts as over here;
either may be noticed first when both are there.
-/
def step? (settings : Settings) (send : Send σ) (job : Job) (now : Nat) (cancelled : Bool)
    (adapters : σ) : Stage → Option (Stage × σ)
  | .ready attempt =>
    let (answer, adapters) := send adapters job
    some (.sending attempt now answer, adapters)
  | .sending attempt since answer =>
    (answerBy settings.handlerTimeout since now answer).map fun result =>
      (afterAttempt settings now job attempt result, adapters)
  | .pausing attempt resumeAt =>
    if resumeAt ≤ now then some (.ready (attempt + 1), adapters)
    else if cancelled then
      some (.finished (.failed (some job.provider) .cancelled attempt), adapters)
    else none
  | .finished _ => none

def moves (settings : Settings) (send : Send σ) (job : Job) (now : Nat) (cancelled : Bool) :
    Nat → σ → Stage → Stage × σ
  | 0, adapters, s => (s, adapters)
  | fuel + 1, adapters, s =>
    match step? settings send job now cancelled adapters s with
    | none => (s, adapters)
    | some (s, adapters) => moves settings send job now cancelled fuel adapters s

def moveBound (settings : Settings) : Nat :=
  3 * (settings.maxRetries.toNat + 1) + 1

def poll (settings : Settings) (send : Send σ) (job : Job) (now : Nat) (cancelled : Bool)
    (adapters : σ) (s : Stage) : Stage × σ :=
  moves settings send job now cancelled (moveBound settings) adapters s

def wakeTime (settings : Settings) : Stage → Option Nat
  | .ready _ => some 0
  | .sending _ since answer => some (since + min answer.after settings.handlerTimeout)
  | .pausing _ resumeAt => some resumeAt
  | .finished _ => none

/-- Moves and waits in turn, at most so often; shutdown comes at a given time, if ever. -/
def alone (settings : Settings) (send : Send σ) (job : Job) (cancelAt : Option Nat) :
    Nat → Nat → σ → Stage → Stage × σ × Nat
  | 0, now, adapters, s => (s, adapters, now)
  | fuel + 1, now, adapters, s =>
    match step? settings send job now (cancelAt.any (· ≤ now)) adapters s with
    | some (s, adapters) => alone settings send job cancelAt fuel now adapters s
    | none =>
      match wakeTime settings s with
      | none => (s, adapters, now)
      | some t =>
        let t := ((cancelAt.filter (now < ·)).map (min t)).getD t
        alone settings send job cancelAt fuel (max now t) adapters s

end Stage

structure Handled (σ : Type) where
  outcome : Outcome
  adapters : σ
  elapsed : Nat

def handle {σ : Type} (registry : Registry Handle) (settings : Settings) (send : Send σ)
    (clock : Int64) (op : Operation) (d : Bus.Delivery) (cancelAt : Option Nat)
    (adapters : σ) : Handled σ :=
  match jobOf registry clock op d with
  | .error why => ⟨.skipped why, adapters, 0⟩
  | .ok job =>
    match Stage.alone settings send job cancelAt (2 * Stage.moveBound settings + 2) 0 adapters
        (.ready 1) with
    | (.finished outcome, adapters, elapsed) => ⟨outcome, adapters, elapsed⟩
    | (_, adapters, elapsed) =>
      ⟨.failed (some job.provider) .cancelled 0, adapters, elapsed⟩

def sendByScript : Send (List Provider.Adapter) :=
  fun adapters job => Provider.sendThrough adapters job.handle job.operation job.message

end Dispatch
end Courier
