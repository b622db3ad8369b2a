import Courier.Bus.DeadLetter
import Courier.Message.Command
import Courier.Provider.Error
import Courier.Routing.Operation
import Courier.Time.Span

/-!
# Outcomes

What the handling of a delivery comes to, and how it is settled: a command that
was sent or skipped is acknowledged, one that was interrupted is put back, and
one that failed is acknowledged when its dead letter was taken.
-/

namespace Courier
namespace Dispatch

inductive PanicPolicy where
  | dropOnPanic
  | redeliverOnPanic
deriving DecidableEq, Repr, Inhabited

structure Settings where
  maxRetries : UInt32 := 3
  retryInterval : Nat := 2000
  /-- The time bound of one attempt, in milliseconds. -/
  handlerTimeout : Nat := 30000
  panicPolicy : PanicPolicy := .dropOnPanic
deriving DecidableEq, Repr, Inhabited

inductive Failure where
  | provider (e : Provider.Error)
  | timeout (ms : Nat)
  | panic (reason : String)
  | cancelled
deriving DecidableEq, Repr

namespace Failure

def code : Failure → String
  | .provider e => e.code
  | .timeout _ => "handler_timeout"
  | .panic _ => "handler_panic"
  | .cancelled => "cancelled"

def message : Failure → String
  | .provider e => e.message
  | .timeout ms => "handler timed out after " ++ (Time.Span.ofMilliseconds ms).describe
  | .panic reason => "handler panicked: " ++ reason
  | .cancelled => "dispatch cancelled by shutdown"

def isRetryable : Failure → Bool
  | .provider _ => true
  | .timeout _ => true
  | .panic _ => false
  | .cancelled => false

end Failure

inductive Skip where
  | noRoutingKey
  | malformed
  | invalid (missing : Command.Missing)
  | unknownProvider (key : String)
  | panicDropped (reason : String)
deriving DecidableEq, Repr

inductive Outcome where
  | handled (provider : String) (attempts : Nat)
  | skipped (why : Skip)
  | failed (provider : Option String) (failure : Failure) (attempts : Nat)
deriving DecidableEq, Repr

namespace Outcome

def label : Outcome → String
  | .handled _ _ => "handled"
  | .skipped .noRoutingKey => "no_routing_key"
  | .skipped .malformed => "decode_error"
  | .skipped (.invalid _) => "invalid"
  | .skipped (.unknownProvider _) => "unknown_provider"
  | .skipped (.panicDropped _) => "panic_dropped"
  | .failed _ _ _ => "failed"

def ofPanic (policy : PanicPolicy) (provider : Option String) (reason : String) : Outcome :=
  match policy with
  | .dropOnPanic => .skipped (.panicDropped reason)
  | .redeliverOnPanic => .failed provider (.panic reason) 1

def deadLetter? (op : Operation) (time : String) (d : Bus.Delivery) :
    Outcome → Option Bus.DeadLetter
  | .failed _ .cancelled _ => none
  | .failed provider failure attempts =>
    some {
      operation := op.name
      provider := provider
      routingKey := (Routing.keyOf? d.header?).getD d.subject
      messageId := d.id
      attempts := UInt32.ofNat attempts
      time := time
      fault := { code := failure.code, message := failure.message }
      envelope := Bus.envelopeOf d.payload }
  | _ => none

/-- How the delivery is settled, given whether a dead letter for it was taken. -/
def settlement (letterTaken : Bool) : Outcome → Bus.Settlement
  | .handled _ _ => .ack
  | .skipped _ => .ack
  | .failed _ .cancelled _ => .nack true
  | .failed _ _ _ => if letterTaken then .ack else .nack false

end Outcome
end Dispatch
end Courier
