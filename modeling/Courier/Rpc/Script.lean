import Courier.Rpc.Call
import Courier.Script

/-!
# Scripted endpoints

What endpoints do is described in JSON by a script with an entry for each
attempt; when none is left they answer with a default.
-/

namespace Courier
namespace Rpc

open Json (Document Value)

def statusOf? (d : Document) : Option UInt16 :=
  (d.natAt? "status").map UInt16.ofNat

def outcomeOf (d : Document) : Except CallError Value :=
  match d.get? "ok", d.get? "transient", d.get? "app" with
  | some value, _, _ => .ok value.toValue
  | _, some causes, _ => .error (.transient causes.texts)
  | _, _, some failure => .error (.application (statusOf? failure) (failure.textAt "message"))
  | _, _, _ => .ok .null

def Reply.ofDocument (d : Document) : Reply Value :=
  let (after, meant) := Script.delayed d
  ⟨some after, (meant.map outcomeOf).getD (.ok .null)⟩

def planOf (script : List Document) : Nat → Endpoint → Reply Value :=
  let replies := (script.map Reply.ofDocument).toArray
  fun i _ => replies.getD i ⟨some 0, .ok (.string "default")⟩

def Error.ofDocument (d : Document) : Error :=
  let target := d.textAt "target"
  match d.textAt "kind" with
  | "BreakerOpen" => .breakerOpen target
  | "Transient" => .transient target (d.natAt "attempts") (d.textsAt "chain")
  | "Application" => .application (statusOf? d) (d.textAt "message")
  | "NoEndpoints" => .discovery (.noEndpoints target)
  | "Lookup" => .discovery (.lookup target (d.textsAt "chain"))
  | _ => .invalidRequest (d.textAt "message")

def BreakerSettings.ofDocument (d : Document) : BreakerSettings :=
  let default : BreakerSettings := {}
  { failureThreshold := d.natAt "failure_threshold" default.failureThreshold
    failureWindow := d.natAt "failure_window_ms" default.failureWindow
    openDuration := d.natAt "open_duration_ms" default.openDuration }

/-- The rules that a description gives, without a pause unless it says so. -/
def CallRules.ofDocument (d : Document) (service : String) : CallRules :=
  let default : CallRules := { service := service }
  { service := service
    retry := {
      maxAttempts := d.natAt "max_attempts" default.retry.maxAttempts
      initial := .ofMicroseconds (d.natAt "initial_backoff_us")
      greatest := .ofMicroseconds (d.natAt "max_backoff_us") }
    timeout := d.natAt "call_timeout_ms" default.timeout }

end Rpc
end Courier
