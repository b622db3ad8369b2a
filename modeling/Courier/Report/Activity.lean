import Courier.Bus.Broker
import Courier.Dispatch.Outcome
import Courier.Metrics
import Courier.Provider.Adapter
import Courier.Webhook.Ingress

/-!
# Reports of activity

What was delivered, sent, settled, answered and counted, in JSON.
-/

namespace Courier
namespace Report

open Json (Value)

def counters (events : List Metrics.Counter) : Value :=
  .object ((Metrics.tally events).map fun (k, n) => (k, .ofInt n))

def phase : Option Rpc.Phase → Value
  | none => .null
  | some .closed => .string "Closed"
  | some .opened => .string "Open"
  | some .halfOpen => .string "HalfOpen"

def headers (h : Bus.Headers) : Value :=
  .object (h.map fun (k, v) => (k, .string v))

def settled (b : Bus.Broker) : Value :=
  .array (b.settledByQueue.map fun x =>
    .array [.string x.queue, .string x.subject, .string x.settlement.name])

def sends (tell : Message → Value) (keys : List String) (adapters : List Provider.Adapter) :
    Value :=
  .object ((keys.zip adapters).map fun (k, a) =>
    (k, .array (a.sends.map fun (op, m) => .array [.string (Provider.kindName op), tell m])))

def outcomeDetails : Dispatch.Outcome → List (String × Value)
  | .handled provider attempts =>
    [("provider", .string provider), ("attempts", .ofInt attempts)]
  | .skipped (.invalid missing) => [("message", .string missing.message)]
  | .skipped (.unknownProvider key) => [("provider", .string key)]
  | .skipped (.panicDropped reason) => [("message", .string reason)]
  | .skipped _ => []
  | .failed provider failure attempts =>
    [("provider", (provider.map Value.string).getD .null), ("attempts", .ofInt attempts),
      ("code", .string failure.code), ("message", .string failure.message),
      ("retryable", .bool failure.isRetryable)]

def outcome (o : Dispatch.Outcome) : Value :=
  .object (("label", .string o.label) :: outcomeDetails o)

def response (r : Webhook.Response) : Value :=
  .object [("status", .ofInt r.status), ("body", .string r.body),
    ("allow", (r.allow.map Value.string).getD .null),
    ("content_type", (r.contentType.map Value.string).getD .null)]

end Report
end Courier
