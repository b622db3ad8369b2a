import Courier.Json.Value
import Courier.Rpc.Breaker

/-!
# Counters

Events are counted under a name with labels.
-/

namespace Courier
namespace Metrics

structure Counter where
  name : String
  labels : List (String × String)
deriving DecidableEq, Repr

/-- The counter's name with its labels in braces, in order of their names. -/
def Counter.key (c : Counter) : String :=
  let labels := (Json.sortKeys c.labels).map fun (k, v) => k ++ "=" ++ v
  c.name ++ "\x7b" ++ ",".intercalate labels ++ "\x7d"

def tally (events : List Counter) : List (String × Nat) :=
  events.foldl (fun done c =>
    let key := c.key
    Json.insertKey key ((done.lookup key).getD 0 + 1) done) []

def dispatched (operation outcome : String) : Counter :=
  ⟨"imp_dispatch_total", [("operation", operation), ("outcome", outcome)]⟩

def breakerEvent (target : String) (phase : Rpc.Phase) : Counter :=
  ⟨"imp_rpc_breaker_events_total", [("target", target), ("state", phase.label)]⟩

def breakerEvents (b : Rpc.Breakers) : List Counter :=
  b.events.map fun (target, phase) => breakerEvent target phase

def webhook (provider status : String) : Counter :=
  ⟨"imp_webhook_total", [("provider", provider), ("status", status)]⟩

end Metrics
end Courier
