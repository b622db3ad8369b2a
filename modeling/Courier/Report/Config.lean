import Courier.Config.Basic
import Courier.Json.Value

/-!
# Reports of configurations

A configuration in JSON, with every setting. Spans are told in milliseconds.
-/

namespace Courier
namespace Report

open Json (Value)

/-- Whole milliseconds, and the nanoseconds left over if there are any. -/
def span (s : Time.Span) : Value :=
  let rest := s.nanoseconds % 1000000
  .string (toString s.milliseconds ++ if rest = 0 then "" else "+" ++ toString rest ++ "ns")

def textOrNull (s : Option String) : Value := (s.map Value.string).getD .null

def texts (l : List String) : Value := .array (l.map Value.string)

def word (n : UInt32) : Value := .ofInt n.toNat

def panicPolicyName : Dispatch.PanicPolicy → String
  | .dropOnPanic => "DropOnPanic"
  | .redeliverOnPanic => "RedeliverOnPanic"

def config (c : Config) : Value :=
  .object [
    ("service", .object [
      ("id", .string c.service.id),
      ("http_addr", .string c.service.httpAddress.toString),
      ("shutdown_grace", span c.service.shutdownGrace)]),
    ("log", .object [
      ("level", .string c.log.level),
      ("json", .bool c.log.json),
      ("file", textOrNull c.log.file)]),
    ("pubsub", .object [
      ("broker_url", .string c.bus.brokerUrl),
      ("exchange", .string c.bus.exchange)]),
    ("dispatch", .object [
      ("max_retries", word c.dispatch.maxRetries),
      ("retry_interval", span c.dispatch.retryInterval),
      ("handler_timeout", span c.dispatch.handlerTimeout),
      ("panic_policy", .string (panicPolicyName c.dispatch.panicPolicy))]),
    ("discovery", .object [
      ("consul_addr", textOrNull c.discovery.consulAddress),
      ("endpoints", .object (c.discovery.endpoints.map fun (k, urls) => (k, texts urls)))]),
    ("rpc", .object [
      ("max_attempts", word c.rpc.maxAttempts),
      ("initial_backoff", span c.rpc.initialBackoff),
      ("max_backoff", span c.rpc.greatestBackoff),
      ("failure_threshold", word c.rpc.failureThreshold),
      ("failure_window", span c.rpc.failureWindow),
      ("open_duration", span c.rpc.openDuration),
      ("call_timeout", span c.rpc.callTimeout)]),
    ("providers", texts c.providers)]

end Report
end Courier
