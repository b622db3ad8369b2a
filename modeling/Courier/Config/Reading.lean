import Courier.Config.Basic
import Courier.Config.Duration
import Courier.Json.Record

/-!
# Reading configurations

A configuration is read from a tree of settings; what is missing has its
default, and what is unknown is passed over. How texts, numbers and sections are
found in a tree depends on its format.
-/

namespace Courier
namespace Config

open Dispatch (PanicPolicy)
open Time (Span)

structure Format (τ : Type) where
  text : τ → Option String
  bool : τ → Option Bool
  uint32 : τ → Option UInt32
  /-- A whole number of seconds, or else a text. -/
  secondsOrText : τ → Option (Nat ⊕ String)
  /-- What is there, if it is more than the word for nothing. -/
  unlessNull : τ → Option (Option τ)
  name : τ → Option String
  items : τ → Option (List τ)
  /-- A map with any keys, in order of keys. -/
  members : τ → Option (List (String × τ))
  /-- A section with the given keys, each of which may be missing. -/
  fields : List String → τ → Option (List (Option τ))

namespace Format

variable {τ : Type}

def span (f : Format τ) (v : τ) : Option Span :=
  match f.secondsOrText v with
  | none => none
  | some (.inl n) => some (Span.ofSeconds n)
  | some (.inr s) => (readDuration s).toOption

def nullable {α : Type} (f : Format τ) (read : τ → Option α) (v : τ) : Option (Option α) :=
  match f.unlessNull v with
  | none => none
  | some none => some none
  | some (some v) => (read v).map some

def texts (f : Format τ) (v : τ) : Option (List String) :=
  f.items v >>= fun items => items.mapM f.text

def panicPolicies : List (String × PanicPolicy) :=
  [("drop-on-panic", .dropOnPanic), ("redeliver-on-panic", .redeliverOnPanic)]

def panicPolicy (f : Format τ) (v : τ) : Option PanicPolicy :=
  f.name v >>= fun name => panicPolicies.lookup name

def endpoints (f : Format τ) (v : τ) : Option (List (String × List String)) :=
  f.members v >>= fun members => members.mapM fun (k, v) => (f.texts v).map fun urls => (k, urls)

def orDefault {α : Type} (default : α) (read : τ → Option α) : Option τ → Option α
  | none => some default
  | some v => read v

def service (f : Format τ) (v : τ) : Option ServiceSection := do
  let d : ServiceSection := {}
  match ← f.fields ["id", "http_addr", "shutdown_grace"] v with
  | [id, httpAddress, shutdownGrace] =>
    return {
      id := ← orDefault d.id f.text id
      httpAddress := ← orDefault d.httpAddress
        (fun v => f.text v >>= Address.ofString?) httpAddress
      shutdownGrace := ← orDefault d.shutdownGrace f.span shutdownGrace }
  | _ => none

def log (f : Format τ) (v : τ) : Option LogSection := do
  let d : LogSection := {}
  match ← f.fields ["level", "json", "file"] v with
  | [level, json, file] =>
    return {
      level := ← orDefault d.level f.text level
      json := ← orDefault d.json f.bool json
      file := ← orDefault d.file (f.nullable f.text) file }
  | _ => none

def bus (f : Format τ) (v : τ) : Option BusSection := do
  let d : BusSection := {}
  match ← f.fields ["broker_url", "exchange"] v with
  | [brokerUrl, exchange] =>
    return {
      brokerUrl := ← orDefault d.brokerUrl f.text brokerUrl
      exchange := ← orDefault d.exchange f.text exchange }
  | _ => none

def dispatch (f : Format τ) (v : τ) : Option DispatchSection := do
  let d : DispatchSection := {}
  match ← f.fields ["max_retries", "retry_interval", "handler_timeout", "panic_policy"] v with
  | [maxRetries, retryInterval, handlerTimeout, panicPolicy] =>
    return {
      maxRetries := ← orDefault d.maxRetries f.uint32 maxRetries
      retryInterval := ← orDefault d.retryInterval f.span retryInterval
      handlerTimeout := ← orDefault d.handlerTimeout f.span handlerTimeout
      panicPolicy := ← orDefault d.panicPolicy f.panicPolicy panicPolicy }
  | _ => none

def discovery (f : Format τ) (v : τ) : Option DiscoverySection := do
  let d : DiscoverySection := {}
  match ← f.fields ["consul_addr", "endpoints"] v with
  | [consulAddress, endpoints] =>
    return {
      consulAddress := ← orDefault d.consulAddress (f.nullable f.text) consulAddress
      endpoints := ← orDefault d.endpoints f.endpoints endpoints }
  | _ => none

def rpc (f : Format τ) (v : τ) : Option RpcSection := do
  let d : RpcSection := {}
  match ← f.fields ["max_attempts", "initial_backoff", "max_backoff", "failure_threshold",
      "failure_window", "open_duration", "call_timeout"] v with
  | [maxAttempts, initialBackoff, greatestBackoff, failureThreshold, failureWindow,
      openDuration, callTimeout] =>
    return {
      maxAttempts := ← orDefault d.maxAttempts f.uint32 maxAttempts
      initialBackoff := ← orDefault d.initialBackoff f.span initialBackoff
      greatestBackoff := ← orDefault d.greatestBackoff f.span greatestBackoff
      failureThreshold := ← orDefault d.failureThreshold f.uint32 failureThreshold
      failureWindow := ← orDefault d.failureWindow f.span failureWindow
      openDuration := ← orDefault d.openDuration f.span openDuration
      callTimeout := ← orDefault d.callTimeout f.span callTimeout }
  | _ => none

def config (f : Format τ) (v : τ) : Option Config := do
  let d : Config := {}
  match ← f.fields ["service", "log", "pubsub", "dispatch", "discovery", "rpc", "providers"] v with
  | [service, log, bus, dispatch, discovery, rpc, providers] =>
    return {
      service := ← orDefault d.service f.service service
      log := ← orDefault d.log f.log log
      bus := ← orDefault d.bus f.bus bus
      dispatch := ← orDefault d.dispatch f.dispatch dispatch
      discovery := ← orDefault d.discovery f.discovery discovery
      rpc := ← orDefault d.rpc f.rpc rpc
      providers := ← orDefault d.providers f.texts providers }
  | _ => none

/-- Settings in JSON, where a section may also be an array of its settings in order. -/
def json : Format Json.Document where
  text := Json.Decode.string
  bool := Json.Decode.bool
  uint32 := Json.Decode.uint32
  secondsOrText v := (Json.Decode.word v).map .inl <|> (Json.Decode.string v).map .inr
  unlessNull v :=
    match v with
    | .null => some none
    | _ => some (some v)
  name := Json.Decode.oneOf (panicPolicies.map fun (name, _) => (name, name))
  items := Json.Decode.list some
  members := Json.Decode.map some
  fields names := Json.Decode.record names fun fields => some (fields.map Json.Field.found)

end Format

def ofJson? (payload : Text.Bytes) : Option Config :=
  Json.Document.ofBytes? payload >>= Format.json.config

end Config
end Courier
