import Courier.Config.Address
import Courier.Dispatch.Outcome
import Courier.Routing.Operation
import Courier.Rpc.Backoff
import Courier.Rpc.Breaker

/-!
# Configuration

The settings of the service with their defaults, and what makes them valid.
-/

namespace Courier
namespace Config

open Dispatch (PanicPolicy)
open Rpc (BreakerSettings RetryPolicy)
open Time (Span)

structure ServiceSection where
  id : String := ""
  httpAddress : Address := Address.anyHost 8081
  shutdownGrace : Span := .ofSeconds 10
deriving DecidableEq, Repr

structure LogSection where
  level : String := "info"
  json : Bool := false
  file : Option String := none
deriving DecidableEq, Repr

structure BusSection where
  brokerUrl : String := ""
  exchange : String := Routing.outboundExchange
deriving DecidableEq, Repr

structure DispatchSection where
  maxRetries : UInt32 := 3
  retryInterval : Span := .ofSeconds 2
  handlerTimeout : Span := .ofSeconds 30
  panicPolicy : PanicPolicy := .dropOnPanic
deriving DecidableEq, Repr

structure DiscoverySection where
  consulAddress : Option String := none
  /-- Base addresses by service, in order of names. -/
  endpoints : List (String × List String) := []
deriving DecidableEq, Repr

structure RpcSection where
  maxAttempts : UInt32 := 3
  initialBackoff : Span := .ofMilliseconds 100
  greatestBackoff : Span := .ofSeconds 2
  failureThreshold : UInt32 := 5
  failureWindow : Span := .ofSeconds 60
  openDuration : Span := .ofSeconds 30
  callTimeout : Span := .ofSeconds 10
deriving DecidableEq, Repr

def RpcSection.retryPolicy (s : RpcSection) : RetryPolicy :=
  { maxAttempts := s.maxAttempts.toNat, initial := s.initialBackoff,
    greatest := s.greatestBackoff }

def RpcSection.breakerSettings (s : RpcSection) : BreakerSettings :=
  { failureThreshold := s.failureThreshold.toNat
    failureWindow := s.failureWindow.milliseconds
    openDuration := s.openDuration.milliseconds }

end Config

open Config in
structure Config where
  service : ServiceSection := {}
  log : LogSection := {}
  bus : BusSection := {}
  dispatch : DispatchSection := {}
  discovery : DiscoverySection := {}
  rpc : RpcSection := {}
  providers : List String := ["facebook", "whatsapp"]
deriving DecidableEq, Repr

namespace Config

inductive Error where
  | unreadable (path reason : String)
  | malformed (path : String)
  | missing (key : String)
  | invalid (key reason : String)
deriving DecidableEq, Repr

/-- What is wrong, without the reader's own words on a malformed file. -/
def Error.message : Error → String
  | .unreadable path reason => "failed to read config file " ++ path ++ ": " ++ reason
  | .malformed path => "failed to parse config file " ++ path
  | .missing key => "missing required config key `" ++ key ++ "`"
  | .invalid key reason => "invalid config key `" ++ key ++ "`: " ++ reason

def beginsWith (start s : String) : Bool :=
  start.toList.isPrefixOf s.toList

/-- The first provider key that is empty or was there before. -/
def providerFault? : List String → List String → Option Error
  | _, [] => none
  | seen, key :: rest =>
    if key.isEmpty then some (.invalid "providers" "provider keys must not be empty")
    else if seen.contains key then
      some (.invalid "providers" ("duplicate provider `" ++ key ++ "`"))
    else providerFault? (key :: seen) rest

def brokerFault? (url : String) : Option Error :=
  let url := Text.trim url
  if url.isEmpty then some (.missing "pubsub.broker_url")
  else if beginsWith "nats://" url || beginsWith "tls://" url then none
  else
    some (.invalid "pubsub.broker_url"
      ("`" ++ url ++ "` must use the nats:// or tls:// scheme"))

def faultIf (condition : Bool) (e : Error) : Option Error :=
  if condition then some e else none

def faults (c : Config) : List (Option Error) :=
  [faultIf (Text.isBlank c.service.id) (.missing "service.id"),
    brokerFault? c.bus.brokerUrl,
    faultIf (Text.isBlank c.bus.exchange) (.missing "pubsub.exchange"),
    faultIf c.providers.isEmpty (.missing "providers"),
    providerFault? [] c.providers,
    faultIf (c.dispatch.handlerTimeout.nanoseconds == 0)
      (.invalid "dispatch.handler_timeout" "must be greater than zero"),
    faultIf (c.rpc.maxAttempts == 0) (.invalid "rpc.max_attempts" "must be at least 1"),
    faultIf (c.rpc.failureThreshold == 0)
      (.invalid "rpc.failure_threshold" "must be at least 1"),
    faultIf (c.discovery.consulAddress.any Text.isBlank)
      (.invalid "discovery.consul_addr" "must not be blank")]

def validate (c : Config) : Option Error :=
  c.faults.findSome? id

end Config
end Courier
