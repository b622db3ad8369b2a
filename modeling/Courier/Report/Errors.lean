import Courier.Bus.Delivery
import Courier.Config.Basic
import Courier.Provider.Error
import Courier.Provider.Registry
import Courier.Rpc.Error

/-!
# Reports of errors

Each error is told in JSON by its kind, its message, and what else is known.
-/

namespace Courier
namespace Report

open Json (Value)

def ofKind (kind : String) (more : List (String × Value)) : Value :=
  .object (("error", .string kind) :: more)

def ofMessage (kind message : String) : Value :=
  ofKind kind [("message", .string message)]

def topologyError (e : Bus.TopologyError) : Value :=
  let kind :=
    match e with
    | .missingQueue => "MissingQueue"
    | .missingBinding _ => "MissingBinding"
    | .missingExchange _ => "MissingExchange"
    | .queueInUse _ => "QueueInUse"
    | .unsupported _ => "Unsupported"
  ofMessage kind e.message

def busError (e : Bus.Error) : Value :=
  let kind :=
    match e with
    | .publish _ => "Publish"
    | .subscribe _ => "Subscribe"
    | .settle _ => "Ack"
    | .topology _ => "Topology"
  ofMessage kind e.message

def registryError (e : Provider.RegistryError) : Value :=
  let kind :=
    match e with
    | .alreadyRegistered _ => "AlreadyRegistered"
    | .emptyKey => "EmptyKey"
    | .noCapabilities _ => "NoCapabilities"
    | .keyMismatch _ _ => "KeyMismatch"
  ofMessage kind e.message

def retryClassName : Provider.RetryClass → String
  | .transient => "Transient"
  | .permanent => "Permanent"

def providerError (e : Provider.Error) : Value :=
  ofKind "ProviderError"
    [("code", .string e.code), ("text", .string e.text), ("message", .string e.message),
      ("class", .string (retryClassName e.retryClass)), ("retryable", .bool e.isRetryable),
      ("source", .bool e.hasCause)]

def rpcErrorKind : Rpc.Error → String
  | .breakerOpen _ => "BreakerOpen"
  | .transient _ _ _ => "Transient"
  | .application _ _ => "Application"
  | .discovery (.noEndpoints _) => "Discovery.NoEndpoints"
  | .discovery (.lookup _ _) => "Discovery.Lookup"
  | .invalidRequest _ => "InvalidRequest"

def rpcErrorDetails : Rpc.Error → List (String × Value)
  | .transient _ attempts _ => [("attempts", .ofInt attempts)]
  | .application (some status) _ => [("status", .ofInt status.toNat)]
  | .application none _ => [("status", .null)]
  | _ => []

def rpcErrorMembers (words : String → String) (e : Rpc.Error) : List (String × Value) :=
  [("error", .string (rpcErrorKind e)), ("message", .string (words e.message)),
    ("retryable", .bool e.isRetryable), ("breaker_open", .bool e.isBreakerOpen)] ++
    rpcErrorDetails e

def configError (e : Config.Error) : Value :=
  match e with
  | .unreadable _ _ => ofKind "Read" []
  | .malformed _ => ofKind "Parse" []
  | .missing key => ofKind "Missing" [("key", .string key), ("message", .string e.message)]
  | .invalid key reason =>
    ofKind "Invalid"
      [("key", .string key), ("reason", .string reason), ("message", .string e.message)]

end Report
end Courier
