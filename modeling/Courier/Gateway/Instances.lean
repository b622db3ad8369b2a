import Courier.Gateway.Exchange
import Courier.Gateway.Status

/-!
# Instances of services

A catalogue server lists the instances of a service that are in health. Each
lookup asks it anew, and begins with another instance, in turn.
-/

namespace Courier
namespace Gateway

open Json (Decode Document)
open Rpc (DiscoveryError Endpoint)

structure Instance where
  node : String
  address : String
  port : UInt16
deriving DecidableEq, Repr, Inhabited

namespace Instance

open Json.Decode in
def decodeNode : Decode String :=
  record ["Address"] fun
    | [address] => address.withDefault "" string
    | _ => none

open Json.Decode in
def decodeService : Decode (String × UInt16) :=
  record ["Address", "Port"] fun
    | [address, port] => do return (← address.withDefault "" string, ← port.required uint16)
    | _ => none

open Json.Decode in
def decode : Decode Instance :=
  record ["Node", "Service"] fun
    | [node, service] => do
      let node ← node.required decodeNode
      let (address, port) ← service.required decodeService
      return ⟨node, address, port⟩
    | _ => none

/-- An instance without an address of its own is found at its node. -/
def host (i : Instance) : String :=
  if i.address.isEmpty then i.node else i.address

def endpoint (i : Instance) : Endpoint :=
  .ofBase ("http://" ++ i.host ++ ":" ++ toString i.port.toNat)

end Instance

structure Catalogue where
  base : String
  cursor : UInt64 := 0
deriving DecidableEq, Repr, Inhabited

namespace Catalogue

def hasScheme (address : String) : Bool :=
  "http://".toList.isPrefixOf address.toList || "https://".toList.isPrefixOf address.toList

def ofAddress (address : String) : Catalogue :=
  let bare := (Endpoint.ofBase address).base
  { base := if hasScheme address then bare else "http://" ++ bare }

def url (c : Catalogue) (service : String) : String :=
  c.base ++ "/v1/health/service/" ++ service ++ "?passing=true"

def instances? (service : String) : Exchange → Except DiscoveryError (List Instance)
  | .unsendable message => .error (.lookup service [message])
  | .lost causes => .error (.lookup service causes)
  | .cutShort status =>
    .error (.lookup service
      [if isSuccess status then undecodable else "consul returned " ++ statusText status])
  | .response status body =>
    if isSuccess status then
      match Document.ofBytes? body >>= Json.Decode.list Instance.decode with
      | some instances => .ok instances
      | none => .error (.lookup service [undecodable])
    else .error (.lookup service ["consul returned " ++ statusText status])

def resolve (ask : String → Exchange) (c : Catalogue) (service : String) :
    Except DiscoveryError (List Endpoint) × Catalogue :=
  match instances? service (ask (c.url service)) with
  | .error e => (.error e, c)
  | .ok [] => (.error (.noEndpoints service), c)
  | .ok instances =>
    let (endpoints, cursor) := Rpc.inTurn c.cursor (instances.map Instance.endpoint)
    (.ok endpoints, { c with cursor := cursor })

end Catalogue
end Gateway
end Courier
