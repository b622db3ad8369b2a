import Courier.Provider.Hosted
import Courier.Script

/-!
# Scripted adapters

Adapters that act by script are described in JSON, each with the key it is
registered under, the type it reports, and what it does at each use.
-/

namespace Courier
namespace Provider

open Json (Document)

namespace Act

def ofBrief? (d : Document) : Option Act :=
  match d.text?, d.natAt? "delay" with
  | some "transient", _ => some .unavailable
  | some "permanent", _ => some .rejected
  | some "panic", _ => some .namedPanic
  | _, some ms => some (.delay ms)
  | _, none => none

def failureOf (d : Document) : Error :=
  if d.flagAt "retryable" true then .retryable (d.textAt "code") (d.textAt "message")
  else .permanent (d.textAt "code") (d.textAt "message")

/-- A panic whose reason is no text gives none. -/
def panicReason (kind text : String) : String :=
  if kind = "any" then "unknown panic" else text

def outcomeOf (d : Document) : Outcome :=
  match d.get? "fail", d.get? "anyhow", d.textAt? "panic" with
  | some failure, _, _ => .failure (failureOf failure)
  | _, some causes, _ => .failure (.ofCauses causes.texts)
  | _, _, some kind => .panic (panicReason kind (d.textAt "text"))
  | _, _, _ => .success

def ofDocument (d : Document) : Act :=
  let (after, meant) := Script.delayed d
  .answer { after := after, outcome := (meant.map outcomeOf).getD .success }

def ofScript (kind : AdapterKind) (script : List Document) : List Act :=
  match kind with
  | .recording => script.filterMap ofBrief?
  | .scripted => script.map ofDocument
  | .logging => []

end Act

def AdapterKind.ofString : String → AdapterKind
  | "scripted" => .scripted
  | "logging" => .logging
  | _ => .recording

def Adapter.ofDocument (d : Document) : Adapter :=
  let kind := AdapterKind.ofString (d.textAt "kind")
  { kind := kind
    script := Act.ofScript kind (d.itemsAt "script")
    webhookFault := d.textAt? "webhook_error" }

def Registration.ofDocument (place : Nat) (d : Document) : Registration Handle :=
  let key := d.textAt "key"
  let handle : Handle := ⟨d.textAt "reports" key, place⟩
  let attached (direction : String) := if d.flagAt direction true then some handle else none
  { key := key, sender := attached "sender", receiver := attached "receiver" }

/-- Adapters with the keys they are described under, and the registry of them. -/
structure Roster where
  keys : List String
  adapters : List Adapter
  registry : Registry Handle
deriving Repr, Inhabited

def Roster.ofDocuments (providers : List Document) : Except RegistryError Roster := do
  let registry ← Registry.build Handle.reported
    (providers.zipIdx.map fun (d, place) => .ofDocument place d)
  return {
    keys := providers.map fun d => d.textAt "key"
    adapters := providers.map Adapter.ofDocument
    registry := registry }

end Provider
end Courier
