import Courier.Config.Reading

/-!
# Overrides

Settings given on the command line or, where they are not, in the environment.
An option takes one value, attached to it after an equals sign or as the next
argument. A value is looked at when the next option comes or nothing is left;
what is no option or value at all is refused at once.
-/

namespace Courier
namespace Config

open Dispatch (PanicPolicy)

/-- Settings that can be overridden, in the order in which the environment is asked. -/
inductive Setting where
  | configFile
  | serviceId
  | httpAddress
  | brokerUrl
  | consulAddress
  | logLevel
  | logJson
  | logFile
  | panicPolicy
  | providers
deriving DecidableEq, Repr, Inhabited

namespace Setting

def all : List Setting :=
  [configFile, serviceId, httpAddress, brokerUrl, consulAddress, logLevel, logJson, logFile,
    panicPolicy, providers]

def option : Setting → String
  | configFile => "config-file"
  | serviceId => "service-id"
  | httpAddress => "http-addr"
  | brokerUrl => "broker-url"
  | consulAddress => "consul-addr"
  | logLevel => "log-level"
  | logJson => "log-json"
  | logFile => "log-file"
  | panicPolicy => "panic-policy"
  | providers => "providers"

def environmentName : Setting → String
  | configFile => "CONFIG_FILE"
  | serviceId => "SERVICE_ID"
  | httpAddress => "SERVICE_HTTP_ADDR"
  | brokerUrl => "PUBSUB_BROKER_URL"
  | consulAddress => "CONSUL_ADDR"
  | logLevel => "LOG_LEVEL"
  | logJson => "LOG_JSON"
  | logFile => "LOG_FILE"
  | panicPolicy => "DISPATCH_PANIC_POLICY"
  | providers => "PROVIDERS"

def ofOption? (name : String) : Option Setting :=
  all.find? fun s => s.option = name

end Setting

inductive UsageError where
  | unknownArgument
  | invalidValue
  | valueValidation
  | argumentConflict
  | tooManyValues
  | helpAsked
deriving DecidableEq, Repr, Inhabited

structure Overrides where
  configFile : Option String := none
  serviceId : Option String := none
  httpAddress : Option Address := none
  brokerUrl : Option String := none
  consulAddress : Option String := none
  logLevel : Option String := none
  logJson : Option Bool := none
  logFile : Option String := none
  panicPolicy : Option PanicPolicy := none
  providers : Option (List String) := none
deriving DecidableEq, Repr, Inhabited

namespace Overrides

def path (value : String) : Except UsageError String :=
  if value.isEmpty then .error .invalidValue else .ok value

def bools : List (String × Bool) := [("true", true), ("false", false)]

def oneOf {α : Type} (choices : List (String × α)) (value : String) : Except UsageError α :=
  match choices.lookup value with
  | some x => .ok x
  | none => .error .invalidValue

def address (value : String) : Except UsageError Address :=
  match Address.ofString? value with
  | some a => .ok a
  | none => .error .valueValidation

/-- Gives a setting a value; only providers may be added to. -/
def set (o : Overrides) (s : Setting) (value : String) : Except UsageError Overrides :=
  match s with
  | .configFile => do return { o with configFile := some (← path value) }
  | .serviceId => .ok { o with serviceId := some value }
  | .httpAddress => do return { o with httpAddress := some (← address value) }
  | .brokerUrl => .ok { o with brokerUrl := some value }
  | .consulAddress => .ok { o with consulAddress := some value }
  | .logLevel => .ok { o with logLevel := some value }
  | .logJson => do return { o with logJson := some (← oneOf bools value) }
  | .logFile => do return { o with logFile := some (← path value) }
  | .panicPolicy => do
    return { o with panicPolicy := some (← oneOf Format.panicPolicies value) }
  | .providers => .ok { o with providers := some (o.providers.getD [] ++ Text.split ',' value) }

/-! ## Arguments -/

inductive Argument where
  /-- Two hyphens: what follows is no option. -/
  | separator
  | long (name : String) (value : Option String)
  | short (letter : Char)
  | word (text : String)
deriving DecidableEq, Repr

def Argument.ofString (s : String) : Argument :=
  match s.toList with
  | ['-', '-'] => .separator
  | '-' :: '-' :: rest =>
    let name := rest.takeWhile (· != '=')
    .long (String.ofList name)
      (if name.length < rest.length then some (String.ofList (rest.drop (name.length + 1)))
        else none)
  | '-' :: c :: _ => .short c
  | _ => .word s

structure Pending where
  setting : Setting
  value : Option String
deriving DecidableEq, Repr

structure Parsing where
  overrides : Overrides := {}
  given : List Setting := []
  pending : Option Pending := none
deriving Repr, Inhabited

/-- Takes an option with its value, which may be missing; all but providers may come once. -/
def Parsing.take (p : Parsing) (s : Setting) (value : Option String) :
    Except UsageError Parsing :=
  match value with
  | none => .error .invalidValue
  | some value =>
    if s ≠ .providers ∧ s ∈ p.given then .error .argumentConflict
    else do return { p with overrides := ← p.overrides.set s value, given := s :: p.given }

def Parsing.settle (p : Parsing) : Except UsageError Parsing :=
  match p.pending with
  | none => .ok p
  | some q => ({ p with pending := none }).take q.setting q.value

def Parsing.run : List String → Parsing → Except UsageError Parsing
  | [], p => p.settle
  | s :: rest, p =>
    match Argument.ofString s with
    | .separator => if rest.isEmpty then p.settle else .error .unknownArgument
    | .long name value =>
      if name = "help" then
        if value.isSome then .error .tooManyValues else p.settle >>= fun _ => .error .helpAsked
      else
        match Setting.ofOption? name, value with
        | none, _ => .error .unknownArgument
        | some setting, none => do
          let p ← p.settle
          run rest { p with pending := some ⟨setting, none⟩ }
        | some setting, some value => do
          let p ← p.settle
          run rest (← p.take setting (some value))
    | .short letter =>
      if letter = 'h' then p.settle >>= fun _ => .error .helpAsked else .error .unknownArgument
    | .word text =>
      match p.pending with
      | some ⟨setting, none⟩ => run rest { p with pending := some ⟨setting, some text⟩ }
      | _ => .error .unknownArgument

def ofEnvironment (env : List (String × String)) (p : Parsing) : Except UsageError Overrides :=
  (Setting.all.filter fun s => s ∉ p.given).foldlM (fun o s =>
    match env.lookup s.environmentName with
    | none => .ok o
    | some value => o.set s value) p.overrides

def ofArguments (args : List String) (env : List (String × String)) :
    Except UsageError Overrides :=
  Parsing.run args {} >>= ofEnvironment env

/-! ## Use -/

def apply (o : Overrides) (c : Config) : Config :=
  { c with
    service := { c.service with
      id := o.serviceId.getD c.service.id
      httpAddress := o.httpAddress.getD c.service.httpAddress }
    log := {
      level := o.logLevel.getD c.log.level
      json := o.logJson.getD c.log.json
      file := o.logFile.or c.log.file }
    bus := { c.bus with brokerUrl := o.brokerUrl.getD c.bus.brokerUrl }
    dispatch := { c.dispatch with
      panicPolicy := o.panicPolicy.getD c.dispatch.panicPolicy }
    discovery := { c.discovery with
      consulAddress := o.consulAddress.or c.discovery.consulAddress }
    providers := (o.providers.map fun keys => keys.map Text.trim).getD c.providers }

end Overrides
end Config
end Courier
