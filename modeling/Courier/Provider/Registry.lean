import Courier.Text.Blank

/-!
# Registry of providers

Providers by key, each with an adapter that sends, one that receives, or both.
The registry is built from a list of registrations; the first that cannot be
taken decides the error.
-/

namespace Courier
namespace Provider

structure Registration (α : Type) where
  key : String
  sender : Option α := none
  receiver : Option α := none
deriving DecidableEq, Repr, Inhabited

inductive RegistryError where
  | alreadyRegistered (key : String)
  | emptyKey
  | noCapabilities (key : String)
  | keyMismatch (key reported : String)
deriving DecidableEq, Repr

def RegistryError.message : RegistryError → String
  | .alreadyRegistered key => "provider `" ++ key ++ "` already registered"
  | .emptyKey => "provider key must not be empty"
  | .noCapabilities key => "provider `" ++ key ++ "` registers neither a sender nor a receiver"
  | .keyMismatch key reported =>
    "provider `" ++ key ++ "` registered with an adapter reporting type `" ++ reported ++ "`"

structure Registry (α : Type) where
  entries : List (Registration α) := []
deriving Repr, Inhabited

namespace Registry

variable {α : Type}

def find? (r : Registry α) (key : String) : Option (Registration α) :=
  r.entries.find? fun e => e.key = key

def contains (r : Registry α) (key : String) : Bool :=
  (r.find? key).isSome

def sender? (r : Registry α) (key : String) : Option α :=
  r.find? key >>= Registration.sender

def receiver? (r : Registry α) (key : String) : Option α :=
  r.find? key >>= Registration.receiver

def keys (r : Registry α) : List String :=
  r.entries.map Registration.key

def size (r : Registry α) : Nat :=
  r.entries.length

/-- A type that an adapter reports and that is not the key, the sender's first. -/
def mismatch? (reports : α → String) (e : Registration α) : Option String :=
  ((e.sender.toList ++ e.receiver.toList).map reports).find? fun t => t ≠ e.key

def fault? (reports : α → String) (e : Registration α) : Option RegistryError :=
  if Text.isBlank e.key then some .emptyKey
  else if e.sender.isNone && e.receiver.isNone then some (.noCapabilities e.key)
  else (mismatch? reports e).map fun reported => .keyMismatch e.key reported

def insert (reports : α → String) (r : Registry α) (e : Registration α) :
    Except RegistryError (Registry α) :=
  match fault? reports e with
  | some fault => .error fault
  | none =>
    if r.contains e.key then .error (.alreadyRegistered e.key)
    else .ok ⟨r.entries ++ [e]⟩

def build (reports : α → String) (registrations : List (Registration α)) :
    Except RegistryError (Registry α) :=
  registrations.foldlM (insert reports) {}

end Registry
end Provider
end Courier
