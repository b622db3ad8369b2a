import Courier.Causes

/-!
# Call errors

How a single attempt can fail, and how a call as a whole can.
-/

namespace Courier
namespace Rpc

inductive CallError where
  /-- The target could not be reached or was not available. -/
  | transient (causes : Causes)
  | application (status : Option UInt16) (message : String)
deriving DecidableEq, Repr, Inhabited

def applicationMessage (status : Option UInt16) (message : String) : String :=
  match status with
  | none => "application error: " ++ message
  | some s => "application error (" ++ toString s.toNat ++ "): " ++ message

def CallError.message : CallError → String
  | .transient causes => "transient: " ++ causes.outermost
  | .application status message => applicationMessage status message

inductive DiscoveryError where
  | noEndpoints (service : String)
  | lookup (service : String) (causes : Causes)
deriving DecidableEq, Repr, Inhabited

def DiscoveryError.message : DiscoveryError → String
  | .noEndpoints service => "no live endpoints for `" ++ service ++ "`"
  | .lookup service causes => "lookup of `" ++ service ++ "` failed: " ++ causes.outermost

inductive Error where
  | breakerOpen (target : String)
  | transient (target : String) (attempts : Nat) (causes : Causes)
  | application (status : Option UInt16) (message : String)
  | discovery (e : DiscoveryError)
  | invalidRequest (message : String)
deriving DecidableEq, Repr, Inhabited

namespace Error

def message : Error → String
  | .breakerOpen target => "circuit breaker open for `" ++ target ++ "`"
  | .transient target attempts causes =>
    "`" ++ target ++ "` unavailable after " ++ toString attempts ++ " attempt(s): " ++
      causes.outermost
  | .application status message => applicationMessage status message
  | .discovery e => e.message
  | .invalidRequest message => "invalid request: " ++ message

def isBreakerOpen : Error → Bool
  | .breakerOpen _ => true
  | _ => false

def isRetryable : Error → Bool
  | .breakerOpen _ => true
  | .transient _ _ _ => true
  | .discovery _ => true
  | _ => false

end Error
end Rpc
end Courier
