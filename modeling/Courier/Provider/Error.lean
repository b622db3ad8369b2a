import Courier.Causes

/-!
# Provider errors

A failure that a provider reports: a code for machines, a message for people,
and whether another attempt may succeed.
-/

namespace Courier
namespace Provider

inductive RetryClass where
  | transient
  | permanent
deriving DecidableEq, Repr, Inhabited

structure Error where
  code : String
  text : String
  retryClass : RetryClass
  hasCause : Bool := false
deriving DecidableEq, Repr, Inhabited

namespace Error

def permanent (code text : String) : Error :=
  { code := code, text := text, retryClass := .permanent }

def retryable (code text : String) : Error :=
  { code := code, text := text, retryClass := .transient }

def withCause (e : Error) : Error := { e with hasCause := true }

def message (e : Error) : String := e.code ++ ": " ++ e.text

def isRetryable (e : Error) : Bool := e.retryClass = .transient

/-- A failure that was not classified may pass. -/
def ofCauses (causes : Causes) : Error :=
  (retryable "internal_error" causes.describe).withCause

end Error
end Provider
end Courier
