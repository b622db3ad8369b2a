/-!
# Causes of failures

A failure is told by what caused it, from the root to the latest context.
-/

namespace Courier

/-- The causes of a failure, the root first and the outermost last. -/
abbrev Causes := List String

def Causes.outermost (causes : Causes) : String :=
  causes.getLast?.getD ""

def Causes.describe (causes : Causes) : String :=
  ": ".intercalate causes.reverse

end Courier
