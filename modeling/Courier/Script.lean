import Courier.Json.Lookup

/-!
# Scripts

Whatever takes part in a scenario acts by a script, whose entries are described
in JSON. An entry may be put off: it then tells by how many milliseconds, and
holds the entry that is meant.
-/

namespace Courier
namespace Script

open Json (Document)

/-- By how long an entry is put off in all, and the entry meant, if there is one. -/
def delayed (d : Document) : Nat × Option Document :=
  match d.natAt? "delay" with
  | none => (0, some d)
  | some ms =>
    match _h : d.get? "then" with
    | none => (ms, none)
    | some entry =>
      let (more, meant) := delayed entry
      (ms + more, meant)
termination_by sizeOf d
decreasing_by exact Document.sizeOf_lt_of_get? (by assumption)

end Script
end Courier
