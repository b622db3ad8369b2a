import Courier.Rpc.Error

/-!
# Discovery

The endpoints of services. A directory is a fixed list of endpoints for each
service; each lookup begins with another one, in turn.
-/

namespace Courier
namespace Rpc

structure Endpoint where
  base : String
deriving DecidableEq, Repr, Inhabited

namespace Endpoint

def dropSlashes (cs : List Char) : List Char :=
  cs.dropWhile (· == '/')

/-- An endpoint at a base address, without slashes at its end. -/
def ofBase (base : String) : Endpoint :=
  ⟨String.ofList (dropSlashes base.toList.reverse).reverse⟩

/-- The address of a path, with one slash between the base and the path. -/
def url (e : Endpoint) (path : String) : String :=
  e.base ++ "/" ++ String.ofList (dropSlashes path.toList)

end Endpoint

def rotateLeft (n : Nat) (items : List α) : List α :=
  items.drop n ++ items.take n

/-- The endpoints in their present turn, and the next turn; a single one takes no turn. -/
def inTurn (cursor : UInt64) (endpoints : List Endpoint) : List Endpoint × UInt64 :=
  if endpoints.length ≤ 1 then (endpoints, cursor)
  else (rotateLeft (cursor.toNat % endpoints.length) endpoints, cursor + 1)

structure Directory where
  services : List (String × List Endpoint)
  cursor : UInt64 := 0
deriving Repr, Inhabited

namespace Directory

/-- The endpoints of services by their base addresses; the last entry of a service counts. -/
def ofBases (services : List (String × List String)) : Directory :=
  { services := services.reverse.map fun (name, bases) => (name, bases.map Endpoint.ofBase) }

def resolve (d : Directory) (service : String) :
    Except DiscoveryError (List Endpoint) × Directory :=
  match d.services.lookup service with
  | none => (.error (.noEndpoints service), d)
  | some [] => (.error (.noEndpoints service), d)
  | some endpoints =>
    let (endpoints, cursor) := inTurn d.cursor endpoints
    (.ok endpoints, { d with cursor := cursor })

end Directory
end Rpc
end Courier
