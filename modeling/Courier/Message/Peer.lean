import Courier.Identifier
import Courier.Json.Record

/-!
# Peers

Whom a message comes from or goes to: a contact, a group or a channel, with the
claims of an outside identity and a name where they are known.
-/

namespace Courier

inductive PeerKind where
  | contact
  | group
  | channel
deriving DecidableEq, Repr, Inhabited

namespace PeerKind

def code : PeerKind → Int32
  | .contact => 1
  | .group => 2
  | .channel => 3

/-- A code that stands for no other kind means a contact. -/
def ofCode (n : Int32) : PeerKind :=
  if n = 2 then .group else if n = 3 then .channel else .contact

def name : PeerKind → String
  | .contact => "contact"
  | .group => "group"
  | .channel => "channel"

def all : List PeerKind := [.contact, .group, .channel]

theorem ofCode_code (k : PeerKind) : ofCode k.code = k := by
  cases k <;> rfl

def encode (k : PeerKind) : Json.Value :=
  .string k.name

def decode : Json.Decode PeerKind :=
  Json.Decode.oneOf (all.map fun k => (k.name, k))

instance : Json.Codec PeerKind := ⟨encode, decode⟩

end PeerKind

namespace Identifier

def encode (x : Identifier) : Json.Value :=
  .string x.toString

def decode (v : Json.Document) : Option Identifier :=
  Json.Decode.string v >>= ofString?

end Identifier

structure Peer where
  id : Identifier
  kind : PeerKind
  subject : Option String := none
  issuer : Option String := none
  name : Option String := none
deriving DecidableEq, Repr, Inhabited

namespace Peer

def withIdentity (p : Peer) (subject issuer : String) : Peer :=
  { p with subject := some subject, issuer := some issuer }

def withName (p : Peer) (name : String) : Peer :=
  { p with name := some name }

open Json in
def encode (p : Peer) : Value :=
  .object <|
    [("id", p.id.encode), ("type", p.kind.encode)] ++
      member? "sub" (p.subject.map .string) ++
      member? "issuer" (p.issuer.map .string) ++
      member? "name" (p.name.map .string)

open Json Json.Decode in
def decode : Decode Peer :=
  record ["id", "type", "sub", "issuer", "name"] fun
    | [id, kind, subject, issuer, name] => do
      return {
        id := ← id.required Identifier.decode
        kind := ← kind.required PeerKind.decode
        subject := ← subject.withDefault none (nullable string)
        issuer := ← issuer.withDefault none (nullable string)
        name := ← name.withDefault none (nullable string) }
    | _ => none

instance : Json.Codec Peer := ⟨encode, decode⟩

end Peer
end Courier
