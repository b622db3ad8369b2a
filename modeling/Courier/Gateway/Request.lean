import Courier.Gateway.Wire
import Courier.Message.Peer

/-!
# Messenger requests

What a provider asks the messenger to forward to the gateway, in terms of
peers, and how it is addressed on the gateway.
-/

namespace Courier
namespace Gateway

open Json (Value Decode)
open Json.Decode

structure TextRequest where
  sender : Peer
  recipient : Peer
  body : String
  domainId : Int64
deriving DecidableEq, Repr, Inhabited

namespace TextRequest

def encode (r : TextRequest) : Value :=
  .object [("from", r.sender.encode), ("to", r.recipient.encode), ("body", .string r.body),
    ("domain_id", .ofInt r.domainId.toInt)]

def decode : Decode TextRequest :=
  record ["from", "to", "body", "domain_id"] fun
    | [sender, recipient, body, domainId] => do
      return {
        sender := ← sender.required Peer.decode
        recipient := ← recipient.required Peer.decode
        body := ← body.required string
        domainId := ← domainId.required int64 }
    | _ => none

instance : Json.Codec TextRequest := ⟨encode, decode⟩

end TextRequest

structure ImageAttachment where
  id : Int64
  url : String
  mimeType : String
  name : String
deriving DecidableEq, Repr, Inhabited

namespace ImageAttachment

def encode (i : ImageAttachment) : Value :=
  .object [("id", .ofInt i.id.toInt), ("url", .string i.url), ("mime_type", .string i.mimeType),
    ("name", .string i.name)]

def decode : Decode ImageAttachment :=
  record ["id", "url", "mime_type", "name"] fun
    | [id, url, mimeType, name] => do
      return {
        id := ← id.required int64
        url := ← url.required string
        mimeType := ← mimeType.required string
        name := ← name.required string }
    | _ => none

def toLink (i : ImageAttachment) : ImageLink :=
  { id := toString i.id.toInt, name := i.name, link := i.url, mimeType := i.mimeType }

instance : Json.Codec ImageAttachment := ⟨encode, decode⟩

end ImageAttachment

structure ImageBatch where
  body : String
  images : List ImageAttachment
deriving DecidableEq, Repr, Inhabited

namespace ImageBatch

def encode (b : ImageBatch) : Value :=
  .object [("body", .string b.body),
    ("images", .array (b.images.map ImageAttachment.encode))]

def decode : Decode ImageBatch :=
  record ["body", "images"] fun
    | [body, images] => do
      return {
        body := ← body.required string
        images := ← images.required (list ImageAttachment.decode) }
    | _ => none

instance : Json.Codec ImageBatch := ⟨encode, decode⟩

end ImageBatch

structure ImageRequest where
  sender : Peer
  recipient : Peer
  image : ImageBatch
  domainId : Int64
deriving DecidableEq, Repr, Inhabited

namespace ImageRequest

def encode (r : ImageRequest) : Value :=
  .object [("from", r.sender.encode), ("to", r.recipient.encode), ("image", r.image.encode),
    ("domain_id", .ofInt r.domainId.toInt)]

def decode : Decode ImageRequest :=
  record ["from", "to", "image", "domain_id"] fun
    | [sender, recipient, image, domainId] => do
      return {
        sender := ← sender.required Peer.decode
        recipient := ← recipient.required Peer.decode
        image := ← image.required ImageBatch.decode
        domainId := ← domainId.required int64 }
    | _ => none

instance : Json.Codec ImageRequest := ⟨encode, decode⟩

end ImageRequest

structure DocumentAttachment where
  id : Int64
  name : String
  mimeType : String
  size : Int64
  url : String
deriving DecidableEq, Repr, Inhabited

namespace DocumentAttachment

def encode (d : DocumentAttachment) : Value :=
  .object [("id", .ofInt d.id.toInt), ("name", .string d.name), ("mime_type", .string d.mimeType),
    ("size", .ofInt d.size.toInt), ("url", .string d.url)]

def decode : Decode DocumentAttachment :=
  record ["id", "name", "mime_type", "size", "url"] fun
    | [id, name, mimeType, size, url] => do
      return {
        id := ← id.required int64
        name := ← name.required string
        mimeType := ← mimeType.required string
        size := ← size.required int64
        url := ← url.required string }
    | _ => none

def toLink (d : DocumentAttachment) : DocumentLink :=
  { id := toString d.id.toInt, url := d.url, fileName := d.name, mimeType := d.mimeType,
    size := some d.size }

instance : Json.Codec DocumentAttachment := ⟨encode, decode⟩

end DocumentAttachment

structure DocumentBatch where
  body : String
  documents : List DocumentAttachment
deriving DecidableEq, Repr, Inhabited

namespace DocumentBatch

def encode (b : DocumentBatch) : Value :=
  .object [("body", .string b.body),
    ("documents", .array (b.documents.map DocumentAttachment.encode))]

def decode : Decode DocumentBatch :=
  record ["body", "documents"] fun
    | [body, documents] => do
      return {
        body := ← body.required string
        documents := ← documents.required (list DocumentAttachment.decode) }
    | _ => none

instance : Json.Codec DocumentBatch := ⟨encode, decode⟩

end DocumentBatch

structure DocumentRequest where
  sender : Peer
  recipient : Peer
  document : DocumentBatch
  domainId : Int64
deriving DecidableEq, Repr, Inhabited

namespace DocumentRequest

def encode (r : DocumentRequest) : Value :=
  .object [("from", r.sender.encode), ("to", r.recipient.encode),
    ("document", r.document.encode), ("domain_id", .ofInt r.domainId.toInt)]

def decode : Decode DocumentRequest :=
  record ["from", "to", "document", "domain_id"] fun
    | [sender, recipient, document, domainId] => do
      return {
        sender := ← sender.required Peer.decode
        recipient := ← recipient.required Peer.decode
        document := ← document.required DocumentBatch.decode
        domainId := ← domainId.required int64 }
    | _ => none

instance : Json.Codec DocumentRequest := ⟨encode, decode⟩

end DocumentRequest

structure Forwarded where
  recipient : Peer
  id : Identifier
deriving DecidableEq, Repr, Inhabited

namespace Forwarded

def encode (r : Forwarded) : Value :=
  .object [("to", r.recipient.encode), ("id", r.id.encode)]

def decode : Decode Forwarded :=
  record ["to", "id"] fun
    | [recipient, id] => do
      return {
        recipient := ← recipient.required Peer.decode
        id := ← id.required Identifier.decode }
    | _ => none

instance : Json.Codec Forwarded := ⟨encode, decode⟩

end Forwarded

/-- A sender is known to the gateway by its outside identity, or else by its identifier. -/
def senderTarget (p : Peer) : Target :=
  .contact { subject := p.subject.getD p.id.toString, issuer := p.issuer.getD "" }

def TextRequest.toBody (r : TextRequest) : TextBody :=
  { recipient := senderTarget r.sender, body := r.body }

def ImageRequest.toBody (r : ImageRequest) : ImageBody :=
  { recipient := senderTarget r.sender
    image := { body := r.image.body, images := r.image.images.map ImageAttachment.toLink } }

def DocumentRequest.toBody (r : DocumentRequest) : DocumentBody :=
  { recipient := senderTarget r.sender
    document :=
      { body := r.document.body
        documents := r.document.documents.map DocumentAttachment.toLink } }

/-- What was forwarded; an answered identifier that cannot be read becomes nil. -/
def forwardedTo (recipient : Peer) (sent : Sent) : Forwarded :=
  { recipient := recipient, id := (Identifier.ofString? sent.id).getD Identifier.nil }

end Gateway
end Courier
