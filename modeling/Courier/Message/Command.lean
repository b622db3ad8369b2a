import Courier.Message.Basic
import Courier.Time.Instant

/-!
# Send commands

The payload by which a producer asks for a message to be sent. Every field may
be left out. Reading a message off a command never fails: an identifier that is
malformed becomes nil, and a time that is malformed becomes the current one.
-/

namespace Courier
namespace Command

open Json (Value Decode)

/-- A peer as a command names it: an identifier in text and a kind's code. -/
structure Address where
  id : String := ""
  code : Int32 := 0
deriving DecidableEq, Repr, Inhabited

structure ImageFile where
  id : Int64 := 0
  mimeType : String := ""
  name : String := ""
  url : String := ""
deriving DecidableEq, Repr, Inhabited

structure DocumentFile where
  id : Int64 := 0
  mimeType : String := ""
  name : String := ""
  size : Int64 := 0
deriving DecidableEq, Repr, Inhabited

end Command

open Command in
structure Command where
  messageId : String := ""
  threadId : String := ""
  domainId : Int32 := 0
  sender : Address := {}
  recipient : Address := {}
  body : String := ""
  occurredAt : String := ""
  images : List ImageFile := []
  documents : List DocumentFile := []
deriving DecidableEq, Repr, Inhabited

namespace Command

/-! ## JSON -/

section Json

open Json Json.Decode

def Address.encode (a : Address) : Value :=
  .object [("id", .string a.id), ("type", .ofInt a.code.toInt)]

def Address.decode : Decode Address :=
  record ["id", "type"] fun
    | [id, code] => do
      return {
        id := ← id.withDefault "" string
        code := ← code.withDefault 0 int32 }
    | _ => none

def ImageFile.encode (f : ImageFile) : Value :=
  .object [("file_id", .ofInt f.id.toInt), ("mime", .string f.mimeType),
    ("name", .string f.name), ("url", .string f.url)]

def ImageFile.decode : Decode ImageFile :=
  record ["file_id", "mime", "name", "url"] fun
    | [id, mimeType, name, url] => do
      return {
        id := ← id.withDefault 0 int64
        mimeType := ← mimeType.withDefault "" string
        name := ← name.withDefault "" string
        url := ← url.withDefault "" string }
    | _ => none

def DocumentFile.encode (f : DocumentFile) : Value :=
  .object [("file_id", .ofInt f.id.toInt), ("mime", .string f.mimeType),
    ("name", .string f.name), ("size", .ofInt f.size.toInt)]

def DocumentFile.decode : Decode DocumentFile :=
  record ["file_id", "mime", "name", "size"] fun
    | [id, mimeType, name, size] => do
      return {
        id := ← id.withDefault 0 int64
        mimeType := ← mimeType.withDefault "" string
        name := ← name.withDefault "" string
        size := ← size.withDefault 0 int64 }
    | _ => none

/-- Producers write `null` for an empty list of attachments. -/
def attachments (decode : Decode α) (v : Document) : Option (List α) :=
  (nullable (list decode) v).map (·.getD [])

def encode (c : Command) : Value :=
  .object [("message_id", .string c.messageId), ("thread_id", .string c.threadId),
    ("domain_id", .ofInt c.domainId.toInt), ("from", c.sender.encode),
    ("to", c.recipient.encode), ("body", .string c.body),
    ("occurred_at", .string c.occurredAt),
    ("images", .array (c.images.map ImageFile.encode)),
    ("documents", .array (c.documents.map DocumentFile.encode))]

def decode : Decode Command :=
  record ["message_id", "thread_id", "domain_id", "from", "to", "body", "occurred_at",
      "images", "documents"] fun
    | [messageId, threadId, domainId, sender, recipient, body, occurredAt, images,
        documents] => do
      return {
        messageId := ← messageId.withDefault "" string
        threadId := ← threadId.withDefault "" string
        domainId := ← domainId.withDefault 0 int32
        sender := ← sender.withDefault {} Address.decode
        recipient := ← recipient.withDefault {} Address.decode
        body := ← body.withDefault "" string
        occurredAt := ← occurredAt.withDefault "" string
        images := ← images.withDefault [] (attachments ImageFile.decode)
        documents := ← documents.withDefault [] (attachments DocumentFile.decode) }
    | _ => none

def ofBytes? (payload : Text.Bytes) : Option Command :=
  Document.ofBytes? payload >>= decode

instance : Codec Address := ⟨Address.encode, Address.decode⟩
instance : Codec ImageFile := ⟨ImageFile.encode, ImageFile.decode⟩
instance : Codec DocumentFile := ⟨DocumentFile.encode, DocumentFile.decode⟩
instance : Codec Command := ⟨encode, decode⟩

end Json

/-! ## Validation -/

inductive Missing where
  | messageId
  | domainId
deriving DecidableEq, Repr

def Missing.field : Missing → String
  | .messageId => "message_id"
  | .domainId => "domain_id"

def Missing.reason : String := "is required"

def Missing.message (m : Missing) : String :=
  m.field ++ " " ++ Missing.reason

/-- A message needs an identifier that is not blank, and a domain. -/
def validate (c : Command) : Option Missing :=
  if Text.isBlank c.messageId then some .messageId
  else if c.domainId = 0 then some .domainId
  else none

/-! ## The message of a command -/

def Address.toPeer (a : Address) : Peer :=
  { id := Identifier.ofStringLenient a.id, kind := PeerKind.ofCode a.code }

def ImageFile.toImage (f : ImageFile) : Message.Image :=
  { id := toString f.id.toInt, fileName := f.name, mimeType := f.mimeType, url := f.url }

def DocumentFile.toDocument (f : DocumentFile) : Message.Document :=
  { id := toString f.id.toInt, fileName := f.name, mimeType := f.mimeType, size := f.size }

def toMessage (now : Int64) (c : Command) : Message :=
  { id := Identifier.ofStringLenient c.messageId
    threadId := Identifier.ofStringLenient c.threadId
    domainId := c.domainId.toInt64
    sender := c.sender.toPeer
    recipient := c.recipient.toPeer
    text := c.body
    createdAt := Time.millisecondsLenient now c.occurredAt
    documents := c.documents.map DocumentFile.toDocument
    images := c.images.map ImageFile.toImage }

end Command
end Courier
