import Courier.Message.Peer

/-!
# Messages

Messages as they are handed to providers, with their attachments, and what a
provider answers when it has taken one.
-/

namespace Courier

open Json (Value Decode)

namespace Message

structure Document where
  id : String
  fileName : String
  mimeType : String
  size : Int64
deriving DecidableEq, Repr, Inhabited

structure Image where
  id : String
  fileName : String
  mimeType : String
  url : String
deriving DecidableEq, Repr, Inhabited

end Message

open Message in
/-- Times are in milliseconds since the start of 1970. -/
structure Message where
  id : Identifier
  threadId : Identifier
  domainId : Int64
  sender : Peer
  recipient : Peer
  text : String
  createdAt : Int64
  editedAt : Option Int64 := none
  metadata : List (String × Value) := []
  documents : List Document := []
  images : List Image := []
deriving Repr, Inhabited

structure Receipt where
  id : Identifier
  metadata : List (String × Value) := []
deriving Repr, Inhabited

namespace Message

namespace Document

open Json Json.Decode

def encode (d : Message.Document) : Value :=
  .object [("id", .string d.id), ("file_name", .string d.fileName),
    ("mime_type", .string d.mimeType), ("size", .ofInt d.size.toInt)]

def decode : Decode Message.Document :=
  record ["id", "file_name", "mime_type", "size"] fun
    | [id, fileName, mimeType, size] => do
      return {
        id := ← id.required string
        fileName := ← fileName.required string
        mimeType := ← mimeType.required string
        size := ← size.required int64 }
    | _ => none

instance : Json.Codec Message.Document := ⟨encode, decode⟩

end Document

namespace Image

open Json Json.Decode

def encode (i : Image) : Value :=
  .object [("id", .string i.id), ("file_name", .string i.fileName),
    ("mime_type", .string i.mimeType), ("url", .string i.url)]

def decode : Decode Image :=
  record ["id", "file_name", "mime_type", "url"] fun
    | [id, fileName, mimeType, url] => do
      return {
        id := ← id.required string
        fileName := ← fileName.required string
        mimeType := ← mimeType.required string
        url := ← url.required string }
    | _ => none

instance : Json.Codec Image := ⟨encode, decode⟩

end Image

end Message

/-- How deeply a metadata value may be nested: the record and the map hold it. -/
def metadataDepth : Nat := Value.depthLimit - 2

def listMember? (key : String) (items : List α) (encode : α → Value) : List (String × Value) :=
  if items.isEmpty then [] else [(key, .array (items.map encode))]

def metadataMember? (metadata : List (String × Value)) : List (String × Value) :=
  if metadata.isEmpty then [] else [("metadata", .object metadata)]

namespace Message

open Json Json.Decode

def encode (m : Message) : Value :=
  .object <|
    [("id", m.id.encode), ("thread_id", m.threadId.encode),
      ("domain_id", .ofInt m.domainId.toInt), ("from", m.sender.encode),
      ("to", m.recipient.encode), ("text", .string m.text),
      ("created_at", .ofInt m.createdAt.toInt)] ++
      member? "edited_at" (m.editedAt.map fun n => .ofInt n.toInt) ++
      metadataMember? m.metadata ++
      listMember? "documents" m.documents Document.encode ++
      listMember? "images" m.images Image.encode

def decode : Decode Message :=
  record ["id", "thread_id", "domain_id", "from", "to", "text", "created_at", "edited_at",
      "metadata", "documents", "images"] fun
    | [id, threadId, domainId, sender, recipient, text, createdAt, editedAt, metadata,
        documents, images] => do
      return {
        id := ← id.required Identifier.decode
        threadId := ← threadId.required Identifier.decode
        domainId := ← domainId.required int64
        sender := ← sender.required Peer.decode
        recipient := ← recipient.required Peer.decode
        text := ← text.required string
        createdAt := ← createdAt.required int64
        editedAt := ← editedAt.withDefault none (nullable int64)
        metadata := ← metadata.withDefault [] (map (value metadataDepth))
        documents := ← documents.withDefault [] (list Document.decode)
        images := ← images.withDefault [] (list Image.decode) }
    | _ => none

instance : Json.Codec Message := ⟨encode, decode⟩

end Message

namespace Receipt

open Json Json.Decode

def encode (r : Receipt) : Value :=
  .object ([("id", r.id.encode)] ++ metadataMember? r.metadata)

def decode : Decode Receipt :=
  record ["id", "metadata"] fun
    | [id, metadata] => do
      return {
        id := ← id.required Identifier.decode
        metadata := ← metadata.withDefault [] (map (value metadataDepth)) }
    | _ => none

instance : Json.Codec Receipt := ⟨encode, decode⟩

end Receipt
end Courier
