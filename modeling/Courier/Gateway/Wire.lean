import Courier.Json.Record

/-!
# Gateway bodies

The JSON bodies exchanged with the gateway.
-/

namespace Courier
namespace Gateway

open Json (Value Decode)
open Json.Decode

structure Identity where
  subject : String
  issuer : String
deriving DecidableEq, Repr, Inhabited

namespace Identity

def encode (i : Identity) : Value :=
  .object [("sub", .string i.subject), ("iss", .string i.issuer)]

def decode : Decode Identity :=
  record ["sub", "iss"] fun
    | [subject, issuer] => do
      return {
        subject := ← subject.required string
        issuer := ← issuer.required string }
    | _ => none

instance : Json.Codec Identity := ⟨encode, decode⟩

end Identity

inductive Target where
  | contact (identity : Identity)
  | group (id : String)
  | channel (id : String)
deriving DecidableEq, Repr, Inhabited

namespace Target

def encodeId (id : String) : Value :=
  .object [("id", .string id)]

def decodeId : Decode String :=
  record ["id"] fun
    | [id] => id.required string
    | _ => none

def encode : Target → Value
  | .contact identity => .object [("contact", identity.encode)]
  | .group id => .object [("group", encodeId id)]
  | .channel id => .object [("channel", encodeId id)]

/-- An object with the kind of target as its only key. -/
def decode : Decode Target
  | .object [(key, v)] =>
    match Json.text? key with
    | some "contact" => (Identity.decode v).map .contact
    | some "group" => (decodeId v).map .group
    | some "channel" => (decodeId v).map .channel
    | _ => none
  | _ => none

instance : Json.Codec Target := ⟨encode, decode⟩

end Target

structure TextBody where
  recipient : Target
  body : String
deriving DecidableEq, Repr, Inhabited

namespace TextBody

def encode (r : TextBody) : Value :=
  .object [("to", r.recipient.encode), ("body", .string r.body)]

def decode : Decode TextBody :=
  record ["to", "body"] fun
    | [recipient, body] => do
      return {
        recipient := ← recipient.required Target.decode
        body := ← body.required string }
    | _ => none

instance : Json.Codec TextBody := ⟨encode, decode⟩

end TextBody

structure Sent where
  id : String := ""
deriving DecidableEq, Repr, Inhabited

namespace Sent

def encode (r : Sent) : Value :=
  .object [("id", .string r.id)]

def decode : Decode Sent :=
  record ["id"] fun
    | [id] => do return { id := ← id.withDefault "" string }
    | _ => none

instance : Json.Codec Sent := ⟨encode, decode⟩

end Sent

structure ImageLink where
  id : String
  name : String
  link : String
  mimeType : String
deriving DecidableEq, Repr, Inhabited

namespace ImageLink

def encode (i : ImageLink) : Value :=
  .object [("id", .string i.id), ("name", .string i.name), ("link", .string i.link),
    ("mime_type", .string i.mimeType)]

def decode : Decode ImageLink :=
  record ["id", "name", "link", "mime_type"] fun
    | [id, name, link, mimeType] => do
      return {
        id := ← id.required string
        name := ← name.required string
        link := ← link.required string
        mimeType := ← mimeType.required string }
    | _ => none

instance : Json.Codec ImageLink := ⟨encode, decode⟩

end ImageLink

structure Images where
  body : String
  images : List ImageLink
deriving DecidableEq, Repr, Inhabited

namespace Images

def encode (r : Images) : Value :=
  .object [("body", .string r.body), ("images", .array (r.images.map ImageLink.encode))]

def decode : Decode Images :=
  record ["body", "images"] fun
    | [body, images] => do
      return {
        body := ← body.required string
        images := ← images.required (list ImageLink.decode) }
    | _ => none

instance : Json.Codec Images := ⟨encode, decode⟩

end Images

structure ImageBody where
  recipient : Target
  image : Images
deriving DecidableEq, Repr, Inhabited

namespace ImageBody

def encode (r : ImageBody) : Value :=
  .object [("to", r.recipient.encode), ("image", r.image.encode)]

def decode : Decode ImageBody :=
  record ["to", "image"] fun
    | [recipient, image] => do
      return {
        recipient := ← recipient.required Target.decode
        image := ← image.required Images.decode }
    | _ => none

instance : Json.Codec ImageBody := ⟨encode, decode⟩

end ImageBody

structure DocumentLink where
  id : String
  url : String
  fileName : String
  mimeType : String
  size : Option Int64 := none
deriving DecidableEq, Repr, Inhabited

namespace DocumentLink

def encode (d : DocumentLink) : Value :=
  .object <|
    [("id", .string d.id), ("url", .string d.url), ("file_name", .string d.fileName),
      ("mime_type", .string d.mimeType)] ++
      Json.member? "size_bytes" (d.size.map fun n => .ofInt n.toInt)

def decode : Decode DocumentLink :=
  record ["id", "url", "file_name", "mime_type", "size_bytes"] fun
    | [id, url, fileName, mimeType, size] => do
      return {
        id := ← id.required string
        url := ← url.required string
        fileName := ← fileName.required string
        mimeType := ← mimeType.required string
        size := ← size.withDefault none (nullable int64) }
    | _ => none

instance : Json.Codec DocumentLink := ⟨encode, decode⟩

end DocumentLink

structure Documents where
  body : String
  documents : List DocumentLink
deriving DecidableEq, Repr, Inhabited

namespace Documents

def encode (r : Documents) : Value :=
  .object [("body", .string r.body),
    ("documents", .array (r.documents.map DocumentLink.encode))]

def decode : Decode Documents :=
  record ["body", "documents"] fun
    | [body, documents] => do
      return {
        body := ← body.required string
        documents := ← documents.required (list DocumentLink.decode) }
    | _ => none

instance : Json.Codec Documents := ⟨encode, decode⟩

end Documents

structure DocumentBody where
  recipient : Target
  document : Documents
deriving DecidableEq, Repr, Inhabited

namespace DocumentBody

def encode (r : DocumentBody) : Value :=
  .object [("to", r.recipient.encode), ("document", r.document.encode)]

def decode : Decode DocumentBody :=
  record ["to", "document"] fun
    | [recipient, document] => do
      return {
        recipient := ← recipient.required Target.decode
        document := ← document.required Documents.decode }
    | _ => none

instance : Json.Codec DocumentBody := ⟨encode, decode⟩

end DocumentBody

/-! ## Credentials -/

structure TokenBody where
  grantType : String
  code : Option String := none
  refreshToken : Option String := none
deriving DecidableEq, Repr, Inhabited

namespace TokenBody

def encode (r : TokenBody) : Value :=
  .object <|
    [("grant_type", .string r.grantType)] ++
      Json.member? "code" (r.code.map .string) ++
      Json.member? "refresh_token" (r.refreshToken.map .string)

def decode : Decode TokenBody :=
  record ["grant_type", "code", "refresh_token"] fun
    | [grantType, code, refreshToken] => do
      return {
        grantType := ← grantType.required string
        code := ← code.withDefault none (nullable string)
        refreshToken := ← refreshToken.withDefault none (nullable string) }
    | _ => none

instance : Json.Codec TokenBody := ⟨encode, decode⟩

end TokenBody

structure Contact where
  id : String := ""
  subject : String := ""
  issuer : String := ""
  name : String := ""
deriving DecidableEq, Repr, Inhabited

namespace Contact

def encode (c : Contact) : Value :=
  .object [("id", .string c.id), ("sub", .string c.subject), ("iss", .string c.issuer),
    ("name", .string c.name)]

def decode : Decode Contact :=
  record ["id", "sub", "iss", "name"] fun
    | [id, subject, issuer, name] => do
      return {
        id := ← id.withDefault "" string
        subject := ← subject.withDefault "" string
        issuer := ← issuer.withDefault "" string
        name := ← name.withDefault "" string }
    | _ => none

instance : Json.Codec Contact := ⟨encode, decode⟩

end Contact

structure Authorization where
  tokenType : String := ""
  accessToken : String := ""
  refreshToken : String := ""
  expiresIn : Int64 := 0
  contact : Option Contact := none
deriving DecidableEq, Repr, Inhabited

namespace Authorization

/-- A contact that is absent is written as `null`. -/
def encode (a : Authorization) : Value :=
  .object [("token_type", .string a.tokenType), ("access_token", .string a.accessToken),
    ("refresh_token", .string a.refreshToken), ("expires_in", .ofInt a.expiresIn.toInt),
    ("contact", (a.contact.map Contact.encode).getD .null)]

def decode : Decode Authorization :=
  record ["token_type", "access_token", "refresh_token", "expires_in", "contact"] fun
    | [tokenType, accessToken, refreshToken, expiresIn, contact] => do
      return {
        tokenType := ← tokenType.withDefault "" string
        accessToken := ← accessToken.withDefault "" string
        refreshToken := ← refreshToken.withDefault "" string
        expiresIn := ← expiresIn.withDefault 0 int64
        contact := ← contact.withDefault none (nullable Contact.decode) }
    | _ => none

instance : Json.Codec Authorization := ⟨encode, decode⟩

end Authorization

structure Credentials where
  contactId : String
  subject : String
  issuer : String
  name : String
deriving DecidableEq, Repr, Inhabited

namespace Credentials

def encode (c : Credentials) : Value :=
  .object [("contact_id", .string c.contactId), ("sub", .string c.subject),
    ("iss", .string c.issuer), ("name", .string c.name)]

def decode : Decode Credentials :=
  record ["contact_id", "sub", "iss", "name"] fun
    | [contactId, subject, issuer, name] => do
      return {
        contactId := ← contactId.required string
        subject := ← subject.required string
        issuer := ← issuer.required string
        name := ← name.required string }
    | _ => none

instance : Json.Codec Credentials := ⟨encode, decode⟩

end Credentials

structure Empty where
deriving DecidableEq, Repr, Inhabited

namespace Empty

def encode (_ : Empty) : Value :=
  .object []

def decode : Decode Empty :=
  record [] fun _ => some {}

instance : Json.Codec Empty := ⟨encode, decode⟩

end Empty

/-! ## Devices and contacts -/

structure DeviceBody where
  deviceId : String
  pushToken : String
  platform : String := ""
deriving DecidableEq, Repr, Inhabited

namespace DeviceBody

def encode (r : DeviceBody) : Value :=
  .object [("device_id", .string r.deviceId), ("push_token", .string r.pushToken),
    ("platform", .string r.platform)]

def decode : Decode DeviceBody :=
  record ["device_id", "push_token", "platform"] fun
    | [deviceId, pushToken, platform] => do
      return {
        deviceId := ← deviceId.required string
        pushToken := ← pushToken.required string
        platform := ← platform.withDefault "" string }
    | _ => none

instance : Json.Codec DeviceBody := ⟨encode, decode⟩

end DeviceBody

structure DeviceRemoval where
  deviceId : String
deriving DecidableEq, Repr, Inhabited

namespace DeviceRemoval

def encode (r : DeviceRemoval) : Value :=
  .object [("device_id", .string r.deviceId)]

def decode : Decode DeviceRemoval :=
  record ["device_id"] fun
    | [deviceId] => do return { deviceId := ← deviceId.required string }
    | _ => none

instance : Json.Codec DeviceRemoval := ⟨encode, decode⟩

end DeviceRemoval

structure ContactQuery where
  text : Option String := none
  ids : List String := []
  page : UInt32 := 0
  size : UInt32 := 0
deriving DecidableEq, Repr, Inhabited

namespace ContactQuery

def encode (r : ContactQuery) : Value :=
  .object <|
    Json.member? "q" (r.text.map .string) ++
      (if r.ids.isEmpty then [] else [("ids", .array (r.ids.map .string))]) ++
      [("page", .ofInt r.page.toNat), ("size", .ofInt r.size.toNat)]

def decode : Decode ContactQuery :=
  record ["q", "ids", "page", "size"] fun
    | [text, ids, page, size] => do
      return {
        text := ← text.withDefault none (nullable string)
        ids := ← ids.withDefault [] (list string)
        page := ← page.withDefault 0 uint32
        size := ← size.withDefault 0 uint32 }
    | _ => none

instance : Json.Codec ContactQuery := ⟨encode, decode⟩

end ContactQuery

structure ContactPage where
  page : UInt32 := 0
  next : Bool := false
  contacts : List Contact := []
deriving DecidableEq, Repr, Inhabited

namespace ContactPage

def encode (r : ContactPage) : Value :=
  .object [("page", .ofInt r.page.toNat), ("next", .bool r.next),
    ("data", .array (r.contacts.map Contact.encode))]

def decode : Decode ContactPage :=
  record ["page", "next", "data"] fun
    | [page, next, contacts] => do
      return {
        page := ← page.withDefault 0 uint32
        next := ← next.withDefault false bool
        contacts := ← contacts.withDefault [] (list Contact.decode) }
    | _ => none

instance : Json.Codec ContactPage := ⟨encode, decode⟩

end ContactPage
end Gateway
end Courier
