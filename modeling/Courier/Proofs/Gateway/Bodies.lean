import Courier.Gateway.Wire
import Courier.Proofs.Json.Records

/-!
# Gateway bodies written and read

Each body that is exchanged with the gateway is read back from what is written of it. There are
three conventions for what is absent: an optional field is left out or written as `null`, an
empty list is left out, and a field that may be left out has its default. Of a target, the only
key tells the kind.

The main statement is `lossless_bodies`.
-/

namespace Courier
namespace Gateway

open Json

theorem faithful_identity : Faithful Identity.encode Identity.decode where
  floatFree i := by
    refine .object ?_
    simp [faithful_string.floatFree]
  reads i := by
    rw [Identity.encode, Identity.decode, record_object (by simp)]
    simp [List.lookup_cons, faithful_string.required]

/-!
## Messages
-/

theorem faithful_targetId : Faithful Target.encodeId Target.decodeId where
  floatFree id := by
    refine .object ?_
    simp [faithful_string.floatFree]
  reads id := by
    rw [Target.encodeId, Target.decodeId, record_object (by simp)]
    simp [List.lookup_cons, faithful_string.required]

theorem faithful_target : Faithful Target.encode Target.decode where
  floatFree t := by
    cases t with
    | contact identity => exact .object (by simp [faithful_identity.floatFree])
    | group id => exact .object (by simp [faithful_targetId.floatFree])
    | channel id => exact .object (by simp [faithful_targetId.floatFree])
  reads t := by
    cases t with
    | contact identity =>
        simp [Target.encode, Target.decode, Value.toDocument, Value.memberDocuments,
          text?_ofText, faithful_identity.reads]
    | group id =>
        simp [Target.encode, Target.decode, Value.toDocument, Value.memberDocuments,
          text?_ofText, faithful_targetId.reads]
    | channel id =>
        simp [Target.encode, Target.decode, Value.toDocument, Value.memberDocuments,
          text?_ofText, faithful_targetId.reads]

theorem faithful_textBody : Faithful TextBody.encode TextBody.decode where
  floatFree r := by
    refine .object ?_
    simp [faithful_string.floatFree, faithful_target.floatFree]
  reads r := by
    rw [TextBody.encode, TextBody.decode, record_object (by simp)]
    simp [List.lookup_cons, faithful_string.required, faithful_target.required]

theorem faithful_sent : Faithful Sent.encode Sent.decode where
  floatFree r := by
    refine .object ?_
    simp [faithful_string.floatFree]
  reads r := by
    rw [Sent.encode, Sent.decode, record_object (by simp)]
    simp [List.lookup_cons, faithful_string.withDefault]

theorem faithful_imageLink : Faithful ImageLink.encode ImageLink.decode where
  floatFree i := by
    refine .object ?_
    simp [faithful_string.floatFree]
  reads i := by
    rw [ImageLink.encode, ImageLink.decode, record_object (by simp)]
    simp [List.lookup_cons, faithful_string.required]

theorem faithful_images : Faithful Images.encode Images.decode where
  floatFree r := by
    refine .object ?_
    simp [faithful_string.floatFree, (faithful_list faithful_imageLink).floatFree]
  reads r := by
    rw [Images.encode, Images.decode, record_object (by simp)]
    simp [List.lookup_cons, faithful_string.required,
      (faithful_list faithful_imageLink).required]

theorem faithful_imageBody : Faithful ImageBody.encode ImageBody.decode where
  floatFree r := by
    refine .object ?_
    simp [faithful_target.floatFree, faithful_images.floatFree]
  reads r := by
    rw [ImageBody.encode, ImageBody.decode, record_object (by simp)]
    simp [List.lookup_cons, faithful_target.required, faithful_images.required]

theorem ofInt_ne_null (n : Int) : Value.ofInt n ≠ .null := by
  unfold Value.ofInt
  cases Whole.ofInt? n with
  | none => exact nofun
  | some w => exact nofun

theorem faithful_documentLink : Faithful DocumentLink.encode DocumentLink.decode where
  floatFree d := by
    refine .object ?_
    cases d.size <;> simp [member?, faithful_string.floatFree, floatFree_ofInt]
  reads d := by
    have hsize := faithful_int64.skipped (fun n => ofInt_ne_null n.toInt) false d.size
    rw [DocumentLink.encode, DocumentLink.decode, record_object]
    · simp [List.lookup_cons, lookup_member?, faithful_string.required, Function.comp_def, hsize]
    · cases d.size <;> simp [member?]

theorem faithful_documents : Faithful Documents.encode Documents.decode where
  floatFree r := by
    refine .object ?_
    simp [faithful_string.floatFree, (faithful_list faithful_documentLink).floatFree]
  reads r := by
    rw [Documents.encode, Documents.decode, record_object (by simp)]
    simp [List.lookup_cons, faithful_string.required,
      (faithful_list faithful_documentLink).required]

theorem faithful_documentBody : Faithful DocumentBody.encode DocumentBody.decode where
  floatFree r := by
    refine .object ?_
    simp [faithful_target.floatFree, faithful_documents.floatFree]
  reads r := by
    rw [DocumentBody.encode, DocumentBody.decode, record_object (by simp)]
    simp [List.lookup_cons, faithful_target.required, faithful_documents.required]

/-!
## Credentials
-/

theorem faithful_tokenBody : Faithful TokenBody.encode TokenBody.decode where
  floatFree r := by
    refine .object ?_
    cases r.code <;> cases r.refreshToken <;> simp [member?, faithful_string.floatFree]
  reads r := by
    have hcode := faithful_string.skipped (by simp) false r.code
    have hrefresh := faithful_string.skipped (by simp) false r.refreshToken
    rw [TokenBody.encode, TokenBody.decode, record_object]
    · simp [List.lookup_append, List.lookup_cons, lookup_member?, faithful_string.required,
        Function.comp_def, hcode, hrefresh]
    · cases r.code <;> cases r.refreshToken <;> simp [member?]

theorem faithful_contact : Faithful Contact.encode Contact.decode where
  floatFree c := by
    refine .object ?_
    simp [faithful_string.floatFree]
  reads c := by
    rw [Contact.encode, Contact.decode, record_object (by simp)]
    simp [List.lookup_cons, faithful_string.withDefault]

theorem faithful_nullableContact :
    Faithful (fun c : Option Contact => (c.map Contact.encode).getD .null)
      (Decode.nullable Contact.decode) :=
  faithful_nullable faithful_contact (by simp [Contact.encode])

theorem faithful_authorization : Faithful Authorization.encode Authorization.decode where
  floatFree a := by
    refine .object ?_
    simp [faithful_string.floatFree, floatFree_ofInt, faithful_nullableContact.floatFree]
  reads a := by
    rw [Authorization.encode, Authorization.decode, record_object (by simp)]
    simp [List.lookup_cons, faithful_string.withDefault, faithful_int64.withDefault,
      faithful_nullableContact.withDefault]

theorem faithful_empty : Faithful Empty.encode Empty.decode where
  floatFree _ := .object (by simp)
  reads e := by
    rw [Empty.encode, Empty.decode, record_object (by simp)]

/-!
## Devices and contacts
-/

theorem faithful_deviceBody : Faithful DeviceBody.encode DeviceBody.decode where
  floatFree r := by
    refine .object ?_
    simp [faithful_string.floatFree]
  reads r := by
    rw [DeviceBody.encode, DeviceBody.decode, record_object (by simp)]
    simp [List.lookup_cons, faithful_string.required, faithful_string.withDefault]

theorem faithful_deviceRemoval : Faithful DeviceRemoval.encode DeviceRemoval.decode where
  floatFree r := by
    refine .object ?_
    simp [faithful_string.floatFree]
  reads r := by
    rw [DeviceRemoval.encode, DeviceRemoval.decode, record_object (by simp)]
    simp [List.lookup_cons, faithful_string.required]

def idsValue (ids : List String) : Option Value :=
  if ids.isEmpty then none else some (.array (ids.map .string))

theorem member?_idsValue (ids : List String) :
    (if ids.isEmpty then [] else [("ids", Value.array (ids.map .string))]) =
      member? "ids" (idsValue ids) := by
  cases ids with
  | nil => rfl
  | cons id rest => rfl

theorem withDefault_idsValue (positional : Bool) (ids : List String) :
    Field.withDefault [] (Decode.list Decode.string)
      ⟨positional, (idsValue ids).map Value.toDocument⟩ = some ids := by
  cases ids with
  | nil => rfl
  | cons id rest => exact (faithful_list faithful_string).reads (id :: rest)

theorem faithful_contactQuery : Faithful ContactQuery.encode ContactQuery.decode where
  floatFree r := by
    refine .object ?_
    have hids := (faithful_list faithful_string).floatFree r.ids
    cases r.text <;> cases hempty : r.ids.isEmpty <;>
      simp [member?, faithful_string.floatFree, floatFree_ofInt, hids]
  reads r := by
    have htext := faithful_string.skipped (by simp) false r.text
    rw [ContactQuery.encode, ContactQuery.decode, member?_idsValue, record_object]
    · simp only [List.map_cons, List.map_nil, List.lookup_append, List.lookup_cons,
        List.lookup_nil, lookup_member?, reduceIte, String.reduceEq, String.reduceBEq,
        Option.or_none, Option.none_or, Option.map_some, Option.map_map, Function.comp_def, htext,
        withDefault_idsValue, faithful_uint32.withDefault]
      rfl
    · cases r.text <;> cases idsValue r.ids <;> simp [member?]

theorem faithful_contactPage : Faithful ContactPage.encode ContactPage.decode where
  floatFree r := by
    refine .object ?_
    simp [floatFree_ofInt, faithful_bool.floatFree, (faithful_list faithful_contact).floatFree]
  reads r := by
    rw [ContactPage.encode, ContactPage.decode, record_object (by simp)]
    simp [List.lookup_cons, faithful_uint32.withDefault, faithful_bool.withDefault,
      (faithful_list faithful_contact).withDefault]

/-!
## All bodies
-/

/-- What is written of a value is read as that value, and as no other. -/
structure Lossless (α : Type) [Codec α] : Prop where
  readBack (a : α) : Document.ofBytes? (Codec.encode a).toBytes >>= Codec.decode = some a
  toldApart (a b : α) : a ≠ b → (Codec.encode a).toBytes ≠ (Codec.encode b).toBytes

theorem lossless_of_faithful {α : Type} [Codec α]
    (h : Faithful (Codec.encode (α := α)) Codec.decode) : Lossless α where
  readBack := h.ofBytes?
  toldApart _ _ hne heq := hne (h.toBytes_injective heq)

/-- Requests and responses of the gateway lose nothing, and nor do the parts they are made of. -/
theorem lossless_bodies :
    (Lossless Identity ∧ Lossless Target ∧ Lossless TextBody ∧ Lossless Sent) ∧
      (Lossless ImageLink ∧ Lossless Images ∧ Lossless ImageBody) ∧
      (Lossless DocumentLink ∧ Lossless Documents ∧ Lossless DocumentBody) ∧
      (Lossless TokenBody ∧ Lossless Contact ∧ Lossless Authorization ∧ Lossless Empty) ∧
      Lossless DeviceBody ∧ Lossless DeviceRemoval ∧ Lossless ContactQuery ∧
      Lossless ContactPage := by
  refine ⟨⟨?_, ?_, ?_, ?_⟩, ⟨?_, ?_, ?_⟩, ⟨?_, ?_, ?_⟩, ⟨?_, ?_, ?_, ?_⟩, ?_, ?_, ?_, ?_⟩
  · exact lossless_of_faithful faithful_identity
  · exact lossless_of_faithful faithful_target
  · exact lossless_of_faithful faithful_textBody
  · exact lossless_of_faithful faithful_sent
  · exact lossless_of_faithful faithful_imageLink
  · exact lossless_of_faithful faithful_images
  · exact lossless_of_faithful faithful_imageBody
  · exact lossless_of_faithful faithful_documentLink
  · exact lossless_of_faithful faithful_documents
  · exact lossless_of_faithful faithful_documentBody
  · exact lossless_of_faithful faithful_tokenBody
  · exact lossless_of_faithful faithful_contact
  · exact lossless_of_faithful faithful_authorization
  · exact lossless_of_faithful faithful_empty
  · exact lossless_of_faithful faithful_deviceBody
  · exact lossless_of_faithful faithful_deviceRemoval
  · exact lossless_of_faithful faithful_contactQuery
  · exact lossless_of_faithful faithful_contactPage

end Gateway
end Courier
