import Courier.Message.Command
import Courier.Proofs.Json.Records

/-!
# Commands written and read

A command is read back from the payload it is written as: with any texts, any numbers and
any attachments. The main statement is `ofBytes?_encode`.
-/

namespace Courier
namespace Command

open Json

theorem faithful_address : Faithful Address.encode Address.decode where
  floatFree a := by
    refine .object ?_
    simp [faithful_string.floatFree, floatFree_ofInt]
  reads a := by
    rw [Address.encode, Address.decode, record_object (by simp)]
    simp [List.lookup_cons, faithful_string.withDefault, faithful_int32.withDefault]

theorem faithful_imageFile : Faithful ImageFile.encode ImageFile.decode where
  floatFree f := by
    refine .object ?_
    simp [faithful_string.floatFree, floatFree_ofInt]
  reads f := by
    rw [ImageFile.encode, ImageFile.decode, record_object (by simp)]
    simp [List.lookup_cons, faithful_string.withDefault, faithful_int64.withDefault]

theorem faithful_documentFile : Faithful DocumentFile.encode DocumentFile.decode where
  floatFree f := by
    refine .object ?_
    simp [faithful_string.floatFree, floatFree_ofInt]
  reads f := by
    rw [DocumentFile.encode, DocumentFile.decode, record_object (by simp)]
    simp [List.lookup_cons, faithful_string.withDefault, faithful_int64.withDefault]

theorem faithful_attachments {encode : α → Value} {decode : Decode α}
    (h : Faithful encode decode) :
    Faithful (fun files => Value.array (files.map encode)) (attachments decode) where
  floatFree := (faithful_list h).floatFree
  reads files := by
    have hlist := (faithful_list h).reads files
    have hnullable : Decode.nullable (Decode.list decode)
        (Value.array (files.map encode)).toDocument = some (some files) :=
      congrArg (Option.map some) hlist
    simp [attachments, hnullable]

theorem faithful_command : Faithful Command.encode Command.decode where
  floatFree c := by
    refine .object ?_
    simp [faithful_string.floatFree, floatFree_ofInt, faithful_address.floatFree,
      (faithful_attachments faithful_imageFile).floatFree,
      (faithful_attachments faithful_documentFile).floatFree]
  reads c := by
    rw [Command.encode, Command.decode, record_object (by simp)]
    simp [List.lookup_cons, faithful_string.withDefault, faithful_int32.withDefault,
      faithful_address.withDefault, (faithful_attachments faithful_imageFile).withDefault,
      (faithful_attachments faithful_documentFile).withDefault]

/-- A command is read back from its payload. -/
theorem ofBytes?_encode (c : Command) : ofBytes? c.encode.toBytes = some c :=
  faithful_command.ofBytes? c

end Command
end Courier
