import TaskAccess.Document
import TaskAccess.Permission.MaskText
import TaskAccess.Record

/-!
# Records as documents

A record is exchanged as an object with one member per field, or as the list of
its fields in order.  Reading checks the form of each field and nothing else, so
that a record which is not well-formed can be exchanged too.

## Main definitions

* `Record.toDocument` — the object of a record.
* `Record.ofFields?` — the record with the given documents as its fields.
* `Record.ofDocument?` — reads an object or a list.
-/

namespace TaskAccess.Record

/-- The object of a record. -/
def toDocument (r : Record) : Document :=
  .object
    [("id", .text r.id.text),
      ("authorization_type", .text r.kind.documentName),
      ("resource_type", .text r.resourceType.name),
      ("resource_id", .text r.resourceId),
      ("permissions", .text (MaskText.write r.permissions)),
      ("user_id", .ofOptionalText r.userId),
      ("group_id", .ofOptionalText r.groupId)]

/-- The record with the given documents as its fields. -/
def ofFields? (id kind resourceType resourceId permissions userId groupId : Document) :
    Option Record := do
  let id ← id.text?.bind Uuid.read?
  let kind ← kind.choice? RecordKind.ofDocumentName?
  let resourceType ← resourceType.choice? ResourceType.ofName?
  let resourceId ← resourceId.text?
  let permissions ← permissions.text?.bind MaskText.read?
  let userId ← userId.optionalText?
  let groupId ← groupId.optionalText?
  return ⟨id, kind, resourceType, resourceId, permissions, userId, groupId⟩

/-- Reads a record.  Of the members of an object, the holders may be missing and
others than those of a record are passed over; a list holds every field. -/
def ofDocument? : Document → Option Record
  | .object members => do
    let field := Document.member? members
    ofFields? (← field "id") (← field "authorization_type") (← field "resource_type")
      (← field "resource_id") (← field "permissions") ((field "user_id").getD .null)
      ((field "group_id").getD .null)
  | .list [id, kind, resourceType, resourceId, permissions, userId, groupId] =>
    ofFields? id kind resourceType resourceId permissions userId groupId
  | _ => none

end TaskAccess.Record
