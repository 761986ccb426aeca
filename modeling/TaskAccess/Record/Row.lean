import TaskAccess.Record

/-!
# Rows of the authorization table

A row holds a record with its kind and its resource type as stable ids and its
permissions as a signed integer.

## Main definitions

* `Row` — a row of the table.
* `Record.toRow`, `Row.toRecord` — encoding, and decoding of rows with known ids.
* `Row.merge` — what the table stores when a row meets one of its slot.

## Main results

* `Row.toRecord_toRow` — a record survives the table.
* `Row.toRow_of_toRecord` — a row that can be decoded is the row of what it decodes to.
-/

namespace TaskAccess

/-- A row of the authorization table. -/
structure Row where
  id : Uuid
  kind : Int32
  resourceType : Int32
  resourceId : String
  permissions : Int32
  userId : Option String
  groupId : Option String
  deriving DecidableEq, Repr

/-- The row of a record. -/
def Record.toRow (r : Record) : Row where
  id := r.id
  kind := r.kind.id
  resourceType := r.resourceType.id
  resourceId := r.resourceId
  permissions := r.permissions.toStored
  userId := r.userId
  groupId := r.groupId

namespace Row

/-- The record of a row.  Of two unknown ids that of the kind is reported. -/
def toRecord (row : Row) : Except Fault Record :=
  match RecordKind.ofId? row.kind with
  | none => .error (.unknownRecordKind row.kind)
  | some kind =>
    match ResourceType.ofId? row.resourceType with
    | none => .error (.unknownResourceType row.resourceType)
    | some resourceType =>
      .ok
        { id := row.id
          kind := kind
          resourceType := resourceType
          resourceId := row.resourceId
          permissions := Mask.ofStored row.permissions
          userId := row.userId
          groupId := row.groupId }

/-- The row that is stored when another one of its slot is inserted: it gets the bits of both,
and keeps its other columns. -/
def merge (stored inserted : Row) : Row :=
  { stored with permissions := stored.permissions ||| inserted.permissions }

/-- A record survives the table. -/
@[simp] theorem toRecord_toRow (r : Record) : r.toRow.toRecord = .ok r := by
  simp [toRecord, Record.toRow]

/-- A row that can be decoded is the row of what it decodes to. -/
theorem toRow_of_toRecord {row : Row} {r : Record} (h : row.toRecord = .ok r) :
    r.toRow = row := by
  simp only [toRecord] at h
  split at h
  · cases h
  next kind hk =>
  split at h
  · cases h
  next resourceType ht =>
  cases h
  rw [RecordKind.ofId?_eq_some_iff] at hk
  rw [ResourceType.ofId?_eq_some_iff] at ht
  simp [Record.toRow, hk, ht]

end Row

end TaskAccess
