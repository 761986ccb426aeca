import TaskAccess.Record.Row

/-!
# Rows encode records

Encoding a record as a row and decoding rows are inverse to each other: every record has a row
that decodes to it, and a row that decodes at all is the row of what it decodes to.  The others
have a column with an id that belongs to nothing, which the fault names.  The table merges rows
by their signed integers, and the store in memory merges records by their masks; as the integers
have the bits of the masks, the results are the same.

## Main definitions

* `Row.KnownKind`, `Row.KnownResourceType` — a column holds the id of a kind, or of a type.

## Main results

* `Row.toRecord_eq_ok_iff` — what decodes to a record is its row.
* `Row.toRecord_of_not_knownKind`, `Row.toRecord_of_not_knownResourceType` — why others do not
  decode.
* `Record.toRow_merge`, `Row.toRecord_merge` — merging rows is merging records.
* `row_form_is_faithful` — **rows are a faithful form of records.**
-/

namespace TaskAccess

namespace Row

variable {row : Row}

/-! ### Decoding -/

/-- The kind column holds the id of a kind. -/
def KnownKind (row : Row) : Prop := ∃ kind : RecordKind, kind.id = row.kind

/-- The resource type column holds the id of a resource type. -/
def KnownResourceType (row : Row) : Prop :=
  ∃ resourceType : ResourceType, resourceType.id = row.resourceType

theorem not_knownKind_iff : ¬ row.KnownKind ↔ RecordKind.ofId? row.kind = none := by
  simp only [KnownKind, Option.eq_none_iff_forall_ne_some, ne_eq, RecordKind.ofId?_eq_some_iff,
    not_exists]

theorem not_knownResourceType_iff :
    ¬ row.KnownResourceType ↔ ResourceType.ofId? row.resourceType = none := by
  simp only [KnownResourceType, Option.eq_none_iff_forall_ne_some, ne_eq,
    ResourceType.ofId?_eq_some_iff, not_exists]

/-- What decodes to a record is its row. -/
theorem toRecord_eq_ok_iff {r : Record} : row.toRecord = .ok r ↔ row = r.toRow := by
  constructor
  · intro h
    exact (toRow_of_toRecord h).symm
  · rintro rfl
    exact toRecord_toRow r

/-- A row decodes if its kind and its resource type are known. -/
theorem exists_toRecord_eq_ok (hkind : row.KnownKind) (htype : row.KnownResourceType) :
    ∃ r, row.toRecord = .ok r := by
  obtain ⟨kind, hkind⟩ := hkind
  obtain ⟨resourceType, htype⟩ := htype
  let r : Record := ⟨row.id, kind, resourceType, row.resourceId, .ofStored row.permissions,
    row.userId, row.groupId⟩
  refine ⟨r, toRecord_eq_ok_iff.2 ?_⟩
  simp [r, Record.toRow, hkind, htype]

theorem toRecord_of_not_knownKind (h : ¬ row.KnownKind) :
    row.toRecord = .error (.unknownRecordKind row.kind) := by
  rw [toRecord, not_knownKind_iff.1 h]

theorem toRecord_of_not_knownResourceType (hkind : row.KnownKind)
    (h : ¬ row.KnownResourceType) :
    row.toRecord = .error (.unknownResourceType row.resourceType) := by
  obtain ⟨kind, hkind⟩ := hkind
  rw [toRecord, RecordKind.ofId?_eq_some_iff.2 hkind, not_knownResourceType_iff.1 h]

/-- A row decodes only if its kind and its resource type are known. -/
theorem known_of_toRecord_eq_ok {r : Record} (h : row.toRecord = .ok r) :
    row.KnownKind ∧ row.KnownResourceType := by
  obtain rfl := toRecord_eq_ok_iff.1 h
  exact ⟨⟨r.kind, rfl⟩, r.resourceType, rfl⟩

end Row

/-! ### Merging -/

/-- The row of a merged record is the merged row. -/
theorem Record.toRow_merge (a b : Record) : (a.merge b).toRow = a.toRow.merge b.toRow := by
  simp only [toRow, merge, Row.merge, Mask.toStored_union]

/-- A merged row decodes to the merged record. -/
theorem Row.toRecord_merge {stored inserted : Row} {a b : Record} (ha : stored.toRecord = .ok a)
    (hb : inserted.toRecord = .ok b) : (stored.merge inserted).toRecord = .ok (a.merge b) := by
  rw [toRecord_eq_ok_iff] at ha hb ⊢
  rw [ha, hb, Record.toRow_merge]

/-- **Rows are a faithful form of records.**  The row of a record decodes to the record, with all
bits of its mask.  A row decodes exactly if its kind column holds the id of a kind and its
resource type column that of a resource type, and then it is the row of the record that it
decodes to; otherwise the fault names the id of the kind, or that of the resource type if the kind
is known.  The signed integer of a union of masks is the bitwise or of their signed integers; so
the table, which merges rows, and the store in memory, which merges records, come to the same. -/
theorem row_form_is_faithful :
    (∀ r : Record, r.toRow.toRecord = .ok r) ∧
      (∀ row : Row,
        ((∃ r, row.toRecord = .ok r) ↔ row.KnownKind ∧ row.KnownResourceType) ∧
          (∀ r, row.toRecord = .ok r → r.toRow = row) ∧
          (¬ row.KnownKind → ∃ e, row.toRecord = .error e ∧ e = .unknownRecordKind row.kind ∧
            ∀ label, e.message label =
              "Invalid input: unknown authorization type id " ++ toString row.kind.toInt) ∧
          (row.KnownKind → ¬ row.KnownResourceType → ∃ e, row.toRecord = .error e ∧
            e = .unknownResourceType row.resourceType ∧ ∀ label, e.message label =
              "Invalid input: unknown resource type id " ++ toString row.resourceType.toInt)) ∧
      (∀ a b : Mask, (a ∪ b).toStored = a.toStored ||| b.toStored) ∧
      (∀ a b : Record, (a.merge b).toRow = a.toRow.merge b.toRow) ∧
      ∀ (stored inserted : Row) (a b : Record), stored.toRecord = .ok a →
        inserted.toRecord = .ok b → (stored.merge inserted).toRecord = .ok (a.merge b) := by
  refine ⟨Row.toRecord_toRow, fun row => ⟨?_, ?_, ?_, ?_⟩, Mask.toStored_union,
    Record.toRow_merge, fun stored inserted a b => Row.toRecord_merge⟩
  · constructor
    · rintro ⟨r, hr⟩
      exact Row.known_of_toRecord_eq_ok hr
    · rintro ⟨hkind, htype⟩
      exact Row.exists_toRecord_eq_ok hkind htype
  · intro r hr
    exact Row.toRow_of_toRecord hr
  · intro hkind
    exact ⟨_, Row.toRecord_of_not_knownKind hkind, rfl, fun _ => rfl⟩
  · intro hkind htype
    exact ⟨_, Row.toRecord_of_not_knownResourceType hkind htype, rfl, fun _ => rfl⟩

/-- A row with a kind and no resource type, and with the highest bit in its mask. -/
def rowOfUnknownType : Row :=
  ⟨⟨1⟩, RecordKind.grant.id, 99, "t1", -2147483648, some "demo", none⟩

/-- It is refused for its resource type. -/
theorem row_form_is_faithful_unknownType :
    rowOfUnknownType.KnownKind ∧ ¬ rowOfUnknownType.KnownResourceType ∧
      rowOfUnknownType.toRecord = .error (.unknownResourceType 99) := by
  have hkind : rowOfUnknownType.KnownKind := ⟨.grant, rfl⟩
  have htype : ¬ rowOfUnknownType.KnownResourceType := by
    rintro ⟨t, ht⟩
    cases t <;> exact absurd ht (by decide)
  obtain ⟨e, herror, rfl, -⟩ := (row_form_is_faithful.2.1 rowOfUnknownType).2.2.2 hkind htype
  exact ⟨hkind, htype, herror⟩

end TaskAccess
