import TaskAccess.Fault
import TaskAccess.Mask

/-!
# Authorization records

A record says that the holder of an authorization may, or may not, do something
with a resource.  Two records occupy the same slot if they differ in id and
permissions at most; a store merges them.

## Main definitions

* `RecordKind` — global records and grants permit, revokes forbid.
* `Holder` — the user or the group that a record is for.
* `Record`, `Record.slot` — the record, and what it is about.
* `Record.defect?`, `Record.validate` — the first reason to refuse a record.
* `Record.WellFormed` — the shape that a record must have.

## Main results

* `Record.validate_eq_ok_iff` — the well-formed records are those not refused.
-/

namespace TaskAccess

/-- What a record does. -/
inductive RecordKind
  /-- Permits everybody. -/
  | global
  /-- Permits its holder. -/
  | grant
  /-- Forbids its holder. -/
  | revoke
  deriving DecidableEq, Repr, Inhabited

namespace RecordKind

/-- Every kind, in the order of the stable ids. -/
def values : List RecordKind := [.global, .grant, .revoke]

/-- The number a kind has in the table. -/
def id : RecordKind → Int32
  | global => 0
  | grant => 1
  | revoke => 2

/-- The name a kind is reported by. -/
def name : RecordKind → String
  | global => "GLOBAL"
  | grant => "GRANT"
  | revoke => "REVOKE"

/-- The name a kind has in documents. -/
def documentName : RecordKind → String
  | global => "Global"
  | grant => "Grant"
  | revoke => "Revoke"

/-- The kind permits something. -/
def isGranting : RecordKind → Bool
  | global | grant => true
  | revoke => false

/-- The kind with a given stable id. -/
def ofId? (n : Int32) : Option RecordKind := values.find? fun k => k.id == n

/-- The kind with a given name in documents, compared exactly. -/
def ofDocumentName? (s : String) : Option RecordKind :=
  values.find? fun k => k.documentName == s

/-- A stable id belongs to one kind only. -/
theorem ofId?_eq_some_iff {n : Int32} {k : RecordKind} : ofId? n = some k ↔ k.id = n := by
  constructor
  · intro h
    simpa using List.find?_some h
  · rintro rfl
    cases k <;> decide

@[simp] theorem ofId?_id (k : RecordKind) : ofId? k.id = some k := ofId?_eq_some_iff.2 rfl

theorem id_inj {a b : RecordKind} : a.id = b.id ↔ b = a := by
  rw [← ofId?_eq_some_iff, ofId?_id, Option.some_inj]

@[simp] theorem ofDocumentName?_documentName (k : RecordKind) :
    ofDocumentName? k.documentName = some k := by
  cases k <;> decide

end RecordKind

/-- Whether an id is that of a user or of a group. -/
inductive HolderKind
  | user
  | group
  deriving DecidableEq, Repr, Inhabited

/-- The user or the group that an authorization is for. -/
structure Holder where
  /-- Whether it is a user or a group. -/
  kind : HolderKind
  /-- The id of the user or group. -/
  id : String
  deriving DecidableEq, Repr, Inhabited

namespace Holder

/-- The user with a given id. -/
def user (id : String) : Holder := ⟨.user, id⟩

/-- The group with a given id. -/
def group (id : String) : Holder := ⟨.group, id⟩

/-- Every user. -/
def everybody : Holder := user wildcard

/-- The id, if the holder is a user. -/
def userId? (h : Holder) : Option String :=
  match h.kind with
  | .user => some h.id
  | .group => none

/-- The id, if the holder is a group. -/
def groupId? (h : Holder) : Option String :=
  match h.kind with
  | .user => none
  | .group => some h.id

end Holder

/-- What a record is about: all of it but the id and the permissions. -/
structure Slot where
  kind : RecordKind
  resourceType : ResourceType
  resourceId : String
  userId : Option String
  groupId : Option String
  deriving DecidableEq, Repr

/-- An authorization record. -/
structure Record where
  /-- The identifier of the record. -/
  id : Uuid
  /-- What the record does. -/
  kind : RecordKind
  /-- The type of the resource. -/
  resourceType : ResourceType
  /-- The id of the resource, or the wildcard. -/
  resourceId : String
  /-- The permissions that the record is about. -/
  permissions : Mask
  /-- The user, or the wildcard for every user. -/
  userId : Option String
  /-- The group, or the wildcard for every group. -/
  groupId : Option String
  deriving DecidableEq, Repr, Inhabited

namespace Record

/-- The record of a kind for a holder. -/
def ofHolder (id : Uuid) (kind : RecordKind) (resourceType : ResourceType)
    (resourceId : String) (holder : Holder) (permissions : Mask) : Record where
  id := id
  kind := kind
  resourceType := resourceType
  resourceId := resourceId
  permissions := permissions
  userId := holder.userId?
  groupId := holder.groupId?

/-- The record that permits everybody. -/
def forEverybody (id : Uuid) (resourceType : ResourceType) (resourceId : String)
    (permissions : Mask) : Record :=
  ofHolder id .global resourceType resourceId .everybody permissions

/-- What the record is about. -/
def slot (r : Record) : Slot :=
  ⟨r.kind, r.resourceType, r.resourceId, r.userId, r.groupId⟩

/-- The records are about the same thing. -/
def sameSlot (a b : Record) : Bool := a.slot == b.slot

/-- The record with the permissions of another one added. -/
def merge (a b : Record) : Record := { a with permissions := a.permissions ∪ b.permissions }

/-! ### Well-formed records -/

/-- The shape that a record must have: it names one holder, a global record names
every user, and neither the holder nor the resource has the empty id. -/
structure WellFormed (r : Record) : Prop where
  one_holder : r.userId.isSome ≠ r.groupId.isSome
  global_for_everybody : r.kind = .global → r.userId = some wildcard
  user_ne_empty : r.userId ≠ some ""
  group_ne_empty : r.groupId ≠ some ""
  resource_ne_empty : r.resourceId ≠ ""

/-- The first reason to refuse a record. -/
def defect? (r : Record) : Option RecordDefect :=
  if r.userId.isSome == r.groupId.isSome then some .notOneHolder
  else if r.kind = .global ∧ r.userId ≠ some wildcard then some .globalForSomebody
  else if r.userId.or r.groupId = some "" then some .emptyHolder
  else if r.resourceId = "" then some .emptyResource
  else none

/-- Refuses a record that is not well-formed. -/
def validate (r : Record) : Except Fault Unit :=
  match r.defect? with
  | some defect => .error (.malformedRecord r.id defect)
  | none => .ok ()

theorem defect?_eq_none_iff {r : Record} : r.defect? = none ↔ r.WellFormed := by
  have hor : r.userId.isSome ≠ r.groupId.isSome →
      (r.userId.or r.groupId = some "" ↔ r.userId = some "" ∨ r.groupId = some "") := by
    cases r.userId <;> cases r.groupId <;> simp
  constructor
  · intro h
    simp only [defect?] at h
    split at h
    · cases h
    next h1 =>
    split at h
    · cases h
    next h2 =>
    split at h
    · cases h
    next h3 =>
    split at h
    · cases h
    next h4 =>
    have h1 : r.userId.isSome ≠ r.groupId.isSome := by simpa using h1
    rw [hor h1] at h3
    exact ⟨h1, fun hk => Classical.byContradiction fun hu => h2 ⟨hk, hu⟩,
      fun hu => h3 (.inl hu), fun hg => h3 (.inr hg), h4⟩
  · intro h
    have h3 := hor h.one_holder
    simp only [defect?]
    rw [if_neg (by simpa using h.one_holder), if_neg fun hk => hk.2 (h.global_for_everybody hk.1),
      if_neg fun hu => (h3.1 hu).elim h.user_ne_empty h.group_ne_empty, if_neg h.resource_ne_empty]

/-- The well-formed records are those not refused. -/
theorem validate_eq_ok_iff {r : Record} : r.validate = .ok () ↔ r.WellFormed := by
  rw [← defect?_eq_none_iff, validate]
  cases r.defect? <;> simp

instance (r : Record) : Decidable r.WellFormed := decidable_of_iff _ defect?_eq_none_iff

/-! ### Basic properties -/

theorem sameSlot_iff {a b : Record} : a.sameSlot b = true ↔ a.slot = b.slot := by
  simp [sameSlot]

@[simp] theorem slot_merge (a b : Record) : (a.merge b).slot = a.slot := rfl

@[simp] theorem id_merge (a b : Record) : (a.merge b).id = a.id := rfl

@[simp] theorem permissions_merge (a b : Record) :
    (a.merge b).permissions = a.permissions ∪ b.permissions := rfl

end Record

end TaskAccess
