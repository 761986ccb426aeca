import TaskAccess.Record

/-!
# Queries for records

A query restricts the type and the id of the resource, the kind of the record and
its holder.  What it leaves open it does not restrict; users and groups are
alternatives to each other.

## Main definitions

* `Query` — the restrictions.
* `Query.selects` — a record meets all of them.
-/

namespace TaskAccess

/-- Restrictions on records.  An empty list restricts nothing. -/
structure Query where
  resourceType : Option ResourceType := none
  kind : Option RecordKind := none
  resourceIds : List String := []
  userIds : List String := []
  groupIds : List String := []
  deriving DecidableEq, Repr

namespace Query

/-- The identity of a record is one of the listed ones. -/
def holds (listed : List String) : Option String → Bool
  | none => false
  | some id => listed.contains id

/-- The record is for one of the users or groups, if any are named. -/
def selectsHolder (q : Query) (r : Record) : Bool :=
  (q.userIds.isEmpty && q.groupIds.isEmpty) ||
    holds q.userIds r.userId || holds q.groupIds r.groupId

/-- The record meets every restriction. -/
def selects (q : Query) (r : Record) : Bool :=
  q.resourceType.all (· == r.resourceType) &&
    q.kind.all (· == r.kind) &&
    (q.resourceIds.isEmpty || q.resourceIds.contains r.resourceId) &&
    q.selectsHolder r

end Query

end TaskAccess
