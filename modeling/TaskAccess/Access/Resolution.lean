import TaskAccess.Caller
import TaskAccess.Check
import TaskAccess.Store

/-!
# Which permissions are held

The permissions of an identity on a resource come from the records that apply to
both: what some global record or grant permits, less what some revocation forbids.
A permission that is not held on a resource may be held on the owner.

## Main definitions

* `Effective`, `Effective.mask` — the permitted and the forbidden bits, and the
  difference.
* `Record.AppliesTo` — a record is about an identity and a resource.
* `Identity.query` — the query for the records that apply.
* `Store.effective` — the permissions of an identity on a resource.
* `Store.permits` — a check succeeds, on the resource or on an owner.
* `Holds`, `Permitted` — the same, said of a ledger without any query.
-/

namespace TaskAccess

/-- What the records that apply permit and forbid. -/
structure Effective where
  granted : Mask := ∅
  revoked : Mask := ∅
  deriving DecidableEq, Repr

namespace Effective

/-- The bits that are permitted and not forbidden. -/
def mask (e : Effective) : Mask := e.granted \ e.revoked

/-- What the records of a list permit and forbid. -/
def ofRecords (rs : List Record) : Effective where
  granted := Mask.unionAll ((rs.filter fun r => r.kind.isGranting).map Record.permissions)
  revoked := Mask.unionAll ((rs.filter fun r => !r.kind.isGranting).map Record.permissions)

end Effective

/-- The query for the records that apply to an identity and a target. -/
def Identity.query (i : Identity) (t : ResourceType) (target : Target) : Query where
  resourceType := some t
  resourceIds := wildcard :: target.id?.toList
  userIds := [i.userId, wildcard]
  groupIds := i.groupIds ++ [wildcard]

namespace Store

/-- The permissions of an identity on a target. -/
def effective (s : Store) (i : Identity) (t : ResourceType) (target : Target) :
    Except StoreError Effective :=
  (s.find (i.query t target)).map Effective.ofRecords

/-- The identity has the permission on the resource of the check itself. -/
def holds (s : Store) (i : Identity) (c : Check) : Except StoreError Bool :=
  (s.effective i c.resourceType c.target).map fun e => e.mask.grants c.permission

/-- The identity has the permission of the check, or of one that is asked after it. -/
def permits (s : Store) (i : Identity) (c : Check) : Except StoreError Bool :=
  match s.holds i c with
  | .error e => .error e
  | .ok true => .ok true
  | .ok false =>
    match _h : c.fallback? with
    | none => .ok false
    | some next => s.permits i next
termination_by c.resourceType.rank
decreasing_by exact Check.rank_fallback?_lt ‹_›

end Store

/-! ### The same, said of a ledger -/

/-- The record is about the identity and the target. -/
structure Record.AppliesTo (r : Record) (i : Identity) (t : ResourceType) (target : Target) :
    Prop where
  resource_type : r.resourceType = t
  resource_id : r.resourceId = wildcard ∨ target = .only r.resourceId
  holder :
    (r.userId = some i.userId ∨ r.userId = some wildcard) ∨
      ((∃ g ∈ i.groupIds, r.groupId = some g) ∨ r.groupId = some wildcard)

/-- Every bit of the permission is permitted by some record that applies and
forbidden by none. -/
def Holds (l : Ledger) (i : Identity) (c : Check) : Prop :=
  ∀ bit, bit ∈ c.permission.mask →
    (∃ r ∈ l, r.AppliesTo i c.resourceType c.target ∧ r.kind ≠ .revoke ∧ bit ∈ r.permissions) ∧
      ∀ r ∈ l, r.AppliesTo i c.resourceType c.target → r.kind = .revoke → bit ∉ r.permissions

/-- The permission is held on the resource itself, or under its fallback name on
an owner. -/
inductive Permitted (l : Ledger) (i : Identity) : Check → Prop
  | held {c : Check} (h : Holds l i c) : Permitted l i c
  | owner {c next : Check} (hnext : c.fallback? = some next) (h : Permitted l i next) :
    Permitted l i c

end TaskAccess
