import TaskAccess.Access.Error
import TaskAccess.Access.Resolution

/-!
# Enforcing requirements

A requirement is met if one of its checks succeeds, if it is empty, or if there is
no identity to check.  An operation whose requirement is not met is denied with
everything that was asked.

## Main definitions

* `Decision` — allowed or denied.
* `Store.isAuthorized` — a check succeeds for a caller.
* `Store.decision` — the decision on a requirement.
* `Store.require` — fails with a denial unless the requirement is met.
* `Store.resourceDeleted` — drops the records of a resource that is gone.
-/

namespace TaskAccess

/-- The outcome of a requirement. -/
inductive Decision
  | allowed
  | denied
  deriving DecidableEq, Repr

namespace Decision

/-- The decision that a truth value stands for. -/
def ofBool (b : Bool) : Decision := if b then allowed else denied

/-- The requirement is met. -/
def isAllowed : Decision → Bool
  | allowed => true
  | denied => false

end Decision

/-- The denial of a requirement to a caller. -/
def Requirement.denial (r : Requirement) (caller : Caller) : Denial where
  userId := (caller.identity.map Identity.userId).getD ""
  missing := r.expanded.map Check.missing

namespace Store

/-- A check succeeds for a caller. -/
def isAuthorized (s : Store) (caller : Caller) (c : Check) : Except AccessError Bool :=
  match caller.checkedIdentity? with
  | none => .ok true
  | some i => (s.permits i c).mapError .store

/-- One of the checks succeeds for a caller; they are tried in order. -/
def anyAuthorized (s : Store) (caller : Caller) : List Check → Except AccessError Bool
  | [] => .ok false
  | c :: rest => do
    if ← s.isAuthorized caller c then return true
    s.anyAuthorized caller rest

/-- The decision on a requirement. -/
def decision (s : Store) (caller : Caller) (r : Requirement) : Except AccessError Decision :=
  if r.isEmpty || caller.checkedIdentity?.isNone then .ok .allowed
  else (s.anyAuthorized caller r.alternatives).map .ofBool

/-- Fails with a denial unless the requirement is met. -/
def require (s : Store) (caller : Caller) (r : Requirement) : Except AccessError Unit := do
  if !caller.checksEnabled then return ()
  match ← s.decision caller r with
  | .allowed => return ()
  | .denied => throw (.denied (r.denial caller))

/-- Drops the records of a resource that is gone, and answers how many there were. -/
def resourceDeleted (resourceId : String) : Action AccessError Nat :=
  (deleteForResource resourceId).mapError .store

end Store

end TaskAccess
