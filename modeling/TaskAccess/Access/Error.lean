import TaskAccess.Check
import TaskAccess.Record
import TaskAccess.Store.Error

/-!
# Failures of task operations

## Main definitions

* `Denial` — who was denied, and every permission that would have been enough.
* `LinkTarget` — the capacity in which an identity was named.
* `AccessError` — why an operation has no result.
* `AccessError.message` — the report.
-/

namespace TaskAccess

/-- The denial of an operation. -/
structure Denial where
  /-- The user who was denied. -/
  userId : String
  /-- Every permission that was asked for. -/
  missing : List Missing
  deriving DecidableEq, Repr

namespace Denial

/-- A permission of the given name was asked for. -/
def attempted (d : Denial) (permissionName : String) : Bool :=
  d.missing.any fun m => m.permissionName == permissionName

/-- The report of a denial. -/
def message (d : Denial) : String :=
  let who := "The user with id '" ++ d.userId ++ "'"
  match d.missing with
  | [] => who ++ " is not authorized."
  | [m] => who ++ " does not have " ++ m.message ++ "."
  | several =>
    who ++ " does not have one of the following permissions: " ++
      " or ".intercalate (several.map Missing.message)

end Denial

/-- The capacity in which an identity is named. -/
inductive LinkTarget
  | assignee
  | owner
  | userLink
  | groupLink
  deriving DecidableEq, Repr

/-- The report that the wildcard was named in a capacity. -/
def LinkTarget.message (t : LinkTarget) : String :=
  (match t with
    | assignee => "Cannot create default authorization for assignee "
    | owner => "Cannot create default authorization for owner "
    | userLink => "Cannot grant default authorization for identity link to user "
    | groupLink => "Cannot grant default authorization for identity link to group ") ++
    wildcard ++ ": " ++ reservedDetail

/-- Why a task operation has no result. -/
inductive AccessError
  | denied (d : Denial)
  /-- The wildcard was named where an identity is wanted. -/
  | reserved (target : LinkTarget)
  | store (e : StoreError)
  | fault (f : Fault)
  /-- The task has the wildcard for an id. -/
  | noSuchTask
  deriving DecidableEq, Repr

namespace AccessError

/-- The report of a failure.  Records are called what `label` makes of their ids. -/
def message (label : Uuid → String) : AccessError → String
  | denied d => d.message
  | reserved target => target.message
  | store e => e.message label
  | fault f => f.message label
  | noSuchTask => "Cannot find task with id " ++ wildcard

/-- The failure came out of the store. -/
def isInfrastructure : AccessError → Bool
  | store _ => true
  | _ => false

end AccessError

/-- Refuses the wildcard as an identity. -/
def ensureNotWildcard (identityId : String) (target : LinkTarget) : Except AccessError Unit :=
  if isWildcard identityId then .error (.reserved target) else .ok ()

end TaskAccess
