import TaskAccess.Check
import TaskAccess.Settings
import TaskAccess.Task

/-!
# The permissions of task operations

Each operation on a task accepts some permissions on it, of which one is enough.
To create a task is to have the permission on every task.

## Main definitions

* `Task.Operation` — the operations.
* `Policy.accepted` — the permissions that an operation accepts.
* `Policy.requirement` — the requirement of an operation on a task.
-/

namespace TaskAccess

/-- What can be done with a task. -/
inductive Task.Operation
  | create
  | read
  | readIdentityLinks
  | readVariables
  | save
  | setAssignee
  | setOwner
  | delegate
  | setPriority
  | addIdentityLink
  | deleteIdentityLink
  | claim
  | complete
  | resolve
  | updateVariables
  | delete
  deriving DecidableEq, Repr

/-- Which permissions the operations accept. -/
structure Policy where
  /-- Variables are read under a permission of their own. -/
  enforceSpecificVariablePermission : Bool := false
  deriving DecidableEq, Repr

namespace Policy

/-- The policy that is configured. -/
def ofSettings (a : AuthorizationSettings) : Policy := ⟨a.enforceSpecificVariablePermission⟩

/-- The permissions that an operation accepts, in the order in which they are tried. -/
def accepted (p : Policy) : Task.Operation → List Permission
  | .create => [.create]
  | .read | .readIdentityLinks => [.read]
  | .readVariables =>
    if p.enforceSpecificVariablePermission then [.readVariable] else [.read]
  | .save | .setAssignee | .setOwner | .delegate | .setPriority | .addIdentityLink
  | .deleteIdentityLink => [.taskAssign, .update]
  | .claim => [.update, .taskAssign, .taskWork]
  | .complete | .resolve => [.taskWork, .update]
  | .updateVariables => [.update, .updateVariable]
  | .delete => [.delete]

/-- The requirement of an operation on a task. -/
def requirement (p : Policy) (task : Task) (op : Task.Operation) : Requirement :=
  if !task.isEligible then .none
  else if op = .create then ⟨(p.accepted op).map fun q => Check.onAny q .task⟩
  else ⟨(p.accepted op).map fun q => ⟨q, .task, .ofId task.id, task.lineage⟩⟩

end Policy

end TaskAccess
