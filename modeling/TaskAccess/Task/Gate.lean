import TaskAccess.Access.Enforcement
import TaskAccess.Task.DefaultGrants
import TaskAccess.Task.Policy

/-!
# The gate to tasks

The operations of a workflow engine on its tasks go through a gate.  It checks the
caller, and then does for the authorizations what the operation calls for: it
grants to identities that are linked to a task, and drops the records of tasks
that are gone.  The task itself is the engine's.

## Main definitions

* `TaskGate` — the grants, the policy, and whether callers are checked.
* `TaskGate.authorize`, `TaskGate.isPermitted`, `TaskGate.filterReadable` — reading.
* `TaskGate.saveTask`, `TaskGate.linkUser`, `TaskGate.addIdentityLink`,
  `TaskGate.deleteIdentityLink` — linking.
* `TaskGate.complete`, `TaskGate.deleteTask`, `TaskGate.deleteTasks` — ending tasks.
-/

namespace TaskAccess

/-- Where operations on tasks are authorized. -/
structure TaskGate where
  /-- What linked identities are granted. -/
  grants : DefaultGrants
  /-- Which permissions the operations accept. -/
  policy : Policy
  /-- Callers are checked. -/
  enabled : Bool
  deriving DecidableEq, Repr

/-- What is saved with a task. -/
structure TaskSave where
  /-- The task is created by this. -/
  isNew : Bool := false
  owner : Option String := none
  assignee : Option String := none
  deriving DecidableEq, Repr

/-- The identity, unless it is empty. -/
def presentId (id : Option String) : Option String := id.filter fun s => !s.isEmpty

/-- Refuses a task with the wildcard for an id. -/
def Task.ensureId (task : Task) : Except AccessError Unit :=
  if isWildcard task.id then .error .noSuchTask else .ok ()

namespace TaskGate

/-- The gate that is configured. -/
def ofSettings (a : AuthorizationSettings) : Except AccessError TaskGate := do
  let grants ← (DefaultGrants.ofSettings a).mapError .fault
  return { grants, policy := .ofSettings a, enabled := a.enabled }

/-- The caller with an identity, or the system; checks are skipped if the gate
checks nobody. -/
def caller (g : TaskGate) (identity : Option Identity) : Caller :=
  { identity, checksEnabled := g.enabled }

/-! ### Reading -/

/-- Fails unless the caller may do the operation on the task. -/
def authorize (g : TaskGate) (s : Store) (caller : Caller) (task : Task)
    (op : Task.Operation) : Except AccessError Unit := do
  if op ≠ .create then task.ensureId
  s.require caller (g.policy.requirement task op)

/-- The caller may do the operation on the task. -/
def isPermitted (g : TaskGate) (s : Store) (caller : Caller) (task : Task)
    (op : Task.Operation) : Except AccessError Bool :=
  if !caller.checksEnabled then .ok true
  else (s.decision caller (g.policy.requirement task op)).map Decision.isAllowed

/-- The tasks that the caller may read, in order. -/
def filterReadable (g : TaskGate) (s : Store) (caller : Caller) :
    List Task → Except AccessError (List Task)
  | [] => .ok []
  | task :: rest => do
    let readable ← g.isPermitted s caller task .read
    let kept ← g.filterReadable s caller rest
    return if readable then task :: kept else kept

/-! ### Linking -/

/-- Fails unless the caller may do the operation on the task. -/
def permit (g : TaskGate) (caller : Caller) (task : Task) (op : Task.Operation) :
    Action AccessError Unit :=
  .reading fun s => g.authorize s caller task op

/-- Grants what a new link calls for. -/
def link (g : TaskGate) (task : Task) (link : Link) : Action AccessError Unit := do
  let _ ← g.grants.linkChanged task link true
  return ()

/-- Links an identity, if there is one, in an operation on a task. -/
def linkUser (g : TaskGate) (caller : Caller) (task : Task) (op : Task.Operation)
    (link : Option Link) : Action AccessError Unit := do
  .ofExcept task.ensureId
  if !task.isEligible then return ()
  match link with
  | none => g.permit caller task op
  | some link => do
    .ofExcept link.validate
    g.permit caller task op
    g.link task link

/-- Makes a user the assignee of a task, or clears the assignee. -/
def setAssignee (g : TaskGate) (caller : Caller) (task : Task) (userId : Option String) :
    Action AccessError Unit :=
  g.linkUser caller task .setAssignee ((presentId userId).map Link.assignee)

/-- Makes a user the owner of a task, or clears the owner. -/
def setOwner (g : TaskGate) (caller : Caller) (task : Task) (userId : Option String) :
    Action AccessError Unit :=
  g.linkUser caller task .setOwner ((presentId userId).map Link.owner)

/-- Claims a task for a user, or gives it back. -/
def claim (g : TaskGate) (caller : Caller) (task : Task) (userId : Option String) :
    Action AccessError Unit :=
  g.linkUser caller task .claim ((presentId userId).map Link.assignee)

/-- Delegates a task to a user. -/
def delegate (g : TaskGate) (caller : Caller) (task : Task) (userId : String) :
    Action AccessError Unit :=
  g.linkUser caller task .delegate (some (.assignee userId))

/-- Adds a link to a task. -/
def addIdentityLink (g : TaskGate) (caller : Caller) (task : Task) (link : Link) :
    Action AccessError Unit :=
  g.linkUser caller task .addIdentityLink (some link)

/-- Removes a link from a task, and no grant. -/
def deleteIdentityLink (g : TaskGate) (caller : Caller) (task : Task) (link : Link) :
    Action AccessError Unit := do
  g.permit caller task .deleteIdentityLink
  let _ ← g.grants.linkChanged task link false
  return ()

/-- Adds a user as candidate. -/
def addCandidateUser (g : TaskGate) (caller : Caller) (task : Task) (userId : String) :
    Action AccessError Unit :=
  g.addIdentityLink caller task (.candidateUser userId)

/-- Adds a group as candidate. -/
def addCandidateGroup (g : TaskGate) (caller : Caller) (task : Task) (groupId : String) :
    Action AccessError Unit :=
  g.addIdentityLink caller task (.candidateGroup groupId)

/-- Removes a user as candidate. -/
def deleteCandidateUser (g : TaskGate) (caller : Caller) (task : Task) (userId : String) :
    Action AccessError Unit :=
  g.deleteIdentityLink caller task (.candidateUser userId)

/-- Removes a group as candidate. -/
def deleteCandidateGroup (g : TaskGate) (caller : Caller) (task : Task) (groupId : String) :
    Action AccessError Unit :=
  g.deleteIdentityLink caller task (.candidateGroup groupId)

/-- Saves a task with its owner and its assignee.  The wildcard is refused for
either before the caller is checked. -/
def saveTask (g : TaskGate) (caller : Caller) (task : Task) (save : TaskSave) :
    Action AccessError Unit := do
  if !task.isEligible then return ()
  let owner := (presentId save.owner).map Link.owner
  let assignee := (presentId save.assignee).map Link.assignee
  let links := owner.toList ++ assignee.toList
  links.forM fun link => .ofExcept link.validate
  g.permit caller task (if save.isNew then .create else .save)
  links.forM fun link => g.link task link

/-! ### Ending tasks -/

/-- Completes a task, and answers how many records are dropped. -/
def complete (g : TaskGate) (caller : Caller) (task : Task) : Action AccessError Nat := do
  g.permit caller task .complete
  Store.resourceDeleted task.id

/-- Deletes a task, and answers how many records are dropped. -/
def deleteTask (g : TaskGate) (caller : Caller) (task : Task) : Action AccessError Nat := do
  g.permit caller task .delete
  Store.resourceDeleted task.id

/-- Drops the records of tasks, and answers how many there were. -/
def purge : List Task → Action AccessError Nat
  | [] => return 0
  | task :: rest => do
    let count ← Store.resourceDeleted task.id
    let more ← purge rest
    return count + more

/-- Deletes tasks.  The caller is checked for each before anything is dropped. -/
def deleteTasks (g : TaskGate) (caller : Caller) (tasks : List Task) :
    Action AccessError Nat := do
  tasks.forM fun task => g.permit caller task .delete
  purge tasks

end TaskGate

end TaskAccess
