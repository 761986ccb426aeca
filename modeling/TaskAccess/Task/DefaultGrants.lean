import TaskAccess.Access.Error
import TaskAccess.Settings
import TaskAccess.Store
import TaskAccess.Task

/-!
# Grants to linked identities

Whoever is linked to a task, as assignee, owner or candidate, is granted reading
it and a configured permission on it.  Linking again merges into the same record,
and unlinking takes nothing away.

## Main definitions

* `Link`, `Link.target`, `Link.validate` — an identity linked to a task.
* `DefaultGrants`, `DefaultGrants.permissions` — what is granted to users and groups.
* `DefaultGrants.linkChanged` — grants what a new link calls for.
-/

namespace TaskAccess

/-- What a linked identity is to the task. -/
inductive LinkRole
  | assignee
  | owner
  | candidate
  deriving DecidableEq, Repr

/-- An identity linked to a task. -/
structure Link where
  role : LinkRole
  holder : Holder
  deriving DecidableEq, Repr

namespace Link

/-- The link of a user as assignee. -/
def assignee (userId : String) : Link := ⟨.assignee, .user userId⟩

/-- The link of a user as owner. -/
def owner (userId : String) : Link := ⟨.owner, .user userId⟩

/-- The link of a user as candidate. -/
def candidateUser (userId : String) : Link := ⟨.candidate, .user userId⟩

/-- The link of a group as candidate. -/
def candidateGroup (groupId : String) : Link := ⟨.candidate, .group groupId⟩

/-- The capacity in which the identity is named. -/
def target (l : Link) : LinkTarget :=
  match l.role, l.holder.kind with
  | .assignee, _ => .assignee
  | .owner, _ => .owner
  | .candidate, .user => .userLink
  | .candidate, .group => .groupLink

/-- Refuses a link of the wildcard. -/
def validate (l : Link) : Except AccessError Unit := ensureNotWildcard l.holder.id l.target

end Link

/-- What linked identities are granted. -/
structure DefaultGrants where
  /-- The permission for users. -/
  userPermission : Permission
  /-- The permission for groups. -/
  groupPermission : Permission
  /-- Further permissions for both. -/
  additional : Mask := ∅
  deriving DecidableEq, Repr

namespace DefaultGrants

/-- The grants that are configured.  Of two bad names that for users is reported. -/
def ofSettings (a : AuthorizationSettings) : Except Fault DefaultGrants := do
  let userPermission ← a.taskPermission
  let groupPermission ← a.groupTaskPermission
  return { userPermission, groupPermission }

/-- The grants with further permissions for users and groups. -/
def withAdditional (g : DefaultGrants) (m : Mask) : DefaultGrants :=
  { g with additional := g.additional ∪ m }

/-- What a user or a group is granted. -/
def permissions (g : DefaultGrants) (kind : HolderKind) : Mask :=
  let configured := match kind with
    | .user => g.userPermission
    | .group => g.groupPermission
  Permission.read.mask ∪ configured.mask ∪ g.additional

/-- Grants what a link calls for that was added to a task, and answers the record.
Nothing is granted on a task of a case, for a link that was removed, or to the
empty identity. -/
def linkChanged (g : DefaultGrants) (task : Task) (link : Link) (added : Bool) :
    Action AccessError (Option Record) :=
  if !task.isEligible || !added || link.holder.id.isEmpty then return none
  else do
    .ofExcept link.validate
    let id ← Store.mintId
    let grant := Record.ofHolder id .grant .task task.id link.holder
      (g.permissions link.holder.kind)
    let stored ← (Store.save grant).mapError .store
    return some stored

end DefaultGrants

end TaskAccess
