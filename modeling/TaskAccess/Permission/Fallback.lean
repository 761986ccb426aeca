import TaskAccess.Permission

/-!
# Fallback permissions

A permission that is not held on a resource can be held on the resource that owns
it, under a name of its own: to read a task is to read the tasks of its process
definition.  A few permissions are named in the table with no counterpart, which
says that the owner is never asked for them.

## Main definitions

* `Fallback` — the type of the owner, and the permission that it is asked for.
* `fallback?` — the table.
* `ResourceType.rank` — how far a type stands from the end of the table.

## Main results

* `rank_fallback?_lt` — every entry leads to a type of smaller rank, so a walk
  along the table ends.
* `resourceType_of_fallback?` — every entry leads to process definitions.
* `appliesTo_of_fallback?` — the permission of an entry is defined for its type.
-/

namespace TaskAccess

/-- Where a permission is asked for next. -/
structure Fallback where
  /-- The type of the owning resource. -/
  resourceType : ResourceType
  /-- The permission that the owner is asked for, if there is one. -/
  permission : Option Permission
  deriving DecidableEq, Repr

/-- The entry of the table for a permission on a resource type. -/
def fallback? : ResourceType → Permission → Option Fallback
  | .task, .read => some ⟨.processDefinition, some .readTask⟩
  | .task, .update => some ⟨.processDefinition, some .updateTask⟩
  | .task, .delete => some ⟨.processDefinition, none⟩
  | .task, .create => some ⟨.processDefinition, none⟩
  | .task, .taskAssign => some ⟨.processDefinition, some .taskAssign⟩
  | .task, .taskWork => some ⟨.processDefinition, some .taskWork⟩
  | .task, .readVariable => some ⟨.processDefinition, some .readTaskVariable⟩
  | .task, .updateVariable => some ⟨.processDefinition, some .updateTaskVariable⟩
  | .processInstance, .read => some ⟨.processDefinition, some .readInstance⟩
  | .processInstance, .update => some ⟨.processDefinition, some .updateInstance⟩
  | .processInstance, .delete => some ⟨.processDefinition, some .deleteInstance⟩
  | .processInstance, .create => some ⟨.processDefinition, none⟩
  | _, _ => none

/-- The number of owners that a resource of the type can have one above the other. -/
def ResourceType.rank : ResourceType → Nat
  | .processDefinition => 0
  | .task => 1
  | .processInstance => 1

/-- Every entry of the table leads to a type of smaller rank. -/
theorem rank_fallback?_lt {t : ResourceType} {p : Permission} {f : Fallback}
    (h : fallback? t p = some f) : f.resourceType.rank < t.rank := by
  unfold fallback? at h
  split at h
  all_goals first
    | (cases h; decide)
    | simp at h

/-- Above any resource there is one owner at most. -/
theorem ResourceType.rank_le_one (t : ResourceType) : t.rank ≤ 1 := by
  cases t <;> decide

/-- Every entry of the table leads to process definitions. -/
theorem resourceType_of_fallback? {t : ResourceType} {p : Permission} {f : Fallback}
    (h : fallback? t p = some f) : f.resourceType = .processDefinition := by
  -- it is the only type of a smaller rank than some other
  have hlt := rank_fallback?_lt h
  have hle := t.rank_le_one
  cases htype : f.resourceType with
  | processDefinition => rfl
  | task =>
    rw [htype, ResourceType.rank] at hlt
    omega
  | processInstance =>
    rw [htype, ResourceType.rank] at hlt
    omega

/-- What the owner is asked for is defined for the type of the owner. -/
theorem appliesTo_of_fallback? {t : ResourceType} {p q : Permission} {f : Fallback}
    (h : fallback? t p = some f) (hq : f.permission = some q) :
    q.appliesTo f.resourceType = true := by
  unfold fallback? at h
  split at h
  all_goals cases h
  -- the entries without a counterpart drop out
  all_goals cases hq
  all_goals decide

end TaskAccess
