import TaskAccess.Mask
import TaskAccess.Resource

/-!
# Permissions

Sixteen permissions own one bit of a mask each; the seventeenth stands for every
bit, so a mask that grants it grants all the others.  A resource type accepts only
the permissions defined for it.

## Main definitions

* `Permission` — the permissions, in the order of their bits.
* `Permission.mask` — the bits of a permission.
* `Permission.resourceTypes`, `Permission.appliesTo` — where a permission is defined.
* `Mask.grants` — a mask has every bit of a permission.

## Main results

* `Mask.grants_iff` — granting, bit by bit.
* `Permission.ofName?_eq_some_iff` — a name belongs to one permission only.
-/

namespace TaskAccess

/-- The things an identity can be allowed to do. -/
inductive Permission
  | read
  | update
  | create
  | delete
  | readTask
  | updateTask
  | createInstance
  | readInstance
  | updateInstance
  | deleteInstance
  | taskWork
  | taskAssign
  | readVariable
  | updateVariable
  | readTaskVariable
  | updateTaskVariable
  /-- Every permission at once, the bits that no other permission owns included. -/
  | all
  deriving DecidableEq, Repr, Inhabited

namespace Permission

/-- Every permission, in the order of the bits. -/
def values : List Permission :=
  [.read, .update, .create, .delete, .readTask, .updateTask, .createInstance,
    .readInstance, .updateInstance, .deleteInstance, .taskWork, .taskAssign,
    .readVariable, .updateVariable, .readTaskVariable, .updateTaskVariable, .all]

/-- The name a permission is configured and reported by. -/
def name : Permission → String
  | read => "READ"
  | update => "UPDATE"
  | create => "CREATE"
  | delete => "DELETE"
  | readTask => "READ_TASK"
  | updateTask => "UPDATE_TASK"
  | createInstance => "CREATE_INSTANCE"
  | readInstance => "READ_INSTANCE"
  | updateInstance => "UPDATE_INSTANCE"
  | deleteInstance => "DELETE_INSTANCE"
  | taskWork => "TASK_WORK"
  | taskAssign => "TASK_ASSIGN"
  | readVariable => "READ_VARIABLE"
  | updateVariable => "UPDATE_VARIABLE"
  | readTaskVariable => "READ_TASK_VARIABLE"
  | updateTaskVariable => "UPDATE_TASK_VARIABLE"
  | all => "ALL"

/-- The name a permission has in documents. -/
def documentName : Permission → String
  | read => "Read"
  | update => "Update"
  | create => "Create"
  | delete => "Delete"
  | readTask => "ReadTask"
  | updateTask => "UpdateTask"
  | createInstance => "CreateInstance"
  | readInstance => "ReadInstance"
  | updateInstance => "UpdateInstance"
  | deleteInstance => "DeleteInstance"
  | taskWork => "TaskWork"
  | taskAssign => "TaskAssign"
  | readVariable => "ReadVariable"
  | updateVariable => "UpdateVariable"
  | readTaskVariable => "ReadTaskVariable"
  | updateTaskVariable => "UpdateTaskVariable"
  | all => "All"

/-- The bits of a permission. -/
def mask : Permission → Mask
  | read => Mask.bit 0
  | update => Mask.bit 1
  | create => Mask.bit 2
  | delete => Mask.bit 3
  | readTask => Mask.bit 4
  | updateTask => Mask.bit 5
  | createInstance => Mask.bit 6
  | readInstance => Mask.bit 7
  | updateInstance => Mask.bit 8
  | deleteInstance => Mask.bit 9
  | taskWork => Mask.bit 10
  | taskAssign => Mask.bit 11
  | readVariable => Mask.bit 12
  | updateVariable => Mask.bit 13
  | readTaskVariable => Mask.bit 14
  | updateTaskVariable => Mask.bit 15
  | all => Mask.full

/-- The resource types a permission is defined for. -/
def resourceTypes : Permission → List ResourceType
  | read | update | create | delete | all => [.processDefinition, .task, .processInstance]
  | taskWork | taskAssign => [.task, .processDefinition]
  | readVariable | updateVariable => [.task]
  | readTask | updateTask | createInstance | readInstance | updateInstance
  | deleteInstance | readTaskVariable | updateTaskVariable => [.processDefinition]

/-- The permission is defined for the resource type. -/
def appliesTo (p : Permission) (t : ResourceType) : Bool := p.resourceTypes.contains t

/-- The permission with a given name, compared exactly. -/
def ofName? (s : String) : Option Permission := values.find? fun p => p.name == s

/-- The permission with a given name in documents, compared exactly. -/
def ofDocumentName? (s : String) : Option Permission :=
  values.find? fun p => p.documentName == s

theorem mem_values (p : Permission) : p ∈ values := by cases p <;> decide

/-- A name belongs to one permission only. -/
theorem ofName?_eq_some_iff {s : String} {p : Permission} : ofName? s = some p ↔ p.name = s := by
  constructor
  · intro h
    simpa using List.find?_some h
  · rintro rfl
    cases p <;> decide

@[simp] theorem ofName?_name (p : Permission) : ofName? p.name = some p :=
  ofName?_eq_some_iff.2 rfl

@[simp] theorem ofDocumentName?_documentName (p : Permission) :
    ofDocumentName? p.documentName = some p := by
  cases p <;> decide

end Permission

/-- The mask has every bit of the permission. -/
def Mask.grants (m : Mask) (p : Permission) : Bool := decide (p.mask ⊆ m)

theorem Mask.grants_iff {m : Mask} {p : Permission} :
    m.grants p = true ↔ ∀ i, i ∈ p.mask → i ∈ m := by
  rw [Mask.grants, decide_eq_true_eq, Mask.subset_iff]

end TaskAccess
