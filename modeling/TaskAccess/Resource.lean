/-!
# Resources

What an authorization is about: a resource of one of three types, named by an id.
The id `*` stands for every resource of a type, and the same text stands for
every user or group where an identity is named.  A resource can belong to others;
its lineage says to which.

## Main definitions

* `wildcard`, `reservedDetail` — the reserved identifier, and why it is refused.
* `ResourceType` — process definitions, tasks and process instances, with stable ids.
* `Lineage` — the definition and the instance that a resource belongs to.

## Main results

* `ResourceType.ofId?_eq_some_iff` — a stable id belongs to one type only.
-/

namespace TaskAccess

/-- The identifier that stands for every resource, every user or every group. -/
def wildcard : String := "*"

/-- The identifier is the wildcard. -/
def isWildcard (id : String) : Bool := id == wildcard

/-- The end of every message that refuses the wildcard as an identity. -/
def reservedDetail : String :=
  "id cannot be " ++ wildcard ++ ". " ++ wildcard ++ " is a reserved identifier."

/-- The kinds of resource that permissions are asked for. -/
inductive ResourceType
  | processDefinition
  | task
  | processInstance
  deriving DecidableEq, Repr, Inhabited

namespace ResourceType

/-- Every resource type, in the order of the stable ids. -/
def values : List ResourceType := [.processDefinition, .task, .processInstance]

/-- The number a type has in the table. -/
def id : ResourceType → Int32
  | processDefinition => 6
  | task => 7
  | processInstance => 8

/-- The name a type has in messages and documents. -/
def name : ResourceType → String
  | processDefinition => "ProcessDefinition"
  | task => "Task"
  | processInstance => "ProcessInstance"

/-- The type with a given stable id. -/
def ofId? (n : Int32) : Option ResourceType := values.find? fun t => t.id == n

/-- The type with a given name, compared exactly. -/
def ofName? (s : String) : Option ResourceType := values.find? fun t => t.name == s

/-- A stable id belongs to one type only. -/
theorem ofId?_eq_some_iff {n : Int32} {t : ResourceType} : ofId? n = some t ↔ t.id = n := by
  constructor
  · intro h
    simpa using List.find?_some h
  · rintro rfl
    cases t <;> decide

@[simp] theorem ofId?_id (t : ResourceType) : ofId? t.id = some t := ofId?_eq_some_iff.2 rfl

theorem id_inj {a b : ResourceType} : a.id = b.id ↔ b = a := by
  rw [← ofId?_eq_some_iff, ofId?_id, Option.some_inj]

@[simp] theorem ofName?_name (t : ResourceType) : ofName? t.name = some t := by
  cases t <;> decide

end ResourceType

/-- What a resource belongs to, as far as it is known. -/
structure Lineage where
  /-- The key of the process definition. -/
  definitionKey : Option String := none
  /-- The id of the process instance. -/
  instanceId : Option String := none
  deriving DecidableEq, Repr, Inhabited

namespace Lineage

/-- The id of the owner of a given type; a task owns nothing. -/
def ownerId? (l : Lineage) : ResourceType → Option String
  | .processDefinition => l.definitionKey
  | .processInstance => l.instanceId
  | .task => none

end Lineage

end TaskAccess
