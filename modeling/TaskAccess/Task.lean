import TaskAccess.Resource

/-!
# Tasks

A task stands alone, or belongs to a process or to a case.  Tasks of cases are
under no authorization.

## Main definitions

* `Task`, `Task.Scope` — a task, and what it belongs to.
* `Task.isEligible` — the task is under authorization.
* `Task.lineage` — the definition and the instance of its process.
-/

namespace TaskAccess

/-- What a task belongs to. -/
inductive Task.Scope
  | standalone
  | process (definitionKey instanceId : String)
  | case (caseInstanceId : String)
  deriving DecidableEq, Repr, Inhabited

/-- A task, by its id and what it belongs to. -/
structure Task where
  id : String
  scope : Task.Scope := .standalone
  deriving DecidableEq, Repr, Inhabited

namespace Task

/-- The task is under authorization. -/
def isEligible (t : Task) : Bool :=
  match t.scope with
  | .case _ => false
  | .standalone | .process _ _ => true

/-- The task is under authorization unless it belongs to a case. -/
theorem isEligible_eq_true_iff {t : Task} :
    t.isEligible = true ↔ ∀ caseInstanceId, t.scope ≠ .case caseInstanceId := by
  cases h : t.scope <;> simp [isEligible, h]

theorem isEligible_eq_false_iff {t : Task} :
    t.isEligible = false ↔ ∃ caseInstanceId, t.scope = .case caseInstanceId := by
  cases h : t.scope <;> simp [isEligible, h]

/-- What the task belongs to, as a resource. -/
def lineage (t : Task) : Lineage :=
  match t.scope with
  | .process definitionKey instanceId => ⟨some definitionKey, some instanceId⟩
  | .standalone | .case _ => {}

end Task

end TaskAccess
