import TaskAccess.Proofs.Denial
import TaskAccess.Task.Policy

/-!
# Permissions on tasks

Whether a permission on a task is held is a question about one resource, or about two: the task,
and the definition of the process that the task belongs to, where the permission has a name of
its own.  What is asked of a caller who wants to do an operation on a task comes down to that.

## Main definitions

* `Permission.onDefinition?` — the name that a permission on tasks has on their definition.
* `Task.HeldOn` — an identity holds a permission on a task, or on its definition.
* `Policy.Admits` — a caller is not checked, or holds an accepted permission on a task.

## Main results

* `Task.permitted_iff_heldOn` — the walk to the owner of a task.
* `Task.heldOn_iff_of_onDefinition?` — the two resources that are asked about.
* `Policy.met_requirement_iff_admits`, `Policy.met_requirement_create_iff` — **what an operation
  on a task requires.**
-/

namespace TaskAccess

/-- The name that a permission on tasks has on their process definition, if it has one there. -/
def Permission.onDefinition? (p : Permission) : Option Permission :=
  (fallback? .task p).bind Fallback.permission

/-- The identity holds the permission on the task.  Or it holds its counterpart on the definition
of the process, if the task belongs to one, and is not the wildcard. -/
def Task.HeldOn (task : Task) (l : Ledger) (i : Identity) (p : Permission) : Prop :=
  Holds l i ⟨p, .task, .ofId task.id, {}⟩ ∨
    task.id ≠ wildcard ∧ ∃ key ∈ task.lineage.definitionKey, ∃ q ∈ p.onDefinition?,
      Holds l i ⟨q, .processDefinition, .ofId key, {}⟩

instance (task : Task) (l : Ledger) (i : Identity) (p : Permission) :
    Decidable (task.HeldOn l i p) := inferInstanceAs (Decidable (_ ∨ _))

/-- There is no identity to check, or one of the accepted permissions is held on the task. -/
def Policy.Admits (p : Policy) (l : Ledger) (caller : Caller) (task : Task)
    (op : Task.Operation) : Prop :=
  ∀ i ∈ caller.checkedIdentity?, ∃ q ∈ p.accepted op, task.HeldOn l i q

instance (p : Policy) (l : Ledger) (caller : Caller) (task : Task) (op : Task.Operation) :
    Decidable (p.Admits l caller task op) :=
  inferInstanceAs (Decidable (∀ i ∈ caller.checkedIdentity?, _))

variable {l : Ledger} {i : Identity} {task : Task} {caller : Caller}

/-- The walk from a task ends at the definition of its process. -/
theorem Task.permitted_iff_heldOn {q : Permission} :
    Permitted l i ⟨q, .task, .ofId task.id, task.lineage⟩ ↔ task.HeldOn l i q := by
  rw [permitted_iff_holds_or_holds_fallback?, Check.exists_fallback?_iff, HeldOn]
  refine or_congr (holds_congr rfl) ?_
  by_cases hw : task.id = wildcard
  · -- every task has no owner, and the wildcard is every task
    rw [hw, Target.ofId_wildcard]
    constructor
    · rintro ⟨id, entry, p, key, htarget, -⟩
      cases htarget
    · rintro ⟨hne, -⟩
      exact absurd rfl hne
  · have htarget : Target.ofId task.id = .only task.id := by simp [Target.ofId, isWildcard, hw]
    constructor
    · rintro ⟨id, entry, p, key, -, hentry, hp, hkey, hheld⟩
      rw [resourceType_of_fallback? hentry] at hkey hheld
      exact ⟨hw, key, hkey, p, Option.bind_eq_some_iff.2 ⟨entry, hentry, hp⟩,
        (holds_congr rfl).1 hheld⟩
    · rintro ⟨-, key, hkey, p, hp, hheld⟩
      obtain ⟨entry, hentry, hp⟩ := Option.bind_eq_some_iff.1 hp
      refine ⟨task.id, entry, p, key, htarget, hentry, hp, ?_, ?_⟩
      · rw [resourceType_of_fallback? hentry]
        exact hkey
      · rw [resourceType_of_fallback? hentry]
        exact (holds_congr rfl).1 hheld

theorem Task.definitionKey_eq_some_iff {key : String} :
    task.lineage.definitionKey = some key ↔ ∃ instanceId, task.scope = .process key instanceId := by
  cases h : task.scope <;> simp [lineage, h]

/-- A permission with a counterpart on the definition is held on a task, or its counterpart on the
definition of the process that the task belongs to. -/
theorem Task.heldOn_iff_of_onDefinition? {p q : Permission} (hq : p.onDefinition? = some q) :
    task.HeldOn l i p ↔ Holds l i ⟨p, .task, .ofId task.id, {}⟩ ∨
      task.id ≠ wildcard ∧ ∃ key instanceId, task.scope = .process key instanceId ∧
        Holds l i ⟨q, .processDefinition, .ofId key, {}⟩ := by
  simp only [HeldOn, hq, Option.mem_def, Option.some.injEq, definitionKey_eq_some_iff]
  simp

namespace Policy

variable {p : Policy} {op : Task.Operation}

/-- Every operation accepts some permission. -/
theorem accepted_ne_nil (p : Policy) (op : Task.Operation) : p.accepted op ≠ [] := by
  cases op with
  | readVariables =>
    rw [accepted]
    split <;> exact List.cons_ne_nil _ _
  | _ => exact List.cons_ne_nil _ _

/-- Nothing is required on a task that is under no authorization. -/
theorem requirement_of_isEligible_eq_false (htask : task.isEligible = false) :
    p.requirement task op = .none := by
  rw [requirement, htask]
  rfl

/-- **What an operation on a task requires**: an accepted permission on the task, or on the
definition of its process. -/
theorem met_requirement_iff_admits (hop : op ≠ .create) (htask : task.isEligible = true) :
    (p.requirement task op).Met l caller ↔ p.Admits l caller task op := by
  have hne := p.accepted_ne_nil op
  have halternatives : (p.requirement task op).alternatives =
      (p.accepted op).map fun q => ⟨q, .task, .ofId task.id, task.lineage⟩ := by
    simp [requirement, htask, hop]
  rw [Requirement.Met, Policy.Admits, halternatives, ne_eq, List.map_eq_nil_iff]
  simp only [List.mem_map, exists_exists_and_eq_and, Task.permitted_iff_heldOn]
  constructor
  · intro h
    exact h hne
  · intro h _
    exact h

/-- To create a task requires the permission on every task, whatever the task is called. -/
theorem met_requirement_create_iff (htask : task.isEligible = true) :
    (p.requirement task .create).Met l caller ↔
      ∀ i ∈ caller.checkedIdentity?, Holds l i (.onAny .create .task) := by
  have hany : ∀ i : Identity, Permitted l i (.onAny .create .task) ↔
      Holds l i (.onAny .create .task) := fun i => permitted_iff_of_fallback?_eq_none rfl
  simp [Requirement.Met, requirement, htask, accepted, hany]

end Policy

end TaskAccess
