import TaskAccess.Proofs.Asking
import TaskAccess.Proofs.Stages

/-!
# Readable tasks

A list of tasks is filtered for those that a caller may read.  Each task is decided on its own,
by the permission to read it, or to read the tasks of its process; so a list is filtered as its
parts are, and what was kept is kept again.

## Main definitions

* `Task.ReadableBy` — an identity may read a task.

## Main results

* `Policy.met_requirement_read_iff` — what reading a task requires.
* `TaskGate.filterReadable_append` — a list is filtered as its parts are, whatever the store does.
* `TaskGate.exactly_readable_are_kept` — **exactly the readable tasks are kept.**
-/

namespace TaskAccess

/-- The identity may read the task: the task belongs to a case; or reading is held on it; or it
belongs to a process, is not called the wildcard, and reading tasks is held on the definition. -/
def Task.ReadableBy (task : Task) (l : Ledger) (i : Identity) : Prop :=
  (∃ caseInstanceId, task.scope = .case caseInstanceId) ∨
    Holds l i ⟨.read, .task, .ofId task.id, {}⟩ ∨
      task.id ≠ wildcard ∧ ∃ key instanceId, task.scope = .process key instanceId ∧
        Holds l i ⟨.readTask, .processDefinition, .ofId key, {}⟩

variable {l : Ledger} {i : Identity} {task : Task}

theorem Task.readableBy_iff :
    task.ReadableBy l i ↔ task.isEligible = false ∨ task.HeldOn l i .read := by
  have hread : Permission.onDefinition? .read = some .readTask := rfl
  rw [ReadableBy, isEligible_eq_false_iff, heldOn_iff_of_onDefinition? hread]

instance (task : Task) (l : Ledger) (i : Identity) : Decidable (task.ReadableBy l i) :=
  decidable_of_iff _ Task.readableBy_iff.symm

/-- What reading a task requires of the caller. -/
theorem Policy.met_requirement_read_iff {p : Policy} {caller : Caller} :
    (p.requirement task .read).Met l caller ↔
      ∀ i ∈ caller.checkedIdentity?, task.ReadableBy l i := by
  simp only [Task.readableBy_iff]
  cases htask : task.isEligible with
  | false => simp [requirement_of_isEligible_eq_false htask, Requirement.Met, Requirement.none]
  | true =>
    rw [met_requirement_iff_admits (by decide) htask]
    simp [Admits, accepted]

namespace TaskGate

variable {g : TaskGate} {s : Store} {caller : Caller}

/-- A list is filtered as its parts are, one after the other. -/
theorem filterReadable_append (tasks tasks' : List Task) :
    g.filterReadable s caller (tasks ++ tasks') = do
      let kept ← g.filterReadable s caller tasks
      let kept' ← g.filterReadable s caller tasks'
      return kept ++ kept' := by
  induction tasks with
  | nil =>
    show g.filterReadable s caller tasks' = _
    cases g.filterReadable s caller tasks' <;> rfl
  | cons task rest ih =>
    rw [List.cons_append, filterReadable, filterReadable, ih]
    -- each part may fail, and the first failure is the answer
    cases g.isPermitted s caller task .read with
    | error e => rfl
    | ok readable =>
      cases g.filterReadable s caller rest with
      | error e => rfl
      | ok kept =>
        cases g.filterReadable s caller tasks' with
        | error e => rfl
        | ok kept' => cases readable <;> rfl

/-- Over a store in memory, whoever is checked is left with the readable tasks. -/
theorem filterReadable_eq_filter (hs : s.Works) (hi : caller.checkedIdentity? = some i)
    (tasks : List Task) :
    g.filterReadable s caller tasks =
      .ok (tasks.filter fun task => task.ReadableBy s.ledger i) := by
  rw [filterReadable_eq hs]
  simp only [Policy.met_requirement_read_iff, hi, Option.mem_def, Option.some.injEq, forall_eq']

/-- What was kept is kept again. -/
theorem filterReadable_of_filterReadable_eq (hs : s.Works) {tasks kept : List Task}
    (h : g.filterReadable s caller tasks = .ok kept) :
    g.filterReadable s caller kept = .ok kept := by
  rw [filterReadable_eq hs] at h ⊢
  obtain rfl := Except.ok.inj h
  rw [List.filter_filter]
  simp only [Bool.and_self]

/-- **Exactly the readable tasks are kept.**  Over a store in memory, filtering a list of tasks
keeps those that the checked identity may read, in their order and as often as they are listed,
and all of them for a caller without an identity or with checks skipped; and it leaves the store as
it is.  So filtering two lists together is to filter one and then the other, and filtering once
more changes nothing. -/
theorem exactly_readable_are_kept (hs : s.Works) (g : TaskGate) (caller : Caller) :
    (∀ tasks : List Task,
      (∀ i, caller.checkedIdentity? = some i →
          Action.run ((Call.filterReadable tasks).perform g caller) s =
            (.ok (.readable (tasks.filter fun task => task.ReadableBy s.ledger i)), s)) ∧
        (caller.identity = none ∨ caller.checksEnabled = false →
          Action.run ((Call.filterReadable tasks).perform g caller) s = (.ok (.readable tasks), s))) ∧
      (∀ tasks tasks' : List Task, ∃ kept kept', g.filterReadable s caller tasks = .ok kept ∧
        g.filterReadable s caller tasks' = .ok kept' ∧
          g.filterReadable s caller (tasks ++ tasks') = .ok (kept ++ kept')) ∧
        ∀ tasks : List Task, ∃ kept, g.filterReadable s caller tasks = .ok kept ∧
          g.filterReadable s caller kept = .ok kept := by
  refine ⟨?_, ?_, ?_⟩
  · intro tasks
    constructor
    · intro i hi
      rw [Call.perform, Action.run_map, Action.run_reading, filterReadable_eq_filter hs hi]
      rfl
    · intro h
      rw [Call.perform, Action.run_map, Action.run_reading,
        filterReadable_of_checkedIdentity?_eq_none (Caller.checkedIdentity?_eq_none_iff.2 h)]
      rfl
  · intro tasks tasks'
    have hkept := filterReadable_eq (g := g) hs caller tasks
    have hkept' := filterReadable_eq (g := g) hs caller tasks'
    refine ⟨_, _, hkept, hkept', ?_⟩
    rw [filterReadable_append, hkept, hkept']
    rfl
  · intro tasks
    have hkept := filterReadable_eq (g := g) hs caller tasks
    exact ⟨_, hkept, filterReadable_of_filterReadable_eq hs hkept⟩

/-- Tasks that stand alone, of a process and of a case, one of them listed twice. -/
def listed : List Task :=
  [⟨"t1", .process "invoice" "p1"⟩, ⟨"t1", .standalone⟩, ⟨"t2", .standalone⟩,
    ⟨"t1", .process "payroll" "p2"⟩, ⟨"c1", .case "k1"⟩, ⟨"t1", .process "invoice" "p1"⟩]

/-- A user from whom everything is revoked on one task is left with the other tasks, and with that
one as far as its definition permits reading it; and with all of them if checks are skipped. -/
theorem exactly_readable_are_kept_revoked :
    (Store.ofLedger revokedOnTask).Works ∧
      Action.run ((Call.filterReadable listed).perform standard
          (.authenticated ⟨"demo", ["hr", "sales"]⟩)) (.ofLedger revokedOnTask) =
        (.ok (.readable [⟨"t1", .process "invoice" "p1"⟩, ⟨"t2", .standalone⟩, ⟨"c1", .case "k1"⟩,
          ⟨"t1", .process "invoice" "p1"⟩]), .ofLedger revokedOnTask) ∧
      Action.run ((Call.filterReadable listed).perform standard
          (Caller.authenticated ⟨"demo", ["hr", "sales"]⟩).unchecked) (.ofLedger revokedOnTask) =
        (.ok (.readable listed), .ofLedger revokedOnTask) := by
  have hs : (Store.ofLedger revokedOnTask).Works := ⟨rfl, rfl⟩
  have hreadable : (listed.filter fun task => task.ReadableBy revokedOnTask
      ⟨"demo", ["hr", "sales"]⟩) = [⟨"t1", .process "invoice" "p1"⟩, ⟨"t2", .standalone⟩,
        ⟨"c1", .case "k1"⟩, ⟨"t1", .process "invoice" "p1"⟩] := by decide +kernel
  refine ⟨hs, ?_, ?_⟩
  · rw [← hreadable]
    exact ((exactly_readable_are_kept hs standard _).1 listed).1 _ rfl
  · exact ((exactly_readable_are_kept hs standard _).1 listed).2 (.inr rfl)

end TaskGate

end TaskAccess
