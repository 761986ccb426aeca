import TaskAccess.Proofs.Linking
import TaskAccess.Proofs.TaskPermissions

/-!
# Asking and enforcing

Whether an operation on a task is permitted can be asked, and it can be enforced.  Both look
at the same requirement, but only enforcing looks at the id of the task: the wildcard is no
task, except where one is created.  Asking takes the wildcard for every task.  So the two
agree wherever the id is not the wildcard, and what is enforced is always what would have
been answered with yes; but who may do an operation on every task is told that it is
permitted on a task that is not found.

## Main definitions

* `TaskGate.TakenForEveryTask` — the wildcard is asked about, and taken for every task.

## Main results

* `TaskGate.isPermitted_eq`, `TaskGate.authorize_eq_ok_iff` — what is asked and what is
  enforced, said of the requirement.
* `TaskGate.filterReadable_eq` — the readable tasks of a list.
* `Policy.met_requirement_iff_of_wildcard` — the requirement on the wildcard is about every
  task.
* `TaskGate.isPermitted_agrees_with_authorize_iff` — **asking and enforcing agree exactly if
  the wildcard is not taken for every task.**
* `TaskGate.isPermitted_of_wildcard_not_found` — permitted on a task that is not found.
-/

namespace TaskAccess

/-! ### What is asked, and what is enforced -/

namespace TaskGate

variable {g : TaskGate} {s : Store} {task : Task} {op : Task.Operation}

/-- Asking whether an operation is permitted asks whether its requirement is met. -/
theorem isPermitted_eq (hs : s.Works) (caller : Caller) (op : Task.Operation) :
    g.isPermitted s caller task op =
      .ok (decide ((g.policy.requirement task op).Met s.ledger caller)) := by
  cases hc : caller.checksEnabled with
  | false =>
    have hm := Requirement.met_of_checkedIdentity?_eq_none (r := g.policy.requirement task op)
      (l := s.ledger) (Caller.checkedIdentity?_eq_none_iff.2 (.inr hc))
    rw [isPermitted, hc, decide_eq_true hm]
    rfl
  | true =>
    rw [isPermitted, hc, hs.decision_eq]
    cases decide ((g.policy.requirement task op).Met s.ledger caller) <;> rfl

/-- Enforcing succeeds if the requirement is met, and the wildcard is not named for a task. -/
theorem authorize_eq_ok_iff (hs : s.Works) {caller : Caller} :
    g.authorize s caller task op = .ok () ↔
      (op = .create ∨ task.id ≠ wildcard) ∧
        (g.policy.requirement task op).Met s.ledger caller := by
  rw [authorize_eq]
  by_cases hw : op ≠ .create ∧ task.id = wildcard
  · rw [if_pos hw]
    constructor
    · intro h
      cases h
    · rintro ⟨hop | hid, -⟩
      · exact absurd hop hw.1
      · exact absurd hw.2 hid
  · have hid : op = .create ∨ task.id ≠ wildcard := by
      by_cases hop : op = .create
      · exact .inl hop
      · exact .inr fun he => hw ⟨hop, he⟩
    rw [if_neg hw, hs.require_eq, and_iff_right hid]
    by_cases hmet : (g.policy.requirement task op).Met s.ledger caller
    · simp [hmet]
    · simp [hmet]

/-- The readable tasks of a list are those whose requirement for reading is met. -/
theorem filterReadable_eq (hs : s.Works) (caller : Caller) (tasks : List Task) :
    g.filterReadable s caller tasks =
      .ok (tasks.filter fun task =>
        decide ((g.policy.requirement task .read).Met s.ledger caller)) := by
  induction tasks with
  | nil => rfl
  | cons task rest ih =>
    rw [filterReadable, isPermitted_eq hs, ih]
    by_cases hmet : (g.policy.requirement task .read).Met s.ledger caller
    · simp [hmet, bind, Except.bind, pure, Except.pure]
    · simp [hmet, bind, Except.bind, pure, Except.pure]

end TaskGate

/-! ### The wildcard for a task -/

/-- The requirement on the wildcard is that an accepted permission is held on every task. -/
theorem Policy.met_requirement_iff_of_wildcard {p : Policy} {task : Task} {op : Task.Operation}
    {l : Ledger} {caller : Caller} (hid : task.id = wildcard) :
    (p.requirement task op).Met l caller ↔
      ∀ i, caller.checkedIdentity? = some i → task.isEligible = true →
        ∃ q ∈ p.accepted op, Holds l i (.onAny q .task) := by
  cases htask : task.isEligible with
  | false => simp [requirement_of_isEligible_eq_false htask, Requirement.Met, Requirement.none]
  | true =>
    by_cases hop : op = .create
    · rw [hop, met_requirement_create_iff htask]
      simp [accepted]
    · -- the wildcard is taken for every task, and has no definition
      have hany : ∀ (i : Identity) (q : Permission),
          task.HeldOn l i q ↔ Holds l i (.onAny q .task) := by
        intro i q
        rw [Task.HeldOn, hid, Target.ofId_wildcard]
        exact or_iff_left fun h => h.1 rfl
      rw [met_requirement_iff_admits hop htask, Admits]
      simp [hany]

namespace TaskGate

/-- The wildcard is asked about, for another operation than creating a task, and the operation
is permitted on every task: the caller is not checked, the task would be under no
authorization, or an accepted permission is held on every task. -/
structure TakenForEveryTask (g : TaskGate) (l : Ledger) (caller : Caller) (task : Task)
    (op : Task.Operation) : Prop where
  op_ne_create : op ≠ .create
  id_eq_wildcard : task.id = wildcard
  permitted_on_every : ∀ i, caller.checkedIdentity? = some i → task.isEligible = true →
    ∃ p ∈ g.policy.accepted op, Holds l i (.onAny p .task)

variable {g : TaskGate} {s : Store}

theorem takenForEveryTask_iff {l : Ledger} {caller : Caller} {task : Task}
    {op : Task.Operation} :
    g.TakenForEveryTask l caller task op ↔
      ¬ (op = .create ∨ task.id ≠ wildcard) ∧ (g.policy.requirement task op).Met l caller := by
  constructor
  · rintro ⟨hop, hid, hevery⟩
    exact ⟨fun h => h.elim hop fun hne => hne hid,
      (Policy.met_requirement_iff_of_wildcard hid).2 hevery⟩
  · rintro ⟨hnot, hmet⟩
    rw [not_or, not_not] at hnot
    exact ⟨hnot.1, hnot.2, (Policy.met_requirement_iff_of_wildcard hnot.2).1 hmet⟩

/-- **Asking and enforcing agree exactly if the wildcard is not taken for every task.**  Over a
store in memory, asking whether an operation is permitted always has an answer, and it is yes
whenever enforcing the operation succeeds.  That enforcing succeeds whenever the answer is
yes is true of a task and an operation exactly if the wildcard is not taken for every task;
and it is true of all tasks that filtering a list for the readable ones keeps, exactly if
this holds of reading each task of the list.  Where the wildcard is taken for every task,
the answer is yes and no task is found. -/
theorem isPermitted_agrees_with_authorize_iff (hs : s.Works) (g : TaskGate) (caller : Caller) :
    (∀ task op, ∃ b, g.isPermitted s caller task op = .ok b ∧
        (g.authorize s caller task op = .ok () → b = true) ∧
        ((b = true → g.authorize s caller task op = .ok ()) ↔
          ¬ g.TakenForEveryTask s.ledger caller task op) ∧
        (g.TakenForEveryTask s.ledger caller task op →
          b = true ∧ g.authorize s caller task op = .error .noSuchTask)) ∧
      ∀ tasks, ∃ kept, g.filterReadable s caller tasks = .ok kept ∧
        ((∀ task ∈ kept, g.authorize s caller task .read = .ok ()) ↔
          ∀ task ∈ tasks, ¬ g.TakenForEveryTask s.ledger caller task .read) := by
  constructor
  · intro task op
    refine ⟨_, isPermitted_eq hs caller op, ?_, ?_, ?_⟩
    · intro h
      exact decide_eq_true ((authorize_eq_ok_iff hs).1 h).2
    · rw [authorize_eq_ok_iff hs, takenForEveryTask_iff, decide_eq_true_eq]
      tauto
    · intro h
      obtain ⟨-, hmet⟩ := takenForEveryTask_iff.1 h
      rw [authorize_eq, if_pos ⟨h.op_ne_create, h.id_eq_wildcard⟩]
      exact ⟨decide_eq_true hmet, rfl⟩
  · intro tasks
    refine ⟨_, filterReadable_eq hs caller tasks, ?_⟩
    simp only [List.mem_filter, decide_eq_true_eq, authorize_eq_ok_iff hs, takenForEveryTask_iff]
    constructor
    · rintro h task htask ⟨hnot, hmet⟩
      exact hnot (h task ⟨htask, hmet⟩).1
    · rintro h task ⟨htask, hmet⟩
      exact ⟨Classical.byContradiction fun hnot => h task htask ⟨hnot, hmet⟩, hmet⟩

/-- One user may read every task. -/
def readerOfEveryTask : Ledger :=
  [.ofHolder ⟨1⟩ .grant .task wildcard (.user "demo") Permission.read.mask]

/-- The user is told that a task can be read, and can read it. -/
theorem isPermitted_agrees_with_authorize_readerOfEveryTask :
    (Store.ofLedger readerOfEveryTask).Works ∧
      standard.isPermitted (.ofLedger readerOfEveryTask) (.authenticated ⟨"demo", []⟩)
        ⟨"t1", .standalone⟩ .read = .ok true ∧
      standard.authorize (.ofLedger readerOfEveryTask) (.authenticated ⟨"demo", []⟩)
        ⟨"t1", .standalone⟩ .read = .ok () := by
  have hs : (Store.ofLedger readerOfEveryTask).Works := ⟨rfl, rfl⟩
  have hasked : standard.isPermitted (.ofLedger readerOfEveryTask)
      (.authenticated ⟨"demo", []⟩) ⟨"t1", .standalone⟩ .read = .ok true := by
    rw [isPermitted_eq hs]
    decide +kernel
  obtain ⟨b, hb, -, hiff, -⟩ := (isPermitted_agrees_with_authorize_iff hs standard
    (.authenticated ⟨"demo", []⟩)).1 ⟨"t1", .standalone⟩ .read
  have hyes : b = true := Except.ok.inj (hb.symm.trans hasked)
  have hnot : ¬ standard.TakenForEveryTask readerOfEveryTask (.authenticated ⟨"demo", []⟩)
      ⟨"t1", .standalone⟩ .read := fun h => absurd h.id_eq_wildcard (by decide)
  exact ⟨hs, hasked, hiff.2 hnot hyes⟩

/-- The user is told that the wildcard can be read, and it is kept among the readable tasks;
but there is no such task. -/
theorem isPermitted_of_wildcard_not_found :
    standard.isPermitted (.ofLedger readerOfEveryTask) (.authenticated ⟨"demo", []⟩)
        ⟨wildcard, .standalone⟩ .read = .ok true ∧
      standard.authorize (.ofLedger readerOfEveryTask) (.authenticated ⟨"demo", []⟩)
        ⟨wildcard, .standalone⟩ .read = .error .noSuchTask ∧
      standard.filterReadable (.ofLedger readerOfEveryTask) (.authenticated ⟨"demo", []⟩)
        [⟨wildcard, .standalone⟩] = .ok [⟨wildcard, .standalone⟩] := by
  have hs : (Store.ofLedger readerOfEveryTask).Works := ⟨rfl, rfl⟩
  refine ⟨?_, rfl, ?_⟩
  · rw [isPermitted_eq hs]
    decide +kernel
  · rw [filterReadable_eq hs]
    decide +kernel

end TaskGate

end TaskAccess
