import TaskAccess.Proofs.Asking
import TaskAccess.Proofs.Session

/-!
# Ending tasks

Completing a task drops the records of its id, and so does deleting it.  A list of tasks is
deleted in two loops: the caller is checked for each task, and then their records are dropped
one task after the other.  So no check sees a store from which something is missing already,
although the records of the first task may be those that permit deleting the last one; and a
task that is named twice has its records counted once.

## Main definitions

* `Store.Purged` — the records of some ids are gone, and were counted.
* `Action.PurgesAfter` — an action fails as a check does, or drops the records of some ids.

## Main results

* `Store.purged_iff` — what was dropped determines the store and the count.
* `TaskGate.purgesAfter_complete`, `TaskGate.purgesAfter_deleteTask`,
  `TaskGate.purgesAfter_deleteTasks` — ending tasks is a check and a purge.
* `TaskGate.run_deleteTasks_congr` — only which tasks are named counts.
* `TaskGate.ended_tasks_are_purged` — **exactly the records of the ended tasks are dropped.**
-/

namespace TaskAccess

/-! ### Purged stores -/

namespace Store

/-- What is left of the store are the records on other ids, unchanged and in order, and the
count is that of the records that are gone. -/
structure Purged (s : Store) (ids : List String) (count : Nat) (s' : Store) : Prop where
  store_eq : s' = { s with ledger := s.ledger.filter fun r => r.resourceId ∉ ids }
  count_add_length : count + s'.ledger.length = s.ledger.length

variable {s s' : Store} {ids : List String} {count : Nat}

theorem purged_iff :
    s.Purged ids count s' ↔
      count = s.ledger.length - (s.without ids).ledger.length ∧ s' = s.without ids := by
  have hle := s.length_without_le ids
  have hstore : s.without ids =
      { s with ledger := s.ledger.filter fun r => r.resourceId ∉ ids } := by
    rw [← ledger_without]
    rfl
  constructor
  · rintro ⟨hs', hcount⟩
    rw [← hstore] at hs'
    subst hs'
    exact ⟨by omega, rfl⟩
  · rintro ⟨hcount, rfl⟩
    exact ⟨hstore, by omega⟩

/-- There is a store that is left, and a count. -/
theorem purged_without (s : Store) (ids : List String) :
    s.Purged ids (s.ledger.length - (s.without ids).ledger.length) (s.without ids) :=
  purged_iff.2 ⟨rfl, rfl⟩

end Store

/-! ### A check and a purge -/

namespace Action

/-- On the store, the action fails as the check does and changes nothing, or it drops the
records of the ids and counts them. -/
def PurgesAfter (check : Except AccessError Unit) (ids : List String)
    (a : Action AccessError Nat) (s : Store) : Prop :=
  run a s =
    match check with
    | .error e => (.error e, s)
    | .ok () => (.ok (s.ledger.length - (s.without ids).ledger.length), s.without ids)

namespace PurgesAfter

variable {check : Except AccessError Unit} {ids : List String} {a : Action AccessError Nat}
  {s s' : Store}

theorem eq_ok_iff (h : PurgesAfter check ids a s) {count : Nat} :
    run a s = (.ok count, s') ↔ check = .ok () ∧ s.Purged ids count s' := by
  unfold PurgesAfter at h
  rw [h, Store.purged_iff]
  cases check with
  | error e => simp
  | ok u => simp [eq_comm]

theorem eq_error_iff (h : PurgesAfter check ids a s) {e : AccessError} :
    run a s = (.error e, s') ↔ s' = s ∧ check = .error e := by
  unfold PurgesAfter at h
  rw [h]
  cases check with
  | error e' => simp [and_comm, eq_comm]
  | ok u => simp

theorem exists_eq_ok_iff (h : PurgesAfter check ids a s) :
    (∃ count s', run a s = (.ok count, s')) ↔ check = .ok () := by
  constructor
  · rintro ⟨count, s', hrun⟩
    exact (h.eq_ok_iff.1 hrun).1
  · intro hcheck
    exact ⟨_, _, h.eq_ok_iff.2 ⟨hcheck, s.purged_without ids⟩⟩

end PurgesAfter

end Action

namespace TaskGate

open TaskAccess.Action (PurgesAfter)

variable {g : TaskGate} {s : Store} {task : Task}

/-- One task is ended after the caller was checked for it. -/
theorem purgesAfter_permit (hs : s.Works) (caller : Caller) (op : Task.Operation) :
    PurgesAfter (g.authorize s caller task op) [task.id]
      (g.permit caller task op >>= fun _ => Store.resourceDeleted task.id) s := by
  have hcount := s.countP_add_length_without task.id
  have hdropped : (s.ledger.countP fun r => r.resourceId == task.id) =
      s.ledger.length - (s.without [task.id]).ledger.length := by omega
  unfold PurgesAfter
  rw [run_permit_bind]
  cases g.authorize s caller task op with
  | error e => rfl
  | ok u =>
    show Action.run (Store.resourceDeleted task.id) s = (.ok _, s.without [task.id])
    rw [run_resourceDeleted hs, hdropped]

theorem purgesAfter_complete (hs : s.Works) (caller : Caller) :
    PurgesAfter (g.authorize s caller task .complete) [task.id] (g.complete caller task) s :=
  purgesAfter_permit hs caller .complete

theorem purgesAfter_deleteTask (hs : s.Works) (caller : Caller) :
    PurgesAfter (g.authorize s caller task .delete) [task.id] (g.deleteTask caller task) s :=
  purgesAfter_permit hs caller .delete

/-- Several tasks are ended after the caller was checked for each of them. -/
theorem purgesAfter_deleteTasks (hs : s.Works) (caller : Caller) (tasks : List Task) :
    PurgesAfter (tasks.forM fun task => g.authorize s caller task .delete) (tasks.map Task.id)
      (g.deleteTasks caller tasks) s := run_deleteTasks hs caller tasks

/-- Deleting tasks comes to the same in whatever order and however often they are named, as long
as it succeeds. -/
theorem run_deleteTasks_congr (hs : s.Works) {caller : Caller} {tasks tasks' : List Task}
    (h : ∀ task, task ∈ tasks' ↔ task ∈ tasks) {count : Nat} {s' : Store}
    (hrun : Action.run (g.deleteTasks caller tasks) s = (.ok count, s')) :
    Action.run (g.deleteTasks caller tasks') s = (.ok count, s') := by
  obtain ⟨hcheck, hpurged⟩ := (purgesAfter_deleteTasks hs caller tasks).eq_ok_iff.1 hrun
  have hcheck' : (tasks'.forM fun task => g.authorize s caller task .delete) = .ok () :=
    forM_eq_ok_iff.2 fun task htask => forM_eq_ok_iff.1 hcheck task ((h task).1 htask)
  have hids : s.without (tasks'.map Task.id) = s.without (tasks.map Task.id) := by
    refine s.without_congr fun id => ?_
    simp only [List.mem_map, h]
  refine (purgesAfter_deleteTasks hs caller tasks').eq_ok_iff.2 ⟨hcheck', ?_⟩
  rwa [Store.purged_iff, hids, ← Store.purged_iff]

/-- **Exactly the records of the ended tasks are dropped.**  Over a store in memory, completing
or deleting a task succeeds if the caller is permitted it, and then leaves the records on other
resource ids, unchanged and in order, and answers how many are gone.  Deleting a list of tasks
succeeds if and only if the caller is permitted to delete each of them on the store as it was
before; it then leaves the records on none of the ids and answers how many are gone, the same
for the tasks in any other order.  Otherwise it fails as the check of the first task does for
which the check fails, and drops nothing. -/
theorem ended_tasks_are_purged (hs : s.Works) (g : TaskGate) (caller : Caller) :
    (∀ (task : Task) (count : Nat) (s' : Store),
      (Action.run (g.complete caller task) s = (.ok count, s') ↔
          g.authorize s caller task .complete = .ok () ∧ s.Purged [task.id] count s') ∧
        (Action.run (g.deleteTask caller task) s = (.ok count, s') ↔
          g.authorize s caller task .delete = .ok () ∧ s.Purged [task.id] count s')) ∧
      ∀ tasks : List Task,
        ((∃ count s', Action.run (g.deleteTasks caller tasks) s = (.ok count, s')) ↔
            ∀ task ∈ tasks, g.authorize s caller task .delete = .ok ()) ∧
          (∀ (count : Nat) (s' : Store),
            Action.run (g.deleteTasks caller tasks) s = (.ok count, s') →
              s.Purged (tasks.map Task.id) count s' ∧
                ∀ tasks' : List Task, tasks'.Perm tasks →
                  Action.run (g.deleteTasks caller tasks') s = (.ok count, s')) ∧
          ∀ (e : AccessError) (s' : Store),
            Action.run (g.deleteTasks caller tasks) s = (.error e, s') ↔
              s' = s ∧ ∃ pre task post, tasks = pre ++ task :: post ∧
                (∀ t ∈ pre, g.authorize s caller t .delete = .ok ()) ∧
                  g.authorize s caller task .delete = .error e := by
  constructor
  · intro task count s'
    exact ⟨(purgesAfter_complete hs caller).eq_ok_iff, (purgesAfter_deleteTask hs caller).eq_ok_iff⟩
  · intro tasks
    have hpurges := purgesAfter_deleteTasks (g := g) hs caller tasks
    refine ⟨?_, ?_, ?_⟩
    · rw [hpurges.exists_eq_ok_iff, forM_eq_ok_iff]
    · intro count s' hrun
      refine ⟨(hpurges.eq_ok_iff.1 hrun).2, ?_⟩
      intro tasks' hperm
      exact run_deleteTasks_congr hs (fun task => hperm.mem_iff) hrun
    · intro e s'
      rw [hpurges.eq_error_iff, forM_eq_error_iff]

/-- One user may delete two tasks, and another one may do something with each of these, with a
third task, and with a task of a case. -/
def deleterOfTwoTasks : Ledger :=
  [.ofHolder ⟨1⟩ .grant .task "t1" (.user "demo") Permission.delete.mask,
    .ofHolder ⟨2⟩ .grant .task "t1" (.user "mary") Permission.taskWork.mask,
    .ofHolder ⟨3⟩ .grant .task "c1" (.user "mary") Permission.read.mask,
    .ofHolder ⟨4⟩ .grant .task "t3" (.user "mary") Permission.read.mask,
    .ofHolder ⟨5⟩ .grant .task "t2" (.user "demo") Permission.delete.mask]

/-- A list of tasks with one task named twice, and with a task of a case. -/
def taskNamedTwice : List Task :=
  [⟨"t1", .standalone⟩, ⟨"c1", .case "k1"⟩, ⟨"t1", .standalone⟩, ⟨"t2", .standalone⟩]

/-- The user deletes the tasks, the first of them twice although the record that permits it is
dropped, and the record on the third task is left; and so it is in the reversed order. -/
theorem ended_tasks_are_purged_taskNamedTwice :
    (Store.ofLedger deleterOfTwoTasks).Works ∧
      taskNamedTwice.reverse.Perm taskNamedTwice ∧
      ∃ s', Action.run (standard.deleteTasks (.authenticated ⟨"demo", []⟩) taskNamedTwice)
          (.ofLedger deleterOfTwoTasks) = (.ok 4, s') ∧
        Action.run (standard.deleteTasks (.authenticated ⟨"demo", []⟩) taskNamedTwice.reverse)
          (.ofLedger deleterOfTwoTasks) = (.ok 4, s') ∧
        s'.ledger =
          [.ofHolder ⟨4⟩ .grant .task "t3" (.user "mary") Permission.read.mask] := by
  have hs : (Store.ofLedger deleterOfTwoTasks).Works := ⟨rfl, rfl⟩
  have hperm : taskNamedTwice.reverse.Perm taskNamedTwice := List.reverse_perm _
  obtain ⟨hsucceeds, hpurged, -⟩ := (ended_tasks_are_purged hs standard
    (.authenticated ⟨"demo", []⟩)).2 taskNamedTwice
  have hpermitted : ∀ task ∈ taskNamedTwice, standard.authorize (.ofLedger deleterOfTwoTasks)
      (.authenticated ⟨"demo", []⟩) task .delete = .ok () := by
    simp only [authorize_eq_ok_iff hs]
    decide +kernel
  obtain ⟨count, s', hrun⟩ := hsucceeds.2 hpermitted
  obtain ⟨⟨rfl, hcount⟩, hreordered⟩ := hpurged count s' hrun
  have hone : count + 1 = 5 := hcount
  obtain rfl : count = 4 := by omega
  exact ⟨hs, hperm, _, hrun, hreordered _ hperm, rfl⟩

end TaskGate

end TaskAccess
