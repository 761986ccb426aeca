import TaskAccess.Proofs.Linking

/-!
# Calls of the gate

A workflow engine calls the gate again and again, on behalf of one caller after the other.
Here a call is data, with its arguments.  What it is about can be read off it: the tasks that
it asks about and what it asks for, the links that it makes, and the tasks that it ends.

## Main definitions

* `TaskGate.Call`, `TaskGate.Call.perform` — the calls, and the actions they are.
* `TaskGate.Call.linked`, `TaskGate.Call.ended` — the links that a call makes, and the
  tasks that it ends.
* `TaskGate.Call.task?` — the task that a call is about.
* `TaskGate.Call.asks` — what a caller has to be permitted for a call.
* `TaskGate.Call.IsEnforced` — the call is refused, rather than answered, if it is not
  permitted.

## Main results

* `TaskGate.Call.fst_eq_of_mem_linked`, `TaskGate.Call.eq_of_mem_ended`,
  `TaskGate.Call.fst_eq_of_mem_asks` — a call about one task is about no other one.
-/

namespace TaskAccess

namespace TaskGate

/-! ### Calls -/

/-- An operation of the gate, with its arguments. -/
inductive Call
  | authorize (task : Task) (op : Task.Operation)
  | isPermitted (task : Task) (op : Task.Operation)
  | filterReadable (tasks : List Task)
  | saveTask (task : Task) (save : TaskSave)
  | setAssignee (task : Task) (userId : Option String)
  | setOwner (task : Task) (userId : Option String)
  | claim (task : Task) (userId : Option String)
  | delegate (task : Task) (userId : String)
  | addIdentityLink (task : Task) (link : Link)
  | deleteIdentityLink (task : Task) (link : Link)
  | addCandidateUser (task : Task) (userId : String)
  | addCandidateGroup (task : Task) (groupId : String)
  | deleteCandidateUser (task : Task) (userId : String)
  | deleteCandidateGroup (task : Task) (groupId : String)
  | complete (task : Task)
  | deleteTask (task : Task)
  | deleteTasks (tasks : List Task)
  deriving DecidableEq, Repr

/-- What a call answers. -/
inductive Answer
  | done
  | permitted (b : Bool)
  | readable (tasks : List Task)
  /-- The number of records that were dropped. -/
  | dropped (count : Nat)
  deriving DecidableEq, Repr

namespace Call

/-- The action that a call is. -/
def perform (g : TaskGate) (caller : Caller) : Call → Action AccessError Answer
  | authorize task op => (fun _ => .done) <$> g.permit caller task op
  | isPermitted task op => .permitted <$> .reading fun s => g.isPermitted s caller task op
  | filterReadable tasks => .readable <$> .reading fun s => g.filterReadable s caller tasks
  | saveTask task save => (fun _ => .done) <$> g.saveTask caller task save
  | setAssignee task userId => (fun _ => .done) <$> g.setAssignee caller task userId
  | setOwner task userId => (fun _ => .done) <$> g.setOwner caller task userId
  | claim task userId => (fun _ => .done) <$> g.claim caller task userId
  | delegate task userId => (fun _ => .done) <$> g.delegate caller task userId
  | addIdentityLink task link => (fun _ => .done) <$> g.addIdentityLink caller task link
  | deleteIdentityLink task link => (fun _ => .done) <$> g.deleteIdentityLink caller task link
  | addCandidateUser task userId => (fun _ => .done) <$> g.addCandidateUser caller task userId
  | addCandidateGroup task groupId =>
    (fun _ => .done) <$> g.addCandidateGroup caller task groupId
  | deleteCandidateUser task userId =>
    (fun _ => .done) <$> g.deleteCandidateUser caller task userId
  | deleteCandidateGroup task groupId =>
    (fun _ => .done) <$> g.deleteCandidateGroup caller task groupId
  | complete task => .dropped <$> g.complete caller task
  | deleteTask task => .dropped <$> g.deleteTask caller task
  | deleteTasks tasks => .dropped <$> g.deleteTasks caller tasks

/-- The links that the call grants if it succeeds, each with the task that it is to. -/
def linked : Call → List (Task × Link)
  | saveTask task save => task.linked save.links
  | setAssignee task userId | claim task userId =>
    task.linked ((presentId userId).map Link.assignee).toList
  | setOwner task userId => task.linked ((presentId userId).map Link.owner).toList
  | delegate task userId => task.linked [.assignee userId]
  | addIdentityLink task link => task.linked [link]
  | addCandidateUser task userId => task.linked [.candidateUser userId]
  | addCandidateGroup task groupId => task.linked [.candidateGroup groupId]
  | _ => []

/-- The ids of the tasks that the call ends if it succeeds. -/
def ended : Call → List String
  | complete task | deleteTask task => [task.id]
  | deleteTasks tasks => tasks.map Task.id
  | _ => []

/-- The task that the call is about, if it is about a single one. -/
def task? : Call → Option Task
  | authorize task _ | isPermitted task _ => some task
  | saveTask task _ | setAssignee task _ | setOwner task _ | claim task _ | delegate task _ =>
    some task
  | addIdentityLink task _ | deleteIdentityLink task _ => some task
  | addCandidateUser task _ | addCandidateGroup task _ => some task
  | deleteCandidateUser task _ | deleteCandidateGroup task _ => some task
  | complete task | deleteTask task => some task
  | filterReadable _ | deleteTasks _ => none

/-- The call saves a new task. -/
def Creates : Call → Prop
  | saveTask _ save => save.isNew = true
  | _ => False

/-- A call is refused if it is not permitted.  The other calls answer whether something
is permitted, and change nothing. -/
def IsEnforced : Call → Prop
  | isPermitted _ _ | filterReadable _ => False
  | _ => True

/-- The operations that the caller has to be permitted for the call. -/
def asks : Call → List (Task × Task.Operation)
  | authorize task op => [(task, op)]
  | isPermitted _ _ | filterReadable _ => []
  | saveTask task save => [(task, if save.isNew then .create else .save)]
  | setAssignee task _ => [(task, .setAssignee)]
  | setOwner task _ => [(task, .setOwner)]
  | claim task _ => [(task, .claim)]
  | delegate task _ => [(task, .delegate)]
  | addIdentityLink task _ | addCandidateUser task _ | addCandidateGroup task _ =>
    [(task, .addIdentityLink)]
  | deleteIdentityLink task _ | deleteCandidateUser task _ | deleteCandidateGroup task _ =>
    [(task, .deleteIdentityLink)]
  | complete task => [(task, .complete)]
  | deleteTask task => [(task, .delete)]
  | deleteTasks tasks => tasks.map fun task => (task, .delete)

variable {call : Call} {task : Task}

/-- A call about one task links nobody to another one. -/
theorem fst_eq_of_mem_linked (h : call.task? = some task) {p : Task × Link}
    (hp : p ∈ call.linked) : p.1 = task := by
  cases call <;> simp only [task?, Option.some.injEq, reduceCtorEq] at h <;>
    simp only [linked, List.not_mem_nil] at hp
  all_goals exact h ▸ (Task.mem_linked_iff.1 hp).2.1

/-- A link is made on a task under authorization, and names somebody. -/
theorem isEligible_of_mem_linked {p : Task × Link} (h : p ∈ call.linked) :
    p.1.isEligible = true ∧ p.2.isPresent = true := by
  cases call <;> simp only [linked, List.not_mem_nil] at h
  all_goals
    obtain ⟨htask, heq, -, hpresent⟩ := Task.mem_linked_iff.1 h
    exact ⟨heq ▸ htask, hpresent⟩

/-- A call about one task ends no other one. -/
theorem eq_of_mem_ended (h : call.task? = some task) {id : String} (hid : id ∈ call.ended) :
    id = task.id := by
  cases call <;> simp only [task?, Option.some.injEq, reduceCtorEq] at h <;>
    simp only [ended, List.not_mem_nil, List.mem_singleton] at hid
  all_goals exact h ▸ hid

/-- A call about one task asks for nothing on another one. -/
theorem fst_eq_of_mem_asks (h : call.task? = some task) {q : Task × Task.Operation}
    (hq : q ∈ call.asks) : q.1 = task := by
  cases call <;> cases h
  case isPermitted => cases hq
  all_goals rw [List.mem_singleton.1 hq]

/-- A call about one task asks for one operation on it, unless it only answers whether one
is permitted. -/
theorem exists_asks_eq (h : call.task? = some task) (hcall : call.IsEnforced) :
    ∃ op, call.asks = [(task, op)] := by
  cases call <;> cases h
  case isPermitted => exact hcall.elim
  all_goals exact ⟨_, rfl⟩

/-- Whoever is linked is linked to a task that the call asks about. -/
theorem exists_mem_asks_of_mem_linked {p : Task × Link} (hp : p ∈ call.linked) :
    ∃ op, (p.1, op) ∈ call.asks ∧ (op = .create → call.Creates) := by
  cases call <;> simp only [linked, List.not_mem_nil] at hp
  all_goals rw [(Task.mem_linked_iff.1 hp).2.1]
  case saveTask t save =>
    refine ⟨_, List.mem_singleton_self _, fun hop => ?_⟩
    by_cases hnew : save.isNew = true
    · exact hnew
    · rw [if_neg hnew] at hop
      cases hop
  all_goals exact ⟨_, List.mem_singleton_self _, by simp⟩

/-- Every task that is ended is one that the call asks about. -/
theorem exists_mem_asks_of_mem_ended {id : String} (hid : id ∈ call.ended) :
    ∃ q ∈ call.asks, q.2 ≠ .create ∧ q.1.id = id := by
  cases call <;> simp only [ended, List.not_mem_nil] at hid
  case deleteTasks ts =>
    obtain ⟨t, ht, rfl⟩ := List.mem_map.1 hid
    exact ⟨(t, .delete), List.mem_map_of_mem ht, by simp, rfl⟩
  all_goals exact ⟨_, List.mem_singleton_self _, by simp, (List.mem_singleton.1 hid).symm⟩

end Call

end TaskGate

end TaskAccess
