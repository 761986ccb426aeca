import Mathlib.Data.List.Count
import TaskAccess.Proofs.KeptAccess
import TaskAccess.Proofs.Stages

/-!
# Which records a call about a task looks at

The records of a store fall apart by the resource ids that they are on.  Whether an operation
on a task is permitted is decided by the records on all resources, on the task, and on its
process definition.  A call about one task looks at no others, and answers alike on stores
that agree on those; and it writes on the id of the task only.

## Main definitions

* `Ledger.on` — the records on a resource id.
* `Task.reads`, `Task.Agree` — the resource ids that decide about a task, and ledgers with
  the same records on them.
* `AccessError.withoutId`, `AnswersAlike` — answers that differ in the identifier of a
  refused record at most.

## Main results

* `Ledger.perm_of_on_eq` — ledgers with the same records on every id hold the same records.
* `holds_iff_of_on_eq`, `TaskGate.require_congr` — **decisions about a task are made by the
  records on the ids that decide about it.**
* `TaskGate.Call.answersAlike_perform` — calls about a task answer alike where these agree.
* `TaskGate.Call.on_perform_of_ne` — they leave the records on all other ids alone.
-/

namespace TaskAccess

/-! ### Records on a resource id -/

namespace Ledger

variable {l m : Ledger} {r : Record} {id : String}

/-- The records on a resource id. -/
def on (l : Ledger) (id : String) : Ledger := l.select fun slot => slot.resourceId == id

theorem mem_on_iff : r ∈ l.on id ↔ r ∈ l ∧ r.resourceId = id := by
  simp [on, select, Record.slot]

/-- Ledgers that agree on the id of a record both hold it, or neither does. -/
theorem mem_congr (h : l.on r.resourceId = m.on r.resourceId) : r ∈ l ↔ r ∈ m := by
  have hl : r ∈ l.on r.resourceId ↔ r ∈ l := by rw [mem_on_iff, and_iff_left rfl]
  have hm : r ∈ m.on r.resourceId ↔ r ∈ m := by rw [mem_on_iff, and_iff_left rfl]
  rw [← hl, h, hm]

/-- Ledgers with the same records on every id hold the same records, in some order. -/
theorem perm_of_on_eq (h : ∀ id, l.on id = m.on id) : l.Perm m := by
  rw [List.perm_iff_count]
  intro r
  have hcount : ∀ n : Ledger, (n.on r.resourceId).count r = n.count r := fun n =>
    List.count_filter (by simp [Record.slot])
  rw [← hcount l, ← hcount m, h]

/-- The number of records on an id. -/
theorem countP_resourceId : (l.countP fun r => r.resourceId == id) = (l.on id).length :=
  List.countP_eq_length_filter

end Ledger

namespace Store

variable {s : Store} {g : DefaultGrants} {id : String}

theorem on_withGrants_of_ne {links : List (Task × Link)} (h : ∀ p ∈ links, p.1.id ≠ id) :
    (s.withGrants g links).ledger.on id = s.ledger.on id := by
  refine select_withGrants_of_forall fun p hp newId hslot => ?_
  rw [beq_iff_eq] at hslot
  exact h p hp hslot

theorem on_without_of_notMem {ids : List String} (h : id ∉ ids) :
    (s.without ids).ledger.on id = s.ledger.on id :=
  select_without fun slot hslot => by
    rw [beq_iff_eq] at hslot
    rwa [hslot]

end Store

/-! ### What decides about a task -/

/-- What is held on a target is decided by the records on all resources and on the target. -/
theorem holds_iff_of_on_eq {l m : Ledger} {i : Identity} {c : Check}
    (h : ∀ id, id = wildcard ∨ c.target = .only id → l.on id = m.on id) :
    Holds l i c ↔ Holds m i c := by
  have hmem : ∀ r : Record, r.AppliesTo i c.resourceType c.target → (r ∈ l ↔ r ∈ m) :=
    fun r hr => Ledger.mem_congr (h r.resourceId hr.resource_id)
  refine forall₂_congr fun bit _ => and_congr ?_ ?_
  · exact exists_congr fun r => and_congr_left fun hr => hmem r hr.1
  · constructor
    · intro hnone r hr happ
      exact hnone r ((hmem r happ).2 hr) happ
    · intro hnone r hr happ
      exact hnone r ((hmem r happ).1 hr) happ

theorem Target.eq_of_ofId_eq_only {id x : String} (h : Target.ofId id = .only x) : x = id := by
  rw [← Target.text_ofId id, h]
  rfl

namespace Task

/-- The resource ids whose records decide about a task. -/
def reads (task : Task) : List String :=
  wildcard :: task.id :: task.lineage.definitionKey.toList

/-- The ledgers have the same records on the ids that decide about the task. -/
def Agree (task : Task) (l m : Ledger) : Prop := ∀ id ∈ task.reads, l.on id = m.on id

theorem id_mem_reads (task : Task) : task.id ∈ task.reads :=
  List.mem_cons_of_mem _ List.mem_cons_self

theorem definitionKey_mem_reads {task : Task} {key : String}
    (h : task.lineage.definitionKey = some key) : key ∈ task.reads :=
  List.mem_cons_of_mem _ (List.mem_cons_of_mem _ (Option.mem_toList.2 h))

end Task

namespace Task.Agree

variable {task : Task} {l m : Ledger}

/-- A check on an id that decides about the task, or on all resources. -/
theorem holds_iff (h : task.Agree l m) {i : Identity} {c : Check}
    (hc : ∀ id, c.target = .only id → id ∈ task.reads) : Holds l i c ↔ Holds m i c := by
  refine holds_iff_of_on_eq ?_
  rintro id (rfl | hid)
  · exact h wildcard List.mem_cons_self
  · exact h id (hc id hid)

/-- A permission on the task, or on its definition. -/
theorem heldOn_iff (h : task.Agree l m) {i : Identity} {q : Permission} :
    task.HeldOn l i q ↔ task.HeldOn m i q := by
  have htask : Holds l i ⟨q, .task, .ofId task.id, {}⟩ ↔
      Holds m i ⟨q, .task, .ofId task.id, {}⟩ := by
    refine h.holds_iff fun id hid => ?_
    rw [Target.eq_of_ofId_eq_only hid]
    exact task.id_mem_reads
  have hdefinition : ∀ key ∈ task.lineage.definitionKey, ∀ p : Permission,
      (Holds l i ⟨p, .processDefinition, .ofId key, {}⟩ ↔
        Holds m i ⟨p, .processDefinition, .ofId key, {}⟩) := by
    intro key hkey p
    refine h.holds_iff fun id hid => ?_
    rw [Target.eq_of_ofId_eq_only hid]
    exact Task.definitionKey_mem_reads hkey
  refine or_congr htask (and_congr_right fun _ => exists_congr fun key =>
    and_congr_right fun hkey => ?_)
  exact exists_congr fun p => and_congr_right fun _ => hdefinition key hkey p

theorem met_iff (h : task.Agree l m) {p : Policy} {op : Task.Operation} {caller : Caller} :
    (p.requirement task op).Met l caller ↔ (p.requirement task op).Met m caller := by
  cases htask : task.isEligible with
  | false =>
    simp [Policy.requirement_of_isEligible_eq_false htask, Requirement.Met, Requirement.none]
  | true =>
    by_cases hop : op = .create
    · -- to create a task is asked of all tasks
      have hany : ∀ i : Identity, Holds l i (.onAny .create .task) ↔
          Holds m i (.onAny .create .task) := by
        intro i
        refine h.holds_iff fun id hid => ?_
        cases hid
      rw [hop, Policy.met_requirement_create_iff htask, Policy.met_requirement_create_iff htask]
      simp only [hany]
    · rw [Policy.met_requirement_iff_admits hop htask, Policy.met_requirement_iff_admits hop htask]
      simp only [Policy.Admits, h.heldOn_iff]

end Task.Agree

/-! ### What calls about a task answer -/

/-- The error, without the identifier of a record that was refused. -/
def AccessError.withoutId : AccessError → AccessError
  | .store (.fault (.malformedRecord _ defect)) => .store (.fault (.malformedRecord default defect))
  | e => e

/-- The action answers on both stores the same, the identifier of a refused record
disregarded. -/
def AnswersAlike {α : Type} (a : Action AccessError α) (s s' : Store) : Prop :=
  (Action.run a s).1.mapError AccessError.withoutId =
    (Action.run a s').1.mapError AccessError.withoutId

namespace AnswersAlike

variable {α β : Type} {a : Action AccessError α} {s s' : Store}

theorem of_eq (h : (Action.run a s).1 = (Action.run a s').1) : AnswersAlike a s s' :=
  congrArg (Except.mapError AccessError.withoutId) h

theorem map (h : AnswersAlike a s s') (f : α → β) : AnswersAlike (f <$> a) s s' := by
  have hmap : ∀ x : Except AccessError α, (x.map f).mapError AccessError.withoutId =
      (x.mapError AccessError.withoutId).map f := by
    intro x
    cases x <;> rfl
  rw [AnswersAlike, Action.run_map, Action.run_map, hmap, hmap, h]

/-- Stages answer alike if the checks agree, and what they lead into answers alike. -/
theorem staged {refusal? : Option AccessError} {check : Store → Except AccessError Unit}
    {rest : Action AccessError α} (hcheck : check s = check s')
    (hrest : refusal? = none → AnswersAlike rest s s') :
    AnswersAlike (.staged refusal? check rest) s s' := by
  rw [AnswersAlike, Action.run_staged, Action.run_staged]
  cases refusal? with
  | some e => rfl
  | none =>
    simp only [hcheck]
    cases check s' with
    | error e => rfl
    | ok u => exact hrest rfl

end AnswersAlike

namespace TaskGate

variable {g : TaskGate} {s s' : Store} {task : Task} {caller : Caller} {op : Task.Operation}

/-- Granting links of somebody fails on the empty task id only. -/
theorem answersAlike_forM_link (hs : s.Works) (hs' : s'.Works) {links : List (Task × Link)}
    (hlinks : ∀ p ∈ links, p.1 = task ∧ p.1.isEligible = true ∧ p.2.isPresent = true ∧
      p.2.validate = .ok ()) : AnswersAlike (links.forM fun p => g.link p.1 p.2) s s' := by
  rw [AnswersAlike, run_forM_link hs hlinks, run_forM_link hs' hlinks]
  by_cases hempty : task.id = "" ∧ links ≠ []
  · rw [if_pos hempty, if_pos hempty]
    rfl
  · rw [if_neg hempty, if_neg hempty]

section Agreeing

variable (hs : s.Works) (hs' : s'.Works) (h : task.Agree s.ledger s'.ledger)

include hs hs' h

/-- **Who may do something to a task is decided by the records on the ids that decide about
the task.** -/
theorem require_congr :
    s.require caller (g.policy.requirement task op) =
      s'.require caller (g.policy.requirement task op) := by
  rw [hs.require_eq, hs'.require_eq]
  simp only [h.met_iff]

/-- The number of records that are dropped with a task is that of the records on its id. -/
theorem answersAlike_resourceDeleted : AnswersAlike (Store.resourceDeleted task.id) s s' := by
  have hself : s.ledger.on task.id = s'.ledger.on task.id := h task.id task.id_mem_reads
  refine .of_eq ?_
  simp only [Store.resourceDeleted, Action.run_mapError, hs.run_deleteForResource,
    hs'.run_deleteForResource, Ledger.countP_resourceId, hself]

end Agreeing

namespace Call

variable {call : Call}

/-- Calls about a task are carried out alike on stores that agree on what decides about it. -/
theorem answersAlike_carryOut (htask : call.task? = some task) (hs : s.Works) (hs' : s'.Works)
    (h : task.Agree s.ledger s'.ledger) (hrefusal : call.refusal? = none) :
    AnswersAlike (call.carryOut g) s s' := by
  have hlinks := mem_linked_of_refusal?_eq_none htask hrefusal
  cases call with
  | isPermitted t op => exact .of_eq rfl
  | filterReadable ts => cases htask
  | complete t =>
    cases htask
    exact (answersAlike_resourceDeleted hs hs' h).map _
  | deleteTask t =>
    cases htask
    exact (answersAlike_resourceDeleted hs hs' h).map _
  | deleteTasks ts => cases htask
  | _ => exact (answersAlike_forM_link hs hs' hlinks).map _

/-- Calls about a task answer alike on stores that agree on what decides about it. -/
theorem answersAlike_perform (htask : call.task? = some task) (hs : s.Works) (hs' : s'.Works)
    (h : task.Agree s.ledger s'.ledger) : AnswersAlike (call.perform g caller) s s' := by
  have hasked : ∀ {op : Task.Operation}, call.asks = [(task, op)] →
      AnswersAlike (call.perform g caller) s s' := by
    intro op hasks
    rw [AnswersAlike, run_perform hasks, run_perform hasks]
    exact AnswersAlike.staged (require_congr hs hs' h) (answersAlike_carryOut htask hs hs' h)
  cases call with
  | isPermitted t op =>
    cases htask
    refine AnswersAlike.map (.of_eq ?_) _
    rw [Action.run_reading, Action.run_reading, isPermitted_eq hs, isPermitted_eq hs']
    simp only [h.met_iff]
  | filterReadable ts => cases htask
  | deleteTasks ts => cases htask
  | _ =>
    obtain ⟨op, hasks⟩ := exists_asks_eq htask trivial
    exact hasked hasks

/-! ### What calls about a task write -/

theorem on_outcome_of_ne (htask : call.task? = some task) {id : String} (hid : id ≠ task.id) :
    (call.outcome g s).ledger.on id = s.ledger.on id := by
  have hended : id ∉ call.ended := fun h => hid (call.eq_of_mem_ended htask h)
  have hlinked : ∀ p ∈ call.linked, p.1.id ≠ id := by
    intro p hp
    rw [call.fst_eq_of_mem_linked htask hp]
    exact hid.symm
  rw [outcome, Store.on_without_of_notMem hended, Store.on_withGrants_of_ne hlinked]

theorem Effect.on_eq_of_ne {p : Except AccessError Answer × Store} (h : call.Effect g s p)
    (htask : call.task? = some task) {id : String} (hid : id ≠ task.id) :
    p.2.ledger.on id = s.ledger.on id := by
  cases h with
  | failed e n => rfl
  | succeeded x _ => exact on_outcome_of_ne htask hid

/-- A call about a task leaves the records on all other ids alone. -/
theorem on_perform_of_ne (hs : s.Works) (htask : call.task? = some task) {id : String}
    (hid : id ≠ task.id) :
    (Action.run (call.perform g caller) s).2.ledger.on id = s.ledger.on id :=
  (call.effect_perform hs caller).on_eq_of_ne htask hid

end Call

end TaskGate

end TaskAccess
