import TaskAccess.Proofs.Locality

/-!
# Calls about unrelated tasks

Two tasks are unrelated if they have different ids, neither of which is the wildcard or the
process definition of the other task.  Then no call about the one writes where the decisions
about the other are read, and the order of two such calls makes no difference: each of them
answers the same, and the records that are left are the same up to their order and to the
identifiers that were handed out for new ones.

## Main definitions

* `Task.Unrelated` — the tasks are unrelated.
* `Ledger.forgetNewIds` — the records, without the identifiers of those in slots that were
  free before.
* `SameButNewIds` — runs that differ in the identifiers that were handed out at most.

## Main results

* `Ledger.forgetNewIds_insert`, `Ledger.insert_forgetNewId_congr` — merging without the identifiers
  of new records.
* `Store.forgetNewIds_select_withGrants`, `Store.forgetNewIds_select_without` — links are
  granted and records dropped alike on stores that agree.
* `TaskGate.Call.sameButNewIds_withMinted` — which identifiers are handed out makes no
  difference to a call.
* `TaskGate.forgetNewIds_on_run` — what a call writes on its task does not depend on whether
  a call about an unrelated one went before.
* `TaskGate.unrelated_calls_commute` — **calls about unrelated tasks commute.**
-/

namespace TaskAccess

/-- The tasks have different ids, neither of which stands for every resource or is the
process definition of the other task. -/
structure Task.Unrelated (t u : Task) : Prop where
  id_ne : t.id ≠ u.id
  left_ne_wildcard : t.id ≠ wildcard
  right_ne_wildcard : u.id ≠ wildcard
  left_ne_definition : u.lineage.definitionKey ≠ some t.id
  right_ne_definition : t.lineage.definitionKey ≠ some u.id

namespace Task.Unrelated

variable {t u : Task}

theorem symm (h : t.Unrelated u) : u.Unrelated t :=
  ⟨h.id_ne.symm, h.right_ne_wildcard, h.left_ne_wildcard, h.right_ne_definition,
    h.left_ne_definition⟩

/-- Nothing on the id of the one decides about the other. -/
theorem ne_of_mem_reads (h : t.Unrelated u) {id : String} (hid : id ∈ t.reads) : id ≠ u.id := by
  simp only [Task.reads, List.mem_cons, Option.mem_toList] at hid
  rcases hid with rfl | rfl | hid
  · exact h.right_ne_wildcard.symm
  · exact h.id_ne
  · rintro rfl
    exact h.right_ne_definition hid

end Task.Unrelated

/-! ### Identifiers of new records -/

/-- The record, without its identifier if its slot was free before. -/
def Record.forgetNewId (before : Ledger) (r : Record) : Record :=
  if r.slot ∈ before.map Record.slot then r else { r with id := default }

/-- The records, without the identifiers of those in slots that were free before. -/
def Ledger.forgetNewIds (before l : Ledger) : Ledger := l.map (Record.forgetNewId before)

namespace Record

variable {before : Ledger} {a b r : Record}

@[simp] theorem slot_forgetNewId : (r.forgetNewId before).slot = r.slot := by
  unfold forgetNewId
  split <;> rfl

@[simp] theorem permissions_forgetNewId :
    (r.forgetNewId before).permissions = r.permissions := by
  unfold forgetNewId
  split <;> rfl

theorem forgetNewId_of_mem (h : r.slot ∈ before.map slot) : r.forgetNewId before = r := if_pos h

theorem forgetNewId_of_notMem (h : r.slot ∉ before.map slot) :
    r.forgetNewId before = { r with id := default } := if_neg h

/-- Without their identifiers, records of one slot differ in their permissions at most. -/
theorem forgetNewId_congr_of_notMem (hslot : a.slot = r.slot)
    (hperm : a.permissions = r.permissions) (h : r.slot ∉ before.map slot) :
    a.forgetNewId before = r.forgetNewId before := by
  rw [forgetNewId_of_notMem h, forgetNewId_of_notMem (hslot ▸ h)]
  obtain ⟨_, _, _, _, _, _, _⟩ := a
  cases hslot
  cases hperm
  rfl

theorem forgetNewId_merge :
    (a.merge b).forgetNewId before = (a.forgetNewId before).merge (b.forgetNewId before) := by
  have hslot : (a.merge b).slot = a.slot := slot_merge a b
  by_cases h : a.slot ∈ before.map slot
  · rw [forgetNewId_of_mem h, forgetNewId_of_mem (hslot ▸ h), merge, merge,
      permissions_forgetNewId]
  · rw [forgetNewId_of_notMem h, forgetNewId_of_notMem (hslot ▸ h), merge, merge,
      permissions_forgetNewId]

end Record

namespace Ledger

variable {before l : Ledger} {a r : Record} {q : Slot → Bool}

theorem map_slot_forgetNewIds :
    (forgetNewIds before l).map Record.slot = l.map Record.slot := by
  simp [forgetNewIds]

theorem mem_map_slot_select_iff {slot : Slot} :
    slot ∈ (l.select q).map Record.slot ↔ slot ∈ l.map Record.slot ∧ q slot = true := by
  simp only [List.mem_map, select, List.mem_filter]
  constructor
  · rintro ⟨a, ⟨ha, hq⟩, rfl⟩
    exact ⟨⟨a, ha, rfl⟩, hq⟩
  · rintro ⟨⟨a, ha, rfl⟩, hq⟩
    exact ⟨a, ⟨ha, hq⟩, rfl⟩

/-- Slots are not forgotten. -/
theorem select_forgetNewIds :
    (forgetNewIds before l).select q = forgetNewIds before (l.select q) := by
  rw [forgetNewIds, forgetNewIds, select, select, List.filter_map]
  simp [Function.comp_def]

theorem select_true : (l.select fun _ => true) = l := List.filter_true l

theorem forgetNewIds_insert :
    forgetNewIds before (l.insert r) = (forgetNewIds before l).insert (r.forgetNewId before) := by
  induction l with
  | nil => rfl
  | cons a rest ih =>
    by_cases h : a.slot = r.slot
    · simp only [forgetNewIds, insert, h, if_true, List.map_cons, Record.slot_forgetNewId,
        Record.forgetNewId_merge]
    · simpa only [forgetNewIds, insert, h, if_false, List.map_cons, Record.slot_forgetNewId,
        List.cons.injEq, true_and] using ih

/-- The identifier of a record is not looked at if its slot is held. -/
theorem insert_congr_of_mem (hslot : a.slot = r.slot) (hperm : a.permissions = r.permissions)
    (h : r.slot ∈ l.map Record.slot) : l.insert a = l.insert r := by
  induction l with
  | nil => cases h
  | cons b rest ih =>
    rw [insert, insert, hslot]
    by_cases hb : b.slot = r.slot
    · rw [if_pos hb, if_pos hb, Record.merge, Record.merge, hperm]
    · rw [List.map_cons, List.mem_cons] at h
      rw [if_neg hb, if_neg hb, ih (h.resolve_left (Ne.symm hb))]

/-- New identifiers do not matter: the slot is held, or they are forgotten. -/
theorem insert_forgetNewId_congr (hslot : a.slot = r.slot)
    (hperm : a.permissions = r.permissions)
    (h : r.slot ∈ before.map Record.slot → r.slot ∈ l.map Record.slot) :
    l.insert (a.forgetNewId before) = l.insert (r.forgetNewId before) := by
  by_cases hr : r.slot ∈ before.map Record.slot
  · rw [Record.forgetNewId_of_mem hr, Record.forgetNewId_of_mem (hslot ▸ hr),
      insert_congr_of_mem hslot hperm (h hr)]
  · rw [Record.forgetNewId_congr_of_notMem hslot hperm hr]

end Ledger

/-! ### Links are granted alike -/

namespace Store

variable {s s' : Store} {g : DefaultGrants} {before : Ledger} {q : Slot → Bool}

/-- Links are granted alike on stores that agree in some slots but for new identifiers, as
long as none of these slots has been given up. -/
theorem forgetNewIds_select_withGrants {links : List (Task × Link)}
    (hheld : ∀ slot ∈ before.map Record.slot, q slot = true → slot ∈ s.ledger.map Record.slot)
    (h : Ledger.forgetNewIds before (s.ledger.select q) =
      Ledger.forgetNewIds before (s'.ledger.select q)) :
    Ledger.forgetNewIds before ((s.withGrants g links).ledger.select q) =
      Ledger.forgetNewIds before ((s'.withGrants g links).ledger.select q) := by
  -- along the links: after the first of them the stores agree again
  induction links generalizing s s' with
  | nil => exact h
  | cons p rest ih =>
    rw [withGrants_cons, withGrants_cons]
    apply ih
    · intro slot hslot hq
      rw [withGrant, Ledger.map_slot_insert]
      split
      · exact hheld slot hslot hq
      · exact List.mem_append_left _ (hheld slot hslot hq)
    · rw [withGrant, withGrant, Ledger.select_insert, Ledger.select_insert]
      -- the grants are for one slot, whatever their identifiers
      by_cases hq : q (g.grantFor (.numbered s.minted) p.1 p.2).slot = true
      · have hq' : q (g.grantFor (.numbered s'.minted) p.1 p.2).slot = true := hq
        rw [if_pos hq, if_pos hq', Ledger.forgetNewIds_insert, Ledger.forgetNewIds_insert, ← h]
        refine Ledger.insert_forgetNewId_congr rfl rfl fun hslot => ?_
        rw [Ledger.map_slot_forgetNewIds, Ledger.mem_map_slot_select_iff]
        exact ⟨hheld _ hslot hq, hq⟩
      · have hq' : ¬ q (g.grantFor (.numbered s'.minted) p.1 p.2).slot = true := hq
        rw [if_neg hq, if_neg hq']
        exact h

/-- Dropping records does not depend on identifiers. -/
theorem forgetNewIds_select_without (ids : List String) :
    Ledger.forgetNewIds before ((s.without ids).ledger.select q) =
      (Ledger.forgetNewIds before (s.ledger.select q)).select fun slot =>
        !ids.contains slot.resourceId := by
  rw [Ledger.select_forgetNewIds, without, Ledger.select, Ledger.select, Ledger.select,
    List.filter_comm]
  rfl

end Store

/-- The runs answer the same, the identifier of a refused record disregarded, and leave the
same records, the identifiers of those in slots that were free before disregarded. -/
def SameButNewIds {α : Type} (before : Ledger) (p p' : Except AccessError α × Store) : Prop :=
  p.1.mapError AccessError.withoutId = p'.1.mapError AccessError.withoutId ∧
    Ledger.forgetNewIds before p.2.ledger = Ledger.forgetNewIds before p'.2.ledger

namespace TaskGate

variable {g : TaskGate} {s s' : Store} {t u : Task} {before : Ledger}

namespace Call

variable {call : Call} {q : Slot → Bool} {p p' : Except AccessError Answer × Store}

/-- A call that succeeds leaves stores alike in slots in which they agree. -/
theorem forgetNewIds_select_outcome
    (hheld : ∀ slot ∈ before.map Record.slot, q slot = true → slot ∈ s.ledger.map Record.slot)
    (h : Ledger.forgetNewIds before (s.ledger.select q) =
      Ledger.forgetNewIds before (s'.ledger.select q)) :
    Ledger.forgetNewIds before ((call.outcome g s).ledger.select q) =
      Ledger.forgetNewIds before ((call.outcome g s').ledger.select q) := by
  unfold outcome
  rw [Store.forgetNewIds_select_without, Store.forgetNewIds_select_without,
    Store.forgetNewIds_select_withGrants hheld h]

/-- Calls that answer alike leave stores alike in slots in which they agree. -/
theorem Effect.forgetNewIds_select (hp : call.Effect g s p) (hp' : call.Effect g s' p')
    (halike : p.1.mapError AccessError.withoutId = p'.1.mapError AccessError.withoutId)
    (hheld : ∀ slot ∈ before.map Record.slot, q slot = true → slot ∈ s.ledger.map Record.slot)
    (h : Ledger.forgetNewIds before (s.ledger.select q) =
      Ledger.forgetNewIds before (s'.ledger.select q)) :
    Ledger.forgetNewIds before (p.2.ledger.select q) =
      Ledger.forgetNewIds before (p'.2.ledger.select q) := by
  cases hp with
  | failed e n =>
    cases hp' with
    | failed e' n' => exact h
    | succeeded x' _ => cases halike
  | succeeded x _ =>
    cases hp' with
    | failed e' n' => cases halike
    | succeeded x' _ => exact forgetNewIds_select_outcome hheld h

/-- Tasks are deleted alike from stores with the same records. -/
theorem answersAlike_deleteTasks (hs : s.Works) (hs' : s'.Works) (h : s'.ledger = s.ledger)
    (caller : Caller) (tasks : List Task) :
    AnswersAlike (g.deleteTasks caller tasks) s s' := by
  have hcheck : (fun task => g.authorize s' caller task .delete) =
      fun task => g.authorize s caller task .delete := by
    funext task
    rw [authorize_eq_refuse, authorize_eq_refuse, hs.require_eq, hs'.require_eq, h]
  have hleft :
      (s'.without (tasks.map Task.id)).ledger = (s.without (tasks.map Task.id)).ledger := by
    rw [Store.ledger_without, Store.ledger_without, h]
  apply AnswersAlike.of_eq
  rw [run_deleteTasks hs, run_deleteTasks hs', hcheck, hleft, h]
  cases tasks.forM fun task => g.authorize s caller task .delete <;> rfl

/-- Calls answer alike on stores with the same records. -/
theorem answersAlike_of_ledger_eq (hs : s.Works) (hs' : s'.Works) (h : s'.ledger = s.ledger)
    (call : Call) (caller : Caller) : AnswersAlike (call.perform g caller) s s' := by
  have htask : ∀ {task : Task}, call.task? = some task →
      AnswersAlike (call.perform g caller) s s' := by
    intro task htask
    refine answersAlike_perform htask hs hs' fun id _ => ?_
    rw [h]
  cases call with
  | filterReadable tasks =>
    refine AnswersAlike.map (.of_eq ?_) _
    rw [Action.run_reading, Action.run_reading, filterReadable_eq hs, filterReadable_eq hs', h]
  | deleteTasks tasks => exact (answersAlike_deleteTasks hs hs' h caller tasks).map _
  | _ => exact htask rfl

/-- **Which identifiers are handed out makes no difference to a call**, but for the identifiers
of new records. -/
theorem sameButNewIds_withMinted (hs : s.Works) (call : Call) (caller : Caller) (n : Nat) :
    SameButNewIds s.ledger (Action.run (call.perform g caller) s)
      (Action.run (call.perform g caller) { s with minted := n }) := by
  have hs' := hs.withMinted n
  have halike : AnswersAlike (call.perform g caller) s { s with minted := n } :=
    answersAlike_of_ledger_eq hs hs' rfl call caller
  have hledger := (call.effect_perform (g := g) hs caller).forgetNewIds_select (q := fun _ => true)
    (call.effect_perform hs' caller) halike (fun slot hslot _ => hslot) rfl
  rw [Ledger.select_true, Ledger.select_true] at hledger
  exact ⟨halike, hledger⟩

end Call

/-! ### Sessions about unrelated tasks -/

section Steps

variable {a b : Step}

theorem on_run_of_ne (hs : s.Works) (ha : a.call.task? = some t) {id : String}
    (hid : id ≠ t.id) : (g.run [a] s).ledger.on id = s.ledger.on id :=
  Call.on_perform_of_ne hs ha hid

/-- A session about tasks that are unrelated to a task leaves all alone that decides about
it. -/
theorem agree_run (hs : s.Works) {steps : List Step}
    (h : ∀ step ∈ steps, ∃ u, step.call.task? = some u ∧ t.Unrelated u) :
    t.Agree (g.run steps s).ledger s.ledger := by
  -- along the session; each step leaves the records on the ids alone that decide about the task
  induction steps generalizing s with
  | nil => exact fun _ _ => rfl
  | cons step rest ih =>
    obtain ⟨u, hstep, hunrelated⟩ := h step List.mem_cons_self
    intro id hid
    rw [run_cons, ih ((step.call.effect_perform hs step.caller).works hs)
      (fun q hq => h q (List.mem_cons_of_mem step hq)) id hid]
    exact Call.on_perform_of_ne hs hstep (hunrelated.ne_of_mem_reads hid)

/-- What a call about a task answers does not depend on whether a call about an unrelated one
went before. -/
theorem answersAlike_run (hs : s.Works) (ha : a.call.task? = some t)
    (hb : b.call.task? = some u) (h : t.Unrelated u) :
    AnswersAlike (a.call.perform g a.caller) (g.run [b] s) s := by
  refine Call.answersAlike_perform ha (works_run hs [b]) hs (agree_run hs ?_)
  rintro step hstep
  obtain rfl := List.mem_singleton.1 hstep
  exact ⟨u, hb, h⟩

/-- What a call about a task writes there does not depend on whether a call about an unrelated
one goes before or after. -/
theorem forgetNewIds_on_run (hs : s.Works) (ha : a.call.task? = some t)
    (hb : b.call.task? = some u) (h : t.Unrelated u) :
    Ledger.forgetNewIds s.ledger ((g.run [a, b] s).ledger.on t.id) =
      Ledger.forgetNewIds s.ledger ((g.run [b, a] s).ledger.on t.id) := by
  have hafter : (g.run [a, b] s).ledger.on t.id = (g.run [a] s).ledger.on t.id :=
    on_run_of_ne (works_run hs [a]) hb h.id_ne
  have hbefore : (g.run [b] s).ledger.on t.id = s.ledger.on t.id :=
    on_run_of_ne hs hb h.id_ne
  rw [hafter]
  refine (a.call.effect_perform hs a.caller).forgetNewIds_select
    (a.call.effect_perform (works_run hs [b]) a.caller) (answersAlike_run hs ha hb h).symm
    (fun slot hslot _ => hslot) ?_
  exact congrArg (Ledger.forgetNewIds s.ledger) hbefore.symm

/-- **Calls about unrelated tasks commute.**  Each of the two answers the same whether it goes
first or second, but for the identifier of a record that is refused; and in either order the
same records are left, but for their order and for the identifiers of those in slots that
were free before. -/
theorem unrelated_calls_commute (hs : s.Works) (ha : a.call.task? = some t)
    (hb : b.call.task? = some u) (h : t.Unrelated u) :
    AnswersAlike (a.call.perform g a.caller) (g.run [b] s) s ∧
      AnswersAlike (b.call.perform g b.caller) (g.run [a] s) s ∧
      (Ledger.forgetNewIds s.ledger (g.run [a, b] s).ledger).Perm
        (Ledger.forgetNewIds s.ledger (g.run [b, a] s).ledger) := by
  refine ⟨answersAlike_run hs ha hb h, answersAlike_run hs hb ha h.symm, ?_⟩
  refine Ledger.perm_of_on_eq fun id => ?_
  rw [Ledger.on, Ledger.on, Ledger.select_forgetNewIds, Ledger.select_forgetNewIds]
  by_cases ht : id = t.id
  · rw [ht]
    exact forgetNewIds_on_run hs ha hb h
  · by_cases hu : id = u.id
    · rw [hu]
      exact (forgetNewIds_on_run hs hb ha h.symm).symm
    · -- neither call writes here
      have hab : (g.run [a, b] s).ledger.on id = s.ledger.on id :=
        (on_run_of_ne (works_run hs [a]) hb hu).trans (on_run_of_ne hs ha ht)
      have hba : (g.run [b, a] s).ledger.on id = s.ledger.on id :=
        (on_run_of_ne (works_run hs [b]) ha ht).trans (on_run_of_ne hs hb hu)
      exact congrArg (Ledger.forgetNewIds s.ledger) (hab.trans hba.symm)

end Steps

/-- Everybody may work on the tasks of one definition. -/
def workersOnDefinition : Ledger :=
  [.forEverybody ⟨1⟩ .processDefinition "invoice" Permission.taskWork.mask]

/-- A user claims a task of the definition. -/
def claimed (taskId userId : String) : Step where
  caller := .authenticated ⟨userId, []⟩
  call := .claim ⟨taskId, .process "invoice" taskId⟩ (some userId)

/-- Two users claim one task each of the same definition.  The identifiers of their grants tell
who was first, and nothing else does. -/
theorem unrelated_calls_commute_claimed :
    (Store.ofLedger workersOnDefinition).Works ∧
      Task.Unrelated ⟨"t1", .process "invoice" "t1"⟩ ⟨"t2", .process "invoice" "t2"⟩ ∧
      (claimed "t1" "demo").call.task? = some ⟨"t1", .process "invoice" "t1"⟩ ∧
      (claimed "t2" "mary").call.task? = some ⟨"t2", .process "invoice" "t2"⟩ ∧
      ¬ (standard.run [claimed "t1" "demo", claimed "t2" "mary"]
          (.ofLedger workersOnDefinition)).ledger.Perm
        (standard.run [claimed "t2" "mary", claimed "t1" "demo"]
          (.ofLedger workersOnDefinition)).ledger ∧
      (Ledger.forgetNewIds workersOnDefinition
        (standard.run [claimed "t1" "demo", claimed "t2" "mary"]
          (.ofLedger workersOnDefinition)).ledger).Perm
        (Ledger.forgetNewIds workersOnDefinition
          (standard.run [claimed "t2" "mary", claimed "t1" "demo"]
            (.ofLedger workersOnDefinition)).ledger) := by
  have hs : (Store.ofLedger workersOnDefinition).Works := ⟨rfl, rfl⟩
  have hunrelated : Task.Unrelated ⟨"t1", .process "invoice" "t1"⟩
      ⟨"t2", .process "invoice" "t2"⟩ :=
    ⟨by decide, by decide, by decide, by decide, by decide⟩
  have hfirst : (claimed "t1" "demo").call.task? = some ⟨"t1", .process "invoice" "t1"⟩ := rfl
  have hsecond : (claimed "t2" "mary").call.task? = some ⟨"t2", .process "invoice" "t2"⟩ := rfl
  refine ⟨hs, hunrelated, hfirst, hsecond, ?_, ?_⟩
  · decide +kernel
  · exact (unrelated_calls_commute (g := standard) hs hfirst hsecond hunrelated).2.2

end TaskGate

end TaskAccess
