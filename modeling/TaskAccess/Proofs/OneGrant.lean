import TaskAccess.Proofs.Confinement
import TaskAccess.Proofs.OnePerSlot
import TaskAccess.Proofs.Saving

/-!
# One grant for each linked identity

Whatever the capacity in which an identity is linked to a task, the grant of the link has one
and the same slot: that of a grant on the task to the identity.  So a store with one record for
each slot keeps one, whatever a session does; an identity that was linked has exactly one grant
on the task until the task is ended; and a link that is made once more is merged into a record
that covers it already.

## Main definitions

* `Ledger.grantsOn` — the grants on a task to a user or a group.
* `TaskGate.LinkedSince` — a holder was linked to a task in a session, and the task was not
  ended since.

## Main results

* `TaskGate.onePerSlot_run` — a session keeps one record for each slot.
* `Ledger.OnePerSlot.select_eq` — a slot that is held then holds one record.
* `TaskGate.Call.Effect.exists_insertAll` — a call that ends nothing merges grants at most.
* `TaskGate.Call.Effect.ledger_eq_of_covers` — links whose grants are covered add nothing.
* `TaskGate.Call.Links.run_perform_eq_ok_iff` — when a call that links somebody is answered.
* `TaskGate.one_grant_for_linked` — **every linked identity has exactly one grant.**
-/

namespace TaskAccess

/-! ### One record for each slot -/

namespace Ledger

variable {l : Ledger}

/-- With one record for each slot, a slot that is held holds one record. -/
theorem OnePerSlot.select_eq (h : l.OnePerSlot) {a : Record} (ha : a ∈ l) :
    (l.select fun slot => slot == a.slot) = [a] := by
  obtain ⟨pre, post, rfl⟩ := List.append_of_mem ha
  rw [OnePerSlot, List.map_append, List.map_cons, List.nodup_middle, List.nodup_cons,
    ← List.map_append] at h
  -- nothing before it and nothing behind it has its slot
  have hothers : ∀ b ∈ pre ++ post, ¬ (b.slot == a.slot) = true := by
    intro b hb hslot
    exact h.1 (eq_of_beq hslot ▸ List.mem_map_of_mem hb)
  have hpre : select pre (fun slot => slot == a.slot) = [] :=
    List.filter_eq_nil_iff.2 fun b hb => hothers b (List.mem_append_left post hb)
  have hpost : select post (fun slot => slot == a.slot) = [] :=
    List.filter_eq_nil_iff.2 fun b hb => hothers b (List.mem_append_right pre hb)
  rw [select_append, select_cons_of_pos (p := fun slot => slot == a.slot)
    (beq_self_eq_true a.slot), hpre, hpost, List.nil_append]

theorem OnePerSlot.insertAll (h : l.OnePerSlot) (rs : List Record) :
    OnePerSlot (l.insertAll rs) := by
  induction rs generalizing l with
  | nil => exact h
  | cons r rest ih => exact ih (h.insert r)

/-- Records of one slot add one record at most. -/
theorem length_insertAll_le {rs : List Record} (slot : Slot) (h : ∀ r ∈ rs, r.slot = slot) :
    (l.insertAll rs).length ≤ l.length + 1 := by
  have hsub : slots rs ⊆ {slot} := by
    intro held hheld
    obtain ⟨r, hr, rfl⟩ := mem_slots_iff.1 hheld
    exact Finset.mem_singleton.2 (h r hr)
  have hcard : (slots rs \ l.slots).card ≤ 1 :=
    Finset.card_le_card (Finset.sdiff_subset.trans hsub)
  rw [length_insertAll]
  omega

/-- The grants on a task to a user or a group. -/
def grantsOn (l : Ledger) (task : Task) (holder : Holder) : Ledger :=
  l.filter fun r => r.kind = .grant ∧ r.resourceType = .task ∧ r.resourceId = task.id ∧
    r.userId = holder.userId? ∧ r.groupId = holder.groupId?

theorem grantsOn_eq_select (l : Ledger) (task : Task) (holder : Holder) :
    l.grantsOn task holder =
      l.select fun slot => slot == ⟨.grant, .task, task.id, holder.userId?, holder.groupId?⟩ := by
  refine List.filter_congr fun r _ => ?_
  rw [Bool.eq_iff_iff, decide_eq_true_eq, beq_iff_eq, Record.slot, Slot.mk.injEq]

end Ledger

namespace TaskGate

variable {g : TaskGate} {s : Store} {task : Task} {holder : Holder}

theorem Call.Effect.onePerSlot {call : Call} {p : Except AccessError Answer × Store}
    (h : call.Effect g s p) (hone : s.ledger.OnePerSlot) : p.2.ledger.OnePerSlot := by
  cases h with
  | failed e n => exact hone
  | succeeded x _ =>
    have hgranted : (s.withGrants g.grants call.linked).ledger.OnePerSlot := by
      rw [Store.ledger_withGrants]
      exact hone.insertAll _
    exact hgranted.filter _

/-- A session keeps one record for each slot. -/
theorem onePerSlot_run (hs : s.Works) (hone : s.ledger.OnePerSlot) (steps : List Step) :
    (g.run steps s).ledger.OnePerSlot :=
  run_induction hs hone (fun _ hone heffect => heffect.onePerSlot hone) steps

/-! ### Linking once more -/

/-- What is covered stays covered in a session that does not end a task with its resource id. -/
theorem covers_run (hs : s.Works) {r : Record} (h : s.ledger.Covers r) {steps : List Step}
    (hspares : g.Spares steps s r.resourceId) : (g.run steps s).ledger.Covers r := by
  -- only the slot of the record is looked at
  have hgrows := growsTo_select_run (q := fun slot => slot == r.slot) hs fun slot hslot => by
    rw [eq_of_beq hslot]
    exact hspares
  have hcovers : ∀ l : Ledger, (l.select fun slot => slot == r.slot).Covers r ↔ l.Covers r :=
    fun l => Ledger.covers_select_iff (beq_self_eq_true r.slot)
  exact (hcovers _).1 (((hcovers _).2 h).of_growsTo hgrows)

namespace Call

variable {call : Call} {caller : Caller}

/-- A call that ends nothing merges grants of its links at most. -/
theorem Effect.exists_insertAll {p : Except AccessError Answer × Store} (h : call.Effect g s p)
    (hended : call.ended = []) : ∃ rs : List Record,
      (∀ r ∈ rs, ∃ q ∈ call.linked, ∃ id, r = g.grants.grantFor id q.1 q.2) ∧
        p.2.ledger = s.ledger.insertAll rs := by
  cases h with
  | failed e n => exact ⟨[], by simp, rfl⟩
  | succeeded x _ =>
    refine ⟨g.grants.grantsFor s.minted call.linked, fun r hr => ?_, ?_⟩
    · obtain ⟨q, hq, n, rfl⟩ := DefaultGrants.exists_of_mem_grantsFor hr
      exact ⟨q, hq, .numbered n, rfl⟩
    · rw [outcome_of_ended_eq_nil hended, Store.ledger_withGrants]

/-- Links whose grants are covered add nothing. -/
theorem Effect.ledger_eq_of_covers {p : Except AccessError Answer × Store}
    (h : call.Effect g s p) (hended : call.ended = [])
    (hcovers : ∀ q ∈ call.linked, ∀ id, s.ledger.Covers (g.grants.grantFor id q.1 q.2)) :
    p.2.ledger = s.ledger := by
  obtain ⟨rs, hrs, heq⟩ := h.exists_insertAll hended
  rw [heq]
  refine Ledger.insertAll_eq_self fun r hr => ?_
  obtain ⟨q, hq, id, rfl⟩ := hrs r hr
  exact hcovers q hq id

/-- Links that were granted are covered. -/
theorem Effect.covers {x : Answer} {s₁ : Store} (h : call.Effect g s (.ok x, s₁))
    (hended : call.ended = []) {q : Task × Link} (hq : q ∈ call.linked) (id : Uuid) :
    s₁.ledger.Covers (g.grants.grantFor id q.1 q.2) := by
  cases h with
  | succeeded x _ =>
    rw [outcome_of_ended_eq_nil hended]
    exact Store.covers_withGrants hq id

/-- A call that ends nothing makes no requirement harder to meet. -/
theorem Effect.permitsAtMost {p : Except AccessError Answer × Store} (h : call.Effect g s p)
    (hended : call.ended = []) : s.ledger.PermitsAtMost p.2.ledger := by
  obtain ⟨rs, hrs, heq⟩ := h.exists_insertAll hended
  rw [heq]
  refine Ledger.permitsAtMost_insertAll fun r hr => ?_
  obtain ⟨q, -, id, rfl⟩ := hrs r hr
  have hkind : (g.grants.grantFor id q.1 q.2).kind = .grant := rfl
  rw [hkind]
  decide

theorem Links.task?_eq (h : call.Links task holder) : call.task? = some task := by
  cases h <;> rfl

theorem Links.isEnforced (h : call.Links task holder) : call.IsEnforced := by
  cases h <;> trivial

/-- A call that links somebody is answered unless it is refused, the caller is denied, or a
grant would be on the empty task id. -/
theorem Links.run_perform_eq_ok_iff (hs : s.Works) (h : call.Links task holder)
    {op : Task.Operation} (hasks : call.asks = [(task, op)]) {x : Answer} :
    (Action.run (call.perform g caller) s).1 = .ok x ↔
      x = .done ∧ call.refusal? = none ∧ (g.policy.requirement task op).Met s.ledger caller ∧
        ¬ (task.id = "" ∧ call.linked ≠ []) := by
  rw [run_perform_of_ended_eq_nil hs hasks h.ended_eq_nil]
  cases hrefusal : call.refusal? with
  | some e => simp
  | none =>
    by_cases hmet : (g.policy.requirement task op).Met s.ledger caller
    · by_cases hempty : task.id = "" ∧ call.linked ≠ []
      · simp [hmet, hempty]
      · simp only [if_pos hmet, if_neg hempty, Except.ok.injEq, eq_comm (a := Answer.done)]
        simp [hmet, hempty]
    · simp [hmet]

/-- A call that links somebody is answered once more as it was. -/
theorem Links.run_perform_again (hs : s.Works) (h : call.Links task holder) {x : Answer}
    {s₁ : Store} (hok : Action.run (call.perform g caller) s = (.ok x, s₁)) :
    (Action.run (call.perform g caller) s₁).1 = .ok x := by
  obtain ⟨op, hasks⟩ := exists_asks_eq h.task?_eq h.isEnforced
  have heffect := call.effect_perform (g := g) hs caller
  rw [hok] at heffect
  have hpermits : s.ledger.PermitsAtMost s₁.ledger := heffect.permitsAtMost h.ended_eq_nil
  obtain ⟨hdone, hrefusal, hmet, hempty⟩ :=
    (h.run_perform_eq_ok_iff hs hasks).1 (congrArg Prod.fst hok)
  exact (h.run_perform_eq_ok_iff (heffect.works hs) hasks).2
    ⟨hdone, hrefusal, hpermits.met hmet, hempty⟩

/-- A link that was granted adds nothing when it is made once more, by whomever and whenever, as
long as the task was not ended. -/
theorem Links.ledger_again (hs : s.Works) (h : call.Links task holder) {x : Answer} {s₁ : Store}
    (hok : Action.run (call.perform g caller) s = (.ok x, s₁)) {steps : List Step}
    (hspares : g.Spares steps s₁ task.id) (again : Caller) :
    (Action.run (call.perform g again) (g.run steps s₁)).2.ledger = (g.run steps s₁).ledger := by
  have heffect := call.effect_perform (g := g) hs caller
  rw [hok] at heffect
  have hworks : s₁.Works := heffect.works hs
  have hworks' : (g.run steps s₁).Works := works_run hworks steps
  have hagain := call.effect_perform (g := g) hworks' again
  refine hagain.ledger_eq_of_covers h.ended_eq_nil fun q hq id => ?_
  -- the grant was covered when the link was made, and its task was spared since
  have hcovers := heffect.covers h.ended_eq_nil hq id
  have hid : (g.grants.grantFor id q.1 q.2).resourceId = task.id :=
    congrArg Task.id (fst_eq_of_mem_linked h.task?_eq hq)
  exact covers_run hworks hcovers (hid ▸ hspares)

/-- Links whose grants have one slot add one record at most. -/
theorem Effect.length_le {p : Except AccessError Answer × Store} (h : call.Effect g s p)
    (hended : call.ended = []) (slot : Slot)
    (hslot : ∀ q ∈ call.linked, ∀ id, (g.grants.grantFor id q.1 q.2).slot = slot) :
    p.2.ledger.length ≤ s.ledger.length + 1 := by
  obtain ⟨rs, hrs, heq⟩ := h.exists_insertAll hended
  rw [heq]
  refine Ledger.length_insertAll_le slot fun r hr => ?_
  obtain ⟨q, hq, id, rfl⟩ := hrs r hr
  exact hslot q hq id

/-- Saving a task with one user as its owner and its assignee adds one record at most. -/
theorem length_saveTask_le (hs : s.Works) (caller : Caller) (task : Task) {save : TaskSave}
    {userId : String} (howner : save.owner = some userId)
    (hassignee : save.assignee = some userId) :
    (Action.run ((saveTask task save).perform g caller) s).2.ledger.length ≤
      s.ledger.length + 1 := by
  have hholder : ∀ link ∈ save.links, link.holder = .user userId := by
    intro link hlink
    rcases List.mem_append.1 hlink with hlink | hlink
    · obtain ⟨id, hid, rfl⟩ := exists_eq_of_mem_presentId_map hlink
      exact congrArg Holder.user (Option.some.inj (hid.symm.trans howner))
    · obtain ⟨id, hid, rfl⟩ := exists_eq_of_mem_presentId_map hlink
      exact congrArg Holder.user (Option.some.inj (hid.symm.trans hassignee))
  -- in either capacity it is the slot of the user that is granted
  refine ((saveTask task save).effect_perform hs caller).length_le rfl
    ⟨.grant, .task, task.id, some userId, none⟩ fun q hq id => ?_
  obtain ⟨-, htask, hlink, -⟩ := Task.mem_linked_iff.1 hq
  show (⟨.grant, .task, q.1.id, q.2.holder.userId?, q.2.holder.groupId?⟩ : Slot) = _
  rw [htask, hholder _ hlink]
  rfl

end Call

/-! ### Sessions with links -/

/-- A call of the session linked the holder to the task and succeeded, and no task with the same
id was ended since. -/
def LinkedSince (g : TaskGate) (steps : List Step) (s : Store) (task : Task) (holder : Holder) :
    Prop :=
  ∃ pre step post, steps = pre ++ step :: post ∧ step.call.Links task holder ∧
    (∃ x, (Action.run (step.call.perform g step.caller) (g.run pre s)).1 = .ok x) ∧
      g.Spares post (g.run (pre ++ [step]) s) task.id

/-- A holder that was linked has exactly one grant. -/
theorem LinkedSince.exists_grantsOn_eq (hs : s.Works) (hone : s.ledger.OnePerSlot)
    {steps : List Step} (h : g.LinkedSince steps s task holder) (htask : task.isEligible = true)
    (hholder : holder.id ≠ "") : ∃ r, (g.run steps s).ledger.grantsOn task holder = [r] := by
  have honeFinal := onePerSlot_run (g := g) hs hone steps
  obtain ⟨pre, step, post, rfl, hlinks, ⟨x, hx⟩, hspares⟩ := h
  rw [run_append, run_cons, run_nil] at hspares
  rw [run_append, run_cons] at honeFinal ⊢
  -- the grant is followed from the link to the end of the session
  have hworks : (g.run pre s).Works := works_run hs pre
  have heffect := step.call.effect_perform (g := g) hworks step.caller
  have hworks' := heffect.works hworks
  rw [← Prod.mk.eta (p := Action.run (step.call.perform g step.caller) (g.run pre s)), hx]
    at heffect
  obtain ⟨a, ha, hprovides⟩ := hlinks.exists_provides hholder htask heffect
  obtain ⟨b, hb, hab, -⟩ := exists_mem_run hworks' ha (hprovides.resourceId_eq ▸ hspares)
  refine ⟨b, ?_⟩
  rw [Ledger.grantsOn_eq_select, ← (hprovides.of_growsTo hab).slot_eq]
  exact honeFinal.select_eq hb

/-- **Every linked identity has exactly one grant.**  A session that begins with one record for
each slot ends with one record for each slot, whoever calls and whichever calls fail; and a user
or a group with an id that was linked to a task under authorization, in whatever capacity and
however often, has exactly one grant on it then, if the task was not ended since.  A call that
linked somebody succeeds once more if it is repeated at once, and leaves the records as they are;
and so it does whenever and by whomever it is repeated before the task is ended.  One user as the
owner and the assignee of a task that is saved adds one record at most. -/
theorem one_grant_for_linked (hs : s.Works) :
    (s.ledger.OnePerSlot → ∀ steps,
        (g.run steps s).ledger.OnePerSlot ∧
          ∀ task holder, task.isEligible = true → holder.id ≠ "" →
            g.LinkedSince steps s task holder →
              ∃ r, (g.run steps s).ledger.grantsOn task holder = [r]) ∧
      (∀ task holder (call : Call) caller x s₁, call.Links task holder →
        Action.run (call.perform g caller) s = (.ok x, s₁) →
          (∃ s₂, Action.run (call.perform g caller) s₁ = (.ok x, s₂) ∧ s₂.ledger = s₁.ledger) ∧
            ∀ steps again, g.Spares steps s₁ task.id →
              (Action.run (call.perform g again) (g.run steps s₁)).2.ledger =
                (g.run steps s₁).ledger) ∧
      ∀ caller task save userId, save.owner = some userId → save.assignee = some userId →
        (Action.run ((Call.saveTask task save).perform g caller) s).2.ledger.length ≤
          s.ledger.length + 1 := by
  refine ⟨?_, ?_, ?_⟩
  · intro hone steps
    refine ⟨onePerSlot_run hs hone steps, ?_⟩
    intro task holder htask hholder hlinked
    exact hlinked.exists_grantsOn_eq hs hone htask hholder
  · intro task holder call caller x s₁ hlinks hok
    have hspares : g.Spares [] s₁ task.id := spares_of_notMem_ended (by simp)
    refine ⟨⟨_, ?_, hlinks.ledger_again hs hok hspares caller⟩, ?_⟩
    · exact Prod.ext (hlinks.run_perform_again hs hok) rfl
    · intro steps again hsteps
      exact hlinks.ledger_again hs hok hsteps again
  · intro caller task save userId howner hassignee
    exact Call.length_saveTask_le hs caller task howner hassignee

/-- The first assignee of a session, to whom the task was given and taken away from, has one grant
in the end. -/
theorem one_grant_for_linked_reassigned :
    (Store.ofLedger revokedOnTask).Works ∧ revokedOnTask.OnePerSlot ∧
      standard.LinkedSince (assigned ++ reassigned) (.ofLedger revokedOnTask)
        ⟨"t1", .standalone⟩ (.user "demo") ∧
      ∃ r, (standard.run (assigned ++ reassigned) (.ofLedger revokedOnTask)).ledger.grantsOn
        ⟨"t1", .standalone⟩ (.user "demo") = [r] := by
  have hs : (Store.ofLedger revokedOnTask).Works := ⟨rfl, rfl⟩
  have hone : revokedOnTask.OnePerSlot := by decide
  have hlinked : standard.LinkedSince (assigned ++ reassigned) (.ofLedger revokedOnTask)
      ⟨"t1", .standalone⟩ (.user "demo") :=
    ⟨[], _, reassigned, rfl, .setAssignee "demo", ⟨.done, rfl⟩,
      spares_of_notMem_ended (by decide)⟩
  obtain ⟨hgrants, -⟩ := one_grant_for_linked (g := standard) hs
  exact ⟨hs, hone, hlinked, (hgrants hone _).2 _ _ rfl (by decide) hlinked⟩

end TaskGate

end TaskAccess
