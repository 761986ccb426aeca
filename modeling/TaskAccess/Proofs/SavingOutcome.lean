import TaskAccess.Proofs.EveryTask
import TaskAccess.Proofs.LinkingOutcome

/-!
# The outcome of saving a task

A task is saved with an owner and with an assignee, either of whom may be left out.  Both are
looked at before the caller is checked, and both are granted after that.  So they are granted
both or not at all; and what they are granted has no part in the decision.  Who may save a task
depends on whether it is new: creating a task takes a permission on every task, and no permission
on the task itself or on its definition helps; but a task that exists can be saved by whoever may
assign or update it, there or on its definition.

## Main definitions

* `Task.SavableBy` — what an identity has to hold to save a task.
* `Store.LinkSaved` — the effect of linking somebody, or nobody.
* `TaskGate.Saved` — what saving a task comes to.

## Main results

* `TaskSave.findSome?_refusal?_links` — the owner is refused before the assignee.
* `Policy.met_requirement_save_iff` — what saving a task requires.
* `TaskGate.saving_has_one_outcome` — **saving a task has one outcome: nobody is granted anything,
  or the owner is, and then the assignee.**
-/

namespace TaskAccess

/-! ### Who may save a task -/

/-- The identity holds what saving the task requires.  A new task requires creating on every task.
Any other one requires assigning or updating, on the task or on the definition of the process that
it belongs to. -/
def Task.SavableBy (task : Task) (l : Ledger) (i : Identity) (isNew : Bool) : Prop :=
  if isNew then Holds l i ⟨.create, .task, .any, {}⟩
  else
    Holds l i ⟨.taskAssign, .task, .only task.id, {}⟩ ∨
      Holds l i ⟨.update, .task, .only task.id, {}⟩ ∨
        ∃ key instanceId, task.scope = .process key instanceId ∧
          (Holds l i ⟨.taskAssign, .processDefinition, .ofId key, {}⟩ ∨
            Holds l i ⟨.updateTask, .processDefinition, .ofId key, {}⟩)

variable {l : Ledger} {i : Identity} {task : Task} {caller : Caller}

/-- Only the records on the wildcard count for creating a task. -/
theorem Task.savableBy_congr_of_onEvery_eq {m : Ledger} (h : l.onEvery = m.onEvery) (task : Task) :
    task.SavableBy l i true ↔ task.SavableBy m i true := by
  show Holds l i _ ↔ Holds m i _
  rw [← holds_onEvery_iff rfl, ← holds_onEvery_iff (l := m) rfl, h]

/-- The operation that saving a task is. -/
def TaskSave.operation (save : TaskSave) : Task.Operation := if save.isNew then .create else .save

/-- What saving a task requires of the caller. -/
theorem Policy.met_requirement_save_iff {p : Policy} {save : TaskSave}
    (htask : task.isEligible = true) (hid : task.id ≠ wildcard) :
    (p.requirement task save.operation).Met l caller ↔
      ∀ i ∈ caller.checkedIdentity?, task.SavableBy l i save.isNew := by
  cases hnew : save.isNew with
  | true =>
    rw [TaskSave.operation, if_pos hnew, met_requirement_create_iff htask]
    rfl
  | false =>
    have htarget : Target.ofId task.id = .only task.id := by simp [Target.ofId, isWildcard, hid]
    rw [TaskSave.operation, if_neg (by simp [hnew]), met_requirement_iff_admits (by decide) htask]
    refine forall₂_congr fun i _ => ?_
    show (∃ q ∈ [Permission.taskAssign, .update], task.HeldOn l i q) ↔ _
    simp only [List.mem_cons, List.not_mem_nil, or_false, exists_eq_or_imp, exists_eq_left]
    rw [Task.heldOn_iff_of_onDefinition? (q := .taskAssign) rfl,
      Task.heldOn_iff_of_onDefinition? (q := .updateTask) rfl, htarget, Task.SavableBy,
      if_neg (by simp)]
    constructor
    · rintro ((h | ⟨-, key, instanceId, hscope, h⟩) | (h | ⟨-, key, instanceId, hscope, h⟩))
      · exact .inl h
      · exact .inr (.inr ⟨key, instanceId, hscope, .inl h⟩)
      · exact .inr (.inl h)
      · exact .inr (.inr ⟨key, instanceId, hscope, .inr h⟩)
    · rintro (h | h | ⟨key, instanceId, hscope, h | h⟩)
      · exact .inl (.inl h)
      · exact .inr (.inl h)
      · exact .inl (.inr ⟨hid, key, instanceId, hscope, h⟩)
      · exact .inr (.inr ⟨hid, key, instanceId, hscope, h⟩)

/-! ### Who is refused -/

/-- Somebody who is named is refused as the wildcard, in the capacity of the link. -/
theorem findSome?_refusal?_presentId_map (named : Option String) {f : String → Link}
    (hf : ∀ id, (f id).holder.id = id) :
    ((presentId named).map f).toList.findSome? Link.refusal? =
      if named = some wildcard then some (.reserved (f wildcard).target) else none := by
  cases named with
  | none => rfl
  | some id =>
    by_cases hempty : id = ""
    · have hpresent : presentId (some id) = none := by simp [presentId, hempty]
      rw [hpresent, if_neg (by simp [hempty, wildcard])]
      rfl
    · have hpresent : presentId (some id) = some id := by simp [presentId, hempty]
      rw [hpresent, Option.map_some, Option.toList_some, List.findSome?_singleton, Link.refusal?,
        hf]
      by_cases hid : id = wildcard
      · simp [hid]
      · simp [hid]

/-- The owner is refused before the assignee. -/
theorem TaskSave.findSome?_refusal?_links (save : TaskSave) :
    save.links.findSome? Link.refusal? =
      if save.owner = some wildcard then some (.reserved .owner)
      else if save.assignee = some wildcard then some (.reserved .assignee) else none := by
  rw [links, List.findSome?_append, findSome?_refusal?_presentId_map _ fun _ => rfl,
    findSome?_refusal?_presentId_map _ fun _ => rfl]
  split <;> rfl

/-! ### Who is granted something -/

/-- What linking somebody does to a store.  Nothing is done for nobody, whether left out or named
by the empty id; for anybody else one grant is saved, and nothing else is done. -/
inductive Store.LinkSaved (g : DefaultGrants) (task : Task) (s : Store) :
    Option Link → Store → Prop
  | nobody {link : Option Link} (h : ∀ l ∈ link, l.holder.id = "") : LinkSaved g task s link s
  | somebody {link : Link} {s' : Store} (h : link.holder.id ≠ "")
    (hsaved : s.GrantSaved g task link s') : LinkSaved g task s (some link) s'

namespace Store

variable {s s' : Store} {g : DefaultGrants} {link : Link}

/-- Saving the grant of somebody leaves the store with the grant. -/
theorem grantSaved_iff (hs : s.Works) (hlink : link.isPresent = true) (hid : task.id ≠ "") :
    s.GrantSaved g task link s' ↔ s' = s.withGrant g (task, link) := by
  have hwell : (g.grantFor (.numbered s.minted) task link).WellFormed :=
    DefaultGrants.wellFormed_grantFor hlink hid
  have hrun := (hs.withMinted (s.minted + 1)).run_save hwell
  rw [DefaultGrants.grantFor, DefaultGrants.permissions_eq] at hrun
  rw [GrantSaved, hrun, withGrant, DefaultGrants.grantFor, DefaultGrants.permissions_eq]
  constructor
  · rintro ⟨stored, h⟩
    exact (congrArg Prod.snd h).symm
  · rintro rfl
    exact ⟨_, rfl⟩

theorem linkSaved_iff (hs : s.Works) (htask : task.isEligible = true) (hid : task.id ≠ "")
    {link : Option Link} :
    s.LinkSaved g task link s' ↔ s' = s.withGrants g (task.linked link.toList) := by
  rw [Task.linked_toList htask]
  cases hlink : link.filter Link.isPresent with
  | none =>
    have hnobody : ∀ l ∈ link, l.holder.id = "" := by
      intro l hl
      simpa [Link.isPresent] using Option.filter_eq_none_iff.1 hlink l hl
    constructor
    · intro h
      cases h with
      | nobody _ => rfl
      | somebody hne _ => exact absurd (hnobody _ rfl) hne
    · rintro rfl
      exact .nobody hnobody
  | some l =>
    obtain ⟨rfl, hpresent⟩ := Option.filter_eq_some_iff.1 hlink
    have hne : l.holder.id ≠ "" := by simpa [Link.isPresent] using hpresent
    show _ ↔ s' = s.withGrant g (task, l)
    rw [← grantSaved_iff hs hpresent hid]
    constructor
    · intro h
      cases h with
      | nobody hnobody => exact absurd (hnobody l rfl) hne
      | somebody _ hsaved => exact hsaved
    · intro hsaved
      exact .somebody hne hsaved

/-- What linking does can be done, on a task with an id. -/
theorem exists_linkSaved (hs : s.Works) (htask : task.isEligible = true) (hid : task.id ≠ "")
    (link : Option Link) : ∃ s', s'.Works ∧ s.LinkSaved g task link s' := by
  refine ⟨s.withGrants g (task.linked link.toList), hs.withGrants g _, ?_⟩
  exact (linkSaved_iff hs htask hid).2 rfl

end Store

namespace TaskGate

variable {g : TaskGate} {s : Store} {save : TaskSave}

/-- What saving a task comes to: the answer, and the store that is left. -/
inductive Saved (g : TaskGate) (caller : Caller) (task : Task) (save : TaskSave) (s : Store) :
    Except AccessError Answer × Store → Prop
  /-- A task of a case is under no authorization. -/
  | ofCase (hcase : ∃ caseInstanceId, task.scope = .case caseInstanceId) :
    Saved g caller task save s (.ok .done, s)
  | reservedOwner (hscope : ∀ caseInstanceId, task.scope ≠ .case caseInstanceId)
    (howner : save.owner = some wildcard) :
    Saved g caller task save s (.error (.reserved .owner), s)
  | reservedAssignee (hscope : ∀ caseInstanceId, task.scope ≠ .case caseInstanceId)
    (howner : save.owner ≠ some wildcard) (hassignee : save.assignee = some wildcard) :
    Saved g caller task save s (.error (.reserved .assignee), s)
  /-- The caller is checked, and lacks what saving the task requires. -/
  | denied (hscope : ∀ caseInstanceId, task.scope ≠ .case caseInstanceId)
    (howner : save.owner ≠ some wildcard) (hassignee : save.assignee ≠ some wildcard)
    {i : Identity} (hi : caller.checkedIdentity? = some i)
    (hlacks : ¬ task.SavableBy s.ledger i save.isNew) :
    Saved g caller task save s
      (.error (.denied ((g.policy.requirement task save.operation).denial caller)), s)
  /-- The decision is taken on the store before the owner is granted anything, and the assignee
  is granted something after that. -/
  | granted (hscope : ∀ caseInstanceId, task.scope ≠ .case caseInstanceId)
    (howner : save.owner ≠ some wildcard) (hassignee : save.assignee ≠ some wildcard)
    (hmay : ∀ i, caller.checkedIdentity? = some i → task.SavableBy s.ledger i save.isNew)
    {s₁ s₂ : Store} (hfirst : s.LinkSaved g.grants task (save.owner.map Link.owner) s₁)
    (hsecond : s₁.LinkSaved g.grants task (save.assignee.map Link.assignee) s₂) :
    Saved g caller task save s (.ok .done, s₂)

/-- On a task under authorization the owner and the assignee are all that is refused. -/
theorem Call.refusal?_saveTask (htask : task.isEligible = true) (hid : task.id ≠ wildcard) :
    (saveTask task save).refusal? =
      if save.owner = some wildcard then some (.reserved .owner)
      else if save.assignee = some wildcard then some (.reserved .assignee) else none := by
  have hasks : (saveTask task save).asks = [(task, save.operation)] := rfl
  have hnone : task.refusal? save.operation = none := by
    rw [Task.refusal?, if_neg fun hw => hid hw.2]
  rw [← save.findSome?_refusal?_links, ← Task.findSome?_refusal?_linked htask, refusal?,
    if_pos htask, findSome?_refusal?_asks hasks, hnone, Option.or_none]
  rfl

/-- What is left when the owner and the assignee of a task are granted what they are granted. -/
theorem eq_withGrants_of_linkSaved (hs : s.Works) (htask : task.isEligible = true)
    (hid : task.id ≠ "") {s₁ s₂ : Store}
    (hfirst : s.LinkSaved g.grants task (save.owner.map Link.owner) s₁)
    (hsecond : s₁.LinkSaved g.grants task (save.assignee.map Link.assignee) s₂) :
    s₂ = s.withGrants g.grants (task.linked save.links) := by
  obtain rfl := (Store.linkSaved_iff hs htask hid).1 hfirst
  rw [(Store.linkSaved_iff (hs.withGrants g.grants _) htask hid).1 hsecond,
    ← Store.withGrants_append, TaskSave.links, Task.linked_append,
    Task.linked_presentId_map task save.owner fun _ => rfl,
    Task.linked_presentId_map task save.assignee fun _ => rfl]

/-- Some outcome applies. -/
theorem exists_saved (hs : s.Works) (hid : task.id ≠ "") :
    ∃ p, g.Saved caller task save s p := by
  cases htask : task.isEligible with
  | false => exact ⟨_, .ofCase (Task.isEligible_eq_false_iff.1 htask)⟩
  | true =>
    have hscope := Task.isEligible_eq_true_iff.1 htask
    by_cases howner : save.owner = some wildcard
    · exact ⟨_, .reservedOwner hscope howner⟩
    by_cases hassignee : save.assignee = some wildcard
    · exact ⟨_, .reservedAssignee hscope howner hassignee⟩
    by_cases hmay : ∀ i, caller.checkedIdentity? = some i → task.SavableBy s.ledger i save.isNew
    · obtain ⟨s₁, hs₁, hfirst⟩ := Store.exists_linkSaved (g := g.grants) hs htask hid
        (save.owner.map Link.owner)
      obtain ⟨s₂, -, hsecond⟩ := Store.exists_linkSaved (g := g.grants) hs₁ htask hid
        (save.assignee.map Link.assignee)
      exact ⟨_, .granted hscope howner hassignee hmay hfirst hsecond⟩
    · simp only [not_forall] at hmay
      obtain ⟨i, hi, hlacks⟩ := hmay
      exact ⟨_, .denied hscope howner hassignee hi hlacks⟩

/-- An outcome that applies is what saving the task comes to. -/
theorem Saved.run_eq (hs : s.Works) (hid : task.id ≠ wildcard) (hempty : task.id ≠ "")
    {p : Except AccessError Answer × Store} (h : g.Saved caller task save s p) :
    Action.run ((Call.saveTask task save).perform g caller) s = p := by
  have hasks : (Call.saveTask task save).asks = [(task, save.operation)] := rfl
  have hended : (Call.saveTask task save).ended = [] := rfl
  have hnamed : ¬ (task.id = "" ∧ (Call.saveTask task save).linked ≠ []) := fun h => hempty h.1
  rw [Call.run_perform_of_ended_eq_nil hs hasks hended]
  simp only [if_neg hnamed]
  cases h with
  | ofCase hcase =>
    have htask := Task.isEligible_eq_false_iff.2 hcase
    have hnobody : (Call.saveTask task save).linked = [] := by
      simp [Call.linked, Task.linked, htask]
    have hnone : (Call.saveTask task save).refusal? = none := by simp [Call.refusal?, htask]
    have hmet : (g.policy.requirement task save.operation).Met s.ledger caller := by
      rw [Policy.requirement_of_isEligible_eq_false htask]
      exact fun hne => absurd rfl hne
    simp only [hnone, if_pos hmet, hnobody, Store.withGrants_nil]
  | reservedOwner hscope howner =>
    rw [Call.refusal?_saveTask (Task.isEligible_eq_true_iff.2 hscope) hid, if_pos howner]
  | reservedAssignee hscope howner hassignee =>
    rw [Call.refusal?_saveTask (Task.isEligible_eq_true_iff.2 hscope) hid, if_neg howner,
      if_pos hassignee]
  | denied hscope howner hassignee hi hlacks =>
    have htask := Task.isEligible_eq_true_iff.2 hscope
    have hmet : ¬ (g.policy.requirement task save.operation).Met s.ledger caller := by
      rw [Policy.met_requirement_save_iff htask hid]
      exact fun hmay => hlacks (hmay _ hi)
    rw [Call.refusal?_saveTask htask hid, if_neg howner, if_neg hassignee]
    simp only [if_neg hmet]
  | granted hscope howner hassignee hmay hfirst hsecond =>
    have htask := Task.isEligible_eq_true_iff.2 hscope
    have hmet : (g.policy.requirement task save.operation).Met s.ledger caller :=
      (Policy.met_requirement_save_iff htask hid).2 hmay
    rw [Call.refusal?_saveTask htask hid, if_neg howner, if_neg hassignee,
      eq_withGrants_of_linkSaved hs htask hempty hfirst hsecond]
    simp only [if_pos hmet]
    rfl

/-- **Saving a task has one outcome.**  Over a store in memory, saving a task with an id comes to
this, and to nothing else, the first that applies: nothing is done for a task of a case; the
wildcard is refused as the owner, or as the assignee, whatever the caller may do; the caller is
denied, who is checked and lacks what saving the task requires; or the owner is granted what is
granted to users, if there is one, and the assignee after that, and nothing else is done.  What a
new task requires is decided by the records on the wildcard alone, so that no grant on the task
helps. -/
theorem saving_has_one_outcome (hs : s.Works) (g : TaskGate) (caller : Caller)
    (hid : task.id ≠ wildcard) (hempty : task.id ≠ "") (save : TaskSave) :
    (∀ p, Action.run ((Call.saveTask task save).perform g caller) s = p ↔
        g.Saved caller task save s p) ∧
      ∀ l : Ledger, l.onEvery = s.ledger.onEvery →
        ∀ i, task.SavableBy l i true ↔ task.SavableBy s.ledger i true := by
  constructor
  · intro p
    constructor
    · rintro rfl
      obtain ⟨p, hp⟩ : ∃ p, g.Saved caller task save s p := exists_saved hs hempty
      rwa [hp.run_eq hs hid hempty]
    · intro hp
      exact hp.run_eq hs hid hempty
  · intro l hl i
    exact Task.savableBy_congr_of_onEvery_eq hl task

/-- One group may update the tasks of a process, and a user of the group may create one task. -/
def creatorOfOneTask : Ledger :=
  [.ofHolder ⟨1⟩ .grant .processDefinition "invoice" (.group "sales")
      Permission.updateTask.mask,
    .ofHolder ⟨2⟩ .grant .task "t1" (.user "demo") Permission.create.mask]

/-- A task of a process that is saved with one user in both capacities. -/
def ownerIsAssignee : TaskSave := { owner := some "mary", assignee := some "mary" }

/-- The user saves the task, and the second grant is merged into the first one.  But the user
cannot save it as a new one, because the permission to create it is not one on every task. -/
theorem saving_has_one_outcome_ownerIsAssignee :
    (Store.ofLedger creatorOfOneTask).Works ∧ "t1" ≠ wildcard ∧ "t1" ≠ "" ∧
      Action.run ((Call.saveTask ⟨"t1", .process "invoice" "p1"⟩ ownerIsAssignee).perform standard
          (.authenticated ⟨"demo", ["sales"]⟩)) (.ofLedger creatorOfOneTask) =
        (.ok .done,
          { ledger := creatorOfOneTask ++ [.ofHolder (.numbered 0) .grant .task "t1" (.user "mary")
              (Permission.read.mask ∪ Permission.taskWork.mask ∪ ∅)]
            minted := 2 }) ∧
      Action.run ((Call.saveTask ⟨"t1", .process "invoice" "p1"⟩
          { ownerIsAssignee with isNew := true }).perform standard
          (.authenticated ⟨"demo", ["sales"]⟩)) (.ofLedger creatorOfOneTask) =
        (.error (.denied ⟨"demo", [⟨"CREATE", .task, none⟩]⟩), .ofLedger creatorOfOneTask) := by
  have hs : (Store.ofLedger creatorOfOneTask).Works := ⟨rfl, rfl⟩
  have hscope : ∀ caseInstanceId,
      (Task.mk "t1" (.process "invoice" "p1")).scope ≠ .case caseInstanceId := by
    rintro caseInstanceId ⟨⟩
  have hreserved : some "mary" ≠ some wildcard := by decide
  have hsavable : Task.SavableBy ⟨"t1", .process "invoice" "p1"⟩ creatorOfOneTask
      ⟨"demo", ["sales"]⟩ false :=
    .inr (.inr ⟨"invoice", "p1", rfl, .inr (by decide +kernel)⟩)
  have hlacks : ¬ Task.SavableBy ⟨"t1", .process "invoice" "p1"⟩ creatorOfOneTask
      ⟨"demo", ["sales"]⟩ true := by
    show ¬ Holds _ _ _
    decide +kernel
  have hdenial : (standard.policy.requirement ⟨"t1", .process "invoice" "p1"⟩
      (TaskSave.operation { ownerIsAssignee with isNew := true })).denial
        (.authenticated ⟨"demo", ["sales"]⟩) = ⟨"demo", [⟨"CREATE", .task, none⟩]⟩ := by
    decide +kernel
  refine ⟨hs, by decide, by decide, ?_, ?_⟩
  · refine ((saving_has_one_outcome hs standard _ (by decide) (by decide) _).1 _).2 ?_
    refine .granted hscope hreserved hreserved ?_ (.somebody (by decide) ⟨_, rfl⟩)
      (.somebody (by decide) ⟨_, rfl⟩)
    rintro i ⟨⟩
    exact hsavable
  · refine ((saving_has_one_outcome hs standard _ (by decide) (by decide) _).1 _).2 ?_
    rw [← hdenial]
    exact Saved.denied hscope hreserved hreserved rfl hlacks

end TaskGate

end TaskAccess
