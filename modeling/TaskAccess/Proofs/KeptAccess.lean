import TaskAccess.Proofs.Asking
import TaskAccess.Proofs.Survival

/-!
# Linked identities keep their access

What is written when an identity is linked to a task is what is read when the identity asks
for the task: the grant of the link is found again by the query of everybody whom the link
names, whatever happened in between, as long as the task was not ended.  Then the mask of
the identity has what links are granted, and an operation that accepts one of these
permissions is permitted unless a revocation takes it away.

## Main definitions

* `Holder.Includes` — an identity is the user, or belongs to the group.
* `DefaultGrants.configured` — the permission that is configured for users or groups.
* `Record.Provides` — a record grants a holder what links to a task are granted.
* `TaskGate.Call.Links` — a call links a holder to a task.

## Main results

* `Store.exists_provides_withGrants` — granting links leaves a grant for each of them.
* `Ledger.permissions_subset_granted`, `Ledger.holds_of_provides` — what the grant is read as.
* `TaskGate.isPermitted_of_holds` — one accepted permission is enough.
* `TaskGate.linked_holder_keeps_access` — **who is linked to a task keeps access to it.**
-/

namespace TaskAccess

/-! ### What links are granted -/

/-- The identity is the user, or belongs to the group. -/
def Holder.Includes (h : Holder) (i : Identity) : Prop :=
  match h.kind with
  | .user => i.userId = h.id
  | .group => h.id ∈ i.groupIds

namespace DefaultGrants

variable {g : DefaultGrants}

/-- The permission that is configured for users or for groups. -/
def configured (g : DefaultGrants) : HolderKind → Permission
  | .user => g.userPermission
  | .group => g.groupPermission

theorem permissions_eq (kind : HolderKind) :
    g.permissions kind = Permission.read.mask ∪ (g.configured kind).mask ∪ g.additional := by
  cases kind <;> rfl

theorem permissions_subset_iff {kind : HolderKind} {m : Mask} :
    g.permissions kind ⊆ m ↔
      Permission.read.mask ⊆ m ∧ (g.configured kind).mask ⊆ m ∧ g.additional ⊆ m := by
  rw [permissions_eq, Mask.union_subset_iff, Mask.union_subset_iff, and_assoc]

end DefaultGrants

/-- The record grants the holder what links to the task are granted. -/
structure Record.Provides (r : Record) (g : DefaultGrants) (task : Task) (holder : Holder) :
    Prop where
  slot_eq : r.slot = ⟨.grant, .task, task.id, holder.userId?, holder.groupId?⟩
  permissions_subset : g.permissions holder.kind ⊆ r.permissions

namespace Record.Provides

variable {g : DefaultGrants} {task : Task} {holder : Holder} {a b : Record}

theorem of_growsTo (h : a.Provides g task holder) (hab : a.GrowsTo b) :
    b.Provides g task holder :=
  ⟨hab.slot_eq.trans h.slot_eq, Mask.subset_trans h.permissions_subset hab.1⟩

theorem resourceId_eq (h : a.Provides g task holder) : a.resourceId = task.id :=
  congrArg Slot.resourceId h.slot_eq

theorem kind_ne_revoke (h : a.Provides g task holder) : a.kind ≠ .revoke := by
  have hkind : a.kind = .grant := congrArg Slot.kind h.slot_eq
  rw [hkind]
  decide

/-- The record is about everybody whom the holder includes. -/
theorem appliesTo (h : a.Provides g task holder) {i : Identity} (hi : holder.Includes i) :
    a.AppliesTo i .task (.ofId task.id) := by
  have huser : a.userId = holder.userId? := congrArg Slot.userId h.slot_eq
  have hgroup : a.groupId = holder.groupId? := congrArg Slot.groupId h.slot_eq
  refine ⟨congrArg Slot.resourceType h.slot_eq, ?_, ?_⟩
  · -- the grant of a task under the wildcard is found on the wildcard
    rw [h.resourceId_eq]
    by_cases hw : task.id = wildcard
    · exact .inl hw
    · exact .inr (by simp [Target.ofId, isWildcard, hw])
  · obtain ⟨kind, id⟩ := holder
    cases kind with
    | user =>
      have hi : i.userId = id := hi
      exact .inl (.inl (by rw [huser, hi]; rfl))
    | group => exact .inr (.inl ⟨id, hi, hgroup⟩)

end Record.Provides

/-! ### The grant is written -/

/-- An id that is not empty is linked. -/
theorem mem_presentId_map {named : Option String} {id : String} (hnamed : named = some id)
    (hid : id ≠ "") (f : String → Link) : f id ∈ ((presentId named).map f).toList := by
  have hpresent : presentId named = some id := by simp [presentId, hnamed, hid]
  rw [hpresent]
  exact List.mem_cons_self

/-- Granting links leaves a grant for each of them. -/
theorem Store.exists_provides_withGrants {s : Store} {g : DefaultGrants} {task : Task} {link : Link}
    {links : List (Task × Link)} (h : (task, link) ∈ links) :
    ∃ r ∈ (s.withGrants g links).ledger, r.Provides g task link.holder := by
  obtain ⟨a, ha, hslot, hperm⟩ := (Store.covers_withGrants h (.numbered s.minted)).exists_mem
  exact ⟨a, ha, hslot, hperm⟩

namespace TaskGate

variable {g : TaskGate} {s : Store} {task : Task} {holder : Holder}

namespace Call

/-- The call links the holder to the task. -/
inductive Links (task : Task) : Holder → Call → Prop
  | setAssignee (userId : String) : Links task (.user userId) (.setAssignee task (some userId))
  | setOwner (userId : String) : Links task (.user userId) (.setOwner task (some userId))
  | claim (userId : String) : Links task (.user userId) (.claim task (some userId))
  | delegate (userId : String) : Links task (.user userId) (.delegate task userId)
  | addCandidateUser (userId : String) :
    Links task (.user userId) (.addCandidateUser task userId)
  | addCandidateGroup (groupId : String) :
    Links task (.group groupId) (.addCandidateGroup task groupId)
  | addIdentityLink (link : Link) : Links task link.holder (.addIdentityLink task link)
  | saveOwner {save : TaskSave} {userId : String} (h : save.owner = some userId) :
    Links task (.user userId) (.saveTask task save)
  | saveAssignee {save : TaskSave} {userId : String} (h : save.assignee = some userId) :
    Links task (.user userId) (.saveTask task save)

variable {call : Call}

theorem Links.ended_eq_nil (h : call.Links task holder) : call.ended = [] := by
  cases h <;> rfl

/-- On a task under authorization, the link of a holder with an id is granted. -/
theorem Links.exists_mem_linked (h : call.Links task holder) (hholder : holder.id ≠ "")
    (htask : task.isEligible = true) :
    ∃ link : Link, link.holder = holder ∧ (task, link) ∈ call.linked := by
  -- it is among the links of the task, and those are granted that name somebody
  have hmem : ∀ {links : List Link} {link : Link}, link ∈ links → link.holder.id ≠ "" →
      (task, link) ∈ task.linked links := by
    intro links link hlink hid
    exact Task.mem_linked_iff.2 ⟨htask, rfl, hlink, by simpa [Link.isPresent] using hid⟩
  cases h with
  | setAssignee u => exact ⟨.assignee u, rfl, hmem (mem_presentId_map rfl hholder _) hholder⟩
  | setOwner u => exact ⟨.owner u, rfl, hmem (mem_presentId_map rfl hholder _) hholder⟩
  | claim u => exact ⟨.assignee u, rfl, hmem (mem_presentId_map rfl hholder _) hholder⟩
  | delegate u => exact ⟨.assignee u, rfl, hmem List.mem_cons_self hholder⟩
  | addCandidateUser u => exact ⟨.candidateUser u, rfl, hmem List.mem_cons_self hholder⟩
  | addCandidateGroup u => exact ⟨.candidateGroup u, rfl, hmem List.mem_cons_self hholder⟩
  | addIdentityLink link => exact ⟨link, rfl, hmem List.mem_cons_self hholder⟩
  | @saveOwner save u hsave =>
    have howner := mem_presentId_map hsave hholder Link.owner
    exact ⟨.owner u, rfl, hmem (List.mem_append_left _ howner) hholder⟩
  | @saveAssignee save u hsave =>
    have hassignee := mem_presentId_map hsave hholder Link.assignee
    exact ⟨.assignee u, rfl, hmem (List.mem_append_right _ hassignee) hholder⟩

/-- A call that links a holder leaves a grant for it. -/
theorem Links.exists_provides (h : call.Links task holder) (hholder : holder.id ≠ "")
    (htask : task.isEligible = true) {x : Answer} {s' : Store}
    (heffect : call.Effect g s (.ok x, s')) :
    ∃ r ∈ s'.ledger, r.Provides g.grants task holder := by
  obtain ⟨link, rfl, hlink⟩ := h.exists_mem_linked hholder htask
  cases heffect with
  | succeeded x _ =>
    rw [outcome_of_ended_eq_nil h.ended_eq_nil]
    exact Store.exists_provides_withGrants hlink

end Call

end TaskGate

/-! ### The grant is read -/

namespace Ledger

variable {l : Ledger} {g : DefaultGrants} {task : Task} {holder : Holder} {i : Identity}
  {r : Record}

/-- The mask of an identity has what the grant provides. -/
theorem permissions_subset_granted (hr : r ∈ l) (h : r.Provides g task holder)
    (hi : holder.Includes i) :
    g.permissions holder.kind ⊆ (l.effective i .task (.ofId task.id)).granted := by
  rw [Mask.subset_iff]
  intro bit hbit
  have hmem : r ∈ l.filter (i.query .task (.ofId task.id)).selects :=
    List.mem_filter.2 ⟨hr, selects_query_iff.2 (h.appliesTo hi)⟩
  exact Effective.mem_granted_ofRecords.2
    ⟨r, hmem, h.kind_ne_revoke, Mask.subset_iff.1 h.permissions_subset bit hbit⟩

/-- A permission that the grant provides is held unless a revocation forbids a bit of it. -/
theorem holds_of_provides (hr : r ∈ l) (h : r.Provides g task holder) (hi : holder.Includes i)
    {p : Permission} (hp : p.mask ⊆ g.permissions holder.kind)
    (hrevoke : ∀ v ∈ l, v.AppliesTo i .task (.ofId task.id) → v.kind = .revoke →
      ¬ v.permissions.Meets p.mask) :
    Holds l i ⟨p, .task, .ofId task.id, task.lineage⟩ := by
  intro bit hbit
  have hgrant : bit ∈ g.permissions holder.kind := Mask.subset_iff.1 hp bit hbit
  constructor
  · exact ⟨r, hr, h.appliesTo hi, h.kind_ne_revoke,
      Mask.subset_iff.1 h.permissions_subset bit hgrant⟩
  · intro v hv happ hk hforbidden
    exact hrevoke v hv happ hk (Mask.meets_iff.2 ⟨bit, hforbidden, hbit⟩)

end Ledger

namespace TaskGate

variable {g : TaskGate} {s s₁ : Store} {task : Task} {holder : Holder}

/-- Holding one of the permissions that an operation accepts is enough. -/
theorem isPermitted_of_holds (hs : s.Works) {op : Task.Operation} (hop : op ≠ .create)
    {p : Permission} (hp : p ∈ g.policy.accepted op) {i : Identity}
    (hholds : Holds s.ledger i ⟨p, .task, .ofId task.id, task.lineage⟩) {caller : Caller}
    (hcaller : caller.identity = some i) : g.isPermitted s caller task op = .ok true := by
  have hmet : (g.policy.requirement task op).Met s.ledger caller := by
    intro hne j hj
    have hji : j = i := by
      rw [Caller.checkedIdentity?, hcaller] at hj
      split at hj
      · exact (Option.some.inj hj).symm
      · cases hj
    subst hji
    refine ⟨_, ?_, .held hholds⟩
    cases htask : task.isEligible with
    | false => simp [Policy.requirement, htask, Requirement.none] at hne
    | true => simpa [Policy.requirement, htask, hop] using hp
  rw [isPermitted_eq hs, decide_eq_true hmet]

/-- With the default settings, links are granted a permission for each of the operations of
whoever works on a task. -/
theorem exists_accepted_of_standard (m : Mask) (kind : HolderKind) {op : Task.Operation}
    (hop : op ∈ [Task.Operation.read, .claim, .complete, .resolve]) :
    ∃ p ∈ standard.policy.accepted op,
      p.mask ⊆ (standard.grants.withAdditional m).permissions kind := by
  obtain ⟨hread, hwork, -⟩ := DefaultGrants.permissions_subset_iff.1
    (Mask.subset_refl ((standard.grants.withAdditional m).permissions kind))
  have hconfigured : (standard.grants.withAdditional m).configured kind = .taskWork := by
    cases kind <;> rfl
  rw [hconfigured] at hwork
  simp only [List.mem_cons, List.not_mem_nil, or_false] at hop
  rcases hop with rfl | rfl | rfl | rfl
  · exact ⟨.read, by decide, hread⟩
  · exact ⟨.taskWork, by decide, hwork⟩
  · exact ⟨.taskWork, by decide, hwork⟩
  · exact ⟨.taskWork, by decide, hwork⟩

/-- **Who is linked to a task keeps access to it.**  Let a call succeed that links a user or
a group with an id to a task under authorization, and a session follow that does not end a
task with the same id.  Then everybody whom the link names is granted reading the task, the
configured permission and the additional ones; and every operation but creating is permitted
to them that accepts a permission among these which no revocation forbids in part.  With the
default settings there is such a permission for reading, claiming, completing and resolving
the task. -/
theorem linked_holder_keeps_access (hs : s.Works) {call : Call} (hlinks : call.Links task holder)
    (hholder : holder.id ≠ "") (htask : task.isEligible = true) {caller : Caller} {x : Answer}
    (hok : Action.run (call.perform g caller) s = (.ok x, s₁)) {steps : List Step}
    (hspares : g.Spares steps s₁ task.id) {i : Identity} (hi : holder.Includes i) :
    (∃ e, (g.run steps s₁).effective i .task (.ofId task.id) = .ok e ∧
        Permission.read.mask ⊆ e.granted ∧ (g.grants.configured holder.kind).mask ⊆ e.granted ∧
          g.grants.additional ⊆ e.granted) ∧
      (∀ op, op ≠ .create → ∀ p ∈ g.policy.accepted op,
        p.mask ⊆ g.grants.permissions holder.kind →
          (∀ r ∈ (g.run steps s₁).ledger, r.AppliesTo i .task (.ofId task.id) →
            r.kind = .revoke → ¬ r.permissions.Meets p.mask) →
            ∀ asking : Caller, asking.identity = some i →
              g.isPermitted (g.run steps s₁) asking task op = .ok true) ∧
      ∀ g₀ m, ofSettings {} = .ok g₀ → g = { g₀ with grants := g₀.grants.withAdditional m } →
        ∀ op ∈ [Task.Operation.read, .claim, .complete, .resolve],
          ∃ p ∈ g.policy.accepted op, p.mask ⊆ g.grants.permissions holder.kind := by
  have heffect := call.effect_perform (g := g) hs caller
  rw [hok] at heffect
  have hworks : s₁.Works := heffect.works hs
  have hfinal : (g.run steps s₁).Works := works_run hworks steps
  -- the grant is followed from the link to the end of the session
  obtain ⟨a, ha, hprovides⟩ := hlinks.exists_provides hholder htask heffect
  obtain ⟨b, hb, hab, -⟩ := exists_mem_run hworks ha (hprovides.resourceId_eq ▸ hspares)
  have hb' : b.Provides g.grants task holder := hprovides.of_growsTo hab
  refine ⟨⟨_, hfinal.effective_eq i .task (.ofId task.id), ?_⟩, ?_, ?_⟩
  · exact DefaultGrants.permissions_subset_iff.1 (Ledger.permissions_subset_granted hb hb' hi)
  · intro op hop p hp hsubset hrevoke asking hasking
    have hholds := Ledger.holds_of_provides hb hb' hi hsubset hrevoke
    exact isPermitted_of_holds hfinal hop hp hholds hasking
  · rintro g₀ m hg₀ rfl op hop
    obtain rfl : standard = g₀ := Except.ok.inj (ofSettings_default.symm.trans hg₀)
    exact exists_accepted_of_standard m holder.kind hop

/-- A group is made candidate for a task. -/
def candidateAdded : Call := .addCandidateGroup ⟨"t1", .standalone⟩ "hr"

/-- It may complete the task then, and still when the task was given to somebody and taken
away again. -/
theorem linked_holder_keeps_access_candidateAdded :
    (Store.ofLedger revokedOnTask).Works ∧
      standard.isPermitted (.ofLedger revokedOnTask) (.authenticated ⟨"mary", ["hr"]⟩)
        ⟨"t1", .standalone⟩ .complete = .ok false ∧
      ∃ s₁, Action.run (candidateAdded.perform standard .system) (.ofLedger revokedOnTask) =
          (.ok .done, s₁) ∧
        standard.Spares reassigned s₁ "t1" ∧
        standard.isPermitted (standard.run reassigned s₁) (.authenticated ⟨"mary", ["hr"]⟩)
          ⟨"t1", .standalone⟩ .complete = .ok true := by
  have hs : (Store.ofLedger revokedOnTask).Works := ⟨rfl, rfl⟩
  have hbefore : standard.isPermitted (.ofLedger revokedOnTask)
      (.authenticated ⟨"mary", ["hr"]⟩) ⟨"t1", .standalone⟩ .complete = .ok false := by
    rw [isPermitted_eq hs]
    decide +kernel
  have hrun : Action.run (candidateAdded.perform standard .system) (.ofLedger revokedOnTask) =
      (.ok .done,
        (Action.run (candidateAdded.perform standard .system) (.ofLedger revokedOnTask)).2) := rfl
  have hspares : standard.Spares reassigned
      (Action.run (candidateAdded.perform standard .system) (.ofLedger revokedOnTask)).2 "t1" :=
    spares_of_notMem_ended (by decide)
  obtain ⟨-, hafter, -⟩ := linked_holder_keeps_access hs (.addCandidateGroup "hr") (by decide) rfl
    hrun hspares (i := ⟨"mary", ["hr"]⟩) (List.mem_singleton_self "hr")
  have hpermitted := hafter .complete (by decide) .taskWork (by decide) (by decide)
  -- the revocation on the task is about another group
  simp only [← selects_query_iff] at hpermitted
  exact ⟨hs, hbefore, _, hrun, hspares, hpermitted (by decide +kernel) _ rfl⟩

end TaskGate

end TaskAccess
