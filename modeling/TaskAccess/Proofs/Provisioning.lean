import TaskAccess.Proofs.KeptAccess
import TaskAccess.Proofs.PermissionNames
import TaskAccess.Proofs.Saving

/-!
# What configured names provide

The permission of linked users is configured by name, and so is that of linked groups, which is
the one of users if it is left out.  A gate is made of settings whose names are those of
permissions on tasks.  Further permissions can be bundled then, one after the other.  Whatever the
gate writes for a link has the bits of reading, those of the permission that is named, and those
that were bundled.

## Main definitions

* `AuthorizationSettings.nameFor`, `AuthorizationSettings.Names` — what is configured for users or
  for groups, and the permission that it names.
* `DefaultGrants.bundling`, `TaskGate.bundling` — further permissions are bundled.
* `TaskGate.ProvidesForLinks` — whatever is written for links provides what links are granted.

## Main results

* `TaskGate.exists_ofSettings_eq_ok_iff`, `TaskGate.ofSettings_eq_error_iff` — when settings make a
  gate, and what is reported if they do not.
* `DefaultGrants.bundling_eq`, `DefaultGrants.permissions_bundling` — what is bundled, and what is
  granted then.
* `DefaultGrants.provides_of_run_linkChanged`, `TaskGate.mem_or_provides_run` — what is written for
  a link, and what is written in a session.
* `TaskGate.providesForLinks` — every gate provides for links.
* `TaskGate.names_decide_grants` — **configured names decide what is provided.**
-/

namespace TaskAccess

/-! ### What is configured -/

namespace AuthorizationSettings

/-- The name that is configured for users or for groups. -/
def nameFor (a : AuthorizationSettings) : HolderKind → String
  | .user => a.defaultTaskPermission
  | .group => a.defaultGroupTaskPermission.getD a.defaultTaskPermission

/-- What is configured for users or for groups names the permission, and it is one on tasks. -/
structure Names (a : AuthorizationSettings) (kind : HolderKind) (p : Permission) : Prop where
  spelled : p.IsSpelled (a.nameFor kind)
  on_tasks : ResourceType.task ∈ p.resourceTypes

variable {a : AuthorizationSettings} {kind : HolderKind} {p q : Permission}

theorem names_iff :
    a.Names kind p ↔ p.IsSpelled (a.nameFor kind) ∧ ResourceType.task ∈ p.resourceTypes :=
  ⟨fun h => ⟨h.spelled, h.on_tasks⟩, fun h => ⟨h.1, h.2⟩⟩

instance (a : AuthorizationSettings) (kind : HolderKind) (p : Permission) :
    Decidable (a.Names kind p) :=
  decidable_of_iff _ names_iff.symm

theorem Names.eq (hp : a.Names kind p) (hq : a.Names kind q) : p = q :=
  Permission.eq_of_isSpelled hp.spelled hq.spelled

theorem names_iff_forResource :
    a.Names kind p ↔ Permission.forResource (a.nameFor kind) .task = .ok p := by
  rw [names_iff, Permission.forResource_eq_ok_iff]

theorem forall_not_names_iff :
    (∀ p, ¬ a.Names kind p) ↔ Permission.forResource (a.nameFor kind) .task =
      .error (.unknownPermission (a.nameFor kind) .task) := by
  rw [Permission.forResource_eq_error_iff, eq_self_iff_true, and_true]
  simp only [names_iff, not_and]

/-- Groups fall back on the name for users. -/
theorem groupTaskPermission_eq (a : AuthorizationSettings) :
    a.groupTaskPermission = Permission.forResource (a.nameFor .group) .task := by
  rw [groupTaskPermission, nameFor]
  cases a.defaultGroupTaskPermission <;> rfl

end AuthorizationSettings

namespace TaskGate

variable {a : AuthorizationSettings} {g : TaskGate}

/-- The name for users is looked up before the one for groups. -/
theorem ofSettings_eq (a : AuthorizationSettings) :
    ofSettings a =
      match Permission.forResource (a.nameFor .user) .task with
      | .error e => .error (.fault e)
      | .ok p =>
        match Permission.forResource (a.nameFor .group) .task with
        | .error e => .error (.fault e)
        | .ok q => .ok ⟨⟨p, q, ∅⟩, .ofSettings a, a.enabled⟩ := by
  have huser : a.taskPermission = Permission.forResource (a.nameFor .user) .task := rfl
  rw [ofSettings, DefaultGrants.ofSettings, a.groupTaskPermission_eq, huser]
  cases Permission.forResource (a.nameFor .user) .task with
  | error e => rfl
  | ok p => cases Permission.forResource (a.nameFor .group) .task <;> rfl

/-- A gate that is made has the permissions that are named, and none that are bundled. -/
theorem ofSettings_eq_ok_iff :
    ofSettings a = .ok g ↔ ∃ p q, a.Names .user p ∧ a.Names .group q ∧
      g = ⟨⟨p, q, ∅⟩, .ofSettings a, a.enabled⟩ := by
  rw [ofSettings_eq]
  constructor
  · intro h
    cases huser : Permission.forResource (a.nameFor .user) .task with
    | error e => rw [huser] at h; cases h
    | ok p =>
      cases hgroup : Permission.forResource (a.nameFor .group) .task with
      | error e => rw [huser, hgroup] at h; cases h
      | ok q =>
        rw [huser, hgroup] at h
        exact ⟨p, q, AuthorizationSettings.names_iff_forResource.2 huser,
          AuthorizationSettings.names_iff_forResource.2 hgroup, (Except.ok.inj h).symm⟩
  · rintro ⟨p, q, hp, hq, rfl⟩
    rw [AuthorizationSettings.names_iff_forResource.1 hp,
      AuthorizationSettings.names_iff_forResource.1 hq]

/-- Settings make a gate exactly if both names are those of permissions on tasks. -/
theorem exists_ofSettings_eq_ok_iff :
    (∃ g, ofSettings a = .ok g) ↔ ∀ kind, ∃ p, a.Names kind p := by
  constructor
  · rintro ⟨g, h⟩ kind
    obtain ⟨p, q, hp, hq, -⟩ := ofSettings_eq_ok_iff.1 h
    cases kind with
    | user => exact ⟨p, hp⟩
    | group => exact ⟨q, hq⟩
  · intro h
    obtain ⟨p, hp⟩ := h .user
    obtain ⟨q, hq⟩ := h .group
    exact ⟨_, ofSettings_eq_ok_iff.2 ⟨p, q, hp, hq, rfl⟩⟩

theorem ofSettings_of_forall_not_names {kind : HolderKind} (hnone : ∀ p, ¬ a.Names kind p)
    (huser : kind = .group → ∃ p, a.Names .user p) :
    ofSettings a = .error (.fault (.unknownPermission (a.nameFor kind) .task)) := by
  have hfault := AuthorizationSettings.forall_not_names_iff.1 hnone
  cases kind with
  | user => rw [ofSettings_eq, hfault]
  | group =>
    obtain ⟨p, hp⟩ := huser rfl
    rw [ofSettings_eq, AuthorizationSettings.names_iff_forResource.1 hp, hfault]

/-- The name that is not that of a permission on tasks is reported as it is; of two such names the
one for users. -/
theorem ofSettings_eq_error_iff {e : AccessError} :
    ofSettings a = .error e ↔
      ∃ kind, (∀ p, ¬ a.Names kind p) ∧ (kind = .group → ∃ p, a.Names .user p) ∧
        e = .fault (.unknownPermission (a.nameFor kind) .task) := by
  constructor
  · intro h
    by_cases huser : ∃ p, a.Names .user p
    · have hgroup : ∀ q, ¬ a.Names .group q := by
        intro q hq
        obtain ⟨p, hp⟩ := huser
        rw [ofSettings_eq_ok_iff.2 ⟨p, q, hp, hq, rfl⟩] at h
        cases h
      rw [ofSettings_of_forall_not_names hgroup fun _ => huser] at h
      exact ⟨.group, hgroup, fun _ => huser, (Except.error.inj h).symm⟩
    · have hnone : ∀ p, ¬ a.Names .user p := fun p hp => huser ⟨p, hp⟩
      rw [ofSettings_of_forall_not_names hnone (by simp)] at h
      exact ⟨.user, hnone, by simp, (Except.error.inj h).symm⟩
  · rintro ⟨kind, hnone, huser, rfl⟩
    exact ofSettings_of_forall_not_names hnone huser

end TaskGate

/-! ### What is bundled -/

namespace DefaultGrants

variable {g : DefaultGrants} {masks : List Mask}

/-- The grants with further permissions, which are bundled one after the other. -/
def bundling (g : DefaultGrants) (masks : List Mask) : DefaultGrants :=
  masks.foldl withAdditional g

theorem bundling_eq (g : DefaultGrants) (masks : List Mask) :
    g.bundling masks = { g with additional := g.additional ∪ Mask.unionAll masks } := by
  unfold bundling
  induction masks generalizing g with
  | nil => rw [List.foldl_nil, Mask.unionAll, Mask.union_empty]
  | cons m rest ih => rw [List.foldl_cons, ih, withAdditional, Mask.unionAll, Mask.union_assoc]

/-- What is granted once permissions were bundled on top of none. -/
theorem permissions_bundling (h : g.additional = ∅) (kind : HolderKind) :
    (g.bundling masks).permissions kind =
      Permission.read.mask ∪ (g.configured kind).mask ∪ Mask.unionAll masks := by
  rw [bundling_eq, h, Mask.empty_union, permissions_eq]
  cases kind <;> rfl

end DefaultGrants

/-! ### What is written -/

namespace Store

variable {s s' : Store} {r stored : Record}

/-- A record that is saved is merged into its slot, and what the slot holds then is answered. -/
theorem eq_of_run_save_eq_ok (h : Action.run (save r) s = (.ok stored, s')) :
    stored = s.ledger.inserted r ∧ s'.ledger = s.ledger.insert r := by
  rw [save, run_dispatch] at h
  -- nothing that is looked at before has a part in the answer
  cases haccept : s.accept .save with
  | error e =>
    rw [haccept] at h
    cases congrArg Prod.fst h
  | ok u =>
    cases hbackend : s.backend with
    | memory =>
      rw [haccept, hbackend, run_saveInMemory] at h
      cases hdefect : r.defect? with
      | some defect =>
        rw [hdefect] at h
        cases congrArg Prod.fst h
      | none =>
        rw [hdefect] at h
        cases h
        exact ⟨rfl, rfl⟩
    | unreachable =>
      rw [haccept, hbackend, run_writeInDatabase] at h
      cases hdefect : r.defect? <;> rw [hdefect] at h <;> cases congrArg Prod.fst h

end Store

namespace Ledger

variable {l : Ledger} {a r : Record} {rs : List Record}

/-- A record that is found after a merge was there before, or has what was merged. -/
theorem mem_or_covers_of_mem_insert (h : a ∈ l.insert r) :
    a ∈ l ∨ a.slot = r.slot ∧ r.permissions ⊆ a.permissions := by
  induction l with
  | nil =>
    obtain rfl := List.mem_singleton.1 h
    exact .inr ⟨rfl, Mask.subset_refl a.permissions⟩
  | cons b rest ih =>
    unfold insert at h
    by_cases hb : b.slot = r.slot
    · rw [if_pos hb] at h
      rcases List.mem_cons.1 h with rfl | h
      · exact .inr ⟨hb, Mask.subset_union_right b.permissions r.permissions⟩
      · exact .inl (List.mem_cons_of_mem b h)
    · rw [if_neg hb] at h
      rcases List.mem_cons.1 h with rfl | h
      · exact .inl List.mem_cons_self
      · rcases ih h with h | h
        · exact .inl (List.mem_cons_of_mem b h)
        · exact .inr h

theorem mem_or_covers_of_mem_insertAll (h : a ∈ l.insertAll rs) :
    a ∈ l ∨ ∃ r ∈ rs, a.slot = r.slot ∧ r.permissions ⊆ a.permissions := by
  induction rs generalizing l with
  | nil => exact .inl h
  | cons r rest ih =>
    rcases ih h with h | ⟨b, hb, hcovers⟩
    · rcases mem_or_covers_of_mem_insert h with h | hcovers
      · exact .inl h
      · exact .inr ⟨r, List.mem_cons_self, hcovers⟩
    · exact .inr ⟨b, List.mem_cons_of_mem r hb, hcovers⟩

end Ledger

/-- Whatever the store, what is written for a link provides what links are granted. -/
theorem DefaultGrants.provides_of_run_linkChanged {g : DefaultGrants} {task : Task} {link : Link}
    {added : Bool} {s s' : Store} {stored : Record}
    (h : Action.run (g.linkChanged task link added) s = (.ok (some stored), s')) :
    stored ∈ s'.ledger ∧ stored.Provides g task link.holder := by
  by_cases hignored : task.isEligible = false ∨ added = false ∨ link.isPresent = false
  · rw [run_linkChanged_of_ignored hignored] at h
    cases congrArg Prod.fst h
  · simp only [not_or, Bool.not_eq_false] at hignored
    obtain ⟨htask, rfl, hlink⟩ := hignored
    rw [run_linkChanged_eq htask hlink] at h
    cases hvalid : link.validate with
    | error e => rw [hvalid] at h; cases congrArg Prod.fst h
    | ok u =>
      rw [hvalid] at h
      obtain ⟨r, s₁, hsave, hanswer⟩ := Action.run_bind_eq_ok_iff.1 h
      cases hanswer
      obtain ⟨rfl, hledger⟩ := Store.eq_of_run_save_eq_ok (Action.run_mapError_eq_ok_iff.1 hsave)
      have hmerged := s.ledger.mergesInto_insert (g.grantFor (.numbered s.minted) task link)
      rw [hledger]
      exact ⟨hmerged.mem, hmerged.slot_eq, hmerged.permissions_subset⟩

namespace TaskGate

variable {g : TaskGate} {s : Store}

/-- What a call writes provides what links are granted. -/
theorem Call.Effect.mem_or_provides {call : Call} {p : Except AccessError Answer × Store}
    (h : call.Effect g s p) {r : Record} (hr : r ∈ p.2.ledger) :
    r ∈ s.ledger ∨ ∃ task holder, r.Provides g.grants task holder := by
  cases h with
  | failed e n => exact .inl hr
  | succeeded x _ =>
    have hr' : r ∈ (s.withGrants g.grants call.linked).ledger := List.mem_of_mem_filter hr
    rw [Store.ledger_withGrants] at hr'
    rcases Ledger.mem_or_covers_of_mem_insertAll hr' with hr' | ⟨a, ha, hslot, hperm⟩
    · exact .inl hr'
    · obtain ⟨q, -, n, rfl⟩ := DefaultGrants.exists_of_mem_grantsFor ha
      exact .inr ⟨q.1, q.2.holder, hslot, hperm⟩

/-- What is written in a session provides what links are granted. -/
theorem mem_or_provides_run (hs : s.Works) (steps : List Step) :
    ∀ r ∈ (g.run steps s).ledger,
      r ∈ s.ledger ∨ ∃ task holder, r.Provides g.grants task holder := by
  refine run_induction (P := fun s₁ => ∀ r ∈ s₁.ledger,
    r ∈ s.ledger ∨ ∃ task holder, r.Provides g.grants task holder) hs ?_ ?_ steps
  · intro r hr
    exact .inl hr
  · intro s₁ call p _ ih heffect r hr
    rcases heffect.mem_or_provides hr with hr | hprovides
    · exact ih r hr
    · exact .inr hprovides

/-- Whatever is written for links provides what links are granted. -/
structure ProvidesForLinks (g : TaskGate) : Prop where
  /-- What is written for a link is kept, and provides it. -/
  of_linkChanged : ∀ task link added s s' stored,
    Action.run (g.grants.linkChanged task link added) s = (.ok (some stored), s') →
      stored ∈ s'.ledger ∧ stored.Provides g.grants task link.holder
  /-- It is written for everybody whom a call links. -/
  of_links : ∀ s : Store, s.Works → ∀ (call : Call) (task : Task) (holder : Holder),
    call.Links task holder → holder.id ≠ "" → task.isEligible = true → ∀ caller x s',
      Action.run (call.perform g caller) s = (.ok x, s') →
        ∃ r ∈ s'.ledger, r.Provides g.grants task holder
  /-- Nothing else is written in a session. -/
  of_run : ∀ s : Store, s.Works → ∀ steps, ∀ r ∈ (g.run steps s).ledger,
    r ∈ s.ledger ∨ ∃ task holder, r.Provides g.grants task holder

theorem providesForLinks (g : TaskGate) : g.ProvidesForLinks := by
  constructor
  · intro task link added s s' stored h
    exact DefaultGrants.provides_of_run_linkChanged h
  · intro s hs call task holder hlinks hholder htask caller x s' h
    have heffect := call.effect_perform (g := g) hs caller
    rw [h] at heffect
    exact hlinks.exists_provides hholder htask heffect
  · intro s hs steps
    exact mem_or_provides_run hs steps

/-- The gate whose grants are bundled with further permissions. -/
def bundling (g : TaskGate) (masks : List Mask) : TaskGate :=
  { g with grants := g.grants.bundling masks }

/-- **Configured names decide what is provided.**  What is configured for users or for groups names
one permission on tasks at most, up to blanks around it and the case of ASCII letters.  Settings
make a gate exactly if it names one for both; else they fail with the name as it is configured,
and with the one for users if neither names any.  Whatever further permissions are bundled then,
in whatever order and however often, what is granted to users or to groups is reading, the
permission that is named, and what was bundled; and whatever is written for links has all of it. -/
theorem names_decide_grants (a : AuthorizationSettings) :
    (∀ kind p q, a.Names kind p → a.Names kind q → p = q) ∧
      ((∃ g, ofSettings a = .ok g) ↔ ∀ kind, ∃ p, a.Names kind p) ∧
      (∀ e, ofSettings a = .error e ↔
        ∃ kind, (∀ p, ¬ a.Names kind p) ∧ (kind = .group → ∃ p, a.Names .user p) ∧
          e = .fault (.unknownPermission (a.nameFor kind) .task)) ∧
      ∀ g, ofSettings a = .ok g → ∀ masks : List Mask,
        (∀ kind p, a.Names kind p → (g.bundling masks).grants.permissions kind =
          Permission.read.mask ∪ p.mask ∪ Mask.unionAll masks) ∧
        (∀ masks', (∀ m, m ∈ masks' ↔ m ∈ masks) → g.bundling masks' = g.bundling masks) ∧
        (g.bundling masks).ProvidesForLinks := by
  refine ⟨fun kind p q hp hq => hp.eq hq, exists_ofSettings_eq_ok_iff,
    fun e => ofSettings_eq_error_iff, ?_⟩
  intro g hg masks
  obtain ⟨p, q, huser, hgroup, rfl⟩ := ofSettings_eq_ok_iff.1 hg
  refine ⟨?_, ?_, providesForLinks _⟩
  · intro kind r hr
    unfold bundling
    rw [DefaultGrants.permissions_bundling rfl]
    cases kind with
    | user => rw [hr.eq huser]; rfl
    | group => rw [hr.eq hgroup]; rfl
  · intro masks' h
    unfold bundling
    rw [DefaultGrants.bundling_eq, DefaultGrants.bundling_eq, Mask.unionAll_eq_of_mem_iff h]

/-- Names in either case, with blanks around them. -/
def padded : AuthorizationSettings where
  defaultTaskPermission := "\u3000task_Assign\t"
  defaultGroupTaskPermission := some "update "

/-- The name for groups ends in the Kelvin sign, which is not a letter of ASCII. -/
def lookAlike : AuthorizationSettings where
  defaultGroupTaskPermission := some "TASK_WOR\u212a"

/-- The name for users is that of a permission on process definitions. -/
def definitionUser : AuthorizationSettings where
  defaultTaskPermission := "READ_TASK"

/-- The name for groups is. -/
def definitionGroup : AuthorizationSettings where
  defaultGroupTaskPermission := some "CREATE_INSTANCE"

/-- Users are granted assigning, and groups updating; deleting is bundled for both, and is written
for the group that is linked.  What looks like a name only is reported as it is, and so are the
names of permissions that are none on tasks. -/
theorem names_decide_grants_padded :
    (∃ g, ofSettings padded = .ok g ∧
      (g.bundling [Permission.delete.mask]).grants.permissions .user =
        Permission.read.mask ∪ Permission.taskAssign.mask ∪ Permission.delete.mask ∧
      g.bundling [Permission.delete.mask, Permission.delete.mask] =
        g.bundling [Permission.delete.mask] ∧
      ∃ stored s', Action.run ((g.bundling [Permission.delete.mask]).grants.linkChanged
          ⟨"t1", .standalone⟩ (.candidateGroup "hr") true) (.ofLedger []) =
            (.ok (some stored), s') ∧
        stored ∈ s'.ledger ∧ Permission.read.mask ∪ Permission.update.mask ∪
          Permission.delete.mask ⊆ stored.permissions) ∧
      ofSettings lookAlike =
        .error (.fault (.unknownPermission "TASK_WOR\u212a" .task)) ∧
      (Permission.readTask.IsSpelled (definitionUser.nameFor .user) ∧
        ofSettings definitionUser = .error (.fault (.unknownPermission "READ_TASK" .task))) ∧
      Permission.createInstance.IsSpelled (definitionGroup.nameFor .group) ∧
        ofSettings definitionGroup =
          .error (.fault (.unknownPermission "CREATE_INSTANCE" .task)) := by
  obtain ⟨-, -, -, hmade⟩ := names_decide_grants padded
  have huser : padded.Names .user .taskAssign := by decide +kernel
  have hgroup : padded.Names .group .update := by decide +kernel
  have hg : ofSettings padded = .ok ⟨⟨.taskAssign, .update, ∅⟩, {}, true⟩ :=
    ofSettings_eq_ok_iff.2 ⟨_, _, huser, hgroup, rfl⟩
  obtain ⟨hgranted, horder, hprovides⟩ := hmade _ hg [Permission.delete.mask]
  -- the name for groups is looked up if the one for users, which is left as it was, is found
  have hgroups : ∀ {a : AuthorizationSettings}, a.Names .user .taskWork →
      (∀ p, ¬ a.Names .group p) →
        ofSettings a = .error (.fault (.unknownPermission (a.nameFor .group) .task)) := by
    intro a hwork hnone
    obtain ⟨-, -, hfails, -⟩ := names_decide_grants a
    exact (hfails _).2 ⟨.group, hnone, fun _ => ⟨.taskWork, hwork⟩, rfl⟩
  refine ⟨?_, ?_, ⟨by decide +kernel, ?_⟩, by decide +kernel, ?_⟩
  · refine ⟨_, hg, ?_, horder _ (by simp), ?_⟩
    · rw [hgranted .user _ huser]
      decide
    · obtain ⟨hmem, hstored⟩ := hprovides.of_linkChanged ⟨"t1", .standalone⟩
        (.candidateGroup "hr") true (.ofLedger []) _ _ rfl
      have hperm := hstored.permissions_subset
      refine ⟨_, _, rfl, hmem, ?_⟩
      rwa [show (Link.candidateGroup "hr").holder.kind = .group from rfl,
        hgranted .group _ hgroup] at hperm
  · refine hgroups (by decide +kernel) ?_
    intro p
    cases p <;> decide +kernel
  · obtain ⟨-, -, hfails, -⟩ := names_decide_grants definitionUser
    refine (hfails _).2 ⟨.user, ?_, by simp, rfl⟩
    intro p
    cases p <;> decide +kernel
  · refine hgroups (by decide +kernel) ?_
    intro p
    cases p <;> decide +kernel

end TaskGate

end TaskAccess
