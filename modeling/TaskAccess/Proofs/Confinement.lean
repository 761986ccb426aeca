import TaskAccess.Proofs.KeptAccess
import TaskAccess.Proofs.Monotone

/-!
# Linking is confined to the task and to whom it links

A call that links identities to a task adds to what is granted there, and to nobody else: a
grant names one user or one group and one task, none of them the wildcard, and nothing is
revoked by it.  No check falls back on a task, so that the decisions on all other resources
come out as before.  A decision that changes is one about the task itself; it goes from
denied to allowed, for somebody whom the call links, and for a permission with a bit that
links are granted.

## Main results

* `DefaultGrants.appliesTo_grantFor_iff` — whom and what the grant of a link is about.
* `Store.mem_granted_withGrants`, `Store.mem_revoked_withGrants` — the masks after links
  were granted.
* `Check.resourceType_fallback?_ne_task` — no owner is a task.
* `TaskGate.Call.exists_mem_linked_iff` — whom a call links.
* `TaskGate.mem_granted_outcome`, `TaskGate.mem_revoked_outcome` — the masks after a call.
* `TaskGate.linking_confined` — **linking changes no other decision.**
-/

namespace TaskAccess

/-! ### The masks after links were granted -/

/-- The grant of a link is about the task, and about those whom the link names. -/
theorem DefaultGrants.appliesTo_grantFor_iff {g : DefaultGrants} {id : Uuid} {task : Task}
    {link : Link} {i : Identity} {t : ResourceType} {target : Target}
    (htask : task.id ≠ wildcard) (hlink : link.holder.id ≠ wildcard) :
    (g.grantFor id task link).AppliesTo i t target ↔
      t = .task ∧ target = .only task.id ∧ link.holder.Includes i := by
  obtain ⟨role, kind, holder⟩ := link
  have hholder : holder ≠ wildcard := hlink
  constructor
  · rintro ⟨ht, hr, hh⟩
    refine ⟨ht.symm, hr.resolve_left htask, ?_⟩
    cases kind with
    | user =>
      rcases hh with (hu | hw) | (⟨x, _, hx⟩ | hx)
      · exact (Option.some.inj hu).symm
      · exact absurd (Option.some.inj hw) hholder
      · cases hx
      · cases hx
    | group =>
      rcases hh with (hu | hu) | (⟨x, hmem, hx⟩ | hw)
      · cases hu
      · cases hu
      · have hx : holder = x := Option.some.inj hx
        exact hx ▸ hmem
      · exact absurd (Option.some.inj hw) hholder
  · rintro ⟨rfl, rfl, hi⟩
    refine ⟨rfl, .inr rfl, ?_⟩
    cases kind with
    | user =>
      have hi : i.userId = holder := hi
      exact .inl (.inl (congrArg some hi.symm))
    | group => exact .inr (.inl ⟨holder, hi, rfl⟩)

namespace Store

variable {s : Store} {g : DefaultGrants} {links : List (Task × Link)} {i : Identity}
  {t : ResourceType} {target : Target} {bit : Nat}

/-- Granting links adds what links are granted, for those whom they name. -/
theorem mem_granted_withGrants
    (hlinks : ∀ p ∈ links, p.1.id ≠ wildcard ∧ p.2.holder.id ≠ wildcard) :
    bit ∈ ((s.withGrants g links).ledger.effective i t target).granted ↔
      bit ∈ (s.ledger.effective i t target).granted ∨
        ∃ p ∈ links, (t = .task ∧ target = .only p.1.id ∧ p.2.holder.Includes i) ∧
          bit ∈ g.permissions p.2.holder.kind := by
  induction links generalizing s with
  | nil => simp
  | cons p rest ih =>
    obtain ⟨htask, hholder⟩ := hlinks p List.mem_cons_self
    have hfirst : bit ∈ ((s.withGrant g p).ledger.effective i t target).granted ↔
        bit ∈ (s.ledger.effective i t target).granted ∨
          (t = .task ∧ target = .only p.1.id ∧ p.2.holder.Includes i) ∧
            bit ∈ g.permissions p.2.holder.kind := by
      have hgrant : (g.grantFor (.numbered s.minted) p.1 p.2).kind ≠ .revoke := by
        simp [DefaultGrants.grantFor, Record.ofHolder]
      rw [withGrant, Ledger.mem_granted_insert, DefaultGrants.appliesTo_grantFor_iff htask hholder,
        and_iff_left hgrant]
      rfl
    rw [withGrants_cons, ih fun q hq => hlinks q (List.mem_cons_of_mem p hq), hfirst]
    simp only [List.mem_cons, exists_eq_or_imp]
    exact or_assoc

/-- Granting links revokes nothing. -/
theorem mem_revoked_withGrants :
    bit ∈ ((s.withGrants g links).ledger.effective i t target).revoked ↔
      bit ∈ (s.ledger.effective i t target).revoked := by
  induction links generalizing s with
  | nil => rfl
  | cons p rest ih =>
    rw [withGrants_cons, ih]
    exact Ledger.mem_revoked_insert_of_ne_revoke (by simp [DefaultGrants.grantFor, Record.ofHolder])

end Store

/-! ### Owners are not tasks -/

/-- A check falls back on a process definition only. -/
theorem Check.resourceType_fallback?_ne_task {c next : Check} (h : c.fallback? = some next) :
    next.resourceType ≠ .task := by
  intro ht
  have hlt := Check.rank_fallback?_lt h
  have hle := c.resourceType.rank_le_one
  rw [ht, ResourceType.rank] at hlt
  omega

/-! ### The links that a call makes -/

/-- Whoever is linked by name has an id that is named, and that is not empty. -/
theorem exists_eq_of_mem_presentId_map {named : Option String} {f : String → Link} {link : Link}
    (h : link ∈ ((presentId named).map f).toList) : ∃ id, named = some id ∧ link = f id := by
  obtain ⟨id, hid, hf⟩ := Option.map_eq_some_iff.1 (Option.mem_toList.1 h)
  exact ⟨id, (Option.filter_eq_some_iff.1 hid).1, hf.symm⟩

namespace TaskGate

variable {g : TaskGate} {s s' : Store} {task : Task}

namespace Call

variable {call : Call}

/-- What a call links is what its arguments name. -/
theorem links_of_mem_linked {link : Link} (h : (task, link) ∈ call.linked) :
    call.Links task link.holder := by
  have hlinked : ∀ {t : Task} {links : List Link}, (task, link) ∈ t.linked links →
      t = task ∧ link ∈ links := fun hmem =>
    ⟨(Task.mem_linked_iff.1 hmem).2.1.symm, (Task.mem_linked_iff.1 hmem).2.2.1⟩
  have hone : ∀ {t : Task} {l : Link}, (task, link) ∈ t.linked [l] → t = task ∧ link = l :=
    fun hmem => (hlinked hmem).imp_right List.mem_singleton.1
  cases call with
  | saveTask t save =>
    obtain ⟨rfl, hlink⟩ := hlinked h
    rcases List.mem_append.1 hlink with hlink | hlink
    · obtain ⟨id, hid, rfl⟩ := exists_eq_of_mem_presentId_map hlink
      exact .saveOwner hid
    · obtain ⟨id, hid, rfl⟩ := exists_eq_of_mem_presentId_map hlink
      exact .saveAssignee hid
  | setAssignee t userId =>
    obtain ⟨rfl, hlink⟩ := hlinked h
    obtain ⟨id, rfl, rfl⟩ := exists_eq_of_mem_presentId_map hlink
    exact .setAssignee id
  | setOwner t userId =>
    obtain ⟨rfl, hlink⟩ := hlinked h
    obtain ⟨id, rfl, rfl⟩ := exists_eq_of_mem_presentId_map hlink
    exact .setOwner id
  | claim t userId =>
    obtain ⟨rfl, hlink⟩ := hlinked h
    obtain ⟨id, rfl, rfl⟩ := exists_eq_of_mem_presentId_map hlink
    exact .claim id
  | delegate t userId =>
    obtain ⟨rfl, rfl⟩ := hone h
    exact .delegate userId
  | addIdentityLink t l =>
    obtain ⟨rfl, rfl⟩ := hone h
    exact .addIdentityLink link
  | addCandidateUser t userId =>
    obtain ⟨rfl, rfl⟩ := hone h
    exact .addCandidateUser userId
  | addCandidateGroup t groupId =>
    obtain ⟨rfl, rfl⟩ := hone h
    exact .addCandidateGroup groupId
  | _ => cases h

/-- The links that a call makes to a task: those of its arguments that name somebody, if
the task is under authorization. -/
theorem exists_mem_linked_iff {holder : Holder} :
    (∃ link : Link, link.holder = holder ∧ (task, link) ∈ call.linked) ↔
      task.isEligible = true ∧ holder.id ≠ "" ∧ call.Links task holder := by
  constructor
  · rintro ⟨link, rfl, hlink⟩
    obtain ⟨htask, hpresent⟩ := isEligible_of_mem_linked hlink
    exact ⟨htask, by simpa [Link.isPresent] using hpresent, links_of_mem_linked hlink⟩
  · rintro ⟨htask, hholder, hlinks⟩
    exact hlinks.exists_mem_linked hholder htask

end Call

/-! ### What linking leaves of the decisions -/

variable {i : Identity} {t : ResourceType} {target : Target} {bit : Nat}

/-- The masks after a call about a task that ends no task. -/
theorem mem_granted_outcome {call : Call} (hproper : call.Proper)
    (htask : call.task? = some task) (hended : call.ended = []) (hid : task.id ≠ wildcard) :
    bit ∈ ((call.outcome g s).ledger.effective i t target).granted ↔
      bit ∈ (s.ledger.effective i t target).granted ∨
        (t = .task ∧ target = .only task.id ∧ task.isEligible = true ∧
          ∃ holder : Holder, holder.id ≠ "" ∧ call.Links task holder ∧ holder.Includes i ∧
            bit ∈ g.grants.permissions holder.kind) := by
  have hfst : ∀ p ∈ call.linked, p.1 = task := fun p hp => call.fst_eq_of_mem_linked htask hp
  have hlinked : ∀ p ∈ call.linked, p.1.id ≠ wildcard ∧ p.2.holder.id ≠ wildcard := by
    intro p hp
    rw [hfst p hp]
    exact ⟨hid, hproper.holder_ne_wildcard p hp⟩
  rw [call.outcome_of_ended_eq_nil hended, Store.mem_granted_withGrants hlinked]
  refine or_congr_right ?_
  constructor
  · rintro ⟨⟨t', link⟩, hp, ⟨ht, htarget, hi⟩, hbit⟩
    obtain rfl : t' = task := hfst _ hp
    obtain ⟨helig, hholder, hlinks⟩ := Call.exists_mem_linked_iff.1 ⟨link, rfl, hp⟩
    exact ⟨ht, htarget, helig, link.holder, hholder, hlinks, hi, hbit⟩
  · rintro ⟨ht, htarget, helig, holder, hholder, hlinks, hi, hbit⟩
    obtain ⟨link, rfl, hp⟩ := Call.exists_mem_linked_iff.2 ⟨helig, hholder, hlinks⟩
    exact ⟨(task, link), hp, ⟨ht, htarget, hi⟩, hbit⟩

theorem mem_revoked_outcome {call : Call} (hended : call.ended = []) :
    bit ∈ ((call.outcome g s).ledger.effective i t target).revoked ↔
      bit ∈ (s.ledger.effective i t target).revoked := by
  rw [call.outcome_of_ended_eq_nil hended, Store.mem_revoked_withGrants]

section Decisions

variable {call : Call} {c : Check}

/-- A call that ends no task leaves a ledger that permits at least as much. -/
theorem permitsAtMost_outcome (hproper : call.Proper) (htask : call.task? = some task)
    (hended : call.ended = []) (hid : task.id ≠ wildcard) :
    s.ledger.PermitsAtMost (call.outcome g s).ledger where
  granted_subset i t target := by
    rw [Mask.subset_iff]
    intro bit hbit
    exact (mem_granted_outcome hproper htask hended hid).2 (.inl hbit)
  revoked_subset i t target := by
    rw [Mask.subset_iff]
    intro bit hbit
    exact (mem_revoked_outcome hended).1 hbit

/-- What is held after a call that ends no task, and was not held before, is held on the
task itself, by somebody whom the call links. -/
theorem exists_links_of_holds_outcome (hproper : call.Proper) (htask : call.task? = some task)
    (hended : call.ended = []) (hid : task.id ≠ wildcard)
    (hafter : Holds (call.outcome g s).ledger i c) (hbefore : ¬ Holds s.ledger i c) :
    c.resourceType = .task ∧ c.target = .only task.id ∧
      ∃ holder : Holder, call.Links task holder ∧ holder.Includes i ∧
        c.permission.mask.Meets (g.grants.permissions holder.kind) := by
  -- nothing was revoked, so that some bit must have been granted by the call
  obtain ⟨bit, hbit, hgranted, hmissing⟩ :=
    exists_mem_granted_of_holds hafter hbefore fun bit => mem_revoked_outcome hended
  rw [mem_granted_outcome hproper htask hended hid] at hgranted
  rcases hgranted with hgranted | ⟨ht, htarget, -, holder, -, hlinks, hi, hnew⟩
  · exact absurd hgranted hmissing
  · exact ⟨ht, htarget, holder, hlinks, hi, Mask.meets_iff.2 ⟨bit, hbit, hnew⟩⟩

theorem permitted_outcome_of_permitted (hproper : call.Proper) (htask : call.task? = some task)
    (hended : call.ended = []) (hid : task.id ≠ wildcard) (h : Permitted s.ledger i c) :
    Permitted (call.outcome g s).ledger i c :=
  (permitsAtMost_outcome hproper htask hended hid).permitted h

/-- What becomes permitted by a call that ends no task is asked of the task itself, by
somebody whom the call links. -/
theorem exists_links_of_permitted_outcome (hproper : call.Proper)
    (htask : call.task? = some task) (hended : call.ended = []) (hid : task.id ≠ wildcard)
    (hafter : Permitted (call.outcome g s).ledger i c) (hbefore : ¬ Permitted s.ledger i c) :
    c.resourceType = .task ∧ c.target = .only task.id ∧
      ∃ holder : Holder, call.Links task holder ∧ holder.Includes i ∧
        c.permission.mask.Meets (g.grants.permissions holder.kind) := by
  rw [permitted_iff_holds_or_holds_fallback?, not_or] at hbefore
  obtain ⟨hbefore, hnone⟩ := hbefore
  rcases permitted_iff_holds_or_holds_fallback?.1 hafter with hafter | ⟨next, hnext, hafter⟩
  · exact exists_links_of_holds_outcome hproper htask hended hid hafter hbefore
  · -- the owner is not a task, so that nothing has changed there
    have hnot : ¬ Holds s.ledger i next := fun h => hnone ⟨next, hnext, h⟩
    obtain ⟨ht, -⟩ := exists_links_of_holds_outcome hproper htask hended hid hafter hnot
    exact absurd ht (Check.resourceType_fallback?_ne_task hnext)

end Decisions

/-- **Linking is confined to the task and to whom it links.**  Let a call about a task succeed
that ends no task, as all calls do that link.  If a check comes out differently for somebody
afterwards, then it failed before and succeeds now, it asks for a permission on the task
itself that shares a bit with what links are granted, and it is asked for an identity that is
a user whom the call links, or belongs to a group that it links.  The masks on all targets
stay as they are, except that those whom the call links are granted on the task what links
are granted. -/
theorem linking_confined (hs : s.Works) {call : Call} (htask : call.task? = some task)
    (hended : call.ended = []) (hid : task.id ≠ wildcard) {caller : Caller} {x : Answer}
    (hok : Action.run (call.perform g caller) s = (.ok x, s')) :
    (∀ (asking : Caller) (c : Check), ∃ before after,
      s.isAuthorized asking c = .ok before ∧ s'.isAuthorized asking c = .ok after ∧
        (before ≠ after →
          before = false ∧ after = true ∧ c.resourceType = .task ∧ c.target = .only task.id ∧
            ∃ i holder, asking.checkedIdentity? = some i ∧ call.Links task holder ∧
              holder.Includes i ∧
              (c.permission.mask.Meets Permission.read.mask ∨
                c.permission.mask.Meets (g.grants.configured holder.kind).mask ∨
                c.permission.mask.Meets g.grants.additional))) ∧
      ∀ (i : Identity) (t : ResourceType) (target : Target), ∃ before after,
        s.effective i t target = .ok before ∧ s'.effective i t target = .ok after ∧
          after.revoked = before.revoked ∧
          ∀ bit, bit ∈ after.granted ↔ bit ∈ before.granted ∨
            (t = .task ∧ target = .only task.id ∧ task.isEligible = true ∧
              ∃ holder : Holder, holder.id ≠ "" ∧ call.Links task holder ∧ holder.Includes i ∧
                bit ∈ g.grants.permissions holder.kind) := by
  have heffect := call.effect_perform (g := g) hs caller
  rw [hok] at heffect
  have hs' : s'.Works := heffect.works hs
  cases heffect with
  | succeeded x hproper =>
    constructor
    · intro asking c
      cases hi : asking.checkedIdentity? with
      | none =>
        exact ⟨true, true, Store.isAuthorized_of_checkedIdentity?_eq_none hi c,
          Store.isAuthorized_of_checkedIdentity?_eq_none hi c, fun h => absurd rfl h⟩
      | some i =>
        refine ⟨_, _, hs.isAuthorized_eq hi c, hs'.isAuthorized_eq hi c, fun hne => ?_⟩
        by_cases hbefore : Permitted s.ledger i c
        · have hafter := permitted_outcome_of_permitted (g := g) hproper htask hended hid hbefore
          rw [decide_eq_true hbefore, decide_eq_true hafter] at hne
          exact absurd rfl hne
        · by_cases hafter : Permitted (call.outcome g s).ledger i c
          · obtain ⟨ht, htarget, holder, hlinks, hincl, hmeets⟩ :=
              exists_links_of_permitted_outcome hproper htask hended hid hafter hbefore
            rw [DefaultGrants.permissions_eq, Mask.meets_union_iff, Mask.meets_union_iff,
              or_assoc] at hmeets
            exact ⟨decide_eq_false hbefore, decide_eq_true hafter, ht, htarget, i, holder, rfl,
              hlinks, hincl, hmeets⟩
          · rw [decide_eq_false hbefore, decide_eq_false hafter] at hne
            exact absurd rfl hne
    · intro i t target
      refine ⟨_, _, hs.effective_eq i t target, hs'.effective_eq i t target, ?_, fun bit => ?_⟩
      · exact Mask.ext_mem fun bit _ => mem_revoked_outcome hended
      · exact mem_granted_outcome hproper htask hended hid

/-- When a group is made candidate for a task, somebody of it may work on the task, and every
check of somebody else comes out as before. -/
theorem linking_confined_candidateAdded :
    (Store.ofLedger revokedOnTask).Works ∧
      candidateAdded.task? = some ⟨"t1", .standalone⟩ ∧ candidateAdded.ended = [] ∧
      ("t1" : String) ≠ wildcard ∧
      ∃ s', Action.run (candidateAdded.perform standard .system) (.ofLedger revokedOnTask) =
          (.ok .done, s') ∧
        (Store.ofLedger revokedOnTask).isAuthorized (.authenticated ⟨"mary", ["hr"]⟩)
          ⟨.taskWork, .task, .only "t1", {}⟩ = .ok false ∧
        s'.isAuthorized (.authenticated ⟨"mary", ["hr"]⟩)
          ⟨.taskWork, .task, .only "t1", {}⟩ = .ok true ∧
        ∀ c, s'.isAuthorized (.authenticated ⟨"hr", ["sales"]⟩) c =
          (Store.ofLedger revokedOnTask).isAuthorized (.authenticated ⟨"hr", ["sales"]⟩) c := by
  have hs : (Store.ofLedger revokedOnTask).Works := ⟨rfl, rfl⟩
  have hrun : Action.run (candidateAdded.perform standard .system) (.ofLedger revokedOnTask) =
      (.ok .done,
        (Action.run (candidateAdded.perform standard .system) (.ofLedger revokedOnTask)).2) := rfl
  have hs' := (candidateAdded.effect_perform (g := standard) hs .system).works hs
  have htask : candidateAdded.task? = some ⟨"t1", .standalone⟩ := rfl
  have hconfined := (linking_confined hs htask rfl (by decide) hrun).1
  refine ⟨hs, htask, rfl, by decide, _, hrun, ?_, ?_, fun c => ?_⟩
  · rw [hs.isAuthorized_eq rfl]
    decide +kernel
  · rw [hs'.isAuthorized_eq rfl]
    decide +kernel
  · obtain ⟨before, after, hbefore, hafter, hdiff⟩ :=
      hconfined (.authenticated ⟨"hr", ["sales"]⟩) c
    rw [hbefore, hafter]
    by_contra hne
    obtain ⟨-, -, -, -, i, holder, hi, hlinks, hincl, -⟩ :=
      hdiff fun h => hne (congrArg Except.ok h.symm)
    -- the user has the name of the group that is linked, but does not belong to it
    cases hi
    cases hlinks
    exact absurd (List.mem_singleton.1 hincl) (by decide)

end TaskGate

end TaskAccess
