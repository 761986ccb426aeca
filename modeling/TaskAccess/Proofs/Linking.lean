import TaskAccess.Proofs.Denial
import TaskAccess.Proofs.Writing
import TaskAccess.Task.Gate

/-!
# Linking identities to tasks

All ways of linking an identity to a task come down to one: no link may name the
wildcard, the caller is checked, and then the links are granted one after the other.
Once the checks have succeeded, only the empty task id can make a grant fail, and the
first grant fails then.  So the store that linking leaves behind can be named.

## Main definitions

* `DefaultGrants.grantFor`, `Store.withGrants` — the grant of a link, and a store with
  the grants of several links saved.
* `Task.linked`, `TaskSave.links` — the links that are granted, and those of a saved task.
* `TaskGate.linkAll` — linking several identities.

## Main results

* `TaskGate.authorize_eq` — the check of a caller.
* `TaskGate.run_forM_link` — what granting links comes to.
* `TaskGate.run_linkUser`, `TaskGate.run_saveTask` — the two ways of linking.
* `TaskGate.run_deleteIdentityLink` — unlinking changes nothing.
-/

namespace TaskAccess

/-! ### Links and their grants -/

/-- The grant that a link to a task calls for. -/
def DefaultGrants.grantFor (g : DefaultGrants) (id : Uuid) (task : Task) (link : Link) :
    Record :=
  .ofHolder id .grant .task task.id link.holder (g.permissions link.holder.kind)

namespace Store

/-- The store with a link to a task granted, under a new identifier. -/
def withGrant (s : Store) (g : DefaultGrants) (p : Task × Link) : Store :=
  { s with
    ledger := s.ledger.insert (g.grantFor (.numbered s.minted) p.1 p.2)
    minted := s.minted + 1 }

/-- The store with links to tasks granted, one after the other. -/
def withGrants (s : Store) (g : DefaultGrants) (links : List (Task × Link)) : Store :=
  links.foldl (fun s p => s.withGrant g p) s

@[simp] theorem withGrants_nil (s : Store) (g : DefaultGrants) : s.withGrants g [] = s := rfl

theorem withGrants_cons (s : Store) (g : DefaultGrants) (p : Task × Link)
    (links : List (Task × Link)) :
    s.withGrants g (p :: links) = (s.withGrant g p).withGrants g links := rfl

theorem withGrants_append (s : Store) (g : DefaultGrants) (links links' : List (Task × Link)) :
    s.withGrants g (links ++ links') = (s.withGrants g links).withGrants g links' :=
  List.foldl_append

theorem Works.withGrant {s : Store} (hs : s.Works) (g : DefaultGrants) (p : Task × Link) :
    (s.withGrant g p).Works := ⟨hs.in_memory, hs.none_failing⟩

theorem Works.withGrants {s : Store} (hs : s.Works) (g : DefaultGrants)
    (links : List (Task × Link)) : (s.withGrants g links).Works := by
  induction links generalizing s with
  | nil => exact hs
  | cons p rest ih => exact ih (hs.withGrant g p)

end Store

/-- The links that are made when a task is saved. -/
def TaskSave.links (save : TaskSave) : List Link :=
  ((presentId save.owner).map Link.owner).toList ++
    ((presentId save.assignee).map Link.assignee).toList

/-- The link names an identity. -/
def Link.isPresent (l : Link) : Bool := !l.holder.id.isEmpty

/-- The links to a task that are granted: those that name an identity, if the task is
under authorization. -/
def Task.linked (task : Task) (links : List Link) : List (Task × Link) :=
  if task.isEligible then (links.filter Link.isPresent).map fun l => (task, l) else []

theorem Task.ensureId_of_wildcard {task : Task} (h : task.id = wildcard) :
    task.ensureId = .error .noSuchTask := by
  simp [ensureId, isWildcard, h]

theorem Task.ensureId_of_ne_wildcard {task : Task} (h : task.id ≠ wildcard) :
    task.ensureId = .ok () := by
  simp [ensureId, isWildcard, h]

theorem Link.validate_eq_ok_iff {l : Link} : l.validate = .ok () ↔ l.holder.id ≠ wildcard := by
  by_cases h : l.holder.id = wildcard
  · simp [validate, ensureNotWildcard, isWildcard, h]
  · simp [validate, ensureNotWildcard, isWildcard, h]

theorem Task.mem_linked_iff {task : Task} {links : List Link} {p : Task × Link} :
    p ∈ task.linked links ↔
      task.isEligible = true ∧ p.1 = task ∧ p.2 ∈ links ∧ p.2.isPresent = true := by
  obtain ⟨t, l⟩ := p
  by_cases h : task.isEligible = true
  · simp only [linked, h, if_true, List.mem_map, List.mem_filter, Prod.mk.injEq, true_and]
    constructor
    · rintro ⟨l', hl, rfl, rfl⟩
      exact ⟨rfl, hl⟩
    · rintro ⟨rfl, hl⟩
      exact ⟨l, hl, rfl, rfl⟩
  · simp [linked, h]

theorem Task.linked_append (task : Task) (links links' : List Link) :
    task.linked (links ++ links') = task.linked links ++ task.linked links' := by
  cases h : task.isEligible <;> simp [linked, h]

/-- A link that names nobody is not linked, whether it is left out or not. -/
theorem Task.linked_presentId_map (task : Task) (userId : Option String) {f : String → Link}
    (hf : ∀ id, (f id).holder.id = id) :
    task.linked ((presentId userId).map f).toList = task.linked (userId.map f).toList := by
  cases userId with
  | none => rfl
  | some id =>
    by_cases hid : id = ""
    · have hempty : (f id).isPresent = false := by simp [Link.isPresent, hf, hid]
      have hpresent : presentId (some id) = none := by simp [presentId, hid]
      simp [hpresent, Task.linked, hempty]
    · have hpresent : presentId (some id) = some id := by simp [presentId, hid]
      rw [hpresent]

/-- The links of at most one identity to a task under authorization. -/
theorem Task.linked_toList {task : Task} (htask : task.isEligible = true) (link : Option Link) :
    task.linked link.toList = ((link.filter Link.isPresent).map fun l => (task, l)).toList := by
  cases link with
  | none => simp [Task.linked]
  | some l => cases hl : l.isPresent <;> simp [Task.linked, Option.filter, htask, hl]

/-- The grant of a link that names an identity is refused only on the empty task id. -/
theorem DefaultGrants.wellFormed_grantFor {g : DefaultGrants} {id : Uuid} {task : Task}
    {link : Link} (hlink : link.isPresent = true) (htask : task.id ≠ "") :
    (g.grantFor id task link).WellFormed := by
  obtain ⟨role, kind, holder⟩ := link
  have hholder : holder ≠ "" := by simpa [Link.isPresent] using hlink
  have hgrant : (g.grantFor id task ⟨role, kind, holder⟩).kind ≠ .global := by
    simp [grantFor, Record.ofHolder]
  refine ⟨?_, fun h => absurd h hgrant, ?_, ?_, htask⟩
  · cases kind <;> simp [grantFor, Record.ofHolder, Holder.userId?, Holder.groupId?]
  · cases kind <;> simp [grantFor, Record.ofHolder, Holder.userId?, hholder]
  · cases kind <;> simp [grantFor, Record.ofHolder, Holder.groupId?, hholder]

theorem DefaultGrants.defect?_grantFor_empty {g : DefaultGrants} {id : Uuid} {task : Task}
    {link : Link} (hlink : link.isPresent = true) (htask : task.id = "") :
    (g.grantFor id task link).defect? = some .emptyResource := by
  obtain ⟨role, kind, holder⟩ := link
  have hholder : holder ≠ "" := by simpa [Link.isPresent] using hlink
  cases kind <;>
    simp [grantFor, Record.ofHolder, Record.defect?, Holder.userId?, Holder.groupId?, hholder,
      htask]

/-! ### Granting -/

namespace DefaultGrants

/-- Nothing is granted on a task of a case, for a link that was removed, or to the
empty identity. -/
theorem run_linkChanged_of_ignored {g : DefaultGrants} {task : Task} {link : Link} {added : Bool}
    (h : task.isEligible = false ∨ added = false ∨ link.isPresent = false) (s : Store) :
    Action.run (g.linkChanged task link added) s = (.ok none, s) := by
  have hif : (!task.isEligible || !added || link.holder.id.isEmpty) = true := by
    rcases h with h | h | h
    · simp [h]
    · simp [h]
    · have hid : link.holder.id.isEmpty = true := by simpa [Link.isPresent] using h
      simp [hid]
  rw [linkChanged, if_pos hif]
  rfl

/-- The identifier of a grant is handed out before its record is looked at. -/
theorem run_linkChanged_eq {g : DefaultGrants} {task : Task} {link : Link}
    (htask : task.isEligible = true) (hlink : link.isPresent = true) (s : Store) :
    Action.run (g.linkChanged task link true) s =
      match link.validate with
      | .error e => (.error e, s)
      | .ok () =>
        Action.run (((Store.save (g.grantFor (.numbered s.minted) task link)).mapError
          AccessError.store) >>= fun stored => pure (some stored))
          { s with minted := s.minted + 1 } := by
  have hid : link.holder.id.isEmpty = false := by simpa [Link.isPresent] using hlink
  rw [linkChanged, if_neg (by simp [htask, hid])]
  cases link.validate <;> rfl

/-- What a new link of an identity comes to, once the wildcard is excluded. -/
theorem run_linkChanged {g : DefaultGrants} {task : Task} {link : Link} {s : Store}
    (hs : s.Works) (htask : task.isEligible = true) (hlink : link.isPresent = true)
    (hvalid : link.validate = .ok ()) :
    Action.run (g.linkChanged task link true) s =
      if task.id = "" then
        (.error (.store (.fault (.malformedRecord (.numbered s.minted) .emptyResource))),
          { s with minted := s.minted + 1 })
      else
        (.ok (some (s.ledger.inserted (g.grantFor (.numbered s.minted) task link))),
          s.withGrant g (task, link)) := by
  have hminted : Store.Works { s with minted := s.minted + 1 } := hs.withMinted _
  rw [run_linkChanged_eq htask hlink, hvalid]
  by_cases hempty : task.id = ""
  · rw [if_pos hempty]
    refine Action.run_bind_of_eq_error ?_
    rw [Action.run_mapError, hminted.run_save_of_defect (defect?_grantFor_empty hlink hempty)]
    rfl
  · rw [if_neg hempty]
    have hsave : Action.run ((Store.save (g.grantFor (.numbered s.minted) task link)).mapError
        AccessError.store) { s with minted := s.minted + 1 } =
        (.ok (s.ledger.inserted (g.grantFor (.numbered s.minted) task link)),
          s.withGrant g (task, link)) := by
      rw [Action.run_mapError, hminted.run_save (wellFormed_grantFor hlink hempty)]
      rfl
    exact Action.run_bind_of_eq_ok hsave

end DefaultGrants

namespace TaskGate

variable {g : TaskGate} {task : Task} {s : Store}

/-- The gate of the default settings. -/
def standard : TaskGate where
  grants := { userPermission := .taskWork, groupPermission := .taskWork }
  policy := {}
  enabled := true

theorem ofSettings_default : ofSettings {} = .ok standard := by
  rfl

theorem run_permit (caller : Caller) (op : Task.Operation) :
    Action.run (g.permit caller task op) s = (g.authorize s caller task op, s) := rfl

/-- Checking the caller for tasks in a loop leaves the store as it is. -/
theorem run_forM_permit (caller : Caller) (op : Task.Operation) (tasks : List Task) :
    Action.run (tasks.forM fun task => g.permit caller task op) s =
      (tasks.forM fun task => g.authorize s caller task op, s) :=
  Action.run_forM_reading tasks (fun task s => g.authorize s caller task op) s

/-- What comes after the check of a caller is not begun unless it succeeds. -/
theorem run_permit_bind {β : Type} (caller : Caller) (op : Task.Operation)
    (f : Unit → Action AccessError β) :
    Action.run (g.permit caller task op >>= f) s =
      match g.authorize s caller task op with
      | .error e => (.error e, s)
      | .ok () => Action.run (f ()) s := by
  rw [Action.run_bind, run_permit]
  cases g.authorize s caller task op <;> rfl

/-- Only to create a task may its id be the wildcard; the caller is checked after that. -/
theorem authorize_eq (g : TaskGate) (s : Store) (caller : Caller) (task : Task)
    (op : Task.Operation) :
    g.authorize s caller task op =
      if op ≠ .create ∧ task.id = wildcard then .error .noSuchTask
      else s.require caller (g.policy.requirement task op) := by
  by_cases hop : op = .create
  · rw [authorize, if_neg (not_not.2 hop), if_neg (fun h => h.1 hop)]
  · rw [authorize, if_pos hop]
    by_cases hw : task.id = wildcard
    · rw [Task.ensureId_of_wildcard hw, if_pos ⟨hop, hw⟩]
      rfl
    · rw [Task.ensureId_of_ne_wildcard hw, if_neg (fun h => hw h.2)]
      rfl

theorem ne_wildcard_of_authorize {caller : Caller} {op : Task.Operation} (hop : op ≠ .create)
    (h : g.authorize s caller task op = .ok ()) : task.id ≠ wildcard := by
  intro hw
  rw [authorize_eq, if_pos ⟨hop, hw⟩] at h
  cases h

/-- Checks that no link names the wildcard, then the caller, and then grants the links. -/
def linkAll (g : TaskGate) (caller : Caller) (task : Task) (op : Task.Operation)
    (links : List Link) : Action AccessError Unit := do
  links.forM fun link => .ofExcept link.validate
  g.permit caller task op
  links.forM fun link => g.link task link

theorem run_link_of_not_isPresent {link : Link} (h : link.isPresent = false) :
    Action.run (g.link task link) s = (.ok (), s) :=
  Action.run_bind_of_eq_ok (DefaultGrants.run_linkChanged_of_ignored (.inr (.inr h)) s)

theorem run_link {link : Link} (hs : s.Works) (htask : task.isEligible = true)
    (hlink : link.isPresent = true) (hvalid : link.validate = .ok ()) :
    Action.run (g.link task link) s =
      if task.id = "" then
        (.error (.store (.fault (.malformedRecord (.numbered s.minted) .emptyResource))),
          { s with minted := s.minted + 1 })
      else (.ok (), s.withGrant g.grants (task, link)) := by
  have h := DefaultGrants.run_linkChanged (g := g.grants) hs htask hlink hvalid
  by_cases hempty : task.id = ""
  · rw [if_pos hempty] at h ⊢
    exact Action.run_bind_of_eq_error h
  · rw [if_neg hempty] at h ⊢
    exact Action.run_bind_of_eq_ok h

/-- Granting the links in a loop passes over those of nobody. -/
theorem run_forM_linked (htask : task.isEligible = true) (links : List Link) (s : Store) :
    Action.run (links.forM fun link => g.link task link) s =
      Action.run ((task.linked links).forM fun p => g.link p.1 p.2) s := by
  induction links generalizing s with
  | nil =>
    have hlinked : task.linked [] = [] := by simp [Task.linked]
    rw [hlinked]
    rfl
  | cons link rest ih =>
    show Action.run (g.link task link >>= fun _ => rest.forM fun link => g.link task link) s = _
    cases hlink : link.isPresent with
    | false =>
      have hlinked : task.linked (link :: rest) = task.linked rest := by
        simp [Task.linked, htask, hlink]
      rw [Action.run_bind_of_eq_ok (run_link_of_not_isPresent hlink), hlinked, ih]
    | true =>
      have hlinked : task.linked (link :: rest) = (task, link) :: task.linked rest := by
        simp [Task.linked, htask, hlink]
      rw [hlinked]
      exact Action.run_bind_congr rfl fun _ s' => ih s'

/-- Granting links of somebody one after the other.  On the empty task id the first of them
fails. -/
theorem run_forM_link {links : List (Task × Link)} (hs : s.Works)
    (hlinks : ∀ p ∈ links, p.1 = task ∧ p.1.isEligible = true ∧ p.2.isPresent = true ∧
      p.2.validate = .ok ()) :
    Action.run (links.forM fun p => g.link p.1 p.2) s =
      if task.id = "" ∧ links ≠ [] then
        (.error (.store (.fault (.malformedRecord (.numbered s.minted) .emptyResource))),
          { s with minted := s.minted + 1 })
      else (.ok (), s.withGrants g.grants links) := by
  induction links generalizing s with
  | nil => simp [List.forM]
  | cons p rest ih =>
    have hrest := fun q hq => hlinks q (List.mem_cons_of_mem p hq)
    obtain ⟨rfl, htask, hlink, hvalid⟩ := hlinks p List.mem_cons_self
    have h := run_link (g := g) hs htask hlink hvalid
    show Action.run (g.link p.1 p.2 >>= fun _ => rest.forM fun p => g.link p.1 p.2) s = _
    -- on the empty task id the loop ends here, with the first link
    by_cases hempty : p.1.id = ""
    · rw [if_pos hempty] at h
      rw [if_pos ⟨hempty, List.cons_ne_nil _ _⟩]
      exact Action.run_bind_of_eq_error h
    · rw [if_neg hempty] at h
      rw [Action.run_bind_of_eq_ok h, ih (hs.withGrant _ _) hrest, if_neg (by simp [hempty]),
        if_neg (by simp [hempty]), Store.withGrants_cons]

theorem run_linkUser (caller : Caller) (op : Task.Operation) (link : Option Link) :
    Action.run (g.linkUser caller task op link) s =
      if task.id = wildcard then (.error .noSuchTask, s)
      else if task.isEligible = false then (.ok (), s)
      else Action.run (g.linkAll caller task op link.toList) s := by
  by_cases hw : task.id = wildcard
  · rw [if_pos hw, linkUser.eq_def, Task.ensureId_of_wildcard hw]
    rfl
  · rw [if_neg hw, linkUser.eq_def, Task.ensureId_of_ne_wildcard hw]
    -- one link, or none, is a list of links; the loops over it run once, or not at all
    cases htask : task.isEligible with
    | false => rfl
    | true =>
      cases link with
      | none =>
        exact (Action.run_bind_pure_unit (g.permit caller task op) s).symm
      | some link =>
        show Action.run (Action.ofExcept link.validate >>= fun _ =>
          g.permit caller task op >>= fun _ => g.link task link) s = _
        have hvalidate := Action.run_forM_singleton link
          (fun link => Action.ofExcept link.validate) s
        refine Action.run_bind_congr hvalidate.symm fun _ s₁ => ?_
        refine Action.run_bind_congr rfl fun _ s₂ => ?_
        exact (Action.run_forM_singleton link (fun link => g.link task link) s₂).symm

theorem run_saveTask (caller : Caller) (save : TaskSave) :
    Action.run (g.saveTask caller task save) s =
      if task.isEligible = false then (.ok (), s)
      else
        Action.run (g.linkAll caller task (if save.isNew then .create else .save) save.links)
          s := by
  rw [saveTask]
  cases htask : task.isEligible with
  | false => rfl
  | true => rfl

/-- Unlinking checks the caller, and that is all. -/
theorem run_deleteIdentityLink (caller : Caller) (link : Link) :
    Action.run (g.deleteIdentityLink caller task link) s =
      (g.authorize s caller task .deleteIdentityLink, s) := by
  -- a removed link is ignored, wherever the check has left the store
  have hignored : ∀ s' : Store,
      Action.run (g.grants.linkChanged task link false >>= fun _ => pure ()) s' = (.ok (), s') :=
    fun s' => Action.run_bind_of_eq_ok
      (DefaultGrants.run_linkChanged_of_ignored (.inr (.inl rfl)) s')
  refine Eq.trans ?_ (Action.run_bind_pure_unit (g.permit caller task .deleteIdentityLink) s)
  exact Action.run_bind_congr rfl fun _ s' => hignored s'

end TaskGate

end TaskAccess
