import TaskAccess.Proofs.Calls
import TaskAccess.Proofs.TaskPermissions

/-!
# The stages of a call

Every enforced call goes through three stages.  It is refused for its arguments: if it asks
about the wildcard for a task, or would link the wildcard to a task.  The caller is checked.
And then the call is carried out: the links that it makes are granted, or the records of the
tasks that it ends are dropped.  The first stage and the last one do not know the caller, the
first one does not know the store, and only the last one changes it.

## Main definitions

* `TaskGate.Call.refusal?` — why a call is refused, whoever calls.
* `TaskGate.Call.carryOut` — what is left to do of a call that is permitted.
* `Action.staged` — an action after a refusal and a check.

## Main results

* `TaskGate.Call.of_refusal?_eq_some` — what calls are refused for.
* `TaskGate.Call.run_perform` — **a call is refused, or not permitted, or carried out.**
* `TaskGate.Call.run_perform_of_nobody` — for somebody who is not checked, it is refused or
  carried out.
-/

namespace TaskAccess

/-! ### Refusals -/

/-- Fails with what is refused, if anything is. -/
def refuse {ε : Type} : Option ε → Except ε Unit
  | some e => .error e
  | none => .ok ()

/-- A loop of refusals fails with the first one. -/
theorem forM_refuse {ε α : Type} (xs : List α) (r : α → Option ε) :
    (xs.forM fun x => refuse (r x)) = refuse (xs.findSome? r) := by
  induction xs with
  | nil => rfl
  | cons x rest ih =>
    show (refuse (r x) >>= fun _ => rest.forM fun x => refuse (r x)) = _
    rw [ih, List.findSome?_cons]
    cases r x <;> rfl

/-- No task is called the wildcard, but one can be created under it. -/
def Task.refusal? (task : Task) (op : Task.Operation) : Option AccessError :=
  if op ≠ .create ∧ task.id = wildcard then some .noSuchTask else none

/-- The wildcard is not linked, whatever the capacity in which it is named. -/
def Link.refusal? (link : Link) : Option AccessError :=
  if link.holder.id = wildcard then some (.reserved link.target) else none

theorem Link.validate_eq (link : Link) : link.validate = refuse link.refusal? := by
  by_cases h : link.holder.id = wildcard
  · simp [validate, ensureNotWildcard, isWildcard, refusal?, refuse, h]
  · simp [validate, ensureNotWildcard, isWildcard, refusal?, refuse, h]

/-- A link of nobody is not refused. -/
theorem Link.refusal?_eq_none_of_not_isPresent {link : Link} (h : link.isPresent = false) :
    link.refusal? = none := by
  have hempty : link.holder.id = "" := by simpa [Link.isPresent] using h
  rw [refusal?, hempty, if_neg (by decide)]

/-- The links that are refused are among those that are granted otherwise. -/
theorem Task.findSome?_refusal?_linked {task : Task} (htask : task.isEligible = true)
    (links : List Link) :
    ((task.linked links).findSome? fun p => p.2.refusal?) = links.findSome? Link.refusal? := by
  induction links with
  | nil => simp [linked, htask]
  | cons link rest ih =>
    cases hlink : link.isPresent with
    | false =>
      have hlinked : task.linked (link :: rest) = task.linked rest := by
        simp [linked, htask, hlink]
      rw [hlinked, ih, List.findSome?_cons, Link.refusal?_eq_none_of_not_isPresent hlink]
    | true =>
      have hlinked : task.linked (link :: rest) = (task, link) :: task.linked rest := by
        simp [linked, htask, hlink]
      rw [hlinked, List.findSome?_cons, List.findSome?_cons, ih]

namespace TaskGate.Call

/-- Why the call is refused, whoever calls: a task that it asks about is called the wildcard,
or the wildcard would be linked.  The links come first if a task is saved, and a task that
is under no authorization is then not looked at. -/
def refusal? (call : Call) : Option AccessError :=
  let ofTasks := call.asks.findSome? fun q => q.1.refusal? q.2
  let ofLinks := call.linked.findSome? fun p => p.2.refusal?
  match call with
  | saveTask task _ => if task.isEligible then ofLinks.or ofTasks else none
  | _ => ofTasks.or ofLinks

/-- What is left to do of a call that is not refused, for a caller who is permitted what it
asks for: the links are granted, or the records of the tasks are dropped. -/
def carryOut (g : TaskGate) (call : Call) : Action AccessError Answer :=
  match call with
  | isPermitted _ _ => return .permitted true
  | filterReadable tasks => return .readable tasks
  | complete task | deleteTask task => .dropped <$> Store.resourceDeleted task.id
  | deleteTasks tasks => .dropped <$> purge tasks
  | _ => (fun _ => .done) <$> call.linked.forM fun p => g.link p.1 p.2

end TaskGate.Call

/-! ### Stages -/

namespace Action

variable {ε α β : Type}

/-- An action that is begun only if nothing is refused, and if a check succeeds. -/
def staged (refusal? : Option ε) (check : Store → Except ε Unit) (rest : Action ε α) :
    Action ε α := do
  .ofExcept (refuse refusal?)
  .reading check
  rest

variable {refusal? : Option ε} {check check' : Store → Except ε Unit} {rest rest' : Action ε α}
  {s : Store}

theorem run_staged :
    run (staged refusal? check rest) s =
      match refusal? with
      | some e => (.error e, s)
      | none =>
        match check s with
        | .error e => (.error e, s)
        | .ok () => run rest s := by
  cases refusal? with
  | some e => rfl
  | none =>
    show run (reading check >>= fun _ => rest) s = _
    rw [run_bind, run_reading]
    cases check s <;> rfl

/-- Stages that agree on the store come to the same. -/
theorem run_staged_congr (hcheck : check s = check' s) (hrest : run rest s = run rest' s) :
    run (staged refusal? check rest) s = run (staged refusal? check' rest') s := by
  rw [run_staged, run_staged, hcheck, hrest]

theorem run_map_congr {a b : Action ε α} (h : run a s = run b s) (f : α → β) :
    run (f <$> a) s = run (f <$> b) s := by
  rw [run_map, run_map, h]

theorem run_map_staged (f : α → β) :
    run (f <$> staged refusal? check rest) s = run (staged refusal? check (f <$> rest)) s := by
  rw [run_map, run_staged, run_staged]
  cases refusal? with
  | some e => rfl
  | none =>
    cases check s with
    | error e => rfl
    | ok u => rw [run_map]

end Action

namespace TaskGate

variable {g : TaskGate} {task : Task} {s : Store} {op : Task.Operation}

/-- Nothing is required for a task that is under no authorization. -/
theorem require_of_isEligible_eq_false (htask : task.isEligible = false) (caller : Caller)
    (op : Task.Operation) : s.require caller (g.policy.requirement task op) = .ok () := by
  rw [Policy.requirement_of_isEligible_eq_false htask]
  exact Store.require_of_alternatives_eq_nil rfl caller

theorem authorize_eq_refuse (caller : Caller) (op : Task.Operation) :
    g.authorize s caller task op =
      refuse (task.refusal? op) >>= fun _ => s.require caller (g.policy.requirement task op) := by
  rw [authorize_eq, Task.refusal?]
  split <;> rfl

/-- The action that a stage of refusals and the check of a caller lead into. -/
theorem run_permit_bind_eq_staged {β : Type} (caller : Caller) (rest : Action AccessError β) :
    Action.run (g.permit caller task op >>= fun _ => rest) s =
      Action.run (.staged (task.refusal? op)
        (fun s => s.require caller (g.policy.requirement task op)) rest) s := by
  rw [run_permit_bind, authorize_eq_refuse, Action.run_staged]
  cases task.refusal? op with
  | some e => rfl
  | none =>
    simp only [refuse, bind, Except.bind]
    cases s.require caller (g.policy.requirement task op) <;> rfl

/-- Linking identities refuses the links first, and then the task. -/
theorem run_linkAll_eq_staged (htask : task.isEligible = true) (caller : Caller)
    (links : List Link) :
    Action.run (g.linkAll caller task op links) s =
      Action.run (.staged
        (((task.linked links).findSome? fun p => p.2.refusal?).or (task.refusal? op))
        (fun s => s.require caller (g.policy.requirement task op))
        ((task.linked links).forM fun p => g.link p.1 p.2)) s := by
  have hvalidate : Action.run (links.forM fun link => .ofExcept link.validate) s =
      (refuse ((task.linked links).findSome? fun p => p.2.refusal?), s) := by
    rw [Task.findSome?_refusal?_linked htask, ← forM_refuse]
    simp only [← Link.validate_eq]
    exact Action.run_forM_reading links (fun link _ => link.validate) s
  rw [linkAll]
  cases hlinks : (task.linked links).findSome? fun p => p.2.refusal? with
  | some e =>
    rw [hlinks] at hvalidate
    rw [Action.run_bind_of_eq_error hvalidate]
    rfl
  | none =>
    rw [hlinks] at hvalidate
    rw [Action.run_bind_of_eq_ok hvalidate, run_permit_bind_eq_staged, Option.none_or]
    exact Action.run_staged_congr rfl (run_forM_linked htask links s)

/-- Linking one identity refuses the task first, and then the link. -/
theorem run_linkUser_eq_staged (hop : op ≠ .create) (caller : Caller) (link : Option Link) :
    Action.run (g.linkUser caller task op link) s =
      Action.run (.staged
        ((task.refusal? op).or ((task.linked link.toList).findSome? fun p => p.2.refusal?))
        (fun s => s.require caller (g.policy.requirement task op))
        ((task.linked link.toList).forM fun p => g.link p.1 p.2)) s := by
  rw [run_linkUser]
  by_cases hw : task.id = wildcard
  · rw [if_pos hw, Task.refusal?, if_pos ⟨hop, hw⟩]
    rfl
  · have hnone : task.refusal? op = none := by rw [Task.refusal?, if_neg fun h => hw h.2]
    rw [if_neg hw, hnone, Option.none_or]
    cases htask : task.isEligible with
    | false =>
      have hlinked : task.linked link.toList = [] := by simp [Task.linked, htask]
      rw [if_pos rfl, Action.run_staged, hlinked, require_of_isEligible_eq_false htask]
      rfl
    | true =>
      rw [if_neg (by simp), run_linkAll_eq_staged htask, hnone, Option.or_none]

/-- A task is saved under authorization by linking its owner and its assignee. -/
theorem run_saveTask_eq_staged (caller : Caller) (save : TaskSave) :
    Action.run (g.saveTask caller task save) s =
      Action.run (.staged
        (if task.isEligible then
          ((task.linked save.links).findSome? fun p => p.2.refusal?).or
            (task.refusal? (if save.isNew then .create else .save))
        else none)
        (fun s => s.require caller
          (g.policy.requirement task (if save.isNew then .create else .save)))
        ((task.linked save.links).forM fun p => g.link p.1 p.2)) s := by
  rw [run_saveTask]
  cases htask : task.isEligible with
  | false =>
    have hlinked : task.linked save.links = [] := by simp [Task.linked, htask]
    rw [if_pos rfl, if_neg (by simp), Action.run_staged, hlinked,
      require_of_isEligible_eq_false htask]
    rfl
  | true =>
    rw [if_neg (by simp), if_pos rfl, run_linkAll_eq_staged htask]

/-- Unlinking refuses the task, and does nothing else than to check the caller. -/
theorem run_deleteIdentityLink_eq_bind (caller : Caller) (link : Link) :
    Action.run (g.deleteIdentityLink caller task link) s =
      Action.run (g.permit caller task .deleteIdentityLink >>= fun _ => pure ()) s := by
  rw [run_deleteIdentityLink, Action.run_bind_pure_unit, run_permit]

namespace Call

variable {call : Call}

theorem findSome?_refusal?_asks (h : call.asks = [(task, op)]) :
    (call.asks.findSome? fun q => q.1.refusal? q.2) = task.refusal? op := by
  rw [h, List.findSome?_singleton]

/-- The stages of a call that links one identity. -/
theorem run_map_linkUser_eq_staged (hop : op ≠ .create) (caller : Caller) (link : Option Link)
    (hasks : call.asks = [(task, op)]) (hlinked : call.linked = task.linked link.toList)
    (hrefusal : call.refusal? = (call.asks.findSome? fun q => q.1.refusal? q.2).or
      (call.linked.findSome? fun p => p.2.refusal?))
    (hcarry : call.carryOut g =
      (fun _ => .done) <$> call.linked.forM fun p => g.link p.1 p.2) :
    Action.run ((fun _ => .done) <$> g.linkUser caller task op link) s =
      Action.run (.staged call.refusal?
        (fun s => s.require caller (g.policy.requirement task op)) (call.carryOut g)) s := by
  rw [hrefusal, findSome?_refusal?_asks hasks, hcarry, hlinked, ← Action.run_map_staged]
  exact Action.run_map_congr (run_linkUser_eq_staged hop caller link) _

/-- The stages of a call that links nobody. -/
theorem run_map_permit_bind_eq_staged {β : Type} (caller : Caller) (rest : Action AccessError β)
    (f : β → Answer) (hasks : call.asks = [(task, op)])
    (hrefusal : call.refusal? = (call.asks.findSome? fun q => q.1.refusal? q.2).or none)
    (hcarry : Action.run (call.carryOut g) s = Action.run (f <$> rest) s) :
    Action.run (f <$> (g.permit caller task op >>= fun _ => rest)) s =
      Action.run (.staged call.refusal?
        (fun s => s.require caller (g.policy.requirement task op)) (call.carryOut g)) s := by
  rw [hrefusal, findSome?_refusal?_asks hasks, Option.or_none,
    Action.run_map_congr (run_permit_bind_eq_staged caller rest) f, Action.run_map_staged]
  exact Action.run_staged_congr rfl hcarry.symm

theorem run_map_deleteIdentityLink_eq_staged (caller : Caller) (link : Link)
    (hasks : call.asks = [(task, .deleteIdentityLink)])
    (hrefusal : call.refusal? = (call.asks.findSome? fun q => q.1.refusal? q.2).or none)
    (hcarry : Action.run (call.carryOut g) s = (.ok .done, s)) :
    Action.run ((fun _ => .done) <$> g.deleteIdentityLink caller task link) s =
      Action.run (.staged call.refusal?
        (fun s => s.require caller (g.policy.requirement task .deleteIdentityLink))
        (call.carryOut g)) s := by
  rw [Action.run_map_congr (run_deleteIdentityLink_eq_bind caller link)]
  exact run_map_permit_bind_eq_staged caller (pure ()) _ hasks hrefusal hcarry

/-- **A call is refused, or not permitted, or carried out.**  A call that asks for one
operation comes to this, for every caller and over every store. -/
theorem run_perform (h : call.asks = [(task, op)]) (caller : Caller) (s : Store) :
    Action.run (call.perform g caller) s =
      Action.run (.staged call.refusal?
        (fun s => s.require caller (g.policy.requirement task op)) (call.carryOut g)) s := by
  -- each call is one of: checking, linking one identity, saving, unlinking, ending
  cases call with
  | authorize t op' =>
    cases h
    rw [perform, ← Action.run_map_congr (Action.run_bind_pure_unit _ _)]
    exact run_map_permit_bind_eq_staged caller (pure ()) _ rfl rfl rfl
  | isPermitted t op' => cases h
  | filterReadable ts => cases h
  | saveTask t save =>
    cases h
    rw [refusal?, findSome?_refusal?_asks rfl, perform,
      Action.run_map_congr (run_saveTask_eq_staged caller save), Action.run_map_staged]
    rfl
  | setAssignee t userId =>
    cases h
    exact run_map_linkUser_eq_staged (by decide) caller _ rfl rfl rfl rfl
  | setOwner t userId =>
    cases h
    exact run_map_linkUser_eq_staged (by decide) caller _ rfl rfl rfl rfl
  | claim t userId =>
    cases h
    exact run_map_linkUser_eq_staged (by decide) caller _ rfl rfl rfl rfl
  | delegate t userId =>
    cases h
    exact run_map_linkUser_eq_staged (by decide) caller (some _) rfl rfl rfl rfl
  | addIdentityLink t link =>
    cases h
    exact run_map_linkUser_eq_staged (by decide) caller (some _) rfl rfl rfl rfl
  | addCandidateUser t userId =>
    cases h
    exact run_map_linkUser_eq_staged (by decide) caller (some _) rfl rfl rfl rfl
  | addCandidateGroup t groupId =>
    cases h
    exact run_map_linkUser_eq_staged (by decide) caller (some _) rfl rfl rfl rfl
  | deleteIdentityLink t link =>
    cases h
    exact run_map_deleteIdentityLink_eq_staged caller link rfl rfl rfl
  | deleteCandidateUser t userId =>
    cases h
    exact run_map_deleteIdentityLink_eq_staged caller (.candidateUser userId) rfl rfl rfl
  | deleteCandidateGroup t groupId =>
    cases h
    exact run_map_deleteIdentityLink_eq_staged caller (.candidateGroup groupId) rfl rfl rfl
  | complete t =>
    cases h
    exact run_map_permit_bind_eq_staged caller (Store.resourceDeleted task.id) _ rfl rfl rfl
  | deleteTask t =>
    cases h
    exact run_map_permit_bind_eq_staged caller (Store.resourceDeleted task.id) _ rfl rfl rfl
  | deleteTasks ts =>
    -- there is one task to delete, and the loop of checks is one check
    have hlength : ts.length = 1 := by simpa [asks] using congrArg List.length h
    obtain ⟨t, rfl⟩ := List.length_eq_one_iff.1 hlength
    cases h
    have hone : Action.run (g.deleteTasks caller [task]) s =
        Action.run (g.permit caller task .delete >>= fun _ => purge [task]) s :=
      Action.run_bind_congr (Action.run_forM_singleton task _ s) fun _ _ => rfl
    rw [perform, Action.run_map_congr hone]
    exact run_map_permit_bind_eq_staged caller (purge [task]) _ rfl rfl rfl

theorem refusal?_deleteTasks (tasks : List Task) :
    (deleteTasks tasks).refusal? = tasks.findSome? fun task => task.refusal? .delete := by
  show (List.findSome? _ (tasks.map fun task => (task, Task.Operation.delete))).or _ = _
  rw [List.findSome?_map]
  exact Option.or_none

/-- What a call is refused for: a task that it asks about, or somebody whom it links. -/
theorem of_refusal?_eq_some {e : AccessError} (h : call.refusal? = some e) :
    (e = .noSuchTask ∧ ∃ q ∈ call.asks, q.2 ≠ .create ∧ q.1.id = wildcard) ∨
      ∃ p ∈ call.linked, p.2.holder.id = wildcard ∧ e = .reserved p.2.target := by
  have hsome : (call.asks.findSome? fun q => q.1.refusal? q.2) = some e ∨
      (call.linked.findSome? fun p => p.2.refusal?) = some e := by
    cases call with
    | saveTask t save =>
      rw [refusal?] at h
      split at h
      · exact (Option.or_eq_some_iff.1 h).elim .inr fun h => .inl h.2
      · cases h
    | _ =>
      simp only [refusal?, Option.or_eq_some_iff] at h
      exact h.imp_right And.right
  rcases hsome with hsome | hsome
  · obtain ⟨q, hq, he⟩ := List.exists_of_findSome?_eq_some hsome
    rw [Task.refusal?] at he
    split at he
    · next hwild => exact .inl ⟨(Option.some.inj he).symm, q, hq, hwild⟩
    · cases he
  · obtain ⟨p, hp, he⟩ := List.exists_of_findSome?_eq_some hsome
    rw [Link.refusal?] at he
    split at he
    · next hwild => exact .inr ⟨p, hp, hwild, (Option.some.inj he).symm⟩
    · cases he

/-- Nothing is refused in a call that links somebody or ends a task, if the call is not. -/
theorem findSome?_eq_none_of_refusal?_eq_none (h : call.refusal? = none)
    (hne : call.linked ≠ [] ∨ call.ended ≠ []) :
    (call.asks.findSome? fun q => q.1.refusal? q.2) = none ∧
      (call.linked.findSome? fun p => p.2.refusal?) = none := by
  cases call with
  | saveTask t save =>
    have hlinked : t.linked save.links ≠ [] := hne.resolve_right fun h => h rfl
    obtain ⟨p, hp⟩ := List.exists_mem_of_ne_nil _ hlinked
    rw [refusal?, if_pos (Task.mem_linked_iff.1 hp).1, Option.or_eq_none_iff] at h
    exact h.symm
  | _ =>
    simp only [refusal?, Option.or_eq_none_iff] at h
    exact h

/-- A call that is not refused links nobody as the wildcard. -/
theorem holder_ne_wildcard_of_refusal?_eq_none (h : call.refusal? = none) :
    ∀ p ∈ call.linked, p.2.holder.id ≠ wildcard := by
  intro p hp hwild
  have hnone := (findSome?_eq_none_of_refusal?_eq_none h (.inl (List.ne_nil_of_mem hp))).2
  have hrefused := List.findSome?_eq_none_iff.1 hnone p hp
  rw [Link.refusal?, if_pos hwild] at hrefused
  cases hrefused

/-- Nor does it ask about the wildcard for a task, except to create one. -/
theorem ne_wildcard_of_refusal?_eq_none (h : call.refusal? = none)
    (hne : call.linked ≠ [] ∨ call.ended ≠ []) :
    ∀ q ∈ call.asks, q.2 ≠ .create → q.1.id ≠ wildcard := by
  intro q hq hop hwild
  have hnone := (findSome?_eq_none_of_refusal?_eq_none h hne).1
  have hrefused := List.findSome?_eq_none_iff.1 hnone q hq
  rw [Task.refusal?, if_pos ⟨hop, hwild⟩] at hrefused
  cases hrefused

/-- The links that a call about one task makes are such as can be granted, if the call is not
refused. -/
theorem mem_linked_of_refusal?_eq_none (hcall : call.task? = some task)
    (h : call.refusal? = none) :
    ∀ p ∈ call.linked, p.1 = task ∧ p.1.isEligible = true ∧ p.2.isPresent = true ∧
      p.2.validate = .ok () := by
  intro p hp
  obtain ⟨htask, hlink⟩ := isEligible_of_mem_linked hp
  exact ⟨fst_eq_of_mem_linked hcall hp, htask, hlink,
    Link.validate_eq_ok_iff.2 (holder_ne_wildcard_of_refusal?_eq_none h p hp)⟩

end Call

/-! ### Callers who are not checked -/

section Nobody

variable {nobody : Caller}

/-- Everything is permitted to whoever is not checked, and the store is not asked. -/
theorem isPermitted_of_checkedIdentity?_eq_none (h : nobody.checkedIdentity? = none)
    (task : Task) (op : Task.Operation) : g.isPermitted s nobody task op = .ok true := by
  have hd : s.decision nobody (g.policy.requirement task op) = .ok .allowed := by
    simp [Store.decision, h]
  rw [isPermitted, hd]
  split <;> rfl

theorem filterReadable_of_checkedIdentity?_eq_none (h : nobody.checkedIdentity? = none)
    (tasks : List Task) : g.filterReadable s nobody tasks = .ok tasks := by
  induction tasks with
  | nil => rfl
  | cons task rest ih =>
    rw [filterReadable, isPermitted_of_checkedIdentity?_eq_none h, ih]
    rfl

/-- Deleting tasks refuses the first one that is called the wildcard. -/
theorem run_deleteTasks_of_nobody (h : nobody.checkedIdentity? = none) (tasks : List Task) :
    Action.run (g.deleteTasks nobody tasks) s =
      Action.run (.staged (tasks.findSome? fun task => task.refusal? .delete) (fun _ => .ok ())
        (purge tasks)) s := by
  have hauthorize : ∀ task : Task,
      g.authorize s nobody task .delete = refuse (task.refusal? .delete) := by
    intro task
    rw [authorize_eq_refuse, Store.require_of_checkedIdentity?_eq_none h]
    cases task.refusal? .delete <;> rfl
  have hpermit : Action.run (tasks.forM fun task => g.permit nobody task .delete) s =
      (refuse (tasks.findSome? fun task => task.refusal? .delete), s) := by
    rw [← forM_refuse]
    simp only [← hauthorize]
    exact run_forM_permit nobody .delete tasks
  rw [Action.run_staged]
  cases hrefusal : tasks.findSome? fun task => task.refusal? .delete with
  | some e =>
    rw [hrefusal] at hpermit
    exact Action.run_bind_of_eq_error hpermit
  | none =>
    rw [hrefusal] at hpermit
    exact Action.run_bind_of_eq_ok hpermit

/-- **For somebody who is not checked, a call is refused or carried out**, whatever the store
does. -/
theorem Call.run_perform_of_nobody (h : nobody.checkedIdentity? = none) (call : Call)
    (s : Store) :
    Action.run (call.perform g nobody) s =
      Action.run (.staged call.refusal? (fun _ => .ok ()) (call.carryOut g)) s := by
  have hasked : ∀ {t : Task} {op : Task.Operation}, call.asks = [(t, op)] →
      Action.run (call.perform g nobody) s =
        Action.run (.staged call.refusal? (fun _ => .ok ()) (call.carryOut g)) s := by
    intro t op hasks
    rw [run_perform hasks]
    exact Action.run_staged_congr (Store.require_of_checkedIdentity?_eq_none h _) rfl
  cases call with
  | isPermitted t op =>
    rw [perform, Action.run_map, Action.run_reading, isPermitted_of_checkedIdentity?_eq_none h]
    rfl
  | filterReadable ts =>
    rw [perform, Action.run_map, Action.run_reading,
      filterReadable_of_checkedIdentity?_eq_none h]
    rfl
  | deleteTasks ts =>
    rw [perform, Action.run_map_congr (run_deleteTasks_of_nobody h ts), Action.run_map_staged,
      refusal?_deleteTasks]
    rfl
  | _ => exact hasked rfl

end Nobody

end TaskGate

end TaskAccess
