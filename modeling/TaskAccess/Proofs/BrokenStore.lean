import TaskAccess.Proofs.Asking
import TaskAccess.Proofs.Changes
import TaskAccess.Proofs.Stages

/-!
# A broken store fails closed

When no call of the store is answered, it is not known what anybody may do.  The first
question about a checked caller fails then, and its failure is passed on: through the walk
to the owner, past the other alternatives of a requirement, and past the rest of a call.  It
is never taken for an empty list of records.  So no call about a task under authorization
succeeds, and none is denied.  What is wrong with the arguments is still reported first.
Whoever is not checked asks no question, and notices the store only where something would
be written.

## Main definitions

* `Store.Broken` — every call of the store fails.
* `Store.failingWith` — the store that fails every call with an error.
* `TaskGate.Call.Writes` — a call grants a link or drops records, if it is permitted.

## Main results

* `Store.broken_of_unreachable`, `Store.broken_of_failing` — stores that are broken.
* `Store.Broken.exists_require_eq_error` — no requirement is decided over a broken store.
* `TaskGate.exists_run_perform_eq_error` — so no call about a task is carried out.
* `TaskGate.Call.exists_run_carryOut_eq_error`, `TaskGate.Call.exists_run_carryOut_eq_ok` —
  what writes fails, and nothing else does.
* `TaskGate.broken_store_fails_closed` — **nothing is permitted or denied over a broken store.**
-/

namespace TaskAccess

theorem Caller.checksEnabled_of_checkedIdentity?_eq_some {caller : Caller} {i : Identity}
    (h : caller.checkedIdentity? = some i) : caller.checksEnabled = true := by
  by_contra hnot
  rw [checkedIdentity?, if_neg hnot] at h
  cases h

/-! ### Broken stores -/

/-- A computation fails with its first part, or with all that may follow it. -/
theorem exists_bind_eq_error {ε α β : Type} {x : Except ε α} {f : α → Except ε β}
    (h : (∃ e, x = .error e) ∨ ∀ a, ∃ e, f a = .error e) : ∃ e, (x >>= f) = .error e := by
  cases x with
  | error e => exact ⟨e, rfl⟩
  | ok a =>
    have hnot : ¬ ∃ e, (Except.ok a : Except ε α) = .error e := by
      rintro ⟨e, he⟩
      cases he
    exact h.resolve_left hnot a

/-- An action fails, whatever is made of its answer. -/
theorem Action.exists_run_map_eq_error {ε α β : Type} {a : Action ε α} {f : α → β} {s : Store}
    (h : ∃ e, (Action.run a s).1 = .error e) : ∃ e, (Action.run (f <$> a) s).1 = .error e := by
  obtain ⟨e, he⟩ := h
  rw [Action.run_map, he]
  exact ⟨e, rfl⟩

/-- A failure of the store is passed on as one. -/
theorem Action.exists_run_mapError_eq_error {α : Type} {a : Action StoreError α} {s : Store}
    (h : ∃ e, (Action.run ((fun _ => ()) <$> a) s).1 = .error e) :
    ∃ e s', Action.run (a.mapError AccessError.store) s = (.error (.store e), s') := by
  obtain ⟨e, he⟩ := h
  rw [Action.run_map] at he
  rw [Action.run_mapError]
  cases hrun : (Action.run a s).1 with
  | error e' => exact ⟨e', _, rfl⟩
  | ok x =>
    rw [hrun] at he
    cases he

namespace Store

variable {s : Store}

/-- Every call of the store fails, be it to find records or to change them. -/
structure Broken (s : Store) : Prop where
  find : ∀ q : Query, ∃ e, s.find q = .error e
  perform : ∀ c : Change, ∃ e, (Action.run c.perform s).1 = .error e

/-- A call that is refused or handed to the database fails if it fails there. -/
theorem exists_run_dispatch_eq_error {α : Type} {call : StoreCall} {a b : Action StoreError α}
    (h : (∃ e, s.accept call = .error e) ∨ s.backend = .unreachable)
    (hb : ∃ e, (Action.run b s).1 = .error e) :
    ∃ e, (Action.run (dispatch call a b) s).1 = .error e := by
  rw [run_dispatch]
  rcases h with ⟨e, he⟩ | hbackend
  · rw [he]
    exact ⟨e, rfl⟩
  · cases s.accept call with
    | error e => exact ⟨e, rfl⟩
    | ok u =>
      rw [hbackend]
      exact hb

/-- A malformed record does not even come to wait for a connection. -/
theorem exists_run_writeInDatabase_eq_error (r : Record) (s : Store) :
    ∃ e, (Action.run (writeInDatabase r) s).1 = .error e := by
  rw [run_writeInDatabase]
  cases r.defect? with
  | some defect => exact ⟨_, rfl⟩
  | none => exact ⟨_, rfl⟩

/-- A store is broken if every call that it accepts is handed to the database. -/
theorem broken_of_no_answer
    (h : ∀ call, (∃ e, s.accept call = .error e) ∨ s.backend = .unreachable) : s.Broken := by
  refine ⟨fun q => ?_, fun c => ?_⟩
  · unfold find
    refine exists_bind_eq_error ((h .find).imp_right fun hbackend _ => ?_)
    rw [connect, hbackend]
    exact ⟨.noConnection, rfl⟩
  · cases c with
    | save r =>
      apply Action.exists_run_map_eq_error
      exact exists_run_dispatch_eq_error (h .save) (exists_run_writeInDatabase_eq_error r s)
    | update r =>
      apply Action.exists_run_map_eq_error
      exact exists_run_dispatch_eq_error (h .update) (exists_run_writeInDatabase_eq_error r s)
    | delete id =>
      apply Action.exists_run_map_eq_error
      exact exists_run_dispatch_eq_error (h .delete) ⟨.noConnection, rfl⟩
    | deleteForResource id =>
      apply Action.exists_run_map_eq_error
      exact exists_run_dispatch_eq_error (h .deleteForResource) ⟨.noConnection, rfl⟩

/-- A store is broken that no connection can be had to. -/
theorem broken_of_unreachable (h : s.backend = .unreachable) : s.Broken :=
  broken_of_no_answer fun _ => .inr h

/-- A store is broken that was told to fail every call, whatever they fail with. -/
theorem broken_of_failing (h : ∀ call, call ∈ s.failing) : s.Broken :=
  broken_of_no_answer fun call => .inl ⟨s.failure, by rw [accept, if_pos (h call)]⟩

/-- A store in memory that was told to fail every call with the same error. -/
def failingWith (e : StoreError) : Store :=
  { failing := [.save, .update, .delete, .deleteForResource, .find], failure := e }

theorem broken_failingWith (e : StoreError) : (failingWith e).Broken := by
  apply broken_of_failing
  intro call
  cases call <;> simp [failingWith]

/-- Calls answer alike on stores that accept alike and are in one place. -/
theorem fst_run_dispatch_congr {α : Type} {s' : Store} {call : StoreCall}
    {a b : Action StoreError α} (haccept : s'.accept call = s.accept call)
    (hbackend : s'.backend = s.backend) (ha : (Action.run a s').1 = (Action.run a s).1)
    (hb : (Action.run b s').1 = (Action.run b s).1) :
    (Action.run (dispatch call a b) s').1 = (Action.run (dispatch call a b) s).1 := by
  rw [run_dispatch, run_dispatch, haccept, hbackend]
  cases s.accept call with
  | error e => rfl
  | ok u =>
    cases s.backend with
    | memory => exact ha
    | unreachable => exact hb

/-- What is answered after looking and writing depends on what was looked at alone. -/
theorem fst_run_reading_bind_modifyLedger_congr {ε α β : Type} {s' : Store}
    {f : Store → Except ε α} {write : α → Ledger → Ledger} {answer : α → β} (hf : f s' = f s) :
    (Action.run (Action.reading f >>= fun x => Action.modifyLedger (write x) >>= fun _ =>
      pure (answer x)) s').1 =
      (Action.run (Action.reading f >>= fun x => Action.modifyLedger (write x) >>= fun _ =>
        pure (answer x)) s).1 := by
  rw [Action.run_reading_bind_modifyLedger, Action.run_reading_bind_modifyLedger, hf]
  cases f s <;> rfl

/-- What a change answers does not depend on the identifiers that were handed out. -/
theorem Change.fst_run_perform_withMinted (c : Change) (n : Nat) :
    (Action.run c.perform { s with minted := n }).1 = (Action.run c.perform s).1 := by
  -- in memory each change looks at the records, and in a database at what it is given
  cases c <;> rw [perform, Action.run_map, Action.run_map] <;>
    exact congrArg (Except.map _)
      (fst_run_dispatch_congr rfl rfl (fst_run_reading_bind_modifyLedger_congr rfl) rfl)

namespace Broken

/-- A broken store stays broken when identifiers are handed out. -/
theorem withMinted (hs : s.Broken) (n : Nat) : Broken { s with minted := n } := by
  refine ⟨hs.find, fun c => ?_⟩
  rw [c.fst_run_perform_withMinted]
  exact hs.perform c

/-! ### What is asked of a broken store -/

variable {caller : Caller} {i : Identity}

theorem exists_isAuthorized_eq_error (hs : s.Broken) (hi : caller.checkedIdentity? = some i)
    (c : Check) : ∃ e, s.isAuthorized caller c = .error (.store e) := by
  obtain ⟨e, he⟩ := hs.find (i.query c.resourceType c.target)
  have hholds : s.holds i c = .error e := by
    rw [holds, effective, he]
    rfl
  have hpermits : s.permits i c = .error e := by rw [permits, hholds]
  refine ⟨e, ?_⟩
  rw [isAuthorized, hi]
  show (s.permits i c).mapError AccessError.store = _
  rw [hpermits]
  rfl

/-- No requirement is decided over a broken store: the first alternative fails, and no other
one is looked at. -/
theorem exists_decision_eq_error (hs : s.Broken) (hi : caller.checkedIdentity? = some i)
    {r : Requirement} (hr : r.alternatives ≠ []) :
    ∃ e, s.decision caller r = .error (.store e) := by
  obtain ⟨c, rest, hcons⟩ := List.exists_cons_of_ne_nil hr
  obtain ⟨e, he⟩ := hs.exists_isAuthorized_eq_error hi c
  have hany : s.anyAuthorized caller r.alternatives = .error (.store e) := by
    rw [hcons, anyAuthorized, he]
    rfl
  have hempty : r.isEmpty = false := by simp [Requirement.isEmpty, hcons]
  refine ⟨e, ?_⟩
  rw [decision, hempty, hi, hany]
  rfl

/-- Nor is one enforced. -/
theorem exists_require_eq_error (hs : s.Broken) (hi : caller.checkedIdentity? = some i)
    {r : Requirement} (hr : r.alternatives ≠ []) :
    ∃ e, s.require caller r = .error (.store e) := by
  obtain ⟨e, he⟩ := hs.exists_decision_eq_error hi hr
  refine ⟨e, ?_⟩
  rw [require, Caller.checksEnabled_of_checkedIdentity?_eq_some hi, he]
  rfl

/-! ### What is written to a broken store -/

/-- No record is saved, and the failure is passed on. -/
theorem exists_run_mapError_save (hs : s.Broken) (r : Record) :
    ∃ e s', Action.run ((save r).mapError AccessError.store) s = (.error (.store e), s') :=
  Action.exists_run_mapError_eq_error (hs.perform (.save r))

/-- No records are dropped, and the failure is passed on. -/
theorem exists_run_resourceDeleted (hs : s.Broken) (id : String) :
    ∃ e s', Action.run (resourceDeleted id) s = (.error (.store e), s') :=
  Action.exists_run_mapError_eq_error (hs.perform (.deleteForResource id))

end Broken

end Store

/-! ### Calls over a broken store -/

/-- Something is required for every operation on a task under authorization. -/
theorem Policy.alternatives_requirement_ne_nil (p : Policy) {task : Task}
    (htask : task.isEligible = true) (op : Task.Operation) :
    (p.requirement task op).alternatives ≠ [] := by
  have hne : p.accepted op ≠ [] := p.accepted_ne_nil op
  rw [requirement, htask]
  by_cases hop : op = .create
  · simpa [hop] using hne
  · simpa [hop] using hne

namespace TaskGate

variable {g : TaskGate} {s : Store} {task : Task} {caller : Caller} {i : Identity}

/-- Everything is permitted on a task that is under no authorization, and the store is not
asked. -/
theorem isPermitted_of_isEligible_eq_false (htask : task.isEligible = false) (op : Task.Operation) :
    g.isPermitted s caller task op = .ok true := by
  have hd : s.decision caller (g.policy.requirement task op) = .ok .allowed := by
    rw [Policy.requirement_of_isEligible_eq_false htask]
    rfl
  rw [isPermitted, hd]
  split <;> rfl

section Checked

variable (hs : s.Broken) (hi : caller.checkedIdentity? = some i)

include hs hi

/-- Whether something is permitted on a task is not answered. -/
theorem exists_isPermitted_eq_error (htask : task.isEligible = true) (op : Task.Operation) :
    ∃ e, g.isPermitted s caller task op = .error (.store e) := by
  obtain ⟨e, he⟩ := hs.exists_decision_eq_error hi
    (g.policy.alternatives_requirement_ne_nil htask op)
  refine ⟨e, ?_⟩
  rw [isPermitted, Caller.checksEnabled_of_checkedIdentity?_eq_some hi, he]
  rfl

/-- A call about a task is refused for its arguments, or fails with the check. -/
theorem exists_run_perform_eq_error {call : Call} (hcall : call.task? = some task)
    (htask : task.isEligible = true) :
    ∃ e, Action.run (call.perform g caller) s = (.error e, s) ∧
      (call.refusal? = some e ∨ call.refusal? = none ∧ e.isInfrastructure = true) := by
  have hasked : ∀ {op : Task.Operation}, call.asks = [(task, op)] →
      ∃ e, Action.run (call.perform g caller) s = (.error e, s) ∧
        (call.refusal? = some e ∨ call.refusal? = none ∧ e.isInfrastructure = true) := by
    intro op hasks
    obtain ⟨e, he⟩ := hs.exists_require_eq_error hi
      (g.policy.alternatives_requirement_ne_nil htask op)
    rw [Call.run_perform hasks, Action.run_staged]
    cases call.refusal? with
    | some refusal => exact ⟨refusal, rfl, .inl rfl⟩
    | none =>
      refine ⟨.store e, ?_, .inr ⟨rfl, rfl⟩⟩
      simp only [he]
  cases call with
  | isPermitted t op =>
    cases hcall
    obtain ⟨e, he⟩ := exists_isPermitted_eq_error (g := g) hs hi htask op
    refine ⟨.store e, ?_, .inr ⟨rfl, rfl⟩⟩
    rw [Call.perform, Action.run_map, Action.run_reading, he]
    rfl
  | filterReadable tasks => cases hcall
  | deleteTasks tasks => cases hcall
  | _ =>
    obtain ⟨op, hasks⟩ := Call.exists_asks_eq hcall trivial
    exact hasked hasks

/-- No list is filtered that has a task under authorization in it. -/
theorem exists_filterReadable_eq_error {tasks : List Task}
    (htasks : ∃ task ∈ tasks, task.isEligible = true) :
    ∃ e, g.filterReadable s caller tasks = .error (.store e) := by
  -- the tasks of cases that come before are kept, and then the loop ends
  induction tasks with
  | nil =>
    obtain ⟨task, hmem, -⟩ := htasks
    cases hmem
  | cons t rest ih =>
    cases ht : t.isEligible with
    | true =>
      obtain ⟨e, he⟩ := exists_isPermitted_eq_error (g := g) hs hi ht .read
      exact ⟨e, by rw [filterReadable, he]; rfl⟩
    | false =>
      obtain ⟨e, he⟩ := ih (by simpa [ht] using htasks)
      refine ⟨e, ?_⟩
      rw [filterReadable, isPermitted_of_isEligible_eq_false ht, he]
      rfl

/-- No tasks are deleted if one of them is under authorization. -/
theorem exists_run_deleteTasks_eq_error {tasks : List Task}
    (htasks : ∃ task ∈ tasks, task.isEligible = true) :
    ∃ e, Action.run (g.deleteTasks caller tasks) s = (.error e, s) ∧
      ((tasks.findSome? fun task => task.refusal? .delete) = some e ∨
        e.isInfrastructure = true) := by
  have hloop : ∃ e, (tasks.forM fun task => g.authorize s caller task .delete) = .error e ∧
      ((tasks.findSome? fun task => task.refusal? .delete) = some e ∨
        e.isInfrastructure = true) := by
    induction tasks with
    | nil =>
      obtain ⟨task, hmem, -⟩ := htasks
      cases hmem
    | cons t rest ih =>
      show ∃ e, (g.authorize s caller t .delete >>= fun _ =>
        rest.forM fun task => g.authorize s caller task .delete) = .error e ∧ _
      rw [authorize_eq_refuse, List.findSome?_cons]
      cases hrefusal : t.refusal? .delete with
      | some e => exact ⟨e, rfl, .inl rfl⟩
      | none =>
        cases ht : t.isEligible with
        | true =>
          obtain ⟨e, he⟩ := hs.exists_require_eq_error hi
            (g.policy.alternatives_requirement_ne_nil ht .delete)
          rw [he]
          exact ⟨.store e, rfl, .inr rfl⟩
        | false =>
          rw [require_of_isEligible_eq_false ht]
          exact ih (by simpa [ht] using htasks)
  obtain ⟨e, he, hcause⟩ := hloop
  have hpermit : Action.run (tasks.forM fun task => g.permit caller task .delete) s =
      (.error e, s) := by
    rw [run_forM_permit, he]
  exact ⟨e, Action.run_bind_of_eq_error hpermit, hcause⟩

end Checked

/-- A link is not granted, and the failure is passed on. -/
theorem exists_run_link_eq_error (hs : s.Broken) {link : Link} (htask : task.isEligible = true)
    (hlink : link.isPresent = true) (hvalid : link.validate = .ok ()) :
    ∃ e s', Action.run (g.link task link) s = (.error (.store e), s') := by
  -- an identifier is handed out before the record is refused
  obtain ⟨e, s', he⟩ := (hs.withMinted (s.minted + 1)).exists_run_mapError_save
    (g.grants.grantFor (.numbered s.minted) task link)
  have hchanged : Action.run (g.grants.linkChanged task link true) s =
      (.error (.store e), s') := by
    rw [DefaultGrants.run_linkChanged_eq htask hlink, hvalid]
    exact Action.run_bind_of_eq_error he
  exact ⟨e, s', Action.run_bind_of_eq_error hchanged⟩

namespace Call

/-- The call grants a link or drops records, unless its caller is not permitted it. -/
def Writes (call : Call) : Prop :=
  call.refusal? = none ∧ (call.linked ≠ [] ∨ call.ended ≠ [])

variable {call : Call}

/-- What writes fails over a broken store, with the first record that is not written. -/
theorem exists_run_carryOut_eq_error (hs : s.Broken) (h : call.Writes) :
    ∃ e s', Action.run (call.carryOut g) s = (.error (.store e), s') := by
  obtain ⟨hrefusal, hlinked | hended⟩ := h
  · have hcarry : call.carryOut g =
        (fun _ => .done) <$> call.linked.forM fun p => g.link p.1 p.2 := by
      cases call <;> first | rfl | exact absurd rfl hlinked
    obtain ⟨p, rest, hcons⟩ := List.exists_cons_of_ne_nil hlinked
    have hp : p ∈ call.linked := hcons ▸ List.mem_cons_self
    obtain ⟨htask, hlink⟩ := isEligible_of_mem_linked hp
    have hvalid : p.2.validate = .ok () :=
      Link.validate_eq_ok_iff.2 (holder_ne_wildcard_of_refusal?_eq_none hrefusal p hp)
    obtain ⟨e, s', he⟩ := exists_run_link_eq_error (g := g) hs htask hlink hvalid
    refine ⟨e, s', ?_⟩
    have hloop : Action.run (call.linked.forM fun p => g.link p.1 p.2) s =
        (.error (.store e), s') := by
      rw [hcons]
      exact Action.run_bind_of_eq_error he
    rw [hcarry, Action.run_map, hloop]
    rfl
  · have hmap : ∀ {a : Action AccessError Nat} {e : StoreError} {s' : Store},
        Action.run a s = (.error (.store e), s') →
          Action.run (Answer.dropped <$> a) s = (.error (.store e), s') := by
      intro a e s' h
      rw [Action.run_map, h]
      rfl
    cases call with
    | complete t =>
      obtain ⟨e, s', he⟩ := hs.exists_run_resourceDeleted t.id
      exact ⟨e, s', hmap he⟩
    | deleteTask t =>
      obtain ⟨e, s', he⟩ := hs.exists_run_resourceDeleted t.id
      exact ⟨e, s', hmap he⟩
    | deleteTasks ts =>
      cases ts with
      | nil => exact absurd rfl hended
      | cons t rest =>
        obtain ⟨e, s', he⟩ := hs.exists_run_resourceDeleted t.id
        exact ⟨e, s', hmap (Action.run_bind_of_eq_error he)⟩
    | _ => exact absurd rfl hended

/-- What does not write has the same result over every store, and leaves it as it is. -/
theorem exists_run_carryOut_eq_ok (hlinked : call.linked = []) (hended : call.ended = []) :
    ∃ x, ∀ s, Action.run (call.carryOut g) s = (.ok x, s) := by
  have hlinks : ∀ s, Action.run ((fun _ => Answer.done) <$> call.linked.forM fun p =>
      g.link p.1 p.2) s = (.ok .done, s) := by
    intro s
    rw [hlinked]
    rfl
  cases call with
  | isPermitted t op => exact ⟨_, fun s => rfl⟩
  | filterReadable ts => exact ⟨_, fun s => rfl⟩
  | complete t => cases hended
  | deleteTask t => cases hended
  | deleteTasks ts =>
    rw [ended, List.map_eq_nil_iff] at hended
    subst hended
    exact ⟨_, fun s => rfl⟩
  | _ => exact ⟨_, hlinks⟩

end Call

/-- **Nothing is permitted or denied over a broken store.**  For a checked caller every call
about a task under authorization fails and leaves the store as it is.  It is refused if the
task is called the wildcard, or if the wildcard would be linked; otherwise the failure is one
of the store.  No list with such a task in it is filtered, and none is deleted.  For a caller
who is not checked, exactly those calls fail with the store that write to it; and all others
have the same result over every store, a working one included, and leave it as it is. -/
theorem broken_store_fails_closed (hs : s.Broken) (g : TaskGate) (caller : Caller) :
    (∀ i, caller.checkedIdentity? = some i →
        (∀ (call : Call) (task : Task), call.task? = some task → task.isEligible = true →
          ∃ e, Action.run (call.perform g caller) s = (.error e, s) ∧
            (call.refusal? = some e ∧
                (e = .noSuchTask ∧ task.id = wildcard ∨
                  ∃ p ∈ call.linked, p.2.holder.id = wildcard ∧ e = .reserved p.2.target) ∨
              call.refusal? = none ∧ e.isInfrastructure = true)) ∧
          ∀ tasks : List Task, (∃ task ∈ tasks, task.isEligible = true) →
            (∃ e, Action.run ((Call.filterReadable tasks).perform g caller) s = (.error e, s) ∧
              e.isInfrastructure = true) ∧
              ∃ e, Action.run ((Call.deleteTasks tasks).perform g caller) s = (.error e, s) ∧
                (e = .noSuchTask ∧ (∃ task ∈ tasks, task.id = wildcard) ∨
                  e.isInfrastructure = true)) ∧
      (caller.checkedIdentity? = none → ∀ call : Call,
        ((∃ e, (Action.run (call.perform g caller) s).1 = .error e ∧
            e.isInfrastructure = true) ↔ call.Writes) ∧
          (¬ call.Writes → ∀ w,
            Action.run (call.perform g caller) w =
              ((Action.run (call.perform g caller) s).1, w))) := by
  constructor
  · intro i hi
    refine ⟨fun call task hcall htask => ?_, fun tasks htasks => ⟨?_, ?_⟩⟩
    · obtain ⟨e, hrun, hrefusal | hcause⟩ :=
        exists_run_perform_eq_error (g := g) hs hi hcall htask
      · refine ⟨e, hrun, .inl ⟨hrefusal, ?_⟩⟩
        rcases Call.of_refusal?_eq_some hrefusal with ⟨rfl, q, hq, -, hwild⟩ | hlinks
        · exact .inl ⟨rfl, Call.fst_eq_of_mem_asks hcall hq ▸ hwild⟩
        · exact .inr hlinks
      · exact ⟨e, hrun, .inr hcause⟩
    · obtain ⟨e, he⟩ := exists_filterReadable_eq_error (g := g) hs hi htasks
      refine ⟨.store e, ?_, rfl⟩
      rw [Call.perform, Action.run_map, Action.run_reading, he]
      rfl
    · obtain ⟨e, hrun, hcause⟩ := exists_run_deleteTasks_eq_error (g := g) hs hi htasks
      refine ⟨e, ?_, ?_⟩
      · rw [Call.perform, Action.run_map, hrun]
        rfl
      · refine hcause.imp_left fun hrefusal => ?_
        rw [← Call.refusal?_deleteTasks] at hrefusal
        rcases Call.of_refusal?_eq_some hrefusal with ⟨rfl, q, hq, -, hwild⟩ | ⟨p, hp, -⟩
        · obtain ⟨task, htask, rfl⟩ := List.mem_map.1 hq
          exact ⟨rfl, task, htask, hwild⟩
        · cases hp
  · intro hnobody call
    have hrun := Call.run_perform_of_nobody (g := g) hnobody call
    simp only [hrun, Action.run_staged]
    cases hrefusal : call.refusal? with
    | some e =>
      -- what is refused does not write, and is not blamed on the store
      have hnot : ¬ call.Writes := fun h => by
        rw [Call.Writes, hrefusal] at h
        cases h.1
      refine ⟨⟨?_, fun h => absurd h hnot⟩, fun _ w => rfl⟩
      rintro ⟨e', he', hcause⟩
      obtain rfl : e = e' := Except.error.inj he'
      rcases Call.of_refusal?_eq_some hrefusal with ⟨rfl, -⟩ | ⟨p, -, -, rfl⟩
      · cases hcause
      · cases hcause
    | none =>
      by_cases hwrites : call.linked ≠ [] ∨ call.ended ≠ []
      · have h : call.Writes := ⟨hrefusal, hwrites⟩
        obtain ⟨e, s', he⟩ := Call.exists_run_carryOut_eq_error (g := g) hs h
        refine ⟨⟨fun _ => h, fun _ => ⟨.store e, ?_, rfl⟩⟩, fun hnot => absurd h hnot⟩
        simp only [he]
      · have hnot : ¬ call.Writes := fun h => hwrites h.2
        rw [not_or, not_not, not_not] at hwrites
        obtain ⟨x, hx⟩ := Call.exists_run_carryOut_eq_ok (g := g) hwrites.1 hwrites.2
        simp only [hx]
        refine ⟨⟨?_, fun h => absurd h hnot⟩, fun _ w => trivial⟩
        rintro ⟨e, he, -⟩
        cases he

/-- A user completes a task when no connection is to be had, and when no row of the database can
be decoded, and it fails.  The system can still remove a candidate, as it can from a store in
memory. -/
theorem broken_store_fails_closed_unreachable :
    Store.unreachable.Broken ∧ (Store.failingWith (.fault (.unknownResourceType 9))).Broken ∧
      (∀ s ∈ [Store.unreachable, .failingWith (.fault (.unknownResourceType 9))],
        ∃ e, Action.run ((Call.complete ⟨"t1", .standalone⟩).perform standard
            (.authenticated ⟨"demo", []⟩)) s = (.error e, s) ∧ e.isInfrastructure = true) ∧
      (Action.run ((Call.deleteCandidateUser ⟨"t1", .standalone⟩ "demo").perform standard
        .system) .unreachable).1 = .ok .done := by
  have hs : Store.unreachable.Broken := Store.broken_of_unreachable rfl
  have hfailing := Store.broken_failingWith (.fault (.unknownResourceType 9))
  refine ⟨hs, hfailing, ?_, ?_⟩
  · have hrefusal : (Call.complete ⟨"t1", .standalone⟩).refusal? = none := rfl
    have hcomplete : ∀ {s : Store}, s.Broken →
        ∃ e, Action.run ((Call.complete ⟨"t1", .standalone⟩).perform standard
          (.authenticated ⟨"demo", []⟩)) s = (.error e, s) ∧ e.isInfrastructure = true := by
      intro s hs
      obtain ⟨e, hrun, ⟨hrefused, -⟩ | ⟨-, hcause⟩⟩ :=
        ((broken_store_fails_closed hs standard (.authenticated ⟨"demo", []⟩)).1
          ⟨"demo", []⟩ rfl).1 (.complete ⟨"t1", .standalone⟩) ⟨"t1", .standalone⟩ rfl rfl
      · rw [hrefusal] at hrefused
        cases hrefused
      · exact ⟨e, hrun, hcause⟩
    intro s hmem
    simp only [List.mem_cons, List.not_mem_nil, or_false] at hmem
    rcases hmem with rfl | rfl
    · exact hcomplete hs
    · exact hcomplete hfailing
  · have hidle : ¬ (Call.deleteCandidateUser ⟨"t1", .standalone⟩ "demo").Writes := by
      rintro ⟨-, h | h⟩
      · exact h rfl
      · exact h rfl
    have hsame := ((broken_store_fails_closed hs standard .system).2 rfl
      (.deleteCandidateUser ⟨"t1", .standalone⟩ "demo")).2 hidle (.ofLedger revokedOnTask)
    exact (congrArg Prod.fst hsame).symm.trans rfl

end TaskGate

end TaskAccess
