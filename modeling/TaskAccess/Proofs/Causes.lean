import TaskAccess.Proofs.CallerIndependence
import TaskAccess.Proofs.Failure
import TaskAccess.Proofs.Purging

/-!
# Whom failures are blamed on

Over a store that answers every call, a call of a gate fails for one of three causes.  It is
refused for its arguments, something that it asks for is not permitted, or a link is granted on
a task without an id.  The first two are found by the gate.  The third is found by the store
only, where the grant is refused as a malformed record; and what comes out of the store is
taken for a failure of the store, although the store works and it is the caller who named the
task.

## Main definitions

* `TaskGate.Call.FailsWith` — the causes of failure, and the error that each one is reported by.

## Main results

* `TaskGate.Call.failsWith_of_run_perform` — a call fails for one of the causes.
* `TaskGate.Call.FailsWith.of_isInfrastructure` — what is blamed on the store.
* `TaskGate.blames_store_iff_unnamedTask` — **the store is blamed exactly for grants on a task
  without an id.**
* `TaskGate.blames_store_of_setAssignee` — one that is.
-/

namespace TaskAccess

/-- No link is refused by a failure of the store. -/
theorem Link.isInfrastructure_of_validate {link : Link} {e : AccessError}
    (h : link.validate = .error e) : e.isInfrastructure = false := by
  rw [validate_eq, refusal?] at h
  split at h
  · cases h
    rfl
  · cases h

/-- What is refused of a task is that there is none of its id. -/
theorem Task.eq_noSuchTask_of_refusal? {task : Task} {op : Task.Operation} {e : AccessError}
    (h : task.refusal? op = some e) : e = .noSuchTask := by
  unfold refusal? at h
  split at h
  · exact (Option.some.inj h).symm
  · cases h

/-- The first task that is refused fails a list as any other one would. -/
theorem Task.findSome?_refusal? {tasks : List Task} {task : Task} {op : Task.Operation}
    {e : AccessError} (htask : task ∈ tasks) (h : task.refusal? op = some e) :
    (tasks.findSome? fun task => task.refusal? op) = some e := by
  cases hfind : tasks.findSome? fun task => task.refusal? op with
  | none =>
    have hnone := List.findSome?_eq_none_iff.1 hfind task htask
    rw [h] at hnone
    cases hnone
  | some e' =>
    obtain ⟨first, -, hfirst⟩ := List.exists_of_findSome?_eq_some hfind
    rw [eq_noSuchTask_of_refusal? h, eq_noSuchTask_of_refusal? hfirst]

/-- The grant of a link fails in the store exactly if it is due, and the task has no id. -/
theorem DefaultGrants.exists_run_linkChanged_isInfrastructure_iff {g : DefaultGrants}
    {task : Task} {link : Link} {added : Bool} {s : Store} (hs : s.Works) :
    (∃ e s', Action.run (g.linkChanged task link added) s = (.error e, s') ∧
        e.isInfrastructure = true) ↔
      task.isEligible = true ∧ added = true ∧ link.isPresent = true ∧
        link.holder.id ≠ wildcard ∧ task.id = "" := by
  by_cases hignored : task.isEligible = false ∨ added = false ∨ link.isPresent = false
  · rw [run_linkChanged_of_ignored hignored]
    constructor
    · rintro ⟨e, s', h, -⟩
      cases congrArg Prod.fst h
    · rintro ⟨htask, hadded, hlink, -⟩
      simp [htask, hadded, hlink] at hignored
  · simp only [not_or, Bool.not_eq_false] at hignored
    obtain ⟨htask, rfl, hlink⟩ := hignored
    cases hvalid : link.validate with
    | error e =>
      have hwild : link.holder.id = wildcard := by
        by_contra hne
        rw [Link.validate_eq_ok_iff.2 hne] at hvalid
        cases hvalid
      rw [run_linkChanged_eq htask hlink, hvalid]
      constructor
      · rintro ⟨e', s', h, hinfra⟩
        obtain rfl : e = e' := Except.error.inj (congrArg Prod.fst h)
        rw [Link.isInfrastructure_of_validate hvalid] at hinfra
        cases hinfra
      · rintro ⟨-, -, -, hne, -⟩
        exact absurd hwild hne
    | ok u =>
      rw [run_linkChanged hs htask hlink hvalid]
      have hne := Link.validate_eq_ok_iff.1 hvalid
      by_cases hempty : task.id = ""
      · rw [if_pos hempty]
        exact iff_of_true ⟨_, _, rfl, rfl⟩ ⟨htask, rfl, hlink, hne, hempty⟩
      · rw [if_neg hempty]
        constructor
        · rintro ⟨e, s', h, -⟩
          cases congrArg Prod.fst h
        · rintro ⟨-, -, -, -, hid⟩
          exact absurd hid hempty

namespace TaskGate

variable {g : TaskGate} {s s' : Store} {task : Task} {op : Task.Operation} {caller : Caller}
  {e : AccessError}

/-- Checking a caller refuses the task, or denies what is not permitted. -/
theorem authorize_eq_error (hs : s.Works) (h : g.authorize s caller task op = .error e) :
    task.refusal? op = some e ∨
      ¬ (g.policy.requirement task op).Met s.ledger caller ∧
        e = .denied ((g.policy.requirement task op).denial caller) := by
  rw [authorize_eq_refuse, hs.require_eq] at h
  cases hrefusal : task.refusal? op with
  | some e' =>
    rw [hrefusal] at h
    cases h
    exact .inl rfl
  | none =>
    rw [hrefusal] at h
    by_cases hmet : (g.policy.requirement task op).Met s.ledger caller
    · rw [if_pos hmet] at h
      cases h
    · rw [if_neg hmet] at h
      cases h
      exact .inr ⟨hmet, rfl⟩

namespace Call

/-- Why a call has no result, over a store that answers every call. -/
inductive FailsWith (g : TaskGate) (call : Call) (s : Store) (caller : Caller) : AccessError → Prop
  /-- The call is refused for its arguments, whoever calls. -/
  | refused {e : AccessError} (h : call.refusal? = some e) : FailsWith g call s caller e
  /-- Something that the call asks for is not permitted to the caller. -/
  | denied {q : Task × Task.Operation} (hq : q ∈ call.asks)
      (h : ¬ (g.policy.requirement q.1 q.2).Met s.ledger caller) :
    FailsWith g call s caller (.denied ((g.policy.requirement q.1 q.2).denial caller))
  /-- The first grant is on a task without an id, after its identifier was handed out. -/
  | unnamed {p : Task × Link} (hrefusal : call.refusal? = none)
      (hmet : call.IsMet g s.ledger caller) (hp : p ∈ call.linked) (hid : p.1.id = "") :
    FailsWith g call s caller
      (.store (.fault (.malformedRecord (.numbered s.minted) .emptyResource)))

variable {call : Call}

/-- A check that fails is one of the causes. -/
theorem failsWith_of_authorize (hs : s.Works) (hq : (task, op) ∈ call.asks)
    (h : g.authorize s caller task op = .error e)
    (hrefused : task.refusal? op = some e → call.refusal? = some e) :
    call.FailsWith g s caller e := by
  rcases authorize_eq_error hs h with hrefusal | ⟨hmet, rfl⟩
  · exact .refused (hrefused hrefusal)
  · exact .denied hq hmet

/-- A call that ends no task fails for one of the causes. -/
theorem failsWith_of_ended_eq_nil (hs : s.Works) (hasks : call.asks = [(task, op)])
    (hended : call.ended = []) (h : Action.run (call.perform g caller) s = (.error e, s')) :
    call.FailsWith g s caller e := by
  rw [run_perform_of_ended_eq_nil hs hasks hended] at h
  cases hrefusal : call.refusal? with
  | some e' =>
    rw [hrefusal] at h
    cases h
    exact .refused hrefusal
  | none =>
    rw [hrefusal] at h
    by_cases hmet : (g.policy.requirement task op).Met s.ledger caller
    · by_cases hempty : task.id = "" ∧ call.linked ≠ []
      · simp only [if_pos hmet, if_pos hempty] at h
        cases h
        obtain ⟨htask, -⟩ := task?_eq_and_carryOut_eq_of_asks (g := g) hasks hended
        obtain ⟨p, hp⟩ := List.exists_mem_of_ne_nil _ hempty.2
        have hall : call.IsMet g s.ledger caller := by
          intro q hq
          rw [hasks] at hq
          rwa [List.mem_singleton.1 hq]
        exact .unnamed hrefusal hall hp (by rw [fst_eq_of_mem_linked htask hp, hempty.1])
      · simp only [if_pos hmet, if_neg hempty] at h
        cases congrArg Prod.fst h
    · simp only [if_neg hmet] at h
      cases h
      exact .denied (hasks ▸ List.mem_singleton_self _) hmet

/-- **A call fails for one of the causes.** -/
theorem failsWith_of_run_perform (hs : s.Works)
    (h : Action.run (call.perform g caller) s = (.error e, s')) :
    call.FailsWith g s caller e := by
  -- an action that drops records fails as the check before it does
  have hdropped : ∀ {a : Action AccessError Nat} {check : Except AccessError Unit}
      {ids : List String}, Action.PurgesAfter check ids a s →
        Action.run (Answer.dropped <$> a) s = (.error e, s') → check = .error e := by
    intro a check ids hpurges hrun
    rw [Action.run_map] at hrun
    cases ha : Action.run a s with
    | mk x s₁ =>
      rw [ha] at hrun
      cases x with
      | ok n => cases congrArg Prod.fst hrun
      | error e' =>
        cases hrun
        exact (hpurges.eq_error_iff.1 ha).2
  cases call with
  | isPermitted t op' =>
    rw [perform, Action.run_map, Action.run_reading, isPermitted_eq hs] at h
    cases congrArg Prod.fst h
  | filterReadable ts =>
    rw [perform, Action.run_map, Action.run_reading, filterReadable_eq hs] at h
    cases congrArg Prod.fst h
  | complete t =>
    refine failsWith_of_authorize hs (List.mem_singleton_self _)
      (hdropped (purgesAfter_complete hs caller) h) fun hrefusal => ?_
    show ((complete t).asks.findSome? fun q => q.1.refusal? q.2).or none = some e
    rw [findSome?_refusal?_asks rfl, hrefusal, Option.some_or]
  | deleteTask t =>
    refine failsWith_of_authorize hs (List.mem_singleton_self _)
      (hdropped (purgesAfter_deleteTask hs caller) h) fun hrefusal => ?_
    show ((deleteTask t).asks.findSome? fun q => q.1.refusal? q.2).or none = some e
    rw [findSome?_refusal?_asks rfl, hrefusal, Option.some_or]
  | deleteTasks ts =>
    obtain ⟨pre, t, post, rfl, -, ht⟩ :=
      forM_eq_error_iff.1 (hdropped (purgesAfter_deleteTasks hs caller ts) h)
    have hmem : t ∈ pre ++ t :: post := List.mem_append_right pre List.mem_cons_self
    refine failsWith_of_authorize hs (List.mem_map_of_mem hmem) ht fun hrefusal => ?_
    rw [refusal?_deleteTasks, Task.findSome?_refusal? hmem hrefusal]
  | _ => exact failsWith_of_ended_eq_nil hs rfl rfl h

/-- What is blamed on the store is a grant on a task without an id, and it is malformed. -/
theorem FailsWith.of_isInfrastructure (h : call.FailsWith g s caller e)
    (hinfra : e.isInfrastructure = true) :
    e = .store (.fault (.malformedRecord (.numbered s.minted) .emptyResource)) ∧
      call.refusal? = none ∧ call.IsMet g s.ledger caller ∧ ∃ p ∈ call.linked, p.1.id = "" := by
  cases h with
  | refused hrefusal =>
    rcases of_refusal?_eq_some hrefusal with ⟨rfl, -⟩ | ⟨p, -, -, rfl⟩
    · cases hinfra
    · cases hinfra
  | denied hq hmet => cases hinfra
  | unnamed hrefusal hmet hp hid => exact ⟨rfl, hrefusal, hmet, _, hp, hid⟩

/-- A call that is not stopped by the gate fails on a task without an id. -/
theorem run_perform_of_unnamed (hs : s.Works) (hrefusal : call.refusal? = none)
    (hmet : call.IsMet g s.ledger caller) {p : Task × Link} (hp : p ∈ call.linked)
    (hid : p.1.id = "") :
    Action.run (call.perform g caller) s =
      (.error (.store (.fault (.malformedRecord (.numbered s.minted) .emptyResource))),
        { s with minted := s.minted + 1 }) := by
  have hasked : ∀ {t : Task} {op : Task.Operation}, call.asks = [(t, op)] → call.ended = [] →
      Action.run (call.perform g caller) s =
        (.error (.store (.fault (.malformedRecord (.numbered s.minted) .emptyResource))),
          { s with minted := s.minted + 1 }) := by
    intro t op hasks hended
    obtain ⟨htask, -⟩ := task?_eq_and_carryOut_eq_of_asks (g := g) hasks hended
    have hempty : t.id = "" ∧ call.linked ≠ [] :=
      ⟨fst_eq_of_mem_linked htask hp ▸ hid, List.ne_nil_of_mem hp⟩
    have hpermitted := hmet (t, op) (hasks ▸ List.mem_singleton_self _)
    rw [run_perform_of_ended_eq_nil hs hasks hended, hrefusal]
    simp only [if_pos hpermitted, if_pos hempty]
  cases call with
  | isPermitted t op' => cases hp
  | filterReadable ts => cases hp
  | complete t => cases hp
  | deleteTask t => cases hp
  | deleteTasks ts => cases hp
  | _ => exact hasked rfl rfl

end Call

/-- **The store is blamed exactly for grants on a task without an id.**  Over a store in memory, a
call of a gate fails with a failure of the store if and only if it is not refused for its
arguments, the caller is permitted everything that it asks for, and it links somebody to a
task without an id; and what is reported then is always that the grant is malformed.  So it is
if a grant is made by itself.  No other failure of a call, of a link that is refused, or of a
configuration is taken for one of the store. -/
theorem blames_store_iff_unnamedTask (hs : s.Works) :
    (∀ (g : TaskGate) (call : Call) (caller : Caller),
      ((∃ e s', Action.run (call.perform g caller) s = (.error e, s') ∧
          e.isInfrastructure = true) ↔
        call.refusal? = none ∧ call.IsMet g s.ledger caller ∧ ∃ p ∈ call.linked, p.1.id = "") ∧
        ∀ e s', Action.run (call.perform g caller) s = (.error e, s') →
          e.isInfrastructure = true →
            e = .store (.fault (.malformedRecord (.numbered s.minted) .emptyResource))) ∧
      (∀ (grants : DefaultGrants) (task : Task) (link : Link) (added : Bool),
        (∃ e s', Action.run (grants.linkChanged task link added) s = (.error e, s') ∧
            e.isInfrastructure = true) ↔
          task.isEligible = true ∧ added = true ∧ link.isPresent = true ∧
            link.holder.id ≠ wildcard ∧ task.id = "") ∧
      (∀ (link : Link) (e : AccessError),
        link.validate = .error e → e.isInfrastructure = false) ∧
      ∀ (a : AuthorizationSettings) (e : AccessError),
        ofSettings a = .error e → e.isInfrastructure = false := by
  refine ⟨?_, ?_, ?_, ?_⟩
  · intro g call caller
    refine ⟨⟨?_, ?_⟩, ?_⟩
    · rintro ⟨e, s', hrun, hinfra⟩
      exact ((Call.failsWith_of_run_perform hs hrun).of_isInfrastructure hinfra).2
    · rintro ⟨hrefusal, hmet, p, hp, hid⟩
      exact ⟨_, _, Call.run_perform_of_unnamed hs hrefusal hmet hp hid, rfl⟩
    · intro e s' hrun hinfra
      exact ((Call.failsWith_of_run_perform hs hrun).of_isInfrastructure hinfra).1
  · intro grants task link added
    exact DefaultGrants.exists_run_linkChanged_isInfrastructure_iff hs
  · intro link e h
    exact Link.isInfrastructure_of_validate h
  · intro a e h
    unfold ofSettings at h
    cases hgrants : DefaultGrants.ofSettings a with
    | error fault =>
      rw [hgrants] at h
      cases h
      rfl
    | ok grants =>
      rw [hgrants] at h
      cases h

/-- A task without an id is saved, and it is the user that is not permitted it. -/
theorem blames_store_iff_unnamedTask_of_denied :
    (Store.ofLedger revokedOnTask).Works ∧
      ¬ ∃ e s', Action.run (saveWithoutId.perform standard (.authenticated ⟨"demo", []⟩))
        (.ofLedger revokedOnTask) = (.error e, s') ∧ e.isInfrastructure = true := by
  have hs : (Store.ofLedger revokedOnTask).Works := ⟨rfl, rfl⟩
  refine ⟨hs, fun hblamed => ?_⟩
  obtain ⟨hcalls, -⟩ := blames_store_iff_unnamedTask hs
  obtain ⟨-, hmet, -⟩ := (hcalls standard saveWithoutId (.authenticated ⟨"demo", []⟩)).1.1 hblamed
  have hdenied : ¬ (standard.policy.requirement ⟨"", .standalone⟩ .save).Met revokedOnTask
      (.authenticated ⟨"demo", []⟩) := by decide +kernel
  exact hdenied (hmet _ (List.mem_singleton_self _))

/-- The system assigns a task without an id in a store that works, and the store is blamed. -/
theorem blames_store_of_setAssignee :
    ∃ e s', (Store.ofLedger []).Works ∧
      Action.run ((Call.setAssignee ⟨"", .standalone⟩ (some "demo")).perform standard .system)
        (.ofLedger []) = (.error e, s') ∧
      e = .store (.fault (.malformedRecord (.numbered 0) .emptyResource)) ∧
      e.isInfrastructure = true := ⟨_, _, ⟨rfl, rfl⟩, rfl, rfl, rfl⟩

end TaskGate

end TaskAccess
