import TaskAccess.Proofs.Changes
import TaskAccess.Proofs.Session

/-!
# What fails changes nothing

A call can be refused for its task, for an identity that it names, or for its caller, and a
record can be refused for its shape.  All of it comes before the first record is written:
a saved task is granted to its owner and to its assignee only after both of them and the
caller were checked, the empty task id stops the first of the two grants, and no task of a
list is ended before the caller was checked for each.  So nothing is left half done.

## Main results

* `DefaultGrants.ledger_eq_of_run_linkChanged_eq_error` — a link that is not granted.
* `TaskGate.Call.Effect.ledger_eq_of_error`, `TaskGate.Call.Effect.eq_outcome_of_ok` — a call
  that fails, and one that succeeds.
* `TaskGate.records_kept_of_error` — **whatever fails leaves the records as they were.**
-/

namespace TaskAccess

/-- A link that is not granted leaves the records as they were, whatever the store does. -/
theorem DefaultGrants.ledger_eq_of_run_linkChanged_eq_error {g : DefaultGrants} {task : Task}
    {link : Link} {added : Bool} {s s' : Store} {e : AccessError}
    (h : Action.run (g.linkChanged task link added) s = (.error e, s')) :
    s'.ledger = s.ledger := by
  by_cases hignored : task.isEligible = false ∨ added = false ∨ link.isPresent = false
  · rw [run_linkChanged_of_ignored hignored] at h
    cases congrArg Prod.fst h
  · simp only [not_or, Bool.not_eq_false] at hignored
    obtain ⟨htask, rfl, hlink⟩ := hignored
    rw [run_linkChanged_eq htask hlink] at h
    cases hv : link.validate with
    | error e' =>
      rw [hv] at h
      have heq : s = s' := congrArg Prod.snd h
      rw [heq]
    | ok u =>
      rw [hv] at h
      -- what is left is to save the grant, and to answer what was stored
      rcases Action.run_bind_eq_error_iff.1 h with h | ⟨stored, s₁, -, h⟩
      · obtain ⟨e', -, h⟩ := Action.run_mapError_eq_error_iff.1 h
        rw [Store.eq_of_run_save_eq_error h]
      · cases congrArg Prod.fst h

namespace TaskGate

variable {g : TaskGate} {call : Call} {s s' : Store}

theorem Call.Effect.ledger_eq_of_error {e : AccessError} (h : call.Effect g s (.error e, s')) :
    s'.ledger = s.ledger := by
  cases h with
  | failed e n => rfl

theorem Call.Effect.eq_outcome_of_ok {x : Answer} (h : call.Effect g s (.ok x, s')) :
    s' = call.outcome g s := by
  cases h with
  | succeeded x hproper => rfl

/-- **Whatever fails leaves the records as they were**, each of them in its place, with its
id and its permissions: a call of a gate, for any caller and whatever the gate grants and
accepts; a grant to a linked identity; and a record that is saved or updated.  A call that
does not fail has done all that it is for. -/
theorem records_kept_of_error (hs : s.Works) :
    (∀ (g : TaskGate) (call : Call) (caller : Caller),
      (∀ (e : AccessError) (s' : Store),
        Action.run (call.perform g caller) s = (.error e, s') → s'.ledger = s.ledger) ∧
        ∀ (x : Answer) (s' : Store),
          Action.run (call.perform g caller) s = (.ok x, s') → s' = call.outcome g s) ∧
      (∀ (grants : DefaultGrants) (task : Task) (link : Link) (added : Bool) (e : AccessError)
        (s' : Store), Action.run (grants.linkChanged task link added) s = (.error e, s') →
          s'.ledger = s.ledger) ∧
      (∀ (r : Record) (e : StoreError) (s' : Store),
        Action.run (Store.save r) s = (.error e, s') → s' = s) ∧
      ∀ (r : Record) (e : StoreError) (s' : Store),
        Action.run (Store.update r) s = (.error e, s') → s' = s := by
  refine ⟨?_, ?_, ?_, ?_⟩
  · intro g call caller
    have heffect := call.effect_perform (g := g) hs caller
    constructor
    · intro e s' h
      rw [h] at heffect
      exact heffect.ledger_eq_of_error
    · intro x s' h
      rw [h] at heffect
      exact heffect.eq_outcome_of_ok
  · intro grants task link added e s' h
    exact DefaultGrants.ledger_eq_of_run_linkChanged_eq_error h
  · intro r e s' h
    exact Store.eq_of_run_save_eq_error h
  · intro r e s' h
    exact Store.eq_of_run_update_eq_error h

/-- A task without an id, that is saved with an owner and an assignee. -/
def saveWithoutId : Call :=
  .saveTask ⟨"", .standalone⟩ { owner := some "demo", assignee := some "mary" }

/-- Everybody is checked, and then the grant to the owner is refused. -/
theorem records_kept_of_saveWithoutId :
    (Store.ofLedger revokedOnTask).Works ∧
      ∃ s', Action.run (saveWithoutId.perform standard .system) (.ofLedger revokedOnTask) =
          (.error (.store (.fault (.malformedRecord (.numbered 0) .emptyResource))), s') ∧
        s'.ledger = revokedOnTask := by
  have hs : (Store.ofLedger revokedOnTask).Works := ⟨rfl, rfl⟩
  have hrun : Action.run (saveWithoutId.perform standard .system) (.ofLedger revokedOnTask) =
      (.error (.store (.fault (.malformedRecord (.numbered 0) .emptyResource))),
        { Store.ofLedger revokedOnTask with minted := 1 }) := by
    rfl
  obtain ⟨hfailed, -⟩ := (records_kept_of_error hs).1 standard saveWithoutId .system
  exact ⟨hs, _, hrun, hfailed _ _ hrun⟩

end TaskGate

end TaskAccess
