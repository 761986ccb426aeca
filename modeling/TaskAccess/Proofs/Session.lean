import Mathlib.Data.List.Basic
import TaskAccess.Proofs.Stages

/-!
# Sessions of the gate

As a call is data, a session is a list of calls, each with its caller.  A call that
fails changes no record.  One that succeeds leaves a store that can be named without
running it: the links that it makes are granted, and the records of the tasks that
it ends are gone.  Who called makes no difference to that.

## Main definitions

* `TaskGate.Call.outcome` — the store that a call leaves if it succeeds.
* `TaskGate.Call.Effect` — what a call answers and leaves behind.
* `TaskGate.Step`, `TaskGate.run` — a call by a caller, and a session of them.

## Main results

* `TaskGate.run_purge`, `TaskGate.run_deleteTasks` — ending tasks drops and counts their
  records.
* `TaskGate.Call.effect_perform` — **every call fails, or has its outcome.**
* `TaskGate.Call.run_perform_of_ended_eq_nil` — what a call comes to that ends no task.
* `TaskGate.run_induction` — what every effect keeps, a session keeps.
* `TaskGate.works_run` — a session leaves the store in working order.
-/

namespace TaskAccess

namespace TaskGate

variable {g : TaskGate} {task : Task} {s : Store}

/-! ### Ending tasks -/

theorem run_resourceDeleted (hs : s.Works) (id : String) :
    Action.run (Store.resourceDeleted id) s =
      (.ok (s.ledger.countP fun r => r.resourceId == id), s.without [id]) := by
  rw [Store.resourceDeleted, Action.run_mapError, hs.run_deleteForResource]
  rfl

theorem run_purge (hs : s.Works) (tasks : List Task) :
    Action.run (purge tasks) s =
      (.ok (s.ledger.length - (s.without (tasks.map Task.id)).ledger.length),
        s.without (tasks.map Task.id)) := by
  induction tasks generalizing s with
  | nil =>
    simp only [List.map_nil, Store.without_nil, Nat.sub_self]
    rfl
  | cons task rest ih =>
    have hfirst := run_resourceDeleted hs task.id
    have hrest := ih (hs.without [task.id])
    rw [List.map_cons, Store.without_cons]
    refine (Action.run_bind_of_eq_ok hfirst).trans ((Action.run_bind_of_eq_ok hrest).trans ?_)
    -- what the first purge drops is what it takes from the length
    have hcount := s.countP_add_length_without task.id
    have hle := (s.without [task.id]).length_without_le (rest.map Task.id)
    rw [Action.run_pure]
    congr 2
    omega

/-- Tasks are ended after the caller was checked for each of them, on the store as it was. -/
theorem run_deleteTasks (hs : s.Works) (caller : Caller) (tasks : List Task) :
    Action.run (g.deleteTasks caller tasks) s =
      match tasks.forM fun task => g.authorize s caller task .delete with
      | .error e => (.error e, s)
      | .ok () =>
        (.ok (s.ledger.length - (s.without (tasks.map Task.id)).ledger.length),
          s.without (tasks.map Task.id)) := by
  have hpermit := run_forM_permit (g := g) (s := s) caller .delete tasks
  unfold deleteTasks
  cases ha : tasks.forM fun task => g.authorize s caller task .delete with
  | error e =>
    rw [ha] at hpermit
    exact Action.run_bind_of_eq_error hpermit
  | ok u =>
    rw [ha] at hpermit
    exact (Action.run_bind_of_eq_ok hpermit).trans (run_purge hs tasks)

/-! ### What a call leaves behind -/

namespace Call

/-- The store that the call leaves if it succeeds. -/
def outcome (g : TaskGate) (call : Call) (s : Store) : Store :=
  (s.withGrants g.grants call.linked).without call.ended

/-- What is known of a call that succeeded: no identity is the wildcard, and no task is
either, unless a new one was saved. -/
structure Proper (call : Call) : Prop where
  task_ne_empty : ∀ p ∈ call.linked, p.1.id ≠ ""
  holder_ne_wildcard : ∀ p ∈ call.linked, p.2.holder.id ≠ wildcard
  creates_of_wildcard : ∀ p ∈ call.linked, p.1.id = wildcard → call.Creates
  ended_ne_wildcard : wildcard ∉ call.ended

/-- What a call on a store answers and leaves behind. -/
inductive Effect (g : TaskGate) (call : Call) (s : Store) :
    Except AccessError Answer × Store → Prop
  /-- An identifier may have been handed out in vain. -/
  | failed (e : AccessError) (n : Nat) (h : s.minted ≤ n) :
    Effect g call s (.error e, { s with minted := n })
  | succeeded (x : Answer) (h : call.Proper) : Effect g call s (.ok x, call.outcome g s)

variable {call : Call}

theorem outcome_of_ended_eq_nil (h : call.ended = []) :
    call.outcome g s = s.withGrants g.grants call.linked := by
  rw [outcome, h, Store.without_nil]

theorem outcome_of_linked_eq_nil (h : call.linked = []) :
    call.outcome g s = s.without call.ended := by
  rw [outcome, h, Store.withGrants_nil]

theorem Effect.failed_here (e : AccessError) : call.Effect g s (.error e, s) :=
  .failed e s.minted (Nat.le_refl _)

/-- A call that neither links nor ends anything leaves the store alone. -/
theorem Effect.of_idle (hlinked : call.linked = []) (hended : call.ended = [])
    (x : Except AccessError Answer) : call.Effect g s (x, s) := by
  have hout : call.outcome g s = s := by
    rw [outcome_of_ended_eq_nil hended, hlinked, Store.withGrants_nil]
  cases x with
  | error e => exact .failed_here e
  | ok x =>
    have hproper : call.Proper :=
      ⟨by simp [hlinked], by simp [hlinked], by simp [hlinked], by simp [hended]⟩
    have h : call.Effect g s (.ok x, call.outcome g s) := .succeeded x hproper
    rwa [hout] at h

/-- A call that is not refused is proper, unless it links somebody to the empty task id. -/
theorem proper_of_refusal?_eq_none (h : call.refusal? = none)
    (hempty : ∀ p ∈ call.linked, p.1.id ≠ "") : call.Proper where
  task_ne_empty := hempty
  holder_ne_wildcard := holder_ne_wildcard_of_refusal?_eq_none h
  creates_of_wildcard := by
    intro p hp hwild
    obtain ⟨op, hasked, hcreates⟩ := exists_mem_asks_of_mem_linked hp
    by_cases hop : op = .create
    · exact hcreates hop
    · have hne := ne_wildcard_of_refusal?_eq_none h (.inl (List.ne_nil_of_mem hp))
      exact absurd hwild (hne _ hasked hop)
  ended_ne_wildcard := by
    intro hended
    obtain ⟨q, hasked, hop, hwild⟩ := exists_mem_asks_of_mem_ended hended
    have hne := ne_wildcard_of_refusal?_eq_none h (.inr (List.ne_nil_of_mem hended))
    exact hne q hasked hop hwild

/-- Granting the links of a call fails on the empty task id only. -/
theorem effect_forM_link (hs : s.Works) (htask : call.task? = some task)
    (h : call.refusal? = none) (hended : call.ended = []) :
    call.Effect g s (Action.run ((fun _ => .done) <$> call.linked.forM fun p =>
      g.link p.1 p.2) s) := by
  have hlinks := mem_linked_of_refusal?_eq_none htask h
  rw [Action.run_map, run_forM_link hs hlinks]
  by_cases hempty : task.id = "" ∧ call.linked ≠ []
  · rw [if_pos hempty]
    exact .failed _ _ (Nat.le_succ _)
  · rw [if_neg hempty, ← outcome_of_ended_eq_nil hended]
    refine .succeeded .done (proper_of_refusal?_eq_none h fun p hp hid => hempty ?_)
    exact ⟨(hlinks p hp).1 ▸ hid, List.ne_nil_of_mem hp⟩

/-- Dropping the records of the tasks of a call does not fail. -/
theorem effect_dropped (h : call.refusal? = none) (hlinked : call.linked = [])
    {a : Action AccessError Nat} {n : Nat}
    (ha : Action.run a s = (.ok n, s.without call.ended)) :
    call.Effect g s (Action.run (.dropped <$> a) s) := by
  rw [Action.run_map, ha, ← outcome_of_linked_eq_nil (g := g) hlinked]
  exact .succeeded _ (proper_of_refusal?_eq_none h (by simp [hlinked]))

/-- A call that is not refused can be carried out, or fails on the empty task id. -/
theorem effect_carryOut (hs : s.Works) (h : call.refusal? = none) :
    call.Effect g s (Action.run (call.carryOut g) s) := by
  cases call with
  | isPermitted t op => exact .of_idle rfl rfl _
  | filterReadable ts => exact .of_idle rfl rfl _
  | complete t => exact effect_dropped h rfl (run_resourceDeleted hs t.id)
  | deleteTask t => exact effect_dropped h rfl (run_resourceDeleted hs t.id)
  | deleteTasks ts => exact effect_dropped h rfl (run_purge hs ts)
  | _ => exact effect_forM_link hs rfl h rfl

/-- Tasks are deleted after the caller was checked for each. -/
theorem effect_deleteTasks (hs : s.Works) (tasks : List Task) (caller : Caller) :
    (deleteTasks tasks).Effect g s
      (Action.run (.dropped <$> g.deleteTasks caller tasks) s) := by
  have hrun := run_deleteTasks (g := g) hs caller tasks
  cases ha : tasks.forM fun task => g.authorize s caller task .delete with
  | error e =>
    rw [ha] at hrun
    rw [Action.run_map, hrun]
    exact .failed_here e
  | ok u =>
    rw [ha] at hrun
    have hrefusal : (deleteTasks tasks).refusal? = none := by
      rw [refusal?_deleteTasks, List.findSome?_eq_none_iff]
      intro task htask
      have hid := ne_wildcard_of_authorize (by decide) (forM_eq_ok_iff.1 ha task htask)
      rw [Task.refusal?, if_neg fun h => hid h.2]
    exact effect_dropped hrefusal rfl hrun

/-- **Every call fails, or has its outcome.** -/
theorem effect_perform (hs : s.Works) (call : Call) (caller : Caller) :
    call.Effect g s (Action.run (call.perform g caller) s) := by
  have hasked : ∀ {t : Task} {op : Task.Operation}, call.asks = [(t, op)] →
      call.Effect g s (Action.run (call.perform g caller) s) := by
    intro t op hasks
    rw [run_perform hasks, Action.run_staged]
    cases hrefusal : call.refusal? with
    | some e => exact .failed_here e
    | none =>
      cases s.require caller (g.policy.requirement t op) with
      | error e => exact .failed_here e
      | ok u => exact effect_carryOut hs hrefusal
  cases call with
  | isPermitted t op => rw [perform, Action.run_map]; exact .of_idle rfl rfl _
  | filterReadable ts => rw [perform, Action.run_map]; exact .of_idle rfl rfl _
  | deleteTasks ts => exact effect_deleteTasks hs ts caller
  | _ => exact hasked rfl

/-- A call that asks for one operation and ends no task is about the task of the operation, and
what is left to do of it is to grant the links that it makes. -/
theorem task?_eq_and_carryOut_eq_of_asks {op : Task.Operation} (hasks : call.asks = [(task, op)])
    (hended : call.ended = []) :
    call.task? = some task ∧
      call.carryOut g = (fun _ => .done) <$> call.linked.forM fun p => g.link p.1 p.2 := by
  cases call with
  | isPermitted t op' => cases hasks
  | filterReadable ts => cases hasks
  | complete t => cases hended
  | deleteTask t => cases hended
  | deleteTasks ts =>
    rw [List.map_eq_nil_iff.1 hended] at hasks
    cases hasks
  | _ =>
    cases hasks
    exact ⟨rfl, rfl⟩

/-- What a call comes to that ends no task: it is refused, the caller is denied, the first grant
is refused on the empty task id, or the links are granted. -/
theorem run_perform_of_ended_eq_nil (hs : s.Works) {op : Task.Operation}
    (hasks : call.asks = [(task, op)]) (hended : call.ended = []) (caller : Caller) :
    Action.run (call.perform g caller) s =
      match call.refusal? with
      | some e => (.error e, s)
      | none =>
        if (g.policy.requirement task op).Met s.ledger caller then
          if task.id = "" ∧ call.linked ≠ [] then
            (.error (.store (.fault (.malformedRecord (.numbered s.minted) .emptyResource))),
              { s with minted := s.minted + 1 })
          else (.ok .done, s.withGrants g.grants call.linked)
        else (.error (.denied ((g.policy.requirement task op).denial caller)), s) := by
  obtain ⟨htask, hcarry⟩ := task?_eq_and_carryOut_eq_of_asks (g := g) hasks hended
  rw [run_perform hasks, Action.run_staged, hs.require_eq]
  cases hrefusal : call.refusal? with
  | some e => rfl
  | none =>
    by_cases hmet : (g.policy.requirement task op).Met s.ledger caller
    · have hlinks := mem_linked_of_refusal?_eq_none htask hrefusal
      rw [if_pos hmet, hcarry, Action.run_map, run_forM_link hs hlinks]
      by_cases hempty : task.id = "" ∧ call.linked ≠ []
      · simp only [if_pos hmet, if_pos hempty]
        rfl
      · simp only [if_pos hmet, if_neg hempty]
        rfl
    · rw [if_neg hmet, if_neg hmet]

end Call

/-! ### Sessions -/

/-- A call on behalf of a caller. -/
structure Step where
  caller : Caller
  call : Call
  deriving DecidableEq, Repr

/-- The store after a session, in which calls may fail. -/
def run (g : TaskGate) : List Step → Store → Store
  | [], s => s
  | step :: rest, s => g.run rest (Action.run (step.call.perform g step.caller) s).2

theorem run_nil (s : Store) : g.run [] s = s := rfl

theorem run_cons (step : Step) (rest : List Step) (s : Store) :
    g.run (step :: rest) s = g.run rest (Action.run (step.call.perform g step.caller) s).2 := rfl

theorem Call.Effect.works {call : Call} {p : Except AccessError Answer × Store} (hs : s.Works)
    (h : call.Effect g s p) : p.2.Works := by
  cases h with
  | failed e n => exact hs.withMinted n
  | succeeded x _ => exact (hs.withGrants g.grants call.linked).without call.ended

/-- What every effect of a call keeps, a session keeps. -/
theorem run_induction {P : Store → Prop} (hs : s.Works) (h : P s)
    (hstep : ∀ {s : Store} {call : Call} {p : Except AccessError Answer × Store}, s.Works → P s →
      call.Effect g s p → P p.2) (steps : List Step) : P (g.run steps s) := by
  -- along the session, with the store that each step leaves for the next
  induction steps generalizing s with
  | nil => exact h
  | cons step rest ih =>
    have heffect := step.call.effect_perform (g := g) hs step.caller
    exact ih (heffect.works hs) (hstep hs h heffect)

/-- A session leaves the store in working order. -/
theorem works_run (hs : s.Works) (steps : List Step) : (g.run steps s).Works :=
  run_induction hs hs (fun hs _ heffect => heffect.works hs) steps

end TaskGate

end TaskAccess
