import TaskAccess.Proofs.Independence

/-!
# Callers decide whether, never what

The check of the caller is the second stage of each call: the refusals come before it, and
what the call is for comes after it.  Neither of them depends on the caller.  So a call for
somebody either comes out as it does for the system, or something that it asks for is not
permitted to the caller, and it is denied and leaves the store as it was.  Runs that hand out
different identifiers are compared but for those of new records.

## Main definitions

* `Action.DeniedUnless` — an action runs as another one does, or a condition fails and
  it is denied.
* `Action.NeverDenies` — an action is never denied.
* `TaskGate.Call.IsMet` — the caller is permitted everything that a call asks for.

## Main results

* `TaskGate.require_eq_or_denied` — checking somebody comes out as checking nobody,
  or as a denial.
* `TaskGate.Call.deniedUnless_perform` — so does every call.
* `TaskGate.Call.neverDenies_perform` — nobody is denied who is not checked.
* `TaskGate.perform_eq_or_denied` — **callers decide whether a call is carried out, and
  never what it does.**
-/

namespace TaskAccess

/-! ### Actions that may be denied -/

namespace Action

variable {α β : Type}

/-- On the store, the first action does what the second one does, or the condition does
not hold and it is denied before it has changed anything. -/
def DeniedUnless (P : Prop) (a b : Action AccessError α) (s : Store) : Prop :=
  run a s = run b s ∨ ¬ P ∧ ∃ d, run a s = (.error (.denied d), s)

/-- The action is never denied, whatever the store does. -/
def NeverDenies (a : Action AccessError α) : Prop :=
  ∀ s d, (run a s).1 ≠ .error (.denied d)

namespace DeniedUnless

variable {P Q : Prop} {a b : Action AccessError α} {f f' : α → Action AccessError β} {s : Store}

theorem refl (P : Prop) (a : Action AccessError α) (s : Store) : DeniedUnless P a a s := .inl rfl

theorem of_imp (h : DeniedUnless P a b s) (hP : Q → P) : DeniedUnless Q a b s := by
  rcases h with h | ⟨hn, hd⟩
  · exact .inl h
  · exact .inr ⟨fun hq => hn (hP hq), hd⟩

/-- What follows a check may be anything. -/
theorem bind (h : DeniedUnless P a b s) (f : α → Action AccessError β) :
    DeniedUnless P (a >>= f) (b >>= f) s := by
  rcases h with h | ⟨hn, d, h⟩
  · exact .inl (run_bind_congr h fun _ _ => rfl)
  · exact .inr ⟨hn, d, run_bind_of_eq_error h⟩

/-- What comes before a check must leave the store as it is. -/
theorem after (ha : (run a s).2 = s) (h : ∀ x, DeniedUnless P (f x) (f' x) s) :
    DeniedUnless P (a >>= f) (a >>= f') s := by
  -- if `a` fails, then both fail in the same way and nobody is asked
  rcases hrun : run a s with ⟨e | x, s'⟩
  · exact .inl ((run_bind_of_eq_error hrun).trans (run_bind_of_eq_error hrun).symm)
  · have hs : s' = s := by rw [hrun] at ha; exact ha
    rw [hs] at hrun
    rcases h x with h | ⟨hn, d, h⟩
    · left
      rw [run_bind_of_eq_ok hrun, run_bind_of_eq_ok hrun, h]
    · exact .inr ⟨hn, d, (run_bind_of_eq_ok hrun).trans h⟩

theorem map (h : DeniedUnless P a b s) (f : α → β) :
    DeniedUnless P (f <$> a) (f <$> b) s := by
  rcases h with h | ⟨hn, d, h⟩
  · left
    rw [run_map, run_map, h]
  · right
    refine ⟨hn, d, ?_⟩
    rw [run_map, h]
    rfl

/-- Stages with the same refusals differ by their checks. -/
theorem staged {refusal? : Option AccessError} {check check' : Store → Except AccessError Unit}
    {rest : Action AccessError α}
    (h : check s = check' s ∨ ¬ P ∧ ∃ d, check s = .error (.denied d)) :
    DeniedUnless P (Action.staged refusal? check rest) (Action.staged refusal? check' rest) s := by
  rcases h with h | ⟨hn, d, h⟩
  · exact .inl (run_staged_congr h rfl)
  · cases refusal? with
    | some e => exact .inl rfl
    | none =>
      refine .inr ⟨hn, d, ?_⟩
      rw [run_staged]
      simp only [h]

/-- In a loop of checks the first one that goes wrong decides. -/
theorem forM {γ : Type} {R : γ → Prop} {p q : γ → Store → Except AccessError Unit} {xs : List γ}
    (h : ∀ x ∈ xs, DeniedUnless (R x) (reading (p x)) (reading (q x)) s) :
    DeniedUnless (∀ x ∈ xs, R x) (xs.forM fun x => reading (p x))
      (xs.forM fun x => reading (q x)) s := by
  induction xs with
  | nil => exact .refl _ _ s
  | cons x rest ih =>
    -- the first check is exchanged, and then the others
    have hfirst : DeniedUnless (∀ y ∈ x :: rest, R y)
        (reading (p x) >>= fun _ => rest.forM fun x => reading (p x))
        (reading (q x) >>= fun _ => rest.forM fun x => reading (p x)) s :=
      ((h x List.mem_cons_self).bind _).of_imp fun hR => hR x List.mem_cons_self
    have hrest : DeniedUnless (∀ y ∈ x :: rest, R y)
        (rest.forM fun x => reading (p x)) (rest.forM fun x => reading (q x)) s :=
      (ih fun y hy => h y (List.mem_cons_of_mem x hy)).of_imp
        fun hR y hy => hR y (List.mem_cons_of_mem x hy)
    have hsecond : DeniedUnless (∀ y ∈ x :: rest, R y)
        (reading (q x) >>= fun _ => rest.forM fun x => reading (p x))
        (reading (q x) >>= fun _ => rest.forM fun x => reading (q x)) s :=
      after rfl fun _ => hrest
    rcases hfirst with hfirst | hdenied
    · rcases hsecond with hsecond | ⟨hn, d, hsecond⟩
      · exact .inl (hfirst.trans hsecond)
      · exact .inr ⟨hn, d, hfirst.trans hsecond⟩
    · exact .inr hdenied

end DeniedUnless

namespace NeverDenies

variable {a : Action AccessError α}

theorem pure (x : α) : NeverDenies (Pure.pure x : Action AccessError α) := by
  intro s d h
  cases h

theorem bind (ha : NeverDenies a) {f : α → Action AccessError β} (hf : ∀ x, NeverDenies (f x)) :
    NeverDenies (a >>= f) := by
  intro s d
  rcases hrun : run a s with ⟨e | x, s'⟩
  · rw [run_bind_of_eq_error hrun]
    have h := ha s d
    rw [hrun] at h
    intro he
    exact h (congrArg Except.error (Except.error.inj he))
  · rw [run_bind_of_eq_ok hrun]
    exact hf x s' d

theorem map (ha : NeverDenies a) (f : α → β) : NeverDenies (f <$> a) :=
  ha.bind fun x => pure (f x)

theorem forM {γ : Type} {f : γ → Action AccessError Unit} {xs : List γ}
    (h : ∀ x ∈ xs, NeverDenies (f x)) : NeverDenies (xs.forM f) := by
  induction xs with
  | nil => exact pure ()
  | cons x rest ih =>
    exact (h x List.mem_cons_self).bind fun _ => ih fun y hy => h y (List.mem_cons_of_mem x hy)

/-- What the store reports is not a denial. -/
theorem mapError_store (a : Action StoreError α) : NeverDenies (a.mapError .store) := by
  intro s d h
  rw [run_mapError] at h
  cases hrun : (run a s).1 with
  | error e => rw [hrun] at h; cases h
  | ok x => rw [hrun] at h; cases h

end NeverDenies

end Action

/-! ### Checking the caller -/

namespace TaskGate

open TaskAccess.Action

variable {g : TaskGate} {s : Store} {task : Task} {op : Task.Operation}

section DeniedUnless

variable {nobody : Caller}

/-- Checking somebody comes out as checking nobody, or as a denial. -/
theorem require_eq_or_denied (hs : s.Works) (hnobody : nobody.checkedIdentity? = none)
    (caller : Caller) (r : Requirement) :
    s.require caller r = s.require nobody r ∨
      ¬ r.Met s.ledger caller ∧ ∃ d, s.require caller r = .error (.denied d) := by
  rw [Store.require_of_checkedIdentity?_eq_none hnobody, hs.require_eq]
  by_cases hmet : r.Met s.ledger caller
  · rw [if_pos hmet]
    exact .inl rfl
  · rw [if_neg hmet]
    exact .inr ⟨hmet, _, rfl⟩

theorem deniedUnless_permit (hs : s.Works) (hnobody : nobody.checkedIdentity? = none)
    (caller : Caller) :
    DeniedUnless ((g.policy.requirement task op).Met s.ledger caller)
      (g.permit caller task op) (g.permit nobody task op) s := by
  have hstaged : ∀ c : Caller, Action.run (g.permit c task op) s =
      Action.run (Action.staged (task.refusal? op)
        (fun s => s.require c (g.policy.requirement task op)) (pure ())) s := fun c =>
    (run_bind_pure_unit _ s).symm.trans (run_permit_bind_eq_staged c (pure ()))
  rw [DeniedUnless, hstaged, hstaged]
  exact DeniedUnless.staged (require_eq_or_denied hs hnobody caller _)

theorem deniedUnless_deleteTasks (hs : s.Works) (hnobody : nobody.checkedIdentity? = none)
    (caller : Caller) (tasks : List Task) :
    DeniedUnless (∀ task ∈ tasks, (g.policy.requirement task .delete).Met s.ledger caller)
      (g.deleteTasks caller tasks) (g.deleteTasks nobody tasks) s := by
  have hloop : DeniedUnless
      (∀ task ∈ tasks, (g.policy.requirement task .delete).Met s.ledger caller)
      (tasks.forM fun task => g.permit caller task .delete)
      (tasks.forM fun task => g.permit nobody task .delete) s :=
    DeniedUnless.forM fun task _ => deniedUnless_permit hs hnobody caller
  exact hloop.bind fun _ => purge tasks

end DeniedUnless

/-! ### Nobody to deny -/

section NeverDenies

theorem neverDenies_validate (link : Link) : NeverDenies (ofExcept link.validate) := by
  intro s d
  rw [run_ofExcept, Link.validate, ensureNotWildcard]
  split
  · intro h
    cases h
  · intro h
    cases h

theorem neverDenies_linkChanged (grants : DefaultGrants) (link : Link) (added : Bool) :
    NeverDenies (grants.linkChanged task link added) := by
  rw [DefaultGrants.linkChanged]
  split
  · exact .pure none
  · refine (neverDenies_validate link).bind fun _ => ?_
    have hmint : NeverDenies (Store.mintId : Action AccessError Uuid) := by
      intro s d h
      cases h
    exact hmint.bind fun id => (NeverDenies.mapError_store _).bind fun stored => .pure _

theorem neverDenies_link (link : Link) : NeverDenies (g.link task link) :=
  (neverDenies_linkChanged g.grants link true).bind fun _ => .pure ()

theorem neverDenies_resourceDeleted (id : String) : NeverDenies (Store.resourceDeleted id) :=
  .mapError_store _

theorem neverDenies_purge (tasks : List Task) : NeverDenies (purge tasks) := by
  induction tasks with
  | nil => exact .pure 0
  | cons task rest ih =>
    exact (neverDenies_resourceDeleted task.id).bind fun count => ih.bind fun more => .pure _

end NeverDenies

/-! ### Calls -/

namespace Call

/-- The caller is permitted everything that the call asks for. -/
def IsMet (g : TaskGate) (call : Call) (l : Ledger) (caller : Caller) : Prop :=
  ∀ q ∈ call.asks, (g.policy.requirement q.1 q.2).Met l caller

/-- A call that asks for one operation differs by the check of the caller. -/
theorem deniedUnless_of_asks {nobody : Caller} (hs : s.Works)
    (hnobody : nobody.checkedIdentity? = none) (caller : Caller) {call : Call}
    (hasks : call.asks = [(task, op)]) :
    DeniedUnless (call.IsMet g s.ledger caller) (call.perform g caller) (call.perform g nobody)
      s := by
  rw [DeniedUnless, run_perform hasks, run_perform hasks]
  refine (DeniedUnless.staged (require_eq_or_denied hs hnobody caller _)).of_imp ?_
  intro hmet
  refine hmet (task, op) ?_
  rw [hasks]
  exact List.mem_cons_self

/-- Every call comes out for somebody as it does for nobody, or as a denial. -/
theorem deniedUnless_perform {nobody : Caller} (hs : s.Works)
    (hnobody : nobody.checkedIdentity? = none) (caller : Caller) {call : Call}
    (hcall : call.IsEnforced) :
    DeniedUnless (call.IsMet g s.ledger caller) (call.perform g caller) (call.perform g nobody)
      s := by
  cases call with
  | isPermitted task op => exact hcall.elim
  | filterReadable tasks => exact hcall.elim
  | deleteTasks tasks =>
    refine ((deniedUnless_deleteTasks hs hnobody caller tasks).map _).of_imp ?_
    intro hmet task htask
    exact hmet (task, .delete) (List.mem_map_of_mem htask)
  | _ => exact deniedUnless_of_asks hs hnobody caller rfl

/-- Carrying a call out is not denied. -/
theorem neverDenies_carryOut {call : Call} (hcall : call.IsEnforced) :
    NeverDenies (call.carryOut g) := by
  cases call with
  | isPermitted task op => exact hcall.elim
  | filterReadable tasks => exact hcall.elim
  | complete task => exact (neverDenies_resourceDeleted task.id).map _
  | deleteTask task => exact (neverDenies_resourceDeleted task.id).map _
  | deleteTasks tasks => exact (neverDenies_purge tasks).map _
  | _ => exact (NeverDenies.forM fun p _ => neverDenies_link p.2).map _

/-- Nobody is denied who is not checked, whatever the store does. -/
theorem neverDenies_perform {nobody : Caller} (hnobody : nobody.checkedIdentity? = none)
    {call : Call} (hcall : call.IsEnforced) : NeverDenies (call.perform g nobody) := by
  intro s d
  rw [run_perform_of_nobody hnobody, run_staged]
  cases hrefusal : call.refusal? with
  | some e =>
    intro h
    obtain rfl : e = .denied d := Except.error.inj h
    rcases of_refusal?_eq_some hrefusal with ⟨h, -⟩ | ⟨p, -, -, h⟩
    · cases h
    · cases h
  | none => exact neverDenies_carryOut hcall s d

end Call

/-- **Callers decide whether a call is carried out, and never what it does.**  On a store
in memory a call for any caller comes out as the same call does for the system and for the
caller with checks skipped; or the caller is not permitted something that the call asks
for, it is denied, and the store is as before.  It is never denied to the system, to a
caller with checks skipped, or to a caller of a gate that checks nobody.  If both runs hand
out the same identifiers, the outcomes are equal, new records included; if they hand out
others, the outcomes are the same but for the identifiers of new records. -/
theorem perform_eq_or_denied (hs : s.Works) {call : Call} (hcall : call.IsEnforced)
    (caller : Caller) :
    (Action.run (call.perform g caller) s = Action.run (call.perform g .system) s ∧
          Action.run (call.perform g caller) s = Action.run (call.perform g caller.unchecked) s ∧
          (∀ n, SameButNewIds s.ledger (Action.run (call.perform g caller) s)
            (Action.run (call.perform g .system) { s with minted := n })) ∧
          (∀ n, SameButNewIds s.ledger (Action.run (call.perform g caller) s)
            (Action.run (call.perform g caller.unchecked) { s with minted := n })) ∨
        ¬ call.IsMet g s.ledger caller ∧
          ∃ d, Action.run (call.perform g caller) s = (.error (.denied d), s)) ∧
      NeverDenies (call.perform g .system) ∧
      (∀ c : Caller, NeverDenies (call.perform g c.unchecked)) ∧
      ∀ gate : TaskGate, gate.enabled = false →
        ∀ identity, NeverDenies (call.perform g (gate.caller identity)) := by
  have hsystem : Caller.system.checkedIdentity? = none := rfl
  have hunchecked : ∀ c : Caller, c.unchecked.checkedIdentity? = none := fun c =>
    Caller.checkedIdentity?_eq_none_iff.2 (.inr rfl)
  refine ⟨?_, Call.neverDenies_perform hsystem hcall,
    fun c => Call.neverDenies_perform (hunchecked c) hcall, fun gate hgate identity => ?_⟩
  · rcases Call.deniedUnless_perform (g := g) hs hsystem caller hcall with h | hdenied
    · rcases Call.deniedUnless_perform (g := g) hs (hunchecked caller) caller hcall
        with h' | hdenied
      · left
        refine ⟨h, h', fun n => ?_, fun n => ?_⟩
        · rw [h]
          exact call.sameButNewIds_withMinted hs .system n
        · rw [h']
          exact call.sameButNewIds_withMinted hs caller.unchecked n
      · exact .inr hdenied
    · exact .inr hdenied
  · have hgated : (gate.caller identity).checkedIdentity? = none :=
      Caller.checkedIdentity?_eq_none_iff.2 (.inr hgate)
    exact Call.neverDenies_perform hgated hcall

/-- One user may work on one task. -/
def workerOnTask : Ledger :=
  [.ofHolder ⟨1⟩ .grant .task "t1" (.user "demo") Permission.taskWork.mask]

/-- A user who may work on a task claims it for somebody, as the system would, whatever
identifiers are handed out to it. -/
theorem perform_eq_of_claim :
    (Store.ofLedger workerOnTask).Works ∧
      (Call.claim ⟨"t1", .standalone⟩ (some "mary")).IsEnforced ∧
      Action.run ((Call.claim ⟨"t1", .standalone⟩ (some "mary")).perform standard
          (.authenticated ⟨"demo", []⟩)) (.ofLedger workerOnTask) =
        Action.run ((Call.claim ⟨"t1", .standalone⟩ (some "mary")).perform standard .system)
          (.ofLedger workerOnTask) ∧
      SameButNewIds workerOnTask
        (Action.run ((Call.claim ⟨"t1", .standalone⟩ (some "mary")).perform standard
          (.authenticated ⟨"demo", []⟩)) (.ofLedger workerOnTask))
        (Action.run ((Call.claim ⟨"t1", .standalone⟩ (some "mary")).perform standard .system)
          { Store.ofLedger workerOnTask with minted := 7 }) := by
  have hs : (Store.ofLedger workerOnTask).Works := ⟨rfl, rfl⟩
  have hcall : (Call.claim ⟨"t1", .standalone⟩ (some "mary")).IsEnforced := trivial
  refine ⟨hs, hcall, ?_⟩
  rcases (perform_eq_or_denied (g := standard) hs hcall (.authenticated ⟨"demo", []⟩)).1
    with ⟨h, -, hids, -⟩ | ⟨-, d, h⟩
  · exact ⟨h, hids 7⟩
  · have hok : (Action.run ((Call.claim ⟨"t1", .standalone⟩ (some "mary")).perform standard
        (.authenticated ⟨"demo", []⟩)) (.ofLedger workerOnTask)).1.isOk = true := by
      decide +kernel
    rw [h] at hok
    cases hok

end TaskGate

end TaskAccess
