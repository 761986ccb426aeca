import TaskAccess.Proofs.Growth
import TaskAccess.Proofs.Session

/-!
# Records survive until their task is ended

A session drops records in one way only: a task is completed or deleted, and the records
of its id go.  All else that a session does to the records is to save grants.  So a record
stays where it is among the records of its task, the bits of a grant are added to at most,
and global records and revocations do not change at all, until some call ends a task with
the resource id of the record.

## Main definitions

* `DefaultGrants.grantsFor` — the grants of links, one after the other.
* `TaskGate.Step.Ends` — a step ends a task with an id.
* `TaskGate.Spares` — no step of a session does.

## Main results

* `Store.ledger_withGrants`, `Store.select_withGrants` — what granting links leaves.
* `Store.select_without` — what dropping records leaves.
* `TaskGate.Call.Effect.growsTo_select`, `TaskGate.Call.Effect.select_eq` — what a call
  leaves of the records of tasks that it does not end.
* `TaskGate.run_induction_of_spares` — what every effect keeps that ends none of some tasks, a
  session keeps that ends none of them.
* `TaskGate.survives_until_ended` — **nothing is lost but with the task it is about.**
-/

namespace TaskAccess

namespace DefaultGrants

/-- The grants of links to tasks, under identifiers that are handed out from a number on. -/
def grantsFor (g : DefaultGrants) : Nat → List (Task × Link) → List Record
  | _, [] => []
  | n, p :: rest => g.grantFor (.numbered n) p.1 p.2 :: g.grantsFor (n + 1) rest

variable {g : DefaultGrants} {links : List (Task × Link)}

theorem exists_mem_grantsFor {q : Task × Link} (h : q ∈ links) (n : Nat) :
    ∃ m, g.grantFor (.numbered m) q.1 q.2 ∈ g.grantsFor n links := by
  induction links generalizing n with
  | nil => cases h
  | cons p rest ih =>
    rcases List.mem_cons.1 h with rfl | h
    · exact ⟨n, List.mem_cons_self⟩
    · obtain ⟨m, hm⟩ := ih h (n + 1)
      exact ⟨m, List.mem_cons_of_mem _ hm⟩

theorem exists_of_mem_grantsFor {n : Nat} {r : Record} (h : r ∈ g.grantsFor n links) :
    ∃ q ∈ links, ∃ m, r = g.grantFor (.numbered m) q.1 q.2 := by
  induction links generalizing n with
  | nil => cases h
  | cons p rest ih =>
    rcases List.mem_cons.1 h with rfl | h
    · exact ⟨p, List.mem_cons_self, n, rfl⟩
    · obtain ⟨q, hq, m, hm⟩ := ih h
      exact ⟨q, List.mem_cons_of_mem p hq, m, hm⟩

end DefaultGrants

namespace Store

variable {s : Store} {g : DefaultGrants} {p : Slot → Bool}

/-- Granting links merges their grants. -/
theorem ledger_withGrants (links : List (Task × Link)) :
    (s.withGrants g links).ledger = s.ledger.insertAll (g.grantsFor s.minted links) := by
  induction links generalizing s with
  | nil => rfl
  | cons p rest ih => exact ih

theorem growsTo_withGrants (links : List (Task × Link)) :
    s.ledger.GrowsTo (s.withGrants g links).ledger := by
  rw [ledger_withGrants]
  exact Ledger.growsTo_insertAll s.ledger _

/-- What was granted is covered, whatever the identifier. -/
theorem covers_withGrants {links : List (Task × Link)} {q : Task × Link} (h : q ∈ links)
    (id : Uuid) : (s.withGrants g links).ledger.Covers (g.grantFor id q.1 q.2) := by
  obtain ⟨n, hn⟩ := DefaultGrants.exists_mem_grantsFor h s.minted
  rw [ledger_withGrants]
  exact Ledger.covers_insertAll hn s.ledger

/-- Granting links does not touch the slots that no grant of a link is about. -/
theorem select_withGrants_of_forall {links : List (Task × Link)}
    (h : ∀ q ∈ links, ∀ id, ¬ p (g.grantFor id q.1 q.2).slot = true) :
    (s.withGrants g links).ledger.select p = s.ledger.select p := by
  induction links generalizing s with
  | nil => rfl
  | cons q rest ih =>
    have hfirst : (s.withGrant g q).ledger.select p = s.ledger.select p := by
      rw [withGrant, Ledger.select_insert, if_neg (h q List.mem_cons_self _)]
    rw [withGrants_cons, ih fun r hr => h r (List.mem_cons_of_mem q hr), hfirst]

/-- Granting links touches grants only. -/
theorem select_withGrants (hp : ∀ slot, p slot = true → slot.kind ≠ .grant)
    (links : List (Task × Link)) :
    (s.withGrants g links).ledger.select p = s.ledger.select p :=
  select_withGrants_of_forall fun _ _ _ hslot => hp _ hslot rfl

/-- Dropping the records of resources touches the records of these resources only. -/
theorem select_without {ids : List String}
    (hp : ∀ slot, p slot = true → slot.resourceId ∉ ids) :
    (s.without ids).ledger.select p = s.ledger.select p := by
  rw [without, Ledger.select, Ledger.select, List.filter_filter]
  refine List.filter_congr fun r _ => ?_
  cases hr : p r.slot with
  | false => rfl
  | true =>
    have hid : r.resourceId ∉ ids := hp r.slot hr
    simpa using hid

end Store

namespace TaskGate

variable {g : TaskGate} {s : Store} {q : Slot → Bool}

/-! ### Calls -/

namespace Call

variable {call : Call} {p : Except AccessError Answer × Store}

/-- Of the records of tasks that it does not end, a call only adds to the grants. -/
theorem Effect.growsTo_select (h : call.Effect g s p)
    (hq : ∀ x, p.1 = .ok x → ∀ slot, q slot = true → slot.resourceId ∉ call.ended) :
    (s.ledger.select q).GrowsTo (p.2.ledger.select q) := by
  cases h with
  | failed e n => exact .refl _
  | succeeded x _ =>
    show (s.ledger.select q).GrowsTo ((call.outcome g s).ledger.select q)
    rw [outcome, Store.select_without (hq x rfl)]
    exact (Store.growsTo_withGrants call.linked).select q

/-- It leaves those of them alone that are not grants. -/
theorem Effect.select_eq (h : call.Effect g s p)
    (hq : ∀ x, p.1 = .ok x → ∀ slot, q slot = true → slot.resourceId ∉ call.ended)
    (hkind : ∀ slot, q slot = true → slot.kind ≠ .grant) :
    p.2.ledger.select q = s.ledger.select q := by
  cases h with
  | failed e n => rfl
  | succeeded x _ =>
    show (call.outcome g s).ledger.select q = s.ledger.select q
    rw [outcome, Store.select_without (hq x rfl), Store.select_withGrants hkind]

/-- A call that ends no task drops nothing. -/
theorem Effect.growsTo (h : call.Effect g s p) (hended : call.ended = []) :
    s.ledger.GrowsTo p.2.ledger := by
  cases h with
  | failed e n => exact .refl _
  | succeeded x _ =>
    show s.ledger.GrowsTo (call.outcome g s).ledger
    rw [outcome_of_ended_eq_nil hended]
    exact Store.growsTo_withGrants call.linked

/-- A call that links nobody either changes nothing. -/
theorem Effect.ledger_eq (h : call.Effect g s p) (hended : call.ended = [])
    (hlinked : call.linked = []) : p.2.ledger = s.ledger := by
  cases h with
  | failed e n => rfl
  | succeeded x _ =>
    show (call.outcome g s).ledger = s.ledger
    rw [outcome_of_ended_eq_nil hended, hlinked, Store.withGrants_nil]

end Call

/-! ### Sessions -/

/-- The step ends a task with the id: it completes or deletes one, and succeeds. -/
def Step.Ends (g : TaskGate) (step : Step) (s : Store) (id : String) : Prop :=
  id ∈ step.call.ended ∧ ∃ x, (Action.run (step.call.perform g step.caller) s).1 = .ok x

/-- No step of the session ends a task with the id. -/
def Spares (g : TaskGate) (steps : List Step) (s : Store) (id : String) : Prop :=
  ∀ pre step post, steps = pre ++ step :: post → ¬ step.Ends g (g.run pre s) id

theorem spares_cons_iff {step : Step} {rest : List Step} {id : String} :
    g.Spares (step :: rest) s id ↔ ¬ step.Ends g s id ∧
      g.Spares rest (Action.run (step.call.perform g step.caller) s).2 id := by
  rw [Spares, forall_append_cons_iff]
  rfl

/-- A session that is to end no task with the id does not. -/
theorem spares_of_notMem_ended {steps : List Step} {id : String}
    (h : ∀ step ∈ steps, id ∉ step.call.ended) : g.Spares steps s id := by
  intro pre step post hsteps hends
  have hstep : step ∈ steps := hsteps ▸ List.mem_append_right _ List.mem_cons_self
  exact h step hstep hends.1

theorem run_append (pre post : List Step) (s : Store) :
    g.run (pre ++ post) s = g.run post (g.run pre s) := by
  induction pre generalizing s with
  | nil => rfl
  | cons step rest ih => exact ih _

/-- What every effect keeps that ends no task with the resource id of some slots, a session keeps
that ends none either. -/
theorem run_induction_of_spares {P : Store → Prop} (hs : s.Works) (h : P s)
    (hstep : ∀ {s : Store} {call : Call} {p : Except AccessError Answer × Store}, P s →
      call.Effect g s p →
        (∀ x, p.1 = .ok x → ∀ slot, q slot = true → slot.resourceId ∉ call.ended) → P p.2)
    {steps : List Step} (hq : ∀ slot, q slot = true → g.Spares steps s slot.resourceId) :
    P (g.run steps s) := by
  induction steps generalizing s with
  | nil => exact h
  | cons step rest ih =>
    have heffect := step.call.effect_perform (g := g) hs step.caller
    have hone := hstep h heffect fun x hx slot hslot hmem =>
      (spares_cons_iff.1 (hq slot hslot)).1 ⟨hmem, x, hx⟩
    exact ih (heffect.works hs) hone fun slot hslot => (spares_cons_iff.1 (hq slot hslot)).2

/-- The records of tasks that a session does not end stay in their places. -/
theorem growsTo_select_run (hs : s.Works) {steps : List Step}
    (hq : ∀ slot, q slot = true → g.Spares steps s slot.resourceId) :
    (s.ledger.select q).GrowsTo ((g.run steps s).ledger.select q) :=
  run_induction_of_spares (P := fun s' => (s.ledger.select q).GrowsTo (s'.ledger.select q)) hs
    (.refl _) (fun h heffect hends => h.trans (heffect.growsTo_select hends)) hq

theorem select_run_eq (hs : s.Works) {steps : List Step}
    (hq : ∀ slot, q slot = true → g.Spares steps s slot.resourceId)
    (hkind : ∀ slot, q slot = true → slot.kind ≠ .grant) :
    (g.run steps s).ledger.select q = s.ledger.select q :=
  run_induction_of_spares (P := fun s' => s'.ledger.select q = s.ledger.select q) hs rfl
    (fun h heffect hends => (heffect.select_eq hends hkind).trans h) hq

/-- A record is still there after a session that ends no task with its resource id, and
nothing has happened to it but that permissions were added to a grant. -/
theorem exists_mem_run (hs : s.Works) {steps : List Step} {a : Record} (ha : a ∈ s.ledger)
    (hspares : g.Spares steps s a.resourceId) :
    ∃ b ∈ (g.run steps s).ledger, a.GrowsTo b ∧ (a.kind ≠ .grant → b = a) := by
  -- the records of the slot of `a` are followed, of which `a` is one
  have hq : ∀ slot : Slot, (slot == a.slot) = true → g.Spares steps s slot.resourceId := by
    intro slot hslot
    rw [eq_of_beq hslot]
    exact hspares
  have hmem : a ∈ s.ledger.select fun slot => slot == a.slot :=
    List.mem_filter.2 ⟨ha, beq_self_eq_true a.slot⟩
  by_cases hkind : a.kind = .grant
  · obtain ⟨b, hb, hab⟩ := (growsTo_select_run hs hq).exists_mem hmem
    exact ⟨b, (List.mem_filter.1 hb).1, hab, fun hne => absurd hkind hne⟩
  · have heq := select_run_eq hs hq fun slot hslot => by rw [eq_of_beq hslot]; exact hkind
    rw [← heq] at hmem
    exact ⟨a, (List.mem_filter.1 hmem).1, .refl a, fun _ => rfl⟩

/-- **Nothing is lost but with the task it is about.**  Take any record that is there after
the first part of a session.  As long as no call of the second part succeeds in completing
or deleting a task with the resource id of the record, it stays; permissions are added to
it if it is a grant, and nothing else happens to it.  Records of such tasks also keep their
order, whichever of them are looked at, and those of them that are no grants remain the
same.  A call that ends no task drops no record and takes no permission away; one that
links nobody either, such as clearing an assignee or unlinking, changes nothing. -/
theorem survives_until_ended (hs : s.Works) (pre post : List Step) :
    (∀ a ∈ (g.run pre s).ledger, g.Spares post (g.run pre s) a.resourceId →
      ∃ b ∈ (g.run (pre ++ post) s).ledger, a.GrowsTo b ∧ (a.kind ≠ .grant → b = a)) ∧
      (∀ q : Slot → Bool,
        (∀ slot, q slot = true → g.Spares post (g.run pre s) slot.resourceId) →
          ((g.run pre s).ledger.select q).GrowsTo ((g.run (pre ++ post) s).ledger.select q) ∧
            ((∀ slot, q slot = true → slot.kind ≠ .grant) →
              (g.run (pre ++ post) s).ledger.select q = (g.run pre s).ledger.select q)) ∧
      ∀ (call : Call) (caller : Caller), call.ended = [] →
        s.ledger.GrowsTo (Action.run (call.perform g caller) s).2.ledger ∧
          (call.linked = [] → (Action.run (call.perform g caller) s).2.ledger = s.ledger) := by
  have hworks := works_run (g := g) hs pre
  refine ⟨?_, ?_, ?_⟩
  · intro a ha hspares
    rw [run_append]
    exact exists_mem_run hworks ha hspares
  · intro q hq
    rw [run_append]
    exact ⟨growsTo_select_run hworks hq, select_run_eq hworks hq⟩
  · intro call caller hended
    have heffect := call.effect_perform (g := g) hs caller
    exact ⟨heffect.growsTo hended, heffect.ledger_eq hended⟩

/-- A task gets an assignee. -/
def assigned : List Step := [⟨.system, .setAssignee ⟨"t1", .standalone⟩ (some "demo")⟩]

/-- It is given to somebody else and then to nobody, its first assignee is removed as a
candidate, and another task is completed. -/
def reassigned : List Step :=
  [⟨.system, .setAssignee ⟨"t1", .standalone⟩ (some "mary")⟩,
    ⟨.system, .setAssignee ⟨"t1", .standalone⟩ none⟩,
    ⟨.system, .deleteCandidateUser ⟨"t1", .standalone⟩ "demo"⟩,
    ⟨.system, .complete ⟨"t2", .standalone⟩⟩]

/-- The first assignee keeps the grant. -/
theorem survives_until_ended_reassigned :
    (Store.ofLedger revokedOnTask).Works ∧
      ∃ a ∈ (standard.run assigned (.ofLedger revokedOnTask)).ledger,
        a.userId = some "demo" ∧ a.kind = .grant ∧
          standard.Spares reassigned (standard.run assigned (.ofLedger revokedOnTask))
            a.resourceId ∧
          ∃ b ∈ (standard.run (assigned ++ reassigned) (.ofLedger revokedOnTask)).ledger,
            a.GrowsTo b := by
  have hs : (Store.ofLedger revokedOnTask).Works := ⟨rfl, rfl⟩
  have hmem : (.ofHolder (.numbered 0) .grant .task "t1" (.user "demo")
      (standard.grants.permissions .user) : Record) ∈
        (standard.run assigned (.ofLedger revokedOnTask)).ledger := by
    decide +kernel
  have hspares : standard.Spares reassigned (standard.run assigned (.ofLedger revokedOnTask))
      "t1" := spares_of_notMem_ended (by decide)
  obtain ⟨b, hb, hab, -⟩ :=
    (survives_until_ended (g := standard) hs assigned reassigned).1 _ hmem hspares
  exact ⟨hs, _, hmem, rfl, rfl, hspares, b, hb, hab⟩

end TaskGate

end TaskAccess
