import Mathlib.Data.List.Basic
import TaskAccess.Proofs.Asking
import TaskAccess.Proofs.Merging

/-!
# Grants only add, revocations only remove

What is permitted grows with what is granted, and shrinks with what is revoked: through the
masks, through the walk to the owner, and through the alternatives of a requirement.  Saving
a record merges its permissions into one of the two masks of those whom it is about.  So a
record that permits something makes no decision stricter, and a revocation makes none more
lenient, whatever they are about and whether their slot was held before or not.

## Main definitions

* `Ledger.PermitsAtMost` — a ledger grants at most, and revokes at least, what another does.
* `Store.AllowsAtMost` — what is allowed over a store is allowed over another one.

## Main results

* `Ledger.permitsAtMost_insert`, `Ledger.insert_permitsAtMost` — the ledger into which a
  record was merged.
* `Ledger.PermitsAtMost.permitted`, `Ledger.PermitsAtMost.met` — the walk to the owner, and
  the alternatives, are monotone.
* `Store.Works.allowsAtMost` — so are the decisions over a store in memory.
* `grants_only_add_and_revocations_only_remove` — **saving changes decisions in one direction
  only.**
-/

namespace TaskAccess

/-! ### Ledgers that permit more -/

/-- The ledger permits at most what the other one does: to every identity and on every target
it grants at most, and revokes at least, what the other one does. -/
structure Ledger.PermitsAtMost (l m : Ledger) : Prop where
  granted_subset : ∀ i t target,
    (l.effective i t target).granted ⊆ (m.effective i t target).granted
  revoked_subset : ∀ i t target,
    (m.effective i t target).revoked ⊆ (l.effective i t target).revoked

namespace Ledger

variable {l m : Ledger} {r : Record}

/-- Merging a record that permits something leaves a ledger that permits at least as much. -/
theorem permitsAtMost_insert (h : r.kind ≠ .revoke) : l.PermitsAtMost (l.insert r) where
  granted_subset i t target := by
    rw [Mask.subset_iff]
    intro bit hbit
    exact mem_granted_insert.2 (.inl hbit)
  revoked_subset i t target := by
    rw [Mask.subset_iff]
    intro bit hbit
    exact (mem_revoked_insert_of_ne_revoke h).1 hbit

/-- Merging a revocation leaves a ledger that permits at most as much. -/
theorem insert_permitsAtMost (h : r.kind = .revoke) : (l.insert r).PermitsAtMost l where
  granted_subset i t target := by
    rw [Mask.subset_iff]
    intro bit hbit
    rcases mem_granted_insert.1 hbit with hbit | ⟨⟨-, hkind⟩, -⟩
    · exact hbit
    · exact absurd h hkind
  revoked_subset i t target := by
    rw [Mask.subset_iff]
    intro bit hbit
    exact mem_revoked_insert.2 (.inl hbit)

namespace PermitsAtMost

theorem refl (l : Ledger) : l.PermitsAtMost l :=
  ⟨fun _ _ _ => Mask.subset_refl _, fun _ _ _ => Mask.subset_refl _⟩

theorem trans {n : Ledger} (h : l.PermitsAtMost m) (h' : m.PermitsAtMost n) :
    l.PermitsAtMost n where
  granted_subset i t target :=
    Mask.subset_trans (h.granted_subset i t target) (h'.granted_subset i t target)
  revoked_subset i t target :=
    Mask.subset_trans (h'.revoked_subset i t target) (h.revoked_subset i t target)

variable {i : Identity} {c : Check}

theorem holds (h : l.PermitsAtMost m) (hl : Holds l i c) : Holds m i c := by
  rw [holds_iff_granted] at hl ⊢
  intro bit hbit
  obtain ⟨hgranted, hrevoked⟩ := hl bit hbit
  constructor
  · exact Mask.subset_iff.1 (h.granted_subset i c.resourceType c.target) bit hgranted
  · intro hbit
    exact hrevoked (Mask.subset_iff.1 (h.revoked_subset i c.resourceType c.target) bit hbit)

/-- What is permitted stays permitted where more is, on the resource or on the same owner. -/
theorem permitted (h : l.PermitsAtMost m) (hl : Permitted l i c) : Permitted m i c := by
  induction hl with
  | held hc => exact .held (h.holds hc)
  | owner hnext _ ih => exact .owner hnext ih

/-- A requirement that is met stays met where more is permitted, by the same alternative. -/
theorem met (h : l.PermitsAtMost m) {q : Requirement} {caller : Caller}
    (hl : q.Met l caller) : q.Met m caller := by
  intro hne i hi
  obtain ⟨c, hc, hp⟩ := hl hne i hi
  exact ⟨c, hc, h.permitted hp⟩

end PermitsAtMost

theorem permitsAtMost_insertAll {rs : List Record} (h : ∀ r ∈ rs, r.kind ≠ .revoke) :
    l.PermitsAtMost (l.insertAll rs) := by
  induction rs generalizing l with
  | nil => exact .refl l
  | cons r rest ih =>
    have hfirst := permitsAtMost_insert (l := l) (h r List.mem_cons_self)
    exact hfirst.trans (ih fun a ha => h a (List.mem_cons_of_mem r ha))

end Ledger

/-! ### Stores that allow more -/

/-- What is allowed over the store is allowed over the other one: checks that succeed,
requirements that are met, operations on tasks that are permitted, and tasks of a list that
are kept as readable. -/
structure Store.AllowsAtMost (s s' : Store) : Prop where
  isAuthorized : ∀ caller c, s.isAuthorized caller c = .ok true →
    s'.isAuthorized caller c = .ok true
  decision : ∀ caller q, s.decision caller q = .ok .allowed → s'.decision caller q = .ok .allowed
  isPermitted : ∀ (g : TaskGate) caller task op, g.isPermitted s caller task op = .ok true →
    g.isPermitted s' caller task op = .ok true
  filterReadable : ∀ (g : TaskGate) caller tasks, ∃ kept kept',
    g.filterReadable s caller tasks = .ok kept ∧ g.filterReadable s' caller tasks = .ok kept' ∧
      kept.Sublist kept'

/-- A decision is yes exactly if it stands for what is true. -/
theorem Decision.ofBool_eq_allowed_iff {b : Bool} : Decision.ofBool b = .allowed ↔ b = true := by
  cases b <;> simp [ofBool]

/-- **The decisions over a store in memory grow with what its ledger permits.** -/
theorem Store.Works.allowsAtMost {s s' : Store} (hs : s.Works) (hs' : s'.Works)
    (h : s.ledger.PermitsAtMost s'.ledger) : s.AllowsAtMost s' where
  isAuthorized caller c hc := by
    cases hi : caller.checkedIdentity? with
    | none => exact Store.isAuthorized_of_checkedIdentity?_eq_none hi c
    | some i =>
      rw [hs.isAuthorized_eq hi, Except.ok.injEq, decide_eq_true_eq] at hc
      rw [hs'.isAuthorized_eq hi, decide_eq_true (h.permitted hc)]
  decision caller q hq := by
    rw [hs.decision_eq, Except.ok.injEq, Decision.ofBool_eq_allowed_iff, decide_eq_true_eq] at hq
    rw [hs'.decision_eq, decide_eq_true (h.met hq)]
    rfl
  isPermitted g caller task op hop := by
    rw [TaskGate.isPermitted_eq hs, Except.ok.injEq, decide_eq_true_eq] at hop
    rw [TaskGate.isPermitted_eq hs', decide_eq_true (h.met hop)]
  filterReadable g caller tasks := by
    refine ⟨_, _, TaskGate.filterReadable_eq hs caller tasks,
      TaskGate.filterReadable_eq hs' caller tasks, ?_⟩
    refine List.monotone_filter_right tasks fun task hmet => ?_
    rw [decide_eq_true_eq] at hmet ⊢
    exact h.met hmet

/-- **Grants only add, and revocations only remove.**  A well-formed record is saved in a store
in memory.  If it is a grant or a global record, then whatever was allowed before is allowed
afterwards, and filtering a list for the readable tasks keeps at least those that it kept.
If it is a revocation, then whatever is allowed afterwards was allowed before, and at most
those are kept. -/
theorem grants_only_add_and_revocations_only_remove {s : Store} (hs : s.Works) {r : Record}
    (hr : r.WellFormed) :
    ∃ stored s', Action.run (Store.save r) s = (.ok stored, s') ∧
      (r.kind = .global ∨ r.kind = .grant → s.AllowsAtMost s') ∧
      (r.kind = .revoke → s'.AllowsAtMost s) := by
  have hs' : Store.Works { s with ledger := s.ledger.insert r } := hs.withLedger _
  refine ⟨_, _, hs.run_save hr, fun hkind => ?_, fun hkind => ?_⟩
  · have hne : r.kind ≠ .revoke := by
      rcases hkind with hkind | hkind <;> rw [hkind] <;> decide
    exact hs.allowsAtMost hs' (Ledger.permitsAtMost_insert hne)
  · exact hs'.allowsAtMost hs (Ledger.insert_permitsAtMost hkind)

/-- Reading one task is forbidden to everybody. -/
def unreadable : Record :=
  .ofHolder ⟨2⟩ .revoke .task "t1" (.group wildcard) Permission.read.mask

/-- Whoever may read every task may read all but this one then. -/
theorem revocations_only_remove_unreadable :
    (Store.ofLedger TaskGate.readerOfEveryTask).Works ∧ unreadable.WellFormed ∧
      ∃ s', Action.run (Store.save unreadable) (.ofLedger TaskGate.readerOfEveryTask) =
          (.ok unreadable, s') ∧
        s'.AllowsAtMost (.ofLedger TaskGate.readerOfEveryTask) ∧
        TaskGate.standard.filterReadable (.ofLedger TaskGate.readerOfEveryTask)
          (.authenticated ⟨"demo", []⟩) [⟨"t1", .standalone⟩, ⟨"t2", .standalone⟩] =
            .ok [⟨"t1", .standalone⟩, ⟨"t2", .standalone⟩] ∧
        TaskGate.standard.filterReadable s' (.authenticated ⟨"demo", []⟩)
          [⟨"t1", .standalone⟩, ⟨"t2", .standalone⟩] = .ok [⟨"t2", .standalone⟩] := by
  have hs : (Store.ofLedger TaskGate.readerOfEveryTask).Works := ⟨rfl, rfl⟩
  have hr : unreadable.WellFormed := by decide +kernel
  obtain ⟨stored, s', hrun, -, hremoved⟩ := grants_only_add_and_revocations_only_remove hs hr
  have hsaved := hs.run_save hr
  have hs' : s' = { Store.ofLedger TaskGate.readerOfEveryTask with
      ledger := TaskGate.readerOfEveryTask.insert unreadable } :=
    congrArg Prod.snd (hrun.symm.trans hsaved)
  have hstored : stored = unreadable :=
    Except.ok.inj (congrArg Prod.fst (hrun.symm.trans hsaved))
  subst hs'
  refine ⟨hs, hr, _, hstored ▸ hrun, hremoved rfl, ?_, ?_⟩
  · rw [TaskGate.filterReadable_eq hs]
    decide +kernel
  · rw [TaskGate.filterReadable_eq (hs.withLedger _)]
    decide +kernel

end TaskAccess
