import TaskAccess.Proofs.OnePerSlot
import TaskAccess.Proofs.Saving
import TaskAccess.Proofs.Survival

/-!
# Only well-formed records are stored

Whether a record is well-formed is decided by its slot.  Merging a record into a ledger fills no
slot but that of the record, replacing a record puts a checked one in its place, dropping
records adds nothing, and the grants of a gate are on tasks with an id and for holders with
one.  So whatever happens to a store that starts out empty, every record in it is well-formed.
And nothing else is refused when a record is saved; its shape is looked at before the records
are, and before a connection is asked for.

## Main definitions

* `Ledger.AllWellFormed` — every record of the ledger is well-formed.
* `Store.Event`, `Store.after` — what can happen to a store, and the store after a list of that.

## Main results

* `Record.wellFormed_iff_exists_holder` — the well-formed records are those for one holder.
* `Ledger.AllWellFormed.insert`, `Store.Change.allWellFormed_outcome`,
  `TaskGate.Call.Effect.allWellFormed` — nothing that happens to a store breaks this.
* `Store.only_wellFormed_stored` — **well-formed records are stored, and no others.**
-/

namespace TaskAccess

/-! ### The shape of a record -/

namespace Record

/-- The well-formed records are those that name one holder with an id, on a resource with an
id; a global one is for everybody. -/
theorem wellFormed_iff_exists_holder {r : Record} :
    r.WellFormed ↔
      ∃ holder : Holder, holder.id ≠ "" ∧ r.userId = holder.userId? ∧
        r.groupId = holder.groupId? ∧ r.resourceId ≠ "" ∧
          (r.kind = .global → holder = .everybody) := by
  constructor
  · intro h
    have hone := h.one_holder
    have huser := h.user_ne_empty
    have hgroup := h.group_ne_empty
    have hglobal := h.global_for_everybody
    cases hu : r.userId with
    | none =>
      cases hg : r.groupId with
      | none => simp [hu, hg] at hone
      | some id =>
        -- a group is not everybody, so that the record is not global
        rw [hg] at hgroup
        rw [hu] at hglobal
        refine ⟨.group id, fun hid => hgroup (congrArg some hid), rfl, rfl, h.resource_ne_empty, ?_⟩
        intro hkind
        cases hglobal hkind
    | some id =>
      cases hg : r.groupId with
      | some id' => simp [hu, hg] at hone
      | none =>
        rw [hu] at huser hglobal
        refine ⟨.user id, fun hid => huser (congrArg some hid), rfl, rfl, h.resource_ne_empty, ?_⟩
        intro hkind
        rw [Option.some.inj (hglobal hkind)]
        rfl
  · rintro ⟨⟨kind, id⟩, hid, hu, hg, hresource, hglobal⟩
    refine ⟨?_, ?_, ?_, ?_, hresource⟩
    · cases kind <;> simp [hu, hg, Holder.userId?, Holder.groupId?]
    · intro hkind
      rw [hu, hglobal hkind]
      rfl
    · cases kind with
      | user => simpa [hu, Holder.userId?] using hid
      | group => simp [hu, Holder.userId?]
    · cases kind with
      | user => simp [hg, Holder.groupId?]
      | group => simpa [hg, Holder.groupId?] using hid

/-- The shape of a record is decided by its slot. -/
theorem wellFormed_congr {a b : Record} (h : a.slot = b.slot) : a.WellFormed ↔ b.WellFormed := by
  obtain ⟨hkind, -, hresource, huser, hgroup⟩ := Slot.mk.inj h
  rw [wellFormed_iff_exists_holder, wellFormed_iff_exists_holder, hkind, hresource, huser, hgroup]

end Record

/-! ### Ledgers of well-formed records -/

namespace Ledger

/-- Every record of the ledger is well-formed. -/
def AllWellFormed (l : Ledger) : Prop := ∀ r ∈ l, r.WellFormed

namespace AllWellFormed

variable {l : Ledger} {r : Record}

/-- A record is merged into its slot, whose record had that shape already. -/
theorem insert (h : l.AllWellFormed) (hr : r.WellFormed) : AllWellFormed (l.insert r) := by
  intro b hb
  have hslot : b.slot ∈ (l.insert r).slots := mem_slots_iff.2 ⟨b, hb, rfl⟩
  rw [slots_insert, Finset.mem_insert, mem_slots_iff] at hslot
  rcases hslot with hslot | ⟨a, ha, hslot⟩
  · exact (Record.wellFormed_congr hslot).2 hr
  · exact (Record.wellFormed_congr hslot).1 (h a ha)

theorem insertAll (h : l.AllWellFormed) {rs : List Record} (hrs : AllWellFormed rs) :
    AllWellFormed (l.insertAll rs) := by
  induction rs generalizing l with
  | nil => exact h
  | cons r rest ih =>
    obtain ⟨hr, hrest⟩ := List.forall_mem_cons.1 hrs
    exact ih (h.insert hr) hrest

/-- All fields of a record may change when it is replaced, but not to a bad shape. -/
theorem replace? (h : l.AllWellFormed) (hr : r.WellFormed) {l' : Ledger}
    (hreplace : l.replace? r = some l') : l'.AllWellFormed := by
  obtain ⟨pre, a, post, rfl, -, -, rfl⟩ := replace?_eq_some_iff.1 hreplace
  intro b hb
  rcases List.mem_append.1 hb with hb | hb
  · exact h b (List.mem_append_left _ hb)
  · rcases List.mem_cons.1 hb with rfl | hb
    · exact hr
    · exact h b (List.mem_append_right _ (List.mem_cons_of_mem a hb))

theorem filter (h : l.AllWellFormed) (p : Record → Bool) : AllWellFormed (l.filter p) := by
  intro b hb
  exact h b (List.mem_filter.1 hb).1

end AllWellFormed

end Ledger

/-! ### What can happen to a store -/

/-- A change keeps the records well-formed: others are refused. -/
theorem Store.Change.allWellFormed_outcome {l : Ledger} (h : l.AllWellFormed) (c : Change) :
    (c.outcome l).AllWellFormed := by
  cases c with
  | save r =>
    by_cases hr : r.WellFormed
    · rw [outcome, if_pos hr]
      exact h.insert hr
    · rwa [outcome, if_neg hr]
  | update r =>
    by_cases hr : r.WellFormed
    · rw [outcome, if_pos hr]
      cases hreplace : l.replace? r with
      | none => exact h
      | some l' => exact h.replace? hr hreplace
    · rwa [outcome, if_neg hr]
  | delete id => exact h.filter _
  | deleteForResource resourceId => exact h.filter _

/-- A call of a gate keeps the records well-formed: links are granted to somebody, on tasks
with an id. -/
theorem TaskGate.Call.Effect.allWellFormed {g : TaskGate} {s : Store} {call : Call}
    {p : Except AccessError Answer × Store} (h : call.Effect g s p)
    (hs : s.ledger.AllWellFormed) : p.2.ledger.AllWellFormed := by
  cases h with
  | failed e n => exact hs
  | succeeded x hproper =>
    have hgrants : Ledger.AllWellFormed (g.grants.grantsFor s.minted call.linked) := by
      intro r hr
      obtain ⟨q, hq, n, rfl⟩ := DefaultGrants.exists_of_mem_grantsFor hr
      obtain ⟨-, hpresent⟩ := isEligible_of_mem_linked hq
      exact DefaultGrants.wellFormed_grantFor hpresent (hproper.task_ne_empty q hq)
    have hlinked : (s.withGrants g.grants call.linked).ledger.AllWellFormed := by
      rw [Store.ledger_withGrants]
      exact hs.insertAll hgrants
    exact hlinked.filter _

namespace Store

/-- What happens to a store: its records are changed, or a gate is called on somebody's
behalf. -/
inductive Event
  | changed (c : Change)
  | called (g : TaskGate) (step : TaskGate.Step)
  deriving DecidableEq, Repr

/-- The store that is left, whether what happened was refused or not. -/
def Event.leaves (s : Store) : Event → Store
  | changed c => (Action.run c.perform s).2
  | called g step => (Action.run (step.call.perform g step.caller) s).2

/-- The store after a list of events. -/
def after : List Event → Store → Store
  | [], s => s
  | e :: rest, s => after rest (e.leaves s)

variable {s : Store}

theorem Works.leaves (hs : s.Works) (e : Event) : (e.leaves s).Works := by
  cases e with
  | changed c => exact hs.change c
  | called g step => exact (step.call.effect_perform (g := g) hs step.caller).works hs

theorem Event.allWellFormed_leaves (hs : s.Works) (h : s.ledger.AllWellFormed) (e : Event) :
    (e.leaves s).ledger.AllWellFormed := by
  cases e with
  | changed c =>
    have hout : (Action.run c.perform s).2.ledger = c.outcome s.ledger := by rw [hs.run_change]
    show (Action.run c.perform s).2.ledger.AllWellFormed
    rw [hout]
    exact c.allWellFormed_outcome h
  | called g step => exact (step.call.effect_perform (g := g) hs step.caller).allWellFormed h

/-- Whatever happens to a store of well-formed records leaves one. -/
theorem allWellFormed_after (hs : s.Works) (h : s.ledger.AllWellFormed) (events : List Event) :
    (after events s).ledger.AllWellFormed := by
  induction events generalizing s with
  | nil => exact h
  | cons e rest ih => exact ih (hs.leaves e) (e.allWellFormed_leaves hs h)

/-! ### What is refused -/

variable {r : Record}

/-- Saving refuses malformed records, and no others. -/
theorem Works.exists_run_save_eq_error_iff (hs : s.Works) :
    (∃ e s', Action.run (save r) s = (.error e, s')) ↔ ¬ r.WellFormed := by
  constructor
  · rintro ⟨e, s', h⟩ hr
    rw [hs.run_save hr] at h
    cases congrArg Prod.fst h
  · intro hr
    obtain ⟨defect, hd⟩ := Record.exists_defect hr
    exact ⟨_, _, hs.run_save_of_defect hd⟩

/-- A well-formed record replaces none if none has its id. -/
theorem Works.run_update_of_forall_id_ne (hs : s.Works) (hr : r.WellFormed)
    (h : ∀ a ∈ s.ledger, a.id ≠ r.id) :
    Action.run (update r) s = (.error (.noSuchRecord r.id), s) := by
  have hnone : s.ledger.replace? r = none := by
    rw [Ledger.replace?_eq_none_iff, List.find?_eq_none]
    simpa using h
  rw [hs.run_update hr, hnone]

/-- Updating refuses malformed records, and those whose id no record has. -/
theorem Works.exists_run_update_eq_error_iff (hs : s.Works) :
    (∃ e s', Action.run (update r) s = (.error e, s')) ↔
      ¬ r.WellFormed ∨ ∀ a ∈ s.ledger, a.id ≠ r.id := by
  constructor
  · rintro ⟨e, s', h⟩
    by_cases hr : r.WellFormed
    · right
      intro a ha hid
      rw [hs.run_update hr] at h
      cases hreplace : s.ledger.replace? r with
      | none =>
        rw [Ledger.replace?_eq_none_iff, List.find?_eq_none] at hreplace
        exact hreplace a ha (beq_iff_eq.2 hid)
      | some l =>
        rw [hreplace] at h
        cases congrArg Prod.fst h
    · exact .inl hr
  · intro h
    by_cases hr : r.WellFormed
    · exact ⟨_, _, hs.run_update_of_forall_id_ne hr (h.resolve_left fun hnot => hnot hr)⟩
    · obtain ⟨defect, hd⟩ := Record.exists_defect hr
      exact ⟨_, _, hs.run_update_of_defect hd⟩

/-- **Well-formed records are stored, and no others.**  A well-formed record names one user or one
group, by an id, on a resource with an id; and a global one names the user who is everybody.
Whatever happens to an empty store in memory, by its own calls and by those of any gates, every
record in it is well-formed.  Saving refuses a record only if it is malformed; updating, only if
it is malformed or no record has its id, and it is the defect that is reported of a record of
which both is true.  Wherever the records of a store are, saving and updating refuse the same
malformed records, each for its first defect; and where there is no connection, it is asked for
only after that. -/
theorem only_wellFormed_stored :
    (∀ r : Record, r.WellFormed ↔
      ∃ holder : Holder, holder.id ≠ "" ∧ r.userId = holder.userId? ∧
        r.groupId = holder.groupId? ∧ r.resourceId ≠ "" ∧
          (r.kind = .global → holder = .everybody)) ∧
      (∀ events : List Event, ∀ r ∈ (after events (.ofLedger [])).ledger, r.WellFormed) ∧
      (∀ s : Store, s.Works → ∀ r : Record,
        ((∃ e s', Action.run (save r) s = (.error e, s')) ↔ ¬ r.WellFormed) ∧
          ((∃ e s', Action.run (update r) s = (.error e, s')) ↔
            ¬ r.WellFormed ∨ ∀ a ∈ s.ledger, a.id ≠ r.id) ∧
          (r.WellFormed → (∀ a ∈ s.ledger, a.id ≠ r.id) →
            Action.run (update r) s = (.error (.noSuchRecord r.id), s))) ∧
      ∀ s : Store, s.failing = [] → ∀ r : Record,
        (¬ r.WellFormed → ∃ defect, r.defect? = some defect ∧
          Action.run (save r) s = (.error (.fault (.malformedRecord r.id defect)), s) ∧
          Action.run (update r) s = (.error (.fault (.malformedRecord r.id defect)), s)) ∧
        (s.backend = .unreachable → r.WellFormed →
          Action.run (save r) s = (.error .noConnection, s) ∧
            Action.run (update r) s = (.error .noConnection, s)) := by
  refine ⟨fun r => Record.wellFormed_iff_exists_holder, ?_, ?_, ?_⟩
  · intro events
    exact allWellFormed_after ⟨rfl, rfl⟩ (by simp [Ledger.AllWellFormed, ofLedger]) events
  · intro s hs r
    exact ⟨hs.exists_run_save_eq_error_iff, hs.exists_run_update_eq_error_iff,
      hs.run_update_of_forall_id_ne⟩
  · intro s hfailing r
    constructor
    · intro hr
      obtain ⟨defect, hd⟩ := Record.exists_defect hr
      refine ⟨defect, hd, ?_, ?_⟩
      · rw [run_save_eq hfailing, hd]
      · rw [run_update_eq hfailing, hd]
    · intro hbackend hr
      have hconnect : s.connect = .error .noConnection := by
        rw [connect, hbackend]
        rfl
      constructor
      · rw [run_save_eq hfailing, Record.defect?_eq_none_iff.2 hr, hconnect]
      · rw [run_update_eq hfailing, Record.defect?_eq_none_iff.2 hr, hconnect]

/-- A record that would permit reading a task to everybody, but names one user. -/
def globalForOneUser : Record :=
  { Record.forEverybody ⟨8⟩ .task "t1" Permission.read.mask with userId := some "demo" }

/-- A grant is made a global record by an update, a malformed one is not saved, and of two tasks
the one without an id is not assigned. -/
def madeGlobal : List Event :=
  [.changed (.save (.ofHolder ⟨1⟩ .grant .task "t1" (.user "demo") Permission.read.mask)),
    .changed (.update (.forEverybody ⟨1⟩ .task "t1" Permission.read.mask)),
    .changed (.save globalForOneUser),
    .called .standard ⟨.system, .setAssignee ⟨"", .standalone⟩ (some "demo")⟩,
    .called .standard ⟨.system, .setAssignee ⟨"t2", .standalone⟩ (some "demo")⟩]

/-- Two records are left, of which none is malformed; and the malformed one is refused for naming
somebody, although no record has its id, and although there may be no connection. -/
theorem only_wellFormed_stored_madeGlobal :
    ((after madeGlobal (.ofLedger [])).ledger.map Record.slot =
        [⟨.global, .task, "t1", some wildcard, none⟩, ⟨.grant, .task, "t2", some "demo", none⟩] ∧
      ∀ r ∈ (after madeGlobal (.ofLedger [])).ledger, r.WellFormed) ∧
      (ofLedger []).Works ∧ ¬ globalForOneUser.WellFormed ∧
      (∀ a ∈ (ofLedger []).ledger, a.id ≠ globalForOneUser.id) ∧
      Action.run (update globalForOneUser) (.ofLedger []) =
        (.error (.fault (.malformedRecord ⟨8⟩ .globalForSomebody)), .ofLedger []) ∧
      unreachable.failing = [] ∧
      Action.run (update globalForOneUser) unreachable =
        (.error (.fault (.malformedRecord ⟨8⟩ .globalForSomebody)), unreachable) := by
  obtain ⟨-, hafter, -, hrefused⟩ := only_wellFormed_stored
  have hmalformed : ¬ globalForOneUser.WellFormed := by decide
  have hdefect : ∀ defect, globalForOneUser.defect? = some defect →
      defect = .globalForSomebody := by
    intro defect hd
    exact (Option.some.inj hd).symm
  have hupdate : ∀ s : Store, s.failing = [] → Action.run (update globalForOneUser) s =
      (.error (.fault (.malformedRecord ⟨8⟩ .globalForSomebody)), s) := by
    intro s hfailing
    obtain ⟨defect, hd, -, hrun⟩ := (hrefused s hfailing globalForOneUser).1 hmalformed
    rw [hrun, hdefect defect hd]
    rfl
  refine ⟨⟨?_, hafter madeGlobal⟩, ⟨rfl, rfl⟩, hmalformed, by simp [ofLedger], hupdate _ rfl, rfl,
    hupdate _ rfl⟩
  decide +kernel

end Store

end TaskAccess
