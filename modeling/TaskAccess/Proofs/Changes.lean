import Mathlib.Data.List.Infix
import TaskAccess.Proofs.Writing

/-!
# Changes to the records of a store

Four calls of a store change its records.  Each of them looks at the store first and
writes afterwards, so a call that fails has written nothing.  Here such a call is data,
and what has been done to a store is a list of changes.  What a change makes of the
records of a store in memory depends on the records alone.

## Main definitions

* `Store.Change`, `Store.Change.perform` — the calls, and the actions they are.
* `Store.Change.outcome` — the records after a change, refused or not.
* `Store.changed` — the store after a list of changes.

## Main results

* `Action.run_reading_bind_modifyLedger` — looking first and writing afterwards.
* `Store.eq_of_run_save_eq_error`, `Store.eq_of_run_update_eq_error` — a record that is
  refused leaves the store as it was.
* `Store.run_eq_fault_iff` — **the store in memory and the one over a database refuse the
  same records.**
* `Ledger.replace?_eq_some_iff` — a record is put in the place of the first with its id.
* `Store.Works.run_change` — **a change leaves its outcome.**
* `Store.Works.forall_changed_iff` — a list of changes keeps a property exactly if no change
  of it breaks the property.
-/

namespace TaskAccess

/-! ### Looking first and writing afterwards -/

namespace Action

variable {ε α β : Type}

/-- What is read decides whether anything is written. -/
theorem run_reading_bind_modifyLedger (f : Store → Except ε α) (write : α → Ledger → Ledger)
    (answer : α → β) (s : Store) :
    run (reading f >>= fun x => modifyLedger (write x) >>= fun _ => pure (answer x)) s =
      match f s with
      | .ok x => (.ok (answer x), { s with ledger := write x s.ledger })
      | .error e => (.error e, s) := by
  cases hf : f s with
  | error e =>
    have h : run (reading f) s = (.error e, s) := by rw [run_reading, hf]
    exact run_bind_of_eq_error h
  | ok x =>
    have h : run (reading f) s = (.ok x, s) := by rw [run_reading, hf]
    exact run_bind_of_eq_ok h

theorem eq_of_run_reading_bind_modifyLedger {f : Store → Except ε α}
    {write : α → Ledger → Ledger} {answer : α → β} {s s' : Store} {e : ε}
    (h : run (reading f >>= fun x => modifyLedger (write x) >>= fun _ => pure (answer x)) s =
      (.error e, s')) : s' = s := by
  rw [run_reading_bind_modifyLedger] at h
  cases hf : f s with
  | error e' => rw [hf] at h; exact (congrArg Prod.snd h).symm
  | ok x => rw [hf] at h; cases congrArg Prod.fst h

end Action

namespace Store

variable {s s' : Store} {r : Record} {e : StoreError}

/-- If the two stores are left alone by what fails there, then so is the store by a call that
is handed to them. -/
theorem eq_of_run_dispatch_eq_error {α : Type} {call : StoreCall} {a b : Action StoreError α}
    (ha : ∀ {e}, Action.run a s = (.error e, s') → s' = s)
    (hb : ∀ {e}, Action.run b s = (.error e, s') → s' = s)
    (h : Action.run (dispatch call a b) s = (.error e, s')) : s' = s := by
  rw [run_dispatch] at h
  cases haccept : s.accept call with
  | error e' =>
    rw [haccept] at h
    exact (congrArg Prod.snd h).symm
  | ok u =>
    rw [haccept] at h
    cases hbackend : s.backend with
    | memory =>
      rw [hbackend] at h
      exact ha h
    | unreachable =>
      rw [hbackend] at h
      exact hb h

theorem eq_of_run_ofExcept {α : Type} {x y : Except StoreError α}
    (h : Action.run (.ofExcept x) s = (y, s')) : s' = s := (congrArg Prod.snd h).symm

/-- A record that is not saved leaves the store as it was, whatever the reason. -/
theorem eq_of_run_save_eq_error (h : Action.run (save r) s = (.error e, s')) : s' = s :=
  eq_of_run_dispatch_eq_error Action.eq_of_run_reading_bind_modifyLedger eq_of_run_ofExcept h

/-- So does one that replaces no other. -/
theorem eq_of_run_update_eq_error (h : Action.run (update r) s = (.error e, s')) : s' = s :=
  eq_of_run_dispatch_eq_error Action.eq_of_run_reading_bind_modifyLedger eq_of_run_ofExcept h

/-- The store in memory looks at the record before it looks for the one to be replaced. -/
theorem run_updateInMemory (r : Record) (s : Store) :
    Action.run (updateInMemory r) s =
      match r.defect? with
      | some defect => (.error (.fault (.malformedRecord r.id defect)), s)
      | none =>
        match s.ledger.replace? r with
        | some l => (.ok r, { s with ledger := l })
        | none => (.error (.noSuchRecord r.id), s) := by
  unfold updateInMemory
  rw [Action.run_bind, Action.run_reading, refuseMalformed, Record.validate]
  cases r.defect? with
  | some defect => rfl
  | none => cases s.ledger.replace? r <;> rfl

/-- **Both stores refuse the same records**, for the same faults, be it when they are saved or
when they are to replace others; and they do so before anything else. -/
theorem run_eq_fault_iff {a : Action StoreError Record} (f : Fault) (s : Store)
    (ha : a ∈ [saveInMemory r, updateInMemory r, writeInDatabase r]) :
    Action.run a s = (.error (.fault f), s) ↔ r.validate = .error f := by
  simp only [List.mem_cons, List.not_mem_nil, or_false] at ha
  rw [Record.validate]
  cases hd : r.defect? with
  | some defect =>
    have hrun : Action.run a s = (.error (.fault (.malformedRecord r.id defect)), s) := by
      rcases ha with rfl | rfl | rfl
      · rw [run_saveInMemory, hd]
      · rw [run_updateInMemory, hd]
      · rw [run_writeInDatabase, hd]
    rw [hrun]
    constructor
    · intro h
      cases h
      rfl
    · intro h
      cases h
      rfl
  | none =>
    -- a record without a defect may fail to replace another one, but is not at fault
    refine iff_of_false (fun h => ?_) (fun h => by cases h)
    rcases ha with rfl | rfl | rfl
    · rw [run_saveInMemory, hd] at h
      cases congrArg Prod.fst h
    · rw [run_updateInMemory, hd] at h
      cases hreplace : s.ledger.replace? r with
      | some l =>
        rw [hreplace] at h
        cases congrArg Prod.fst h
      | none =>
        rw [hreplace] at h
        cases congrArg Prod.fst h
    · rw [run_writeInDatabase, hd] at h
      cases congrArg Prod.fst h

/-- A record that is to replace another one is looked at before a connection is asked for. -/
theorem run_update_eq (h : s.failing = []) (r : Record) :
    Action.run (update r) s =
      match r.defect? with
      | some defect => (.error (.fault (.malformedRecord r.id defect)), s)
      | none =>
        match s.connect with
        | .error e => (.error e, s)
        | .ok () =>
          match s.ledger.replace? r with
          | some l => (.ok r, { s with ledger := l })
          | none => (.error (.noSuchRecord r.id), s) := by
  rw [update, run_dispatch, accept_eq_ok h, connect, run_updateInMemory, run_writeInDatabase]
  cases s.backend with
  | memory => cases r.defect? <;> rfl
  | unreachable => cases r.defect? <;> rfl

end Store

/-! ### Replacing a record -/

/-- A record is put in the place of the first one with its id. -/
theorem Ledger.replace?_eq_some_iff {l l' : Ledger} {r : Record} :
    l.replace? r = some l' ↔
      ∃ pre a post, l = pre ++ a :: post ∧ a.id = r.id ∧ (∀ b ∈ pre, b.id ≠ r.id) ∧
        l' = pre ++ r :: post := by
  induction l generalizing l' with
  | nil => simp [replace?]
  | cons b rest ih =>
    by_cases hb : b.id = r.id
    · simp only [replace?, if_pos hb, Option.some.injEq]
      constructor
      · rintro rfl
        exact ⟨[], b, rest, rfl, hb, by simp, rfl⟩
      · rintro ⟨pre, a, post, hl, ha, hpre, rfl⟩
        -- nothing stands before the first record
        cases pre with
        | nil =>
          obtain ⟨rfl, rfl⟩ := List.cons.inj hl
          rfl
        | cons c pre =>
          obtain ⟨rfl, -⟩ := List.cons.inj hl
          exact absurd hb (hpre b List.mem_cons_self)
    · simp only [replace?, if_neg hb, Option.map_eq_some_iff, ih]
      constructor
      · rintro ⟨l', ⟨pre, a, post, rfl, ha, hpre, rfl⟩, rfl⟩
        refine ⟨b :: pre, a, post, rfl, ha, ?_, rfl⟩
        intro c hc
        rcases List.mem_cons.1 hc with rfl | hc
        · exact hb
        · exact hpre c hc
      · rintro ⟨pre, a, post, hl, ha, hpre, rfl⟩
        cases pre with
        | nil =>
          obtain ⟨rfl, -⟩ := List.cons.inj hl
          exact absurd ha hb
        | cons c pre =>
          obtain ⟨rfl, hrest⟩ := List.cons.inj hl
          exact ⟨pre ++ r :: post,
            ⟨pre, a, post, hrest, ha, fun d hd => hpre d (List.mem_cons_of_mem b hd), rfl⟩, rfl⟩

/-! ### Changes -/

namespace Store

/-- A call that changes the records of a store. -/
inductive Change
  | save (r : Record)
  | update (r : Record)
  | delete (id : Uuid)
  | deleteForResource (resourceId : String)
  deriving DecidableEq, Repr

namespace Change

/-- The action that a change is; what it answers is forgotten. -/
def perform : Change → Action StoreError Unit
  | save r => (fun _ => ()) <$> Store.save r
  | update r => (fun _ => ()) <$> Store.update r
  | delete id => (fun _ => ()) <$> Store.delete id
  | deleteForResource resourceId => (fun _ => ()) <$> Store.deleteForResource resourceId

/-- The records after a change.  A malformed record, and one to be put in the place of a
record that is not there, leave them as they are. -/
def outcome (l : Ledger) : Change → Ledger
  | save r => if r.WellFormed then l.insert r else l
  | update r => if r.WellFormed then (l.replace? r).getD l else l
  | delete id => l.eraseId id
  | deleteForResource resourceId => l.eraseResource resourceId

end Change

/-- The store after a list of changes, of which some may be refused. -/
def changed : List Change → Store → Store
  | [], s => s
  | c :: rest, s => changed rest (Action.run c.perform s).2

theorem changed_nil (s : Store) : changed [] s = s := rfl

theorem changed_cons (c : Change) (rest : List Change) (s : Store) :
    changed (c :: rest) s = changed rest (Action.run c.perform s).2 := rfl

namespace Works

variable {s : Store}

theorem run_update (hs : s.Works) {r : Record} (h : r.WellFormed) :
    Action.run (update r) s =
      match s.ledger.replace? r with
      | some l => (.ok r, { s with ledger := l })
      | none => (.error (.noSuchRecord r.id), s) := by
  rw [run_update_eq hs.none_failing, Record.defect?_eq_none_iff.2 h, hs.connect_eq]

theorem run_update_of_defect (hs : s.Works) {r : Record} {defect : RecordDefect}
    (h : r.defect? = some defect) :
    Action.run (update r) s = (.error (.fault (.malformedRecord r.id defect)), s) := by
  rw [run_update_eq hs.none_failing, h]

theorem run_delete (hs : s.Works) (id : Uuid) :
    Action.run (delete id) s =
      (.ok (s.ledger.any fun r => r.id == id), { s with ledger := s.ledger.eraseId id }) := by
  rw [delete, hs.run_dispatch]
  rfl

/-- **A change leaves its outcome.** -/
theorem run_change (hs : s.Works) (c : Change) :
    (Action.run c.perform s).2 = { s with ledger := c.outcome s.ledger } := by
  cases c with
  | save r =>
    rw [Change.perform, Change.outcome, Action.run_map]
    by_cases hr : r.WellFormed
    · rw [hs.run_save hr, if_pos hr]
    · obtain ⟨defect, hd⟩ := Record.exists_defect hr
      rw [hs.run_save_of_defect hd, if_neg hr]
  | update r =>
    rw [Change.perform, Change.outcome, Action.run_map]
    by_cases hr : r.WellFormed
    · rw [hs.run_update hr, if_pos hr]
      cases s.ledger.replace? r <;> rfl
    · obtain ⟨defect, hd⟩ := Record.exists_defect hr
      rw [hs.run_update_of_defect hd, if_neg hr]
  | delete id => rw [Change.perform, Change.outcome, Action.run_map, hs.run_delete]
  | deleteForResource resourceId =>
    rw [Change.perform, Change.outcome, Action.run_map, hs.run_deleteForResource,
      without_singleton]

theorem change (hs : s.Works) (c : Change) : (Action.run c.perform s).2.Works := by
  rw [hs.run_change]
  exact ⟨hs.in_memory, hs.none_failing⟩

theorem changed (hs : s.Works) (cs : List Change) : (Store.changed cs s).Works := by
  induction cs generalizing s with
  | nil => exact hs
  | cons c rest ih => exact ih (hs.change c)

/-- **A list of changes keeps a property exactly if no change of it breaks the property**, in
all the states that it leads through.  What it is for a change to break the property is said
of the records before the change. -/
theorem forall_changed_iff {P : Ledger → Prop} {Breaks : Ledger → Change → Prop}
    (hstep : ∀ l, P l → ∀ c : Change, P (c.outcome l) ↔ ¬ Breaks l c) (hs : s.Works)
    (h : P s.ledger) (cs : List Change) :
    (∀ pre, pre <+: cs → P (Store.changed pre s).ledger) ↔
      ∀ pre c post, cs = pre ++ c :: post → ¬ Breaks (Store.changed pre s).ledger c := by
  induction cs generalizing s with
  | nil =>
    refine iff_of_true ?_ fun pre c post hnil => ?_
    · intro pre hpre
      rw [List.prefix_nil.1 hpre]
      exact h
    · exact absurd hnil.symm (List.append_ne_nil_of_right_ne_nil pre (List.cons_ne_nil c post))
  | cons c rest ih =>
    have hfirst : P (Action.run c.perform s).2.ledger ↔ ¬ Breaks s.ledger c := by
      rw [hs.run_change]
      exact hstep s.ledger h c
    have hlater : (∀ pre, pre <+: c :: rest → P (Store.changed pre s).ledger) ↔
        ∀ pre, pre <+: rest → P (Store.changed (c :: pre) s).ledger := by
      constructor
      · intro hall pre hpre
        exact hall (c :: pre) (List.prefix_cons_inj c |>.2 hpre)
      · intro hall pre hpre
        rcases List.prefix_cons_iff.1 hpre with rfl | ⟨pre', rfl, hrest⟩
        · exact h
        · exact hall pre' hrest
    rw [hlater, forall_append_cons_iff, changed_nil, ← hfirst]
    simp only [changed_cons]
    constructor
    · intro hall
      have hnext := hall [] List.nil_prefix
      exact ⟨hnext, (ih (hs.change c) hnext).1 hall⟩
    · rintro ⟨hnext, hrest⟩
      exact (ih (hs.change c) hnext).2 hrest

end Works

end Store

end TaskAccess
