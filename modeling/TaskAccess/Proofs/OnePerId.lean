import Mathlib.Data.List.Nodup
import TaskAccess.Proofs.Changes

/-!
# One record for each id

Records are addressed in two ways: saving looks for the slot of a record, updating and
deleting look for its id.  Updating keeps the id of what it replaces, and dropping records
brings in no id.  Only saving can do that: the record that it appends comes with an id of
its own, and nothing is done to see whether another record has it.  So a store in memory
has one record for each id as long as no record is appended under an id in use, and for
that long updating and deleting concern one record.

## Main definitions

* `Store.Change.ReusesId` — a change appends a record under an id in use.

## Main results

* `Ledger.map_id_insert`, `Ledger.map_id_replace?` — the ids after a record was merged, and
  after one was replaced.
* `Ledger.OnePerId.eraseId_eq`, `Ledger.OnePerId.replace?_eq` — the record that an id names.
* `Store.Change.onePerId_outcome_iff` — a change keeps one record for each id exactly if it
  does not reuse one.
* `Store.onePerId_changed_iff` — **so does a list of changes, from the empty store on.**
* `Store.not_onePerId_changed_of_save` — a record that is saved under an id in use.
-/

namespace TaskAccess

/-! ### The ids of a ledger -/

namespace Ledger

/-- Merging adds the id of the record, at the end, if its slot was not held. -/
theorem map_id_insert (l : Ledger) (r : Record) :
    (l.insert r).map Record.id
      = if r.slot ∈ l.map Record.slot then l.map Record.id else l.map Record.id ++ [r.id] := by
  induction l with
  | nil => simp [insert]
  | cons a rest ih =>
    by_cases h : a.slot = r.slot
    · simp [insert, h]
    · have hne : ¬ r.slot = a.slot := fun e => h e.symm
      simp only [insert, if_neg h, List.map_cons, ih, List.mem_cons, hne, false_or]
      split <;> simp

/-- Replacing a record changes no id. -/
theorem map_id_replace? {l l' : Ledger} {r : Record} (h : l.replace? r = some l') :
    l'.map Record.id = l.map Record.id := by
  obtain ⟨pre, a, post, rfl, ha, -, rfl⟩ := replace?_eq_some_iff.1 h
  simp only [List.map_append, List.map_cons, ha]

theorem OnePerId.filter {l : Ledger} (h : l.OnePerId) (p : Record → Bool) :
    OnePerId (l.filter p) :=
  List.Nodup.sublist (List.filter_sublist.map Record.id) h

/-! ### The record that an id names -/

section OnePerId

variable {pre post : Ledger} {a : Record}

/-- With one record for each id, no other record has the id of a given one. -/
theorem OnePerId.id_ne (h : OnePerId (pre ++ a :: post)) : ∀ b ∈ pre ++ post, b.id ≠ a.id := by
  rw [OnePerId, List.map_append, List.map_cons, List.nodup_middle, List.nodup_cons,
    ← List.map_append] at h
  intro b hb hid
  exact h.1 (hid ▸ List.mem_map_of_mem hb)

/-- With one record for each id, dropping an id drops the record that it names. -/
theorem OnePerId.eraseId_eq (h : OnePerId (pre ++ a :: post)) :
    eraseId (pre ++ a :: post) a.id = pre ++ post := by
  have hothers : ∀ b ∈ pre ++ post, (b.id != a.id) = true := by
    intro b hb
    simpa using h.id_ne b hb
  have hself : (a.id != a.id) = false := by simp
  rw [eraseId, List.filter_append, List.filter_cons, hself, if_neg Bool.false_ne_true,
    ← List.filter_append]
  exact List.filter_eq_self.2 hothers

/-- With one record for each id, a record is put in the place of the one that its id names. -/
theorem OnePerId.replace?_eq (h : OnePerId (pre ++ a :: post)) {r : Record} (hr : r.id = a.id) :
    replace? (pre ++ a :: post) r = some (pre ++ r :: post) := by
  refine replace?_eq_some_iff.2 ⟨pre, a, post, rfl, hr.symm, ?_, rfl⟩
  intro b hb
  rw [hr]
  exact h.id_ne b (List.mem_append_left post hb)

end OnePerId

end Ledger

/-! ### Changes that reuse an id -/

namespace Store

/-- The change appends a record under an id in use: it saves a well-formed record whose slot
is not held, and some record has its id. -/
def Change.ReusesId (l : Ledger) : Change → Prop
  | save r => r.WellFormed ∧ r.slot ∉ l.map Record.slot ∧ r.id ∈ l.map Record.id
  | update _ | delete _ | deleteForResource _ => False

/-- **A change keeps one record for each id exactly if it does not reuse one.** -/
theorem Change.onePerId_outcome_iff {l : Ledger} (h : l.OnePerId) (c : Change) :
    (c.outcome l).OnePerId ↔ ¬ c.ReusesId l := by
  cases c with
  | save r =>
    rw [outcome, ReusesId]
    by_cases hr : r.WellFormed
    · rw [if_pos hr, Ledger.OnePerId, Ledger.map_id_insert]
      by_cases hslot : r.slot ∈ l.map Record.slot
      · rw [if_pos hslot]
        exact iff_of_true h fun hc => hc.2.1 hslot
      · -- the id of the record comes last, behind those that are there already
        have hlast : (l.map Record.id ++ [r.id]).Nodup ↔ r.id ∉ l.map Record.id := by
          rw [List.nodup_middle, List.append_nil, List.nodup_cons]
          exact and_iff_left h
        rw [if_neg hslot, hlast]
        constructor
        · intro hid hc
          exact hid hc.2.2
        · intro hc hid
          exact hc ⟨hr, hslot, hid⟩
    · rw [if_neg hr]
      exact iff_of_true h fun hc => hr hc.1
  | update r =>
    refine iff_of_true ?_ not_false
    rw [outcome]
    split
    · cases hl : l.replace? r with
      | none => exact h
      | some l' =>
        rw [Option.getD_some, Ledger.OnePerId, Ledger.map_id_replace? hl]
        exact h
    · exact h
  | delete id => exact iff_of_true (h.filter _) not_false
  | deleteForResource resourceId => exact iff_of_true (h.filter _) not_false

/-! ### Lists of changes -/

namespace Works

variable {s : Store} {pre post : Ledger} {a : Record}

/-- With one record for each id, deleting an id deletes the record that it names. -/
theorem run_delete_of_onePerId (hs : s.Works) (hl : s.ledger = pre ++ a :: post)
    (h : s.ledger.OnePerId) :
    Action.run (delete a.id) s = (.ok true, { s with ledger := pre ++ post }) := by
  rw [hl] at h
  have hfound : ((pre ++ a :: post).any fun b => b.id == a.id) = true := by simp
  rw [hs.run_delete, hl, hfound, h.eraseId_eq]

/-- With one record for each id, an update replaces the record that the id names. -/
theorem run_update_of_onePerId (hs : s.Works) (hl : s.ledger = pre ++ a :: post)
    (h : s.ledger.OnePerId) {r : Record} (hr : r.WellFormed) (hid : r.id = a.id) :
    Action.run (update r) s = (.ok r, { s with ledger := pre ++ r :: post }) := by
  rw [hl] at h
  rw [hs.run_update hr, hl, h.replace?_eq hid]

end Works

/-- **A store in memory has one record for each id as long as no record is appended under an
id in use.**  From the empty store on, all states that a list of changes leads through have
one record for each id exactly if no change of the list reuses one, whether the changes are
refused or not.  In every such state deleting an id deletes the one record that it names, or
none; and an update replaces the one record that its id names. -/
theorem onePerId_changed_iff (cs : List Change) :
    ((∀ pre, pre <+: cs → (changed pre (.ofLedger [])).ledger.OnePerId) ↔
        ∀ pre c post, cs = pre ++ c :: post →
          ¬ c.ReusesId (changed pre (.ofLedger [])).ledger) ∧
      ∀ s, s = changed cs (.ofLedger []) → s.ledger.OnePerId →
        (∀ id, id ∉ s.ledger.map Record.id → Action.run (delete id) s = (.ok false, s)) ∧
          ∀ pre a post, s.ledger = pre ++ a :: post →
            Action.run (delete a.id) s = (.ok true, { s with ledger := pre ++ post }) ∧
              ∀ r : Record, r.WellFormed → r.id = a.id →
                Action.run (update r) s = (.ok r, { s with ledger := pre ++ r :: post }) := by
  have hempty : (Store.ofLedger []).Works := ⟨rfl, rfl⟩
  have hstep : ∀ l : Ledger, l.OnePerId → ∀ c : Change,
      (c.outcome l).OnePerId ↔ ¬ c.ReusesId l := fun _ h c => c.onePerId_outcome_iff h
  constructor
  · exact Works.forall_changed_iff hstep hempty List.nodup_nil cs
  · rintro s rfl h
    have hs := hempty.changed cs
    refine ⟨fun id hid => ?_, fun pre a post hl => ?_⟩
    · -- nothing is found, and nothing is dropped
      have hne : ∀ r ∈ (changed cs (.ofLedger [])).ledger, r.id ≠ id := fun r hr he =>
        hid (he ▸ List.mem_map_of_mem hr)
      have hfound : ((changed cs (.ofLedger [])).ledger.any fun r => r.id == id) = false := by
        simpa using hne
      have hkept : (changed cs (.ofLedger [])).ledger.eraseId id
          = (changed cs (.ofLedger [])).ledger :=
        List.filter_eq_self.2 fun r hr => by simpa using hne r hr
      rw [hs.run_delete, hfound, hkept]
    · exact ⟨hs.run_delete_of_onePerId hl h, fun r hr hid => hs.run_update_of_onePerId hl h hr hid⟩

/-- Two users are granted a task, and then the grant of the first one is moved to another
task. -/
def updatedToAnotherTask : List Change :=
  [.save (.ofHolder ⟨1⟩ .grant .task "t1" (.user "demo") Permission.read.mask),
    .save (.ofHolder ⟨2⟩ .grant .task "t1" (.user "mary") Permission.read.mask),
    .update (.ofHolder ⟨1⟩ .grant .task "t2" (.user "demo") Permission.update.mask)]

/-- Its id still names one record, and deleting it leaves the grant of the other user. -/
theorem onePerId_changed_updatedToAnotherTask :
    (changed updatedToAnotherTask (.ofLedger [])).ledger.OnePerId ∧
      ∃ s, Action.run (delete ⟨1⟩) (changed updatedToAnotherTask (.ofLedger [])) =
          (.ok true, s) ∧
        s.ledger =
          [.ofHolder ⟨2⟩ .grant .task "t1" (.user "mary") Permission.read.mask] := by
  have hkept : ∀ pre c post, updatedToAnotherTask = pre ++ c :: post →
      ¬ c.ReusesId (changed pre (.ofLedger [])).ledger := by
    -- at the two saves the ids in use are looked at; an update reuses none
    simp only [updatedToAnotherTask, forall_append_cons_iff]
    refine ⟨fun h => ?_, fun h => ?_, fun h => h, fun pre c post hnil => ?_⟩
    · exact absurd h.2.2 (by decide)
    · exact absurd h.2.2 (by decide +kernel)
    · exact absurd hnil.symm (List.append_ne_nil_of_right_ne_nil pre (List.cons_ne_nil c post))
  have hone := (onePerId_changed_iff updatedToAnotherTask).1.2 hkept updatedToAnotherTask
    (List.prefix_refl _)
  have hledger : (changed updatedToAnotherTask (.ofLedger [])).ledger =
      [] ++ .ofHolder ⟨1⟩ .grant .task "t2" (.user "demo") Permission.update.mask ::
        [.ofHolder ⟨2⟩ .grant .task "t1" (.user "mary") Permission.read.mask] := by
    decide +kernel
  have hdeleted := ((onePerId_changed_iff updatedToAnotherTask).2 _ rfl hone).2 _ _ _ hledger
  exact ⟨hone, _, hdeleted.1, rfl⟩

/-- A user is granted a task, and then the record is saved again for another task. -/
def savedUnderOneId : List Change :=
  [.save (.ofHolder ⟨1⟩ .grant .task "t1" (.user "demo") Permission.read.mask),
    .save (.ofHolder ⟨1⟩ .grant .task "t2" (.user "demo") Permission.read.mask)]

/-- Two records have the id then, and deleting it drops both of them. -/
theorem not_onePerId_changed_of_save :
    ¬ (changed savedUnderOneId (.ofLedger [])).ledger.OnePerId ∧
      (changed savedUnderOneId (.ofLedger [])).ledger.length = 2 ∧
      (changed (savedUnderOneId ++ [.delete ⟨1⟩]) (.ofLedger [])).ledger = [] := by
  decide +kernel

end Store

end TaskAccess
