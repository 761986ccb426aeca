import Mathlib.Data.List.Nodup
import TaskAccess.Proofs.Changes

/-!
# One record for each slot

Saving merges a record into its slot, so that no slot is ever filled twice by it; and
dropping records fills no slot.  Only an update can do that: it finds the record to
replace by its id, and does not look whether the slot of the new record is held by
another one.  So a store in memory has one record for each slot as long as no update moves
a record into a slot that is held.

## Main definitions

* `Store.Change.Collides` — a change moves a record into a slot that is held.

## Main results

* `Ledger.onePerSlot_replace_iff` — what replacing one record does to the slots.
* `Store.Change.onePerSlot_outcome_iff` — a change keeps one record for each slot exactly
  if it does not collide.
* `Store.onePerSlot_changed_iff` — **so does a list of changes, from the empty store on.**
* `Store.not_onePerSlot_changed_of_update` — an update that fills a slot twice.
-/

namespace TaskAccess

/-! ### Slots of a ledger in which one record is replaced -/

namespace Ledger

theorem replace?_eq_none_iff {l : Ledger} {r : Record} :
    l.replace? r = none ↔ (l.find? fun a => a.id == r.id) = none := by
  induction l with
  | nil => simp [replace?]
  | cons a rest ih =>
    by_cases h : a.id = r.id
    · simp [replace?, h]
    · simp [replace?, h, ih]

/-- In a ledger with one record for each slot a record can be replaced by one of a slot
that no other record holds. -/
theorem onePerSlot_replace_iff {pre post : Ledger} {a : Record}
    (h : OnePerSlot (pre ++ a :: post)) (r : Record) :
    OnePerSlot (pre ++ r :: post) ↔ ¬ (a.slot ≠ r.slot ∧
      r.slot ∈ (pre ++ a :: post).map Record.slot) := by
  simp only [OnePerSlot, List.map_append, List.map_cons, List.nodup_middle,
    List.nodup_cons] at h ⊢
  obtain ⟨ha, hothers⟩ := h
  -- the slot of the replaced record is held by no other one
  have hheld : r.slot ∈ pre.map Record.slot ++ post.map Record.slot ↔
      a.slot ≠ r.slot ∧ r.slot ∈ pre.map Record.slot ++ a.slot :: post.map Record.slot := by
    constructor
    · intro hr
      refine ⟨fun hslot => ha (hslot ▸ hr), ?_⟩
      rcases List.mem_append.1 hr with hr | hr
      · exact List.mem_append_left _ hr
      · exact List.mem_append_right _ (List.mem_cons_of_mem _ hr)
    · rintro ⟨hne, hr⟩
      rcases List.mem_append.1 hr with hr | hr
      · exact List.mem_append_left _ hr
      · rcases List.mem_cons.1 hr with hr | hr
        · exact absurd hr.symm hne
        · exact List.mem_append_right _ hr
  rw [← hheld]
  exact and_iff_left hothers

theorem OnePerSlot.filter {l : Ledger} (h : l.OnePerSlot) (p : Record → Bool) :
    OnePerSlot (l.filter p) :=
  List.Nodup.sublist (List.filter_sublist.map Record.slot) h

end Ledger

/-! ### Changes that collide -/

namespace Store

/-- The change moves a record into a slot that is held: it puts a well-formed record in
the place of one of another slot, and some record has its own slot already. -/
def Change.Collides (l : Ledger) : Change → Prop
  | update r => r.WellFormed ∧ ∃ a, (l.find? fun a => a.id == r.id) = some a ∧
      a.slot ≠ r.slot ∧ r.slot ∈ l.map Record.slot
  | save _ | delete _ | deleteForResource _ => False

/-- **A change keeps one record for each slot exactly if it does not collide.** -/
theorem Change.onePerSlot_outcome_iff {l : Ledger} (h : l.OnePerSlot) (c : Change) :
    (c.outcome l).OnePerSlot ↔ ¬ c.Collides l := by
  cases c with
  | save r =>
    refine iff_of_true ?_ not_false
    rw [outcome]
    split
    · exact h.insert r
    · exact h
  | update r =>
    rw [outcome, Collides]
    by_cases hr : r.WellFormed
    · rw [if_pos hr]
      cases hl : l.replace? r with
      | none =>
        refine iff_of_true h ?_
        rintro ⟨-, a, ha, -⟩
        rw [Ledger.replace?_eq_none_iff.1 hl] at ha
        cases ha
      | some l' =>
        obtain ⟨pre, a, post, rfl, ha, hpre, rfl⟩ := Ledger.replace?_eq_some_iff.1 hl
        have hfind : ((pre ++ a :: post).find? fun a => a.id == r.id) = some a :=
          List.find?_eq_some_iff_append.2
            ⟨by simpa using ha, pre, post, rfl, fun b hb => by simpa using hpre b hb⟩
        rw [Option.getD_some, Ledger.onePerSlot_replace_iff h, hfind]
        simp [hr]
    · rw [if_neg hr]
      exact iff_of_true h fun hc => hr hc.1
  | delete id => exact iff_of_true (h.filter _) not_false
  | deleteForResource resourceId => exact iff_of_true (h.filter _) not_false

/-! ### Lists of changes -/

theorem onePerSlot_changed_iff_of_works {s : Store} (hs : s.Works) (h : s.ledger.OnePerSlot)
    (cs : List Change) :
    (∀ pre, pre <+: cs → (changed pre s).ledger.OnePerSlot) ↔
      ∀ pre c post, cs = pre ++ c :: post → ¬ c.Collides (changed pre s).ledger := by
  have hstep : ∀ l : Ledger, l.OnePerSlot → ∀ c : Change,
      (c.outcome l).OnePerSlot ↔ ¬ c.Collides l := fun _ h c => c.onePerSlot_outcome_iff h
  exact Works.forall_changed_iff hstep hs h cs

/-- **A store in memory has one record for each slot as long as no update moves a record
into a slot that is held.**  From the empty store on, all states that a list of changes
leads through have one record for each slot exactly if no change of the list collides,
whether the changes are refused or not. -/
theorem onePerSlot_changed_iff (cs : List Change) :
    (∀ pre, pre <+: cs → (changed pre (.ofLedger [])).ledger.OnePerSlot) ↔
      ∀ pre c post, cs = pre ++ c :: post →
        ¬ c.Collides (changed pre (.ofLedger [])).ledger :=
  onePerSlot_changed_iff_of_works (s := .ofLedger []) ⟨rfl, rfl⟩ List.nodup_nil cs

/-- Two users are granted a task, and then the grant of the second one is rewritten for
the first. -/
def updateIntoHeldSlot : List Change :=
  [.save (.ofHolder ⟨1⟩ .grant .task "t1" (.user "demo") Permission.read.mask),
    .save (.ofHolder ⟨2⟩ .grant .task "t1" (.user "mary") Permission.read.mask),
    .update (.ofHolder ⟨2⟩ .grant .task "t1" (.user "demo") Permission.update.mask)]

/-- An update fills a slot twice. -/
theorem not_onePerSlot_changed_of_update :
    ¬ (changed updateIntoHeldSlot (.ofLedger [])).ledger.OnePerSlot := by
  decide +kernel

end Store

end TaskAccess
