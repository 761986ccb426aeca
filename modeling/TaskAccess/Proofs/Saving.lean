import Mathlib.Data.Finset.Card
import TaskAccess.Proofs.Changes
import TaskAccess.Proofs.Merging

/-!
# Saving is a union

Seen slot by slot, a ledger is a finite map from slots to masks: a slot is held or not, and the
records of a slot that is held have some permissions, taken together.  Saving a record makes its
slot held and adds its permissions there.  So saving a list of records is a union of such maps,
which does not depend on the order of the list, and to which saving it once more adds nothing.
Identifiers and places do depend on the order: a slot keeps the record that filled it first.

## Main definitions

* `Ledger.slots`, `Ledger.permissionsAt` — the slots that are held, and what they hold.
* `Ledger.wellFormed` — the records of a list that a save does not refuse.
* `Ledger.MergesInto` — what saving a record leaves.
* `Store.saved` — the store after a list of records was saved.

## Main results

* `Ledger.slots_insertAll`, `Ledger.permissionsAt_insertAll`, `Ledger.length_insertAll` — the
  slots and masks after merging are unions, and there is a record more for each new slot.
* `Ledger.getElem?_insert_iff` — records of other slots stay where they are.
* `Store.Works.saved_eq` — saving a list merges the records that are not refused.
* `Store.saving_unites` — **saving a list of records, in any order, forms a union.**
-/

namespace TaskAccess

namespace Ledger

/-- The slots that are held. -/
def slots (l : Ledger) : Finset Slot := (l.map Record.slot).toFinset

/-- The permissions of the records of a slot, taken together. -/
def permissionsAt (l : Ledger) (slot : Slot) : Mask :=
  Mask.unionAll ((l.filter fun r => r.slot == slot).map Record.permissions)

/-- The records of a list that a save does not refuse. -/
def wellFormed (rs : List Record) : Ledger := rs.filter fun r => r.WellFormed

variable {l : Ledger} {rs rs' : List Record} {r : Record} {slot : Slot} {bit : Nat}

/-! ### The slots that are held -/

theorem mem_slots_iff : slot ∈ l.slots ↔ ∃ a ∈ l, a.slot = slot := by
  rw [slots, List.mem_toFinset, List.mem_map]

@[simp] theorem slots_cons (r : Record) (rs : List Record) :
    slots (r :: rs) = Insert.insert r.slot (slots rs) := by
  rw [slots, List.map_cons, List.toFinset_cons, slots]

theorem slots_insert (l : Ledger) (r : Record) :
    (l.insert r).slots = Insert.insert r.slot l.slots := by
  ext slot
  rw [slots, map_slot_insert, slots]
  split
  · next h => simp [List.mem_map.1 h]
  · simp

theorem slots_insertAll (l : Ledger) (rs : List Record) :
    (l.insertAll rs).slots = l.slots ∪ slots rs := by
  induction rs generalizing l with
  | nil => simp [slots]
  | cons r rest ih =>
    rw [insertAll_cons, ih, slots_insert, slots_cons, Finset.insert_union, Finset.union_insert]

theorem slots_eq_of_perm (h : rs.Perm rs') : slots rs = slots rs' :=
  List.toFinset_eq_of_perm _ _ (h.map Record.slot)

theorem length_insert (l : Ledger) (r : Record) :
    (l.insert r).length = if r.slot ∈ l.slots then l.length else l.length + 1 := by
  have h := congrArg List.length (map_slot_insert l r)
  rw [List.length_map] at h
  rw [h]
  simp only [slots, List.mem_toFinset]
  split <;> simp

/-- Merging adds a record for each slot that was not held. -/
theorem length_insertAll (l : Ledger) (rs : List Record) :
    (l.insertAll rs).length = l.length + (slots rs \ l.slots).card := by
  induction rs generalizing l with
  | nil => simp [slots]
  | cons r rest ih =>
    rw [insertAll_cons, ih, length_insert, slots_insert, slots_cons]
    by_cases h : r.slot ∈ l.slots
    · rw [if_pos h, Finset.insert_eq_of_mem h, Finset.insert_sdiff_of_mem _ h]
    · -- the slot counts for the first record of it, and not for the others
      have hnew : Insert.insert r.slot (slots rest) \ l.slots
          = Insert.insert r.slot (slots rest \ Insert.insert r.slot l.slots) := by
        ext slot
        by_cases hs : slot = r.slot
        · simp [hs, h]
        · simp [hs]
      rw [if_neg h, hnew, Finset.card_insert_of_notMem (by simp)]
      omega

/-! ### What the slots hold -/

theorem mem_permissionsAt_iff :
    bit ∈ l.permissionsAt slot ↔ ∃ a ∈ l, a.slot = slot ∧ bit ∈ a.permissions := by
  simp [permissionsAt, Mask.mem_unionAll, and_assoc]

theorem mem_permissionsAt_insertAll :
    bit ∈ (l.insertAll rs).permissionsAt slot ↔
      bit ∈ l.permissionsAt slot ∨ bit ∈ permissionsAt rs slot := by
  simp only [mem_permissionsAt_iff]
  induction rs generalizing l with
  | nil => simp
  | cons r rest ih =>
    rw [insertAll_cons, ih, exists_mem_insert_iff fun a b hab => by rw [hab], or_assoc]
    simp

/-- What a slot holds is a union. -/
theorem permissionsAt_insertAll (l : Ledger) (rs : List Record) (slot : Slot) :
    (l.insertAll rs).permissionsAt slot = l.permissionsAt slot ∪ permissionsAt rs slot := by
  refine Mask.ext_mem fun bit _ => ?_
  rw [mem_permissionsAt_insertAll, Mask.mem_union]

theorem permissionsAt_eq_of_perm (h : rs.Perm rs') (slot : Slot) :
    permissionsAt rs slot = permissionsAt rs' slot := by
  refine Mask.ext_mem fun bit _ => ?_
  simp only [mem_permissionsAt_iff, h.mem_iff]

/-! ### The record that is saved, and the others -/

/-- Records of other slots stay where they are, and none come in. -/
theorem getElem?_insert_iff {a : Record} (h : a.slot ≠ r.slot) (i : Nat) :
    (l.insert r)[i]? = some a ↔ l[i]? = some a := by
  induction l generalizing i with
  | nil =>
    have hne : r ≠ a := fun e => h (congrArg Record.slot e.symm)
    cases i <;> simp [insert, hne]
  | cons b rest ih =>
    by_cases hb : b.slot = r.slot
    · rw [insert, if_pos hb]
      cases i with
      | zero =>
        have hb' : b ≠ a := fun e => h (e ▸ hb)
        have hmerge : b.merge r ≠ a := by
          rintro rfl
          exact h hb
        simp [hb', hmerge]
      | succ i => simp
    · rw [insert, if_neg hb]
      cases i with
      | zero => simp
      | succ i => simpa using ih i

end Ledger

/-- A record was merged into a ledger, and came to be stored in it: in the place of a record of
its slot, if there was one, with the permissions of both and otherwise that record unchanged; and
records of other slots are where they were. -/
structure Ledger.MergesInto (l : Ledger) (r stored : Record) (l' : Ledger) : Prop where
  mem : stored ∈ l'
  slot_eq : stored.slot = r.slot
  permissions_subset : r.permissions ⊆ stored.permissions
  kept : r.slot ∈ l.slots → ∃ a ∈ l, a.slot = r.slot ∧
    stored = { a with permissions := a.permissions ∪ r.permissions }
  others : ∀ (a : Record) (i : Nat), a.slot ≠ r.slot → (l'[i]? = some a ↔ l[i]? = some a)

theorem Ledger.mergesInto_insert (l : Ledger) (r : Record) :
    l.MergesInto r (l.inserted r) (l.insert r) where
  mem := List.mem_of_find?_eq_some (at?_insert_self l r)
  slot_eq := by simpa using List.find?_some (at?_insert_self l r)
  permissions_subset := by
    obtain ⟨a, ha, hperm⟩ := covers_insert l r
    obtain rfl : l.inserted r = a := Option.some.inj ((at?_insert_self l r).symm.trans ha)
    exact hperm
  kept h := by
    cases ha : l.at? r.slot with
    | none => exact absurd (List.mem_toFinset.1 h) (at?_eq_none_iff.1 ha)
    | some a =>
      refine ⟨a, List.mem_of_find?_eq_some ha, by simpa using List.find?_some ha, ?_⟩
      rw [inserted, ha]
      rfl
  others a i h := getElem?_insert_iff h i

/-! ### Saving lists of records -/

namespace Store

/-- The store after a list of records was saved, of which some may be refused. -/
def saved (rs : List Record) (s : Store) : Store := changed (rs.map .save) s

variable {s : Store}

/-- Saving a list merges the records that are not refused. -/
theorem Works.saved_eq (hs : s.Works) (rs : List Record) :
    saved rs s = { s with ledger := s.ledger.insertAll (Ledger.wellFormed rs) } := by
  induction rs generalizing s with
  | nil => rfl
  | cons r rest ih =>
    have hrest := ih (hs.change (.save r))
    rw [saved, List.map_cons, changed_cons, ← saved, hrest, hs.run_change, Change.outcome]
    by_cases hr : r.WellFormed
    · rw [if_pos hr, Ledger.wellFormed, Ledger.wellFormed,
        List.filter_cons_of_pos (by simpa using hr), Ledger.insertAll_cons]
    · rw [if_neg hr, Ledger.wellFormed, Ledger.wellFormed,
        List.filter_cons_of_neg (by simpa using hr)]

/-- **Saving a list of records, in any order, forms a union.**  Whatever a store in memory holds,
after the records of a list have been saved in some order the slots are held that were held before
and those of the well-formed records of the list; each slot has the permissions that it had and
those of the well-formed records of that slot; and there is one record more for each slot that was
not held.  Saving the list again, in the same order or in another one, changes nothing.  For a
single record, saving is refused without effect if the record is malformed; and otherwise it
answers what is stored in the slot then, which keeps the identifier of the record that was there,
and leaves the records of other slots in their places. -/
theorem saving_unites (hs : s.Works) (rs : List Record) :
    (∀ order, order.Perm rs →
        (saved order s).ledger.slots = s.ledger.slots ∪ Ledger.slots (Ledger.wellFormed rs) ∧
          (∀ slot, (saved order s).ledger.permissionsAt slot =
            s.ledger.permissionsAt slot ∪ Ledger.permissionsAt (Ledger.wellFormed rs) slot) ∧
          (saved order s).ledger.length =
            s.ledger.length + (Ledger.slots (Ledger.wellFormed rs) \ s.ledger.slots).card ∧
          ∀ again, again.Perm rs → saved again (saved order s) = saved order s) ∧
      ∀ r : Record,
        (¬ r.WellFormed → ∃ e, Action.run (save r) s = (.error e, s)) ∧
          (r.WellFormed → ∃ stored s', Action.run (save r) s = (.ok stored, s') ∧
            s.ledger.MergesInto r stored s'.ledger) := by
  refine ⟨fun order horder => ?_, fun r => ⟨fun hr => ?_, fun hr => ?_⟩⟩
  · have haccepted : (Ledger.wellFormed order).Perm (Ledger.wellFormed rs) := horder.filter _
    have hslots := Ledger.slots_eq_of_perm haccepted
    have heq := hs.saved_eq order
    refine ⟨?_, fun slot => ?_, ?_, fun again hagain => ?_⟩
    · rw [heq, ← hslots]
      exact Ledger.slots_insertAll s.ledger _
    · rw [heq, ← Ledger.permissionsAt_eq_of_perm haccepted slot]
      exact Ledger.permissionsAt_insertAll s.ledger _ slot
    · rw [heq, ← hslots]
      exact Ledger.length_insertAll s.ledger _
    · -- what is saved again is covered by what was saved in the first place
      have hcovered : ∀ r ∈ Ledger.wellFormed again,
          (s.ledger.insertAll (Ledger.wellFormed order)).Covers r := by
        intro r hr
        have hmem : r ∈ Ledger.wellFormed order :=
          ((hagain.trans horder.symm).filter _).mem_iff.1 hr
        exact Ledger.covers_insertAll hmem s.ledger
      rw [Works.saved_eq (heq ▸ hs.withLedger _), heq]
      exact congrArg (fun l => { s with ledger := l }) (Ledger.insertAll_eq_self hcovered)
  · obtain ⟨defect, hdefect⟩ := Option.ne_none_iff_exists'.1 fun h =>
      hr (Record.defect?_eq_none_iff.1 h)
    exact ⟨_, hs.run_save_of_defect hdefect⟩
  · exact ⟨_, _, hs.run_save hr, Ledger.mergesInto_insert s.ledger r⟩

/-- Two grants to a user, and between them a record without a holder. -/
def grantedTwice : List Record :=
  [.ofHolder ⟨1⟩ .grant .task "t1" (.user "demo") Permission.read.mask,
    ⟨⟨2⟩, .grant, .task, "t1", Permission.delete.mask, none, none⟩,
    .ofHolder ⟨3⟩ .grant .task "t1" (.user "demo") Permission.update.mask]

/-- Saved in reverse order, they make one record of both permissions, and saving them in the
first order then changes nothing. -/
theorem saving_unites_grantedTwice :
    (Store.ofLedger []).Works ∧ grantedTwice.reverse.Perm grantedTwice ∧
      ((saved grantedTwice.reverse (.ofLedger [])).ledger.map fun r => r.permissions) =
        [Permission.read.mask ∪ Permission.update.mask] ∧
      (saved grantedTwice.reverse (.ofLedger [])).ledger.length = 0 + 1 ∧
      saved grantedTwice (saved grantedTwice.reverse (.ofLedger [])) =
        saved grantedTwice.reverse (.ofLedger []) := by
  have hs : (Store.ofLedger []).Works := ⟨rfl, rfl⟩
  have hperm : grantedTwice.reverse.Perm grantedTwice := grantedTwice.reverse_perm
  obtain ⟨-, -, hlength, hagain⟩ := (saving_unites hs grantedTwice).1 _ hperm
  exact ⟨hs, hperm, by decide +kernel, hlength, hagain _ (.refl _)⟩

end Store

end TaskAccess
