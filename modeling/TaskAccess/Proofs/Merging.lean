import Mathlib.Logic.Basic
import TaskAccess.Proofs.Growth
import TaskAccess.Proofs.Resolution

/-!
# What a merged record permits

The masks of an identity are unions over the records that apply to it, and whether a record
applies is decided by its slot.  Merging a record changes no slot and unites permissions, so
it adds the permissions of the record to one of the masks of those whom it is about, and
changes nothing else, whether its slot was held before or not.

## Main results

* `Record.appliesTo_iff_of_slot_eq` — records of one slot apply to the same.
* `Ledger.exists_mem_insert_iff` — the bits in a ledger into which a record was merged.
* `Ledger.mem_granted_insert`, `Ledger.mem_revoked_insert` — **merging adds the permissions
  of the record, for those whom it is about.**
* `holds_iff_granted` — what is held, by the two masks.
* `exists_mem_granted_of_holds` — why something is held in one ledger and not in another.
-/

namespace TaskAccess

/-- Records of one slot apply to the same identities and targets. -/
theorem Record.appliesTo_iff_of_slot_eq {a b : Record} (h : a.slot = b.slot) {i : Identity}
    {t : ResourceType} {target : Target} :
    a.AppliesTo i t target ↔ b.AppliesTo i t target := by
  have htype : a.resourceType = b.resourceType := congrArg Slot.resourceType h
  have hid : a.resourceId = b.resourceId := congrArg Slot.resourceId h
  have huser : a.userId = b.userId := congrArg Slot.userId h
  have hgroup : a.groupId = b.groupId := congrArg Slot.groupId h
  constructor
  · rintro ⟨ht, hr, hh⟩
    rw [htype] at ht
    rw [hid] at hr
    rw [huser, hgroup] at hh
    exact ⟨ht, hr, hh⟩
  · rintro ⟨ht, hr, hh⟩
    rw [← htype] at ht
    rw [← hid] at hr
    rw [← huser, ← hgroup] at hh
    exact ⟨ht, hr, hh⟩

namespace Ledger

variable {l : Ledger} {r : Record} {i : Identity} {t : ResourceType} {target : Target}
  {bit : Nat}

/-- The bits in the records of some slots, after a record was merged. -/
theorem exists_mem_insert_iff {P : Record → Prop}
    (hP : ∀ a b : Record, a.slot = b.slot → (P a ↔ P b)) :
    (∃ a ∈ l.insert r, P a ∧ bit ∈ a.permissions) ↔
      (∃ a ∈ l, P a ∧ bit ∈ a.permissions) ∨ (P r ∧ bit ∈ r.permissions) := by
  -- the record ends up in the first of its slot, or at the end
  induction l with
  | nil => simp [insert]
  | cons a rest ih =>
    by_cases hs : a.slot = r.slot
    · have hmerge : P (a.merge r) ↔ P a := hP _ _ (Record.slot_merge a r)
      have hr : P r ↔ P a := hP _ _ hs.symm
      rw [insert, if_pos hs]
      simp only [List.mem_cons, exists_eq_or_imp, hmerge, hr, Record.permissions_merge,
        Mask.mem_union, and_or_left]
      exact or_right_comm
    · rw [insert, if_neg hs]
      simp only [List.mem_cons, exists_eq_or_imp, ih]
      exact or_assoc.symm

theorem mem_granted_effective :
    bit ∈ (l.effective i t target).granted ↔
      ∃ a ∈ l, (a.AppliesTo i t target ∧ a.kind ≠ .revoke) ∧ bit ∈ a.permissions := by
  rw [effective, Effective.mem_granted_ofRecords]
  simp only [List.mem_filter, selects_query_iff, and_assoc]

theorem mem_revoked_effective :
    bit ∈ (l.effective i t target).revoked ↔
      ∃ a ∈ l, (a.AppliesTo i t target ∧ a.kind = .revoke) ∧ bit ∈ a.permissions := by
  rw [effective, Effective.mem_revoked_ofRecords]
  simp only [List.mem_filter, selects_query_iff, and_assoc]

/-- **Merging a record that permits something adds its permissions to what is granted to
those whom it is about.** -/
theorem mem_granted_insert :
    bit ∈ ((l.insert r).effective i t target).granted ↔
      bit ∈ (l.effective i t target).granted ∨
        ((r.AppliesTo i t target ∧ r.kind ≠ .revoke) ∧ bit ∈ r.permissions) := by
  rw [mem_granted_effective, mem_granted_effective]
  refine exists_mem_insert_iff fun a b hab => ?_
  have hkind : a.kind = b.kind := congrArg Slot.kind hab
  rw [Record.appliesTo_iff_of_slot_eq hab, hkind]

/-- **Merging a revocation adds its permissions to what is revoked from those whom it is
about.** -/
theorem mem_revoked_insert :
    bit ∈ ((l.insert r).effective i t target).revoked ↔
      bit ∈ (l.effective i t target).revoked ∨
        ((r.AppliesTo i t target ∧ r.kind = .revoke) ∧ bit ∈ r.permissions) := by
  rw [mem_revoked_effective, mem_revoked_effective]
  refine exists_mem_insert_iff fun a b hab => ?_
  have hkind : a.kind = b.kind := congrArg Slot.kind hab
  rw [Record.appliesTo_iff_of_slot_eq hab, hkind]

/-- A record that permits something revokes nothing. -/
theorem mem_revoked_insert_of_ne_revoke (h : r.kind ≠ .revoke) :
    bit ∈ ((l.insert r).effective i t target).revoked ↔
      bit ∈ (l.effective i t target).revoked := by
  rw [mem_revoked_insert]
  exact or_iff_left fun hr => h hr.1.2

end Ledger

/-- A permission is held if each of its bits is granted and none is revoked. -/
theorem holds_iff_granted {l : Ledger} {i : Identity} {c : Check} :
    Holds l i c ↔ ∀ bit, bit ∈ c.permission.mask →
      bit ∈ (l.effective i c.resourceType c.target).granted ∧
        bit ∉ (l.effective i c.resourceType c.target).revoked := by
  rw [holds_iff_grants, Mask.grants_iff]
  simp only [Effective.mask, Mask.mem_sdiff]

/-- What is held in one ledger and not in another that revokes the same is held because of a
bit that is granted in the one only. -/
theorem exists_mem_granted_of_holds {l m : Ledger} {i : Identity} {c : Check}
    (hm : Holds m i c) (hl : ¬ Holds l i c)
    (hrevoked : ∀ bit, bit ∈ (m.effective i c.resourceType c.target).revoked ↔
      bit ∈ (l.effective i c.resourceType c.target).revoked) :
    ∃ bit, bit ∈ c.permission.mask ∧ bit ∈ (m.effective i c.resourceType c.target).granted ∧
      bit ∉ (l.effective i c.resourceType c.target).granted := by
  rw [holds_iff_granted] at hm hl
  obtain ⟨bit, hbit, hmissing⟩ : ∃ bit, bit ∈ c.permission.mask ∧
      ¬ (bit ∈ (l.effective i c.resourceType c.target).granted ∧
        bit ∉ (l.effective i c.resourceType c.target).revoked) := by
    simpa only [not_forall, exists_prop] using hl
  obtain ⟨hgranted, hnot⟩ := hm bit hbit
  rw [hrevoked] at hnot
  exact ⟨bit, hbit, hgranted, fun h => hmissing ⟨h, hnot⟩⟩

end TaskAccess
