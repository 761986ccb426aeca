/-!
# Permission masks

A mask is a set of thirty-two bits.  Permissions own bits of it; bits that no
permission owns are kept.  In the table a mask is stored as a signed integer with
the same bits.

## Main definitions

* `Mask` — the set, with `∪`, `∩`, `\`, `⊆` and `∈` for its bits.
* `Mask.unionAll` — the union of a list of masks.
* `Mask.toStored`, `Mask.ofStored` — the signed integer with the same bits.

## Main results

* `Mask.ext_mem` — a mask is determined by its bits.
* `Mask.ofStored_toStored`, `Mask.toStored_ofStored` — the stored form loses nothing.
* `Mask.toStored_union` — the union of masks is the bitwise or of the stored forms.
-/

namespace TaskAccess

/-- A set of thirty-two bits. -/
structure Mask where
  /-- The bits as a word. -/
  bits : BitVec 32
  deriving DecidableEq, Repr, Inhabited

namespace Mask

/-- The mask whose word is the given number. -/
def ofNat (n : Nat) : Mask := ⟨BitVec.ofNat 32 n⟩

/-- The mask as an unsigned number. -/
def toNat (m : Mask) : Nat := m.bits.toNat

/-- The mask of one bit. -/
def bit (i : Nat) : Mask := ⟨BitVec.twoPow 32 i⟩

/-- The mask of every bit. -/
def full : Mask := ⟨BitVec.allOnes 32⟩

instance : EmptyCollection Mask := ⟨⟨0#32⟩⟩
instance : Union Mask := ⟨fun a b => ⟨a.bits ||| b.bits⟩⟩
instance : Inter Mask := ⟨fun a b => ⟨a.bits &&& b.bits⟩⟩
instance : SDiff Mask := ⟨fun a b => ⟨a.bits &&& ~~~b.bits⟩⟩
instance : HasSubset Mask := ⟨fun a b => a ∩ b = a⟩
instance : Membership Nat Mask := ⟨fun m i => m.bits.getLsbD i = true⟩

instance (a b : Mask) : Decidable (a ⊆ b) := inferInstanceAs (Decidable (a ∩ b = a))
instance (i : Nat) (m : Mask) : Decidable (i ∈ m) :=
  inferInstanceAs (Decidable (m.bits.getLsbD i = true))

/-- The masks share a bit. -/
def Meets (a b : Mask) : Prop := a ∩ b ≠ ∅

instance (a b : Mask) : Decidable (a.Meets b) := inferInstanceAs (Decidable (a ∩ b ≠ ∅))

/-- The union of a list of masks. -/
def unionAll : List Mask → Mask
  | [] => ∅
  | m :: rest => m ∪ unionAll rest

/-- The signed integer with the same bits. -/
def toStored (m : Mask) : Int32 := Int32.ofBitVec m.bits

/-- The mask with the bits of a signed integer. -/
def ofStored (n : Int32) : Mask := ⟨n.toBitVec⟩

/-! ### The bits of a mask -/

theorem mem_def {i : Nat} {m : Mask} : i ∈ m ↔ m.bits.getLsbD i = true := Iff.rfl

/-- A mask is determined by its bits. -/
theorem ext_mem {a b : Mask} (h : ∀ i, i < 32 → (i ∈ a ↔ i ∈ b)) : a = b := by
  cases a with | mk a => ?_
  cases b with | mk b => ?_
  congr 1
  exact BitVec.eq_of_getLsbD_eq fun i hi => Bool.eq_iff_iff.2 (h i hi)

theorem lt_of_mem {i : Nat} {m : Mask} (h : i ∈ m) : i < 32 := BitVec.lt_of_getLsbD h

@[simp] theorem notMem_empty {i : Nat} : ¬ i ∈ (∅ : Mask) := by
  simp [mem_def, EmptyCollection.emptyCollection]

@[simp] theorem mem_union {i : Nat} {a b : Mask} : i ∈ a ∪ b ↔ i ∈ a ∨ i ∈ b := by
  simp [mem_def, Union.union]

@[simp] theorem mem_inter {i : Nat} {a b : Mask} : i ∈ a ∩ b ↔ i ∈ a ∧ i ∈ b := by
  simp [mem_def, Inter.inter]

@[simp] theorem mem_sdiff {i : Nat} {a b : Mask} : i ∈ a \ b ↔ i ∈ a ∧ i ∉ b := by
  constructor
  · intro h
    have hi := lt_of_mem h
    simpa [mem_def, SDiff.sdiff, hi] using h
  · intro h
    have hi := lt_of_mem h.1
    simpa [mem_def, SDiff.sdiff, hi] using h

theorem subset_iff {a b : Mask} : a ⊆ b ↔ ∀ i, i ∈ a → i ∈ b := by
  constructor
  · intro h i hi
    have hm : i ∈ a ∩ b := by rw [show a ∩ b = a from h]; exact hi
    exact (mem_inter.1 hm).2
  · intro h
    exact ext_mem fun i _ => by rw [mem_inter]; exact ⟨And.left, fun hi => ⟨hi, h i hi⟩⟩

theorem empty_union (a : Mask) : ∅ ∪ a = a := by
  apply ext_mem
  intro i _
  rw [mem_union, or_iff_right notMem_empty]

theorem union_empty (a : Mask) : a ∪ ∅ = a := by
  apply ext_mem
  intro i _
  rw [mem_union, or_iff_left notMem_empty]

theorem union_assoc (a b c : Mask) : a ∪ b ∪ c = a ∪ (b ∪ c) := by
  apply ext_mem
  intro i _
  rw [mem_union, mem_union, mem_union, mem_union, or_assoc]

theorem subset_refl (a : Mask) : a ⊆ a := subset_iff.2 fun _ h => h

theorem subset_trans {a b c : Mask} (hab : a ⊆ b) (hbc : b ⊆ c) : a ⊆ c :=
  subset_iff.2 fun i hi => subset_iff.1 hbc i (subset_iff.1 hab i hi)

theorem union_subset_iff {a b c : Mask} : a ∪ b ⊆ c ↔ a ⊆ c ∧ b ⊆ c := by
  simp only [subset_iff, mem_union, or_imp, forall_and]

theorem subset_union_left (a b : Mask) : a ⊆ a ∪ b :=
  (union_subset_iff.1 (subset_refl (a ∪ b))).1

theorem subset_union_right (a b : Mask) : b ⊆ a ∪ b :=
  (union_subset_iff.1 (subset_refl (a ∪ b))).2

/-- A union adds nothing to a mask exactly if the other mask is part of it. -/
theorem union_eq_left_iff {a b : Mask} : a ∪ b = a ↔ b ⊆ a := by
  constructor
  · intro h
    have hb := subset_union_right a b
    rwa [h] at hb
  · intro h
    refine ext_mem fun i _ => ?_
    rw [mem_union]
    exact ⟨fun hi => hi.elim (fun ha => ha) (subset_iff.1 h i), .inl⟩

theorem meets_iff {a b : Mask} : a.Meets b ↔ ∃ i, i ∈ a ∧ i ∈ b := by
  constructor
  · intro h
    apply Classical.byContradiction
    intro hn
    refine h (ext_mem fun i _ => ?_)
    rw [mem_inter]
    exact ⟨fun hi => absurd ⟨i, hi⟩ hn, fun hi => absurd hi notMem_empty⟩
  · rintro ⟨i, ha, hb⟩ h
    have hm : i ∈ a ∩ b := mem_inter.2 ⟨ha, hb⟩
    rw [h] at hm
    exact notMem_empty hm

theorem meets_union_iff {a b c : Mask} : a.Meets (b ∪ c) ↔ a.Meets b ∨ a.Meets c := by
  simp only [meets_iff, mem_union, and_or_left, exists_or]

theorem mem_unionAll {i : Nat} {ms : List Mask} :
    i ∈ unionAll ms ↔ ∃ m ∈ ms, i ∈ m := by
  induction ms with
  | nil => simp [unionAll]
  | cons m rest ih => simp [unionAll, ih]

/-- The order of masks does not matter for their union, nor how often they occur. -/
theorem unionAll_eq_of_mem_iff {ms ms' : List Mask} (h : ∀ m, m ∈ ms ↔ m ∈ ms') :
    unionAll ms = unionAll ms' := by
  apply ext_mem
  intro i _
  rw [mem_unionAll, mem_unionAll]
  simp only [h]

/-! ### The stored form -/

@[simp] theorem ofStored_toStored (m : Mask) : ofStored m.toStored = m := by
  simp [ofStored, toStored]

@[simp] theorem toStored_ofStored (n : Int32) : (ofStored n).toStored = n := by
  simp [ofStored, toStored]

/-- The union of masks is the bitwise or of the stored forms. -/
theorem toStored_union (a b : Mask) : (a ∪ b).toStored = a.toStored ||| b.toStored := by
  simp [toStored, Union.union]

end Mask

end TaskAccess
