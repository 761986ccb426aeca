import TaskAccess.Store.Ledger

/-!
# Ledgers grow

Merging a record into a ledger adds permissions to one record, or one record at the
end; nothing else moves.  Ledgers are ordered by that, and whether a ledger grows at
all when a record is merged can be told beforehand.

## Main definitions

* `Record.GrowsTo`, `Ledger.GrowsTo` — permissions are added, and records at the end.
* `Ledger.Covers` — the slot of a record holds its permissions already.
* `Ledger.insertAll` — a ledger into which the records of a list were merged.
* `Ledger.select` — the records whose slots have a property.

## Main results

* `Ledger.growsTo_insert` — merging a record lets the ledger grow.
* `Ledger.GrowsTo.antisymm` — growing is an order.
* `Ledger.insert_eq_self_iff` — **only a covered record leaves the ledger as it is.**
* `Ledger.Covers.of_growsTo`, `Ledger.covers_insertAll` — what was merged is covered from then
  on, so that merging it once more changes nothing.
* `Ledger.select_insert` — merging and selecting commute.
-/

namespace TaskAccess

/-- The second record is the first one with permissions added. -/
def Record.GrowsTo (a b : Record) : Prop :=
  a.permissions ⊆ b.permissions ∧ b = { a with permissions := b.permissions }

namespace Record.GrowsTo

variable {a b c : Record}

theorem refl (a : Record) : a.GrowsTo a := ⟨Mask.subset_refl a.permissions, rfl⟩

theorem trans (h : a.GrowsTo b) (h' : b.GrowsTo c) : a.GrowsTo c := by
  obtain ⟨hab, hb⟩ := h
  obtain ⟨hbc, hc⟩ := h'
  rw [hb] at hc
  exact ⟨Mask.subset_trans hab hbc, hc⟩

theorem antisymm (h : a.GrowsTo b) (h' : b.GrowsTo a) : a = b := by
  have hperm : a.permissions = b.permissions := Mask.ext_mem fun i _ =>
    ⟨Mask.subset_iff.1 h.1 i, Mask.subset_iff.1 h'.1 i⟩
  rw [h.2, ← hperm]

theorem slot_eq (h : a.GrowsTo b) : b.slot = a.slot := by
  rw [h.2]
  rfl

end Record.GrowsTo

theorem Record.growsTo_merge (a b : Record) : a.GrowsTo (a.merge b) :=
  ⟨Mask.subset_union_left a.permissions b.permissions, rfl⟩

/-- Merging adds nothing if the permissions are there already. -/
theorem Record.merge_eq_self_iff {a b : Record} :
    a.merge b = a ↔ b.permissions ⊆ a.permissions := by
  rw [← Mask.union_eq_left_iff]
  constructor
  · intro h
    exact congrArg Record.permissions h
  · intro h
    rw [Record.merge, h]

namespace Ledger

/-- The second ledger has the records of the first in their places, with permissions
added, and perhaps more records behind them. -/
inductive GrowsTo : Ledger → Ledger → Prop
  | nil (l : Ledger) : GrowsTo [] l
  | cons {a b : Record} {l m : Ledger} (hr : a.GrowsTo b) (h : GrowsTo l m) :
    GrowsTo (a :: l) (b :: m)

namespace GrowsTo

variable {l m n : Ledger}

theorem refl (l : Ledger) : l.GrowsTo l := by
  induction l with
  | nil => exact .nil []
  | cons a rest ih => exact .cons (.refl a) ih

theorem trans (h : l.GrowsTo m) (h' : m.GrowsTo n) : l.GrowsTo n := by
  induction h generalizing n with
  | nil m => exact .nil n
  | cons hr _ ih =>
    cases h' with
    | cons hr' h' => exact .cons (hr.trans hr') (ih h')

/-- Growing is an order: what grows back has not grown. -/
theorem antisymm (h : l.GrowsTo m) (h' : m.GrowsTo l) : l = m := by
  -- neither ledger can be longer, so that the records match in pairs
  induction h with
  | nil m =>
    cases h'
    rfl
  | cons hr _ ih =>
    cases h' with
    | cons hr' h' => rw [hr.antisymm hr', ih h']

/-- Every record is still there, with permissions added at most. -/
theorem exists_mem (h : l.GrowsTo m) {a : Record} (ha : a ∈ l) : ∃ b ∈ m, a.GrowsTo b := by
  induction h with
  | nil m => cases ha
  | cons hr _ ih =>
    rcases List.mem_cons.1 ha with rfl | ha
    · exact ⟨_, List.mem_cons_self, hr⟩
    · obtain ⟨b, hb, hab⟩ := ih ha
      exact ⟨b, List.mem_cons_of_mem _ hb, hab⟩

end GrowsTo

theorem growsTo_insert (l : Ledger) (r : Record) : l.GrowsTo (l.insert r) := by
  induction l with
  | nil => exact .nil [r]
  | cons a rest ih =>
    by_cases h : a.slot = r.slot
    · rw [insert, if_pos h]
      exact .cons (a.growsTo_merge r) (.refl rest)
    · rw [insert, if_neg h]
      exact .cons (.refl a) ih

/-! ### Covered records -/

/-- The slot of the record is filled, and holds the permissions of the record already. -/
def Covers (l : Ledger) (r : Record) : Prop :=
  ∃ a, l.at? r.slot = some a ∧ r.permissions ⊆ a.permissions

/-- **Only a covered record leaves the ledger as it is.** -/
theorem insert_eq_self_iff {l : Ledger} {r : Record} : l.insert r = l ↔ l.Covers r := by
  -- the record ends up in the first of its slot, which is where coverage is looked up
  induction l with
  | nil => simp [insert, Covers, at?_nil]
  | cons a rest ih =>
    rw [Covers, at?_cons]
    by_cases h : a.slot = r.slot
    · simp only [insert, if_pos h, List.cons.injEq, and_true, Record.merge_eq_self_iff,
        Option.some.injEq, exists_eq_left']
    · simpa only [insert, if_neg h, List.cons.injEq, true_and, Covers] using ih

theorem covers_insert (l : Ledger) (r : Record) : (l.insert r).Covers r := by
  refine ⟨l.inserted r, at?_insert_self l r, ?_⟩
  rw [inserted]
  cases l.at? r.slot with
  | none => exact Mask.subset_refl r.permissions
  | some a => exact Mask.subset_union_right a.permissions r.permissions

/-- What comes first in its slot stays first, with permissions added at most. -/
theorem GrowsTo.exists_at? {l m : Ledger} (h : l.GrowsTo m) {slot : Slot} {a : Record}
    (ha : l.at? slot = some a) : ∃ b, m.at? slot = some b ∧ a.GrowsTo b := by
  induction h with
  | nil m => cases ha
  | @cons c d l m hr _ ih =>
    rw [at?_cons] at ha ⊢
    rw [hr.slot_eq]
    by_cases hc : c.slot = slot
    · rw [if_pos hc] at ha ⊢
      obtain rfl : c = a := Option.some.inj ha
      exact ⟨d, rfl, hr⟩
    · rw [if_neg hc] at ha ⊢
      exact ih ha

/-- What is covered stays covered. -/
theorem Covers.of_growsTo {l m : Ledger} {r : Record} (h : l.Covers r) (hlm : l.GrowsTo m) :
    m.Covers r := by
  obtain ⟨a, ha, hperm⟩ := h
  obtain ⟨b, hb, hab⟩ := hlm.exists_at? ha
  exact ⟨b, hb, Mask.subset_trans hperm hab.1⟩

/-- What is covered is found in its slot. -/
theorem Covers.exists_mem {l : Ledger} {r : Record} (h : l.Covers r) :
    ∃ a ∈ l, a.slot = r.slot ∧ r.permissions ⊆ a.permissions := by
  obtain ⟨a, ha, hperm⟩ := h
  exact ⟨a, List.mem_of_find?_eq_some ha, by simpa using List.find?_some ha, hperm⟩

/-! ### Merging several records -/

/-- Merges the records of a list, one after the other. -/
def insertAll (l : Ledger) (rs : List Record) : Ledger := rs.foldl insert l

@[simp] theorem insertAll_nil (l : Ledger) : l.insertAll [] = l := rfl

@[simp] theorem insertAll_cons (l : Ledger) (r : Record) (rs : List Record) :
    l.insertAll (r :: rs) = (l.insert r).insertAll rs := rfl

theorem growsTo_insertAll (l : Ledger) (rs : List Record) : l.GrowsTo (l.insertAll rs) := by
  induction rs generalizing l with
  | nil => exact .refl l
  | cons r rest ih => exact (growsTo_insert l r).trans (ih (l.insert r))

theorem covers_insertAll {rs : List Record} {r : Record} (h : r ∈ rs) (l : Ledger) :
    (l.insertAll rs).Covers r := by
  induction rs generalizing l with
  | nil => cases h
  | cons a rest ih =>
    rcases List.mem_cons.1 h with rfl | h
    · exact (covers_insert l r).of_growsTo (growsTo_insertAll (l.insert r) rest)
    · exact ih h (l.insert a)

/-- Covered records leave the ledger as it is. -/
theorem insertAll_eq_self {l : Ledger} {rs : List Record} (h : ∀ r ∈ rs, l.Covers r) :
    l.insertAll rs = l := by
  induction rs with
  | nil => rfl
  | cons r rest ih =>
    rw [insertAll_cons, insert_eq_self_iff.2 (h r List.mem_cons_self)]
    exact ih fun a ha => h a (List.mem_cons_of_mem r ha)

/-! ### Selecting by slot -/

/-- The records whose slots have a property. -/
def select (l : Ledger) (p : Slot → Bool) : Ledger := l.filter fun r => p r.slot

@[simp] theorem select_nil (p : Slot → Bool) : select [] p = [] := rfl

theorem select_cons_of_pos {a : Record} {p : Slot → Bool} (h : p a.slot = true) (l : Ledger) :
    select (a :: l) p = a :: l.select p := List.filter_cons_of_pos h

theorem select_cons_of_neg {a : Record} {p : Slot → Bool} (h : p a.slot = false) (l : Ledger) :
    select (a :: l) p = l.select p := List.filter_cons_of_neg (by simp [h])

theorem select_append (l m : Ledger) (p : Slot → Bool) :
    select (l ++ m) p = l.select p ++ m.select p := List.filter_append l m

/-- Merging a record and selecting commute; a record that is not selected is not seen. -/
theorem select_insert (l : Ledger) (r : Record) (p : Slot → Bool) :
    (l.insert r).select p = if p r.slot = true then (l.select p).insert r else l.select p := by
  induction l with
  | nil =>
    cases hr : p r.slot with
    | false => simp [insert, select_cons_of_neg hr]
    | true => simp [insert, select_cons_of_pos hr]
  | cons a rest ih =>
    by_cases hs : a.slot = r.slot
    · have hmerge : (a.merge r).slot = a.slot := Record.slot_merge a r
      rw [insert, if_pos hs]
      cases hr : p r.slot with
      | false =>
        have ha : p a.slot = false := by rw [hs, hr]
        rw [select_cons_of_neg (by rw [hmerge, ha]), select_cons_of_neg ha, if_neg (by simp)]
      | true =>
        have ha : p a.slot = true := by rw [hs, hr]
        rw [select_cons_of_pos (by rw [hmerge, ha]), select_cons_of_pos ha, if_pos rfl, insert,
          if_pos hs]
    · rw [insert, if_neg hs]
      cases ha : p a.slot with
      | false => rw [select_cons_of_neg ha, select_cons_of_neg ha, ih]
      | true =>
        rw [select_cons_of_pos ha, select_cons_of_pos ha, ih, insert, if_neg hs]
        split <;> rfl

theorem at?_select {p : Slot → Bool} {slot : Slot} (h : p slot = true) (l : Ledger) :
    at? (l.select p) slot = at? l slot := by
  induction l with
  | nil => rfl
  | cons a rest ih =>
    by_cases hs : a.slot = slot
    · have ha : p a.slot = true := by rw [hs, h]
      rw [select_cons_of_pos ha, at?_cons, at?_cons, if_pos hs, if_pos hs]
    · rw [at?_cons, if_neg hs]
      cases ha : p a.slot with
      | false => rw [select_cons_of_neg ha, ih]
      | true => rw [select_cons_of_pos ha, at?_cons, if_neg hs, ih]

theorem covers_select_iff {l : Ledger} {r : Record} {p : Slot → Bool} (h : p r.slot = true) :
    (l.select p).Covers r ↔ l.Covers r := by
  rw [Covers, Covers, at?_select h]

theorem GrowsTo.select {l m : Ledger} (h : l.GrowsTo m) (p : Slot → Bool) :
    (l.select p).GrowsTo (m.select p) := by
  induction h with
  | nil m => exact .nil _
  | @cons a b l m hr _ ih =>
    cases ha : p a.slot with
    | false =>
      have hb : p b.slot = false := by rw [hr.slot_eq, ha]
      rw [select_cons_of_neg ha, select_cons_of_neg hb]
      exact ih
    | true =>
      have hb : p b.slot = true := by rw [hr.slot_eq, ha]
      rw [select_cons_of_pos ha, select_cons_of_pos hb]
      exact .cons hr ih

end Ledger

end TaskAccess
