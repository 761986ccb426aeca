import TaskAccess.Record

/-!
# Ledgers

A ledger is the list of the records that a store holds, in the order in which
their slots were first filled.

## Main definitions

* `Ledger.at?` — the record that occupies a slot.
* `Ledger.insert`, `Ledger.inserted` — merging a record into its slot, or
  appending it, and the record that the slot holds then.
* `Ledger.replace?` — putting a record in the place of the one with its id.
* `Ledger.eraseId`, `Ledger.eraseResource` — dropping records.
* `Ledger.OnePerSlot`, `Ledger.OnePerId` — no two records share a slot, or an id.

## Main results

* `Ledger.at?_insert_self` — what the slot of a record holds after it was merged.
* `Ledger.map_slot_insert` — merging adds at most one slot, at the end.
-/

namespace TaskAccess

/-- The records of a store, in the order in which their slots were first filled. -/
abbrev Ledger := List Record

namespace Ledger

/-- The first record that occupies a slot. -/
def at? (l : Ledger) (slot : Slot) : Option Record := l.find? fun r => r.slot == slot

/-- Merges a record into the first one of its slot, or appends it. -/
def insert : Ledger → Record → Ledger
  | [], r => [r]
  | s :: rest, r => if s.slot = r.slot then s.merge r :: rest else s :: insert rest r

/-- The record that the slot of `r` holds once `r` has been merged. -/
def inserted (l : Ledger) (r : Record) : Record :=
  match l.at? r.slot with
  | some s => s.merge r
  | none => r

/-- Puts a record in the place of the first one with its id. -/
def replace? : Ledger → Record → Option Ledger
  | [], _ => none
  | s :: rest, r => if s.id = r.id then some (r :: rest) else (replace? rest r).map (s :: ·)

/-- The records with another id. -/
def eraseId (l : Ledger) (id : Uuid) : Ledger := l.filter fun r => r.id != id

/-- The records of another resource id. -/
def eraseResource (l : Ledger) (resourceId : String) : Ledger :=
  l.filter fun r => r.resourceId != resourceId

/-- No two records share a slot. -/
def OnePerSlot (l : Ledger) : Prop := (l.map Record.slot).Nodup

/-- No two records share an id. -/
def OnePerId (l : Ledger) : Prop := (l.map Record.id).Nodup

instance (l : Ledger) : Decidable l.OnePerSlot := inferInstanceAs (Decidable (List.Nodup _))
instance (l : Ledger) : Decidable l.OnePerId := inferInstanceAs (Decidable (List.Nodup _))

/-! ### What slots hold after a record was merged -/

theorem at?_nil (slot : Slot) : at? [] slot = none := rfl

theorem at?_cons (s : Record) (l : Ledger) (slot : Slot) :
    at? (s :: l) slot = if s.slot = slot then some s else at? l slot := by
  simp only [at?, List.find?_cons]
  by_cases h : s.slot = slot
  · simp [h]
  · have hb : (s.slot == slot) = false := by simpa using h
    simp [h, hb]

theorem at?_insert_self (l : Ledger) (r : Record) :
    at? (l.insert r) r.slot = some (l.inserted r) := by
  induction l with
  | nil => simp [insert, inserted, at?_cons, at?_nil]
  | cons s rest ih =>
    by_cases h : s.slot = r.slot
    · simp [insert, inserted, at?_cons, h]
    · simpa [insert, inserted, at?_cons, h] using ih

theorem at?_eq_none_iff {l : Ledger} {slot : Slot} :
    at? l slot = none ↔ slot ∉ l.map Record.slot := by
  simp [at?, List.find?_eq_none]

/-- Merging adds at most one slot, at the end. -/
theorem map_slot_insert (l : Ledger) (r : Record) :
    (l.insert r).map Record.slot
      = if r.slot ∈ l.map Record.slot then l.map Record.slot
        else l.map Record.slot ++ [r.slot] := by
  induction l with
  | nil => simp [insert]
  | cons s rest ih =>
    by_cases h : s.slot = r.slot
    · simp [insert, h]
    · have hne : ¬ r.slot = s.slot := fun e => h e.symm
      simp only [insert, if_neg h, List.map_cons, ih, List.mem_cons, hne, false_or]
      split <;> simp

theorem OnePerSlot.insert {l : Ledger} (h : l.OnePerSlot) (r : Record) :
    OnePerSlot (l.insert r) := by
  rw [OnePerSlot, map_slot_insert]
  split
  · exact h
  · next hr =>
    rw [List.nodup_append]
    refine ⟨h, by simp, ?_⟩
    intro a ha b hb hab
    rw [List.mem_singleton.1 hb] at hab
    exact hr (hab ▸ ha)

end Ledger

end TaskAccess
