import TaskAccess.Permission
import TaskAccess.Text.Blank
import TaskAccess.Text.Digits

/-!
# Masks as text

The text of a mask lists the names of its permissions between bars, in the order
of the bits, and what no name covers as one hexadecimal number at the end.  A
reader takes the items in any order and any number of times, with blanks around
them, and joins them.

## Main definitions

* `MaskText.Item` — a named permission or a number.
* `MaskText.write` — the text of a mask.
* `MaskText.items?`, `MaskText.read?` — the items of a text, and their union.

## Main results

* `MaskText.unionAll_items` — the items written for a mask join to it.
-/

namespace TaskAccess.MaskText

open Text

/-- One item of the text of a mask. -/
inductive Item
  | named (p : Permission)
  | number (m : Mask)
  deriving DecidableEq, Repr

namespace Item

/-- The bits an item stands for. -/
def mask : Item → Mask
  | named p => p.mask
  | number m => m

/-- The text of an item. -/
def write : Item → List Char
  | named p => p.name.toList
  | number m => '0' :: 'x' :: hexDigits m.toNat

/-- Reads an item with no blanks around it.  A number starts with a lower-case
marker, may have a plus sign before its digits, and must fit the mask. -/
def read? (s : List Char) : Option Item :=
  match s with
  | '0' :: 'x' :: rest =>
    let digits := match rest with
      | '+' :: more => more
      | _ => rest
    (readNat? 16 digits).bind fun n =>
      if n < UInt32.size then some (number (Mask.ofNat n)) else none
  | _ => (Permission.ofName? (String.ofList s)).map named

end Item

/-! ### Writing -/

/-- The items for the permissions of a list, and the bits that none of them covers.
A permission is named if the mask has all its bits and one of them is still
uncovered. -/
def namedItems (m : Mask) : (uncovered : Mask) → List Permission → List Item × Mask
  | uncovered, [] => ([], uncovered)
  | uncovered, p :: rest =>
    if p.mask ⊆ m ∧ p.mask.Meets uncovered then
      let (items, left) := namedItems m (uncovered \ p.mask) rest
      (.named p :: items, left)
    else namedItems m uncovered rest

/-- The items of the text of a mask. -/
def items (m : Mask) : List Item :=
  let (named, left) := namedItems m m Permission.values
  if left = ∅ then named else named ++ [.number left]

/-- The text of a mask. -/
def write (m : Mask) : String :=
  String.ofList ([' ', '|', ' '].intercalate ((items m).map Item.write))

/-! ### Reading -/

/-- The items of a text; a blank text has none, any other at least one. -/
def items? (s : List Char) : Option (List Item) :=
  if (trim s).isEmpty then some []
  else (split '|' s).mapM fun piece => Item.read? (trim piece)

/-- The mask that a text stands for. -/
def read? (s : String) : Option Mask :=
  (items? s.toList).map fun found => Mask.unionAll (found.map Item.mask)

/-! ### The items written for a mask join to it -/

theorem mem_namedItems {m uncovered : Mask} {ps : List Permission}
    (h : ∀ i, i ∈ uncovered → i ∈ m) (i : Nat) :
    (i ∈ Mask.unionAll ((namedItems m uncovered ps).1.map Item.mask) ∨
        i ∈ (namedItems m uncovered ps).2) →
      i ∈ m := by
  induction ps generalizing uncovered with
  | nil => simpa [namedItems, Mask.unionAll] using h i
  | cons p rest ih =>
    rw [namedItems]
    split
    · next hp =>
      have hsub : ∀ j, j ∈ uncovered \ p.mask → j ∈ m := fun j hj => h j (Mask.mem_sdiff.1 hj).1
      simp only [List.map_cons, Mask.unionAll, Mask.mem_union, Item.mask]
      rintro ((hi | hi) | hi)
      · exact Mask.subset_iff.1 hp.1 i hi
      · exact ih hsub (.inl hi)
      · exact ih hsub (.inr hi)
    · exact ih h

theorem mem_of_uncovered {m uncovered : Mask} {ps : List Permission} {i : Nat}
    (hi : i ∈ uncovered) :
    i ∈ Mask.unionAll ((namedItems m uncovered ps).1.map Item.mask) ∨
      i ∈ (namedItems m uncovered ps).2 := by
  induction ps generalizing uncovered with
  | nil => exact .inr hi
  | cons p rest ih =>
    rw [namedItems]
    split
    · simp only [List.map_cons, Mask.unionAll, Mask.mem_union, Item.mask]
      by_cases hp : i ∈ p.mask
      · exact .inl (.inl hp)
      · rcases ih (Mask.mem_sdiff.2 ⟨hi, hp⟩) with h | h
        · exact .inl (.inr h)
        · exact .inr h
    · exact ih hi

/-- The items written for a mask join to it. -/
theorem unionAll_items (m : Mask) : Mask.unionAll ((items m).map Item.mask) = m := by
  apply Mask.ext_mem
  intro i _
  have hto := @mem_namedItems m m Permission.values (fun _ h => h) i
  have hof := @mem_of_uncovered m m Permission.values i
  rw [items]
  generalize namedItems m m Permission.values = r at hto hof
  obtain ⟨named, left⟩ := r
  simp only at hto hof ⊢
  split
  · next hl =>
    subst hl
    exact ⟨fun h => hto (.inl h), fun h => (hof h).resolve_right Mask.notMem_empty⟩
  · simp only [Mask.mem_unionAll, List.map_append, List.mem_append] at hto hof ⊢
    constructor
    · rintro ⟨x, hx | hx, hi⟩
      · exact hto (.inl ⟨x, hx, hi⟩)
      · simp only [List.map_cons, List.map_nil, List.mem_singleton, Item.mask] at hx
        subst hx
        exact hto (.inr hi)
    · intro h
      rcases hof h with ⟨x, hx, hi⟩ | hi
      · exact ⟨x, .inl hx, hi⟩
      · exact ⟨left, .inr (by simp [Item.mask]), hi⟩

end TaskAccess.MaskText
