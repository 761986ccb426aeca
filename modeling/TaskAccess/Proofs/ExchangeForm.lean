import Mathlib.Data.List.TakeWhile
import TaskAccess.Record.Exchange

/-!
# What is exchanged reads back

A record that is written as an object is read as itself, whatever its fields are.  Six of them
read back on their own, and the seventh is the text of a mask.  Such a text is a list of items
between bars, each a name or a number without blanks and bars in it, so that reading finds the
items that were written.  What a text stands for depends on which items occur in it, and on
nothing else.

## Main definitions

* `MaskText.itemTexts` — the items of a text, as texts.
* `MaskText.join` — the text of a list of items.
* `MaskText.IsPlain` — a text that an item can have: not empty, with no blank and no bar in it.

## Main results

* `Text.split_append_cons` — splitting takes one piece off at a time.
* `MaskText.itemTexts_join` — the items of a text that was joined are those it was joined from.
* `MaskText.Item.read?_write`, `MaskText.Item.isPlain_of_read?` — items read back, and what
  reads as an item is plain.
* `MaskText.read?_eq_some_iff` — a text stands for the bits of the items that occur in it.
* `exchange_loses_nothing` — **records and masks survive being written and read.**
-/

namespace TaskAccess

namespace Text

variable {c : Char} {s : List Char} {sep : Char}

/-! ### Trimming -/

theorem trimStart_cons_of_isBlank (h : isBlank c = true) (s : List Char) :
    trimStart (c :: s) = trimStart s := List.dropWhile_cons_of_pos h

theorem trimEnd_append_of_isBlank (h : isBlank c = true) (s : List Char) :
    trimEnd (s ++ [c]) = trimEnd s := by
  rw [trimEnd, List.reverse_append, List.reverse_singleton, List.singleton_append,
    trimStart_cons_of_isBlank h, trimEnd]

theorem trim_cons_of_isBlank (h : isBlank c = true) (s : List Char) :
    trim (c :: s) = trim s := by
  rw [trim, trimStart_cons_of_isBlank h, trim]

theorem trim_append_of_isBlank (h : isBlank c = true) (s : List Char) :
    trim (s ++ [c]) = trim s := by
  rw [trim, trim, trimStart, trimStart, List.dropWhile_append]
  split
  · next hs =>
    -- everything is blank
    rw [List.isEmpty_iff.1 hs, List.dropWhile_cons_of_pos h, List.dropWhile_nil]
  · exact trimEnd_append_of_isBlank h _

theorem trimStart_eq_self (h : ∀ c ∈ s, isBlank c = false) : trimStart s = s := by
  cases s with
  | nil => rfl
  | cons c rest => exact List.dropWhile_cons_of_neg (by simp [h c List.mem_cons_self])

theorem trim_eq_self (h : ∀ c ∈ s, isBlank c = false) : trim s = s := by
  have hreverse : ∀ c ∈ s.reverse, isBlank c = false := fun c hc => h c (List.mem_reverse.1 hc)
  rw [trim, trimStart_eq_self h, trimEnd, trimStart_eq_self hreverse, List.reverse_reverse]

theorem trim_cons_ne_nil (h : isBlank c = false) (s : List Char) : trim (c :: s) ≠ [] := by
  intro htrim
  have hstart : trimStart (c :: s) = c :: s := List.dropWhile_cons_of_neg (by simp [h])
  rw [trim, hstart, trimEnd, List.reverse_eq_nil_iff, trimStart,
    List.dropWhile_eq_nil_iff] at htrim
  have hc := htrim c (List.mem_reverse.2 List.mem_cons_self)
  rw [h] at hc
  cases hc

/-! ### Splitting -/

theorem split_cons_of_ne (h : c ≠ sep) (s : List Char) :
    split sep (c :: s) = (split sep s).modifyHead (List.cons c) := by
  rw [split, if_neg h]
  cases hs : split sep s with
  | nil => exact absurd hs (split_ne_nil sep s)
  | cons piece pieces => rfl

theorem split_of_notMem (h : sep ∉ s) : split sep s = [s] := by
  induction s with
  | nil => rfl
  | cons c rest ih =>
    rw [List.mem_cons, not_or] at h
    rw [split_cons_of_ne (Ne.symm h.1), ih h.2]
    rfl

/-- Splitting takes one piece off at a time. -/
theorem split_append_cons (h : sep ∉ s) (rest : List Char) :
    split sep (s ++ sep :: rest) = s :: split sep rest := by
  induction s with
  | nil => rw [List.nil_append, split, if_pos rfl]
  | cons c more ih =>
    rw [List.mem_cons, not_or] at h
    rw [List.cons_append, split_cons_of_ne (Ne.symm h.1), ih h.2]
    rfl

/-- A blank in front of a text is trimmed off its first piece. -/
theorem map_trim_split_cons (h : isBlank c = true) (hne : c ≠ sep) (s : List Char) :
    (split sep (c :: s)).map trim = (split sep s).map trim := by
  rw [split_cons_of_ne hne]
  cases split sep s with
  | nil => rfl
  | cons piece pieces =>
    rw [List.modifyHead_cons, List.map_cons, List.map_cons, trim_cons_of_isBlank h]

/-! ### Digits -/

theorem toNat_of_digitValue? {base d : Nat} (h : digitValue? base c = some d) :
    48 ≤ c.toNat ∧ c.toNat ≤ 122 := by
  simp only [digitValue?, Bool.and_eq_true, decide_eq_true_eq] at h
  by_cases hdigit : 48 ≤ c.toNat ∧ c.toNat ≤ 57
  · omega
  · by_cases hlower : 97 ≤ c.toNat ∧ c.toNat ≤ 122
    · omega
    · by_cases hupper : 65 ≤ c.toNat ∧ c.toNat ≤ 90
      · omega
      · simp [hdigit, hlower, hupper] at h

theorem exists_digitValue?_of_readDigits? {base acc n : Nat}
    (h : readDigits? base acc s = some n) (hc : c ∈ s) : ∃ d, digitValue? base c = some d := by
  induction s generalizing acc with
  | nil => cases hc
  | cons a rest ih =>
    obtain ⟨d, hd, hrest⟩ := Option.bind_eq_some_iff.1 h
    rcases List.mem_cons.1 hc with rfl | hc
    · exact ⟨d, hd⟩
    · exact ih hrest hc

/-- A text that reads as a number has no characters but digits and letters. -/
theorem toNat_of_readNat? {base n : Nat} (h : readNat? base s = some n) (hc : c ∈ s) :
    48 ≤ c.toNat ∧ c.toNat ≤ 122 := by
  rw [readNat?] at h
  split at h
  · cases h
  · obtain ⟨d, hd⟩ := exists_digitValue?_of_readDigits? h hc
    exact toNat_of_digitValue? hd

end Text

namespace MaskText

open Text

/-- The items of a text, as texts. -/
def itemTexts (s : String) : List (List Char) :=
  if (trim s.toList).isEmpty then [] else (split '|' s.toList).map trim

/-- The text of a list of items. -/
def join (xs : List (List Char)) : String := String.ofList ([' ', '|', ' '].intercalate xs)

/-- The text is one that an item can have: it is not empty, and has no blank and no bar. -/
structure IsPlain (x : List Char) : Prop where
  ne_nil : x ≠ []
  isBlank_eq_false : ∀ c ∈ x, isBlank c = false
  bar_notMem : '|' ∉ x

instance (x : List Char) : Decidable (IsPlain x) :=
  -- character by character along the text, not over all characters that there are
  decidable_of_iff (x ≠ [] ∧ (x.all fun c => !isBlank c) = true ∧ '|' ∉ x)
    ⟨fun h => ⟨h.1, by simpa using h.2.1, h.2.2⟩, fun h => ⟨h.1, by simpa using h.2, h.3⟩⟩

variable {x : List Char} {xs : List (List Char)}

/-! ### The items of a text -/

theorem map_trim_split_intercalate (h : ∀ x ∈ xs, IsPlain x) (hne : xs ≠ []) :
    (split '|' ([' ', '|', ' '].intercalate xs)).map trim = xs := by
  induction xs with
  | nil => exact absurd rfl hne
  | cons x rest ih =>
    have hx := h x List.mem_cons_self
    have htrim : trim x = x := trim_eq_self hx.isBlank_eq_false
    cases rest with
    | nil =>
      rw [List.intercalate_singleton, split_of_notMem hx.bar_notMem, List.map_singleton, htrim]
    | cons y more =>
      have hrest := ih (fun z hz => h z (List.mem_cons_of_mem x hz)) (List.cons_ne_nil y more)
      -- the bar stands between two blanks, one at the end of a piece and one in front of the next
      have hbar : '|' ∉ x ++ [' '] := by simp [hx.bar_notMem]
      have hsplit : [' ', '|', ' '].intercalate (x :: y :: more) =
          (x ++ [' ']) ++ '|' :: ' ' :: [' ', '|', ' '].intercalate (y :: more) := by
        simp [List.intercalate_cons_cons]
      rw [hsplit, split_append_cons hbar, List.map_cons, trim_append_of_isBlank (by decide),
        htrim, map_trim_split_cons (by decide) (by decide), hrest]

/-- The items of a text that was joined are those that it was joined from. -/
theorem itemTexts_join (h : ∀ x ∈ xs, IsPlain x) : itemTexts (join xs) = xs := by
  cases xs with
  | nil => rfl
  | cons x rest =>
    have hx := h x List.mem_cons_self
    have hsplit := map_trim_split_intercalate h (List.cons_ne_nil x rest)
    obtain ⟨c, more, rfl⟩ := List.exists_cons_of_ne_nil hx.ne_nil
    have htrim : trim ([' ', '|', ' '].intercalate ((c :: more) :: rest)) ≠ [] := by
      cases rest with
      | nil =>
        rw [List.intercalate_singleton]
        exact trim_cons_ne_nil (hx.isBlank_eq_false c List.mem_cons_self) more
      | cons y _ =>
        rw [List.intercalate_cons_cons, List.cons_append, List.cons_append]
        exact trim_cons_ne_nil (hx.isBlank_eq_false c List.mem_cons_self) _
    rw [itemTexts, join, String.toList_ofList, if_neg (by simpa using htrim), hsplit]

/-! ### Single items -/

/-- Digits and letters are neither blank nor a bar. -/
theorem isBlank_eq_false_of_toNat {c : Char} (h : 48 ≤ c.toNat ∧ c.toNat ≤ 122) :
    isBlank c = false ∧ c ≠ '|' := by
  constructor
  · simp only [isBlank, Bool.or_eq_false_iff, Bool.and_eq_false_iff, decide_eq_false_iff_not,
      beq_eq_false_iff_ne]
    omega
  · rintro rfl
    exact absurd h.2 (by decide)

namespace Item

/-- Items read back. -/
@[simp] theorem read?_write (i : Item) : read? i.write = some i := by
  cases i with
  | named p => cases p <;> decide +kernel
  | number m =>
    have hread := readNat?_hexDigits m.toNat
    have hlt : m.toNat < UInt32.size := m.bits.isLt
    have hmask : Mask.ofNat m.toNat = m := by simp [Mask.ofNat, Mask.toNat]
    rw [write, read?, hread, Option.bind_some, if_pos hlt, hmask]
    -- no digit is a plus sign
    intro more hdigits
    have hplus := toNat_of_readNat? hread (hdigits ▸ List.mem_cons_self : '+' ∈ _)
    exact absurd hplus.1 (by decide)

theorem isPlain_name (p : Permission) : IsPlain p.name.toList := by cases p <;> decide +kernel

/-- What reads as an item is plain. -/
theorem isPlain_of_read? {i : Item} (h : read? x = some i) : IsPlain x := by
  rw [read?.eq_def] at h
  split at h
  · next rest =>
    obtain ⟨n, hn, -⟩ := Option.bind_eq_some_iff.1 h
    have hrest : ∀ c ∈ rest, isBlank c = false ∧ c ≠ '|' := by
      intro c hc
      split at hn
      · next more =>
        rcases List.mem_cons.1 hc with rfl | hc
        · decide
        · exact isBlank_eq_false_of_toNat (toNat_of_readNat? hn hc)
      · exact isBlank_eq_false_of_toNat (toNat_of_readNat? hn hc)
    refine ⟨List.cons_ne_nil _ _, ?_, ?_⟩
    · intro c hc
      rcases List.mem_cons.1 hc with rfl | hc
      · decide
      · rcases List.mem_cons.1 hc with rfl | hc
        · decide
        · exact (hrest c hc).1
    · simpa using fun hbar => (hrest '|' hbar).2 rfl
  · obtain ⟨p, hp, -⟩ := Option.map_eq_some_iff.1 h
    have hname : p.name.toList = x := by
      rw [Permission.ofName?_eq_some_iff.1 hp, String.toList_ofList]
    exact hname ▸ isPlain_name p

end Item

/-! ### What a text stands for -/

variable {s : String} {m : Mask}

theorem items?_eq (s : String) : items? s.toList = (itemTexts s).mapM Item.read? := by
  rw [items?, itemTexts]
  split
  · rfl
  · rw [List.mapM_map]
    rfl

/-- Reading a list of items finds something if each of them reads, and then it finds all that
they read as. -/
theorem mapM_read?_eq_some_iff {found : List Item} :
    xs.mapM Item.read? = some found ↔
      (∀ x ∈ xs, (Item.read? x).isSome) ∧ xs.filterMap Item.read? = found := by
  induction xs generalizing found with
  | nil => simp
  | cons x rest ih =>
    rw [List.mapM_cons]
    cases hx : Item.read? x with
    | none => simp [hx]
    | some i =>
      simp only [Option.bind_eq_bind, Option.bind_some, Option.bind_eq_some_iff, ih,
        Option.pure_def, Option.some.injEq, List.filterMap_cons, hx, List.forall_mem_cons,
        Option.isSome_some, true_and]
      constructor
      · rintro ⟨_, ⟨hrest, rfl⟩, rfl⟩
        exact ⟨hrest, rfl⟩
      · rintro ⟨hrest, rfl⟩
        exact ⟨_, ⟨hrest, rfl⟩, rfl⟩

/-- A text stands for the bits of the items that occur in it, if all of them are items. -/
theorem read?_eq_some_iff :
    read? s = some m ↔ (∀ x ∈ itemTexts s, (Item.read? x).isSome) ∧
      ∀ bit, bit ∈ m ↔ ∃ x ∈ itemTexts s, ∃ i, Item.read? x = some i ∧ bit ∈ i.mask := by
  have hbit : ∀ bit, bit ∈ Mask.unionAll (((itemTexts s).filterMap Item.read?).map Item.mask) ↔
      ∃ x ∈ itemTexts s, ∃ i, Item.read? x = some i ∧ bit ∈ i.mask := by
    intro bit
    simp only [Mask.mem_unionAll, List.mem_map, List.mem_filterMap]
    constructor
    · rintro ⟨_, ⟨i, ⟨x, hx, hi⟩, rfl⟩, hbit⟩
      exact ⟨x, hx, i, hi, hbit⟩
    · rintro ⟨x, hx, i, hi, hbit⟩
      exact ⟨i.mask, ⟨i, ⟨x, hx, hi⟩, rfl⟩, hbit⟩
  simp only [read?, items?_eq, Option.map_eq_some_iff, mapM_read?_eq_some_iff, ← hbit]
  constructor
  · rintro ⟨_, ⟨hread, rfl⟩, rfl⟩
    exact ⟨hread, fun _ => Iff.rfl⟩
  · rintro ⟨hread, hm⟩
    exact ⟨_, ⟨hread, rfl⟩, Mask.ext_mem fun bit _ => (hm bit).symm⟩

/-- Order and repetition of the items do not matter. -/
theorem read?_eq_some_of_mem_iff {t : String} (h : read? s = some m)
    (hitems : ∀ x, x ∈ itemTexts t ↔ x ∈ itemTexts s) : read? t = some m := by
  rw [read?_eq_some_iff] at h ⊢
  simpa only [hitems] using h

/-- The items of a text that can be read are plain. -/
theorem isPlain_of_mem_itemTexts (h : read? s = some m) (hx : x ∈ itemTexts s) : IsPlain x := by
  obtain ⟨i, hi⟩ := Option.isSome_iff_exists.1 ((read?_eq_some_iff.1 h).1 x hx)
  exact Item.isPlain_of_read? hi

/-! ### Written masks -/

theorem itemTexts_write (m : Mask) : itemTexts (write m) = (items m).map Item.write := by
  refine itemTexts_join fun x hx => ?_
  obtain ⟨i, -, rfl⟩ := List.mem_map.1 hx
  exact Item.isPlain_of_read? (Item.read?_write i)

/-- Masks read back. -/
@[simp] theorem read?_write (m : Mask) : read? (write m) = some m := by
  have hread : (itemTexts (write m)).mapM Item.read? = some (items m) := by
    rw [itemTexts_write, mapM_read?_eq_some_iff, List.filterMap_map]
    refine ⟨?_, ?_⟩
    · intro x hx
      obtain ⟨i, -, rfl⟩ := List.mem_map.1 hx
      rw [Item.read?_write]
      rfl
    · have hcomp : Item.read? ∘ Item.write = some := funext Item.read?_write
      rw [hcomp, List.filterMap_some]
  rw [read?, items?_eq, hread, Option.map_some, unionAll_items]

end MaskText

/-- Records read back. -/
@[simp] theorem Record.ofDocument?_toDocument (r : Record) : ofDocument? r.toDocument = some r := by
  have hfields : ofFields? (.text r.id.text) (.text r.kind.documentName)
      (.text r.resourceType.name) (.text r.resourceId) (.text (MaskText.write r.permissions))
      (.ofOptionalText r.userId) (.ofOptionalText r.groupId) = some r := by
    simp [ofFields?, Document.text?, Document.choice?]
  -- the names of the members are different, so each is found where it was written
  simpa [toDocument, ofDocument?, Document.member?] using hfields

/-- **Records and masks survive being written and read.**  Reading the object that is written for
a record gives the record, and reading the text that is written for a mask gives the mask, whatever
bits it has.  If a text can be read at all, the text of the mask that it stands for stands for this
mask too; and so does every text with the same items, in any order and any number of times.  Any
list of these items can be joined to such a text. -/
theorem exchange_loses_nothing :
    (∀ r : Record, Record.ofDocument? r.toDocument = some r) ∧
      (∀ m : Mask, MaskText.read? (MaskText.write m) = some m) ∧
      ∀ (s : String) (m : Mask), MaskText.read? s = some m →
        MaskText.read? (MaskText.write m) = some m ∧
          (∀ t, (∀ x, x ∈ MaskText.itemTexts t ↔ x ∈ MaskText.itemTexts s) →
            MaskText.read? t = some m) ∧
          ∀ xs, (∀ x, x ∈ xs ↔ x ∈ MaskText.itemTexts s) →
            MaskText.itemTexts (MaskText.join xs) = xs ∧
              MaskText.read? (MaskText.join xs) = some m := by
  refine ⟨Record.ofDocument?_toDocument, MaskText.read?_write, ?_⟩
  intro s m hread
  refine ⟨MaskText.read?_write m, fun t => MaskText.read?_eq_some_of_mem_iff hread, ?_⟩
  intro xs hxs
  have hjoin : MaskText.itemTexts (MaskText.join xs) = xs := MaskText.itemTexts_join fun x hx =>
    MaskText.isPlain_of_mem_itemTexts hread ((hxs x).1 hx)
  refine ⟨hjoin, MaskText.read?_eq_some_of_mem_iff hread ?_⟩
  rwa [hjoin]

/-- A mask with a name for two of its bits and a number for the third, in two orders and with
repetitions. -/
theorem exchange_loses_nothing_reordered :
    MaskText.read? "UPDATE | 0x00010000|READ" = some (Mask.ofNat 0x10003) ∧
      MaskText.read? (MaskText.write (Mask.ofNat 0x10003)) = some (Mask.ofNat 0x10003) ∧
      MaskText.read? " READ|UPDATE | 0x00010000 |READ " = some (Mask.ofNat 0x10003) := by
  have hread : MaskText.read? "UPDATE | 0x00010000|READ" = some (Mask.ofNat 0x10003) := by
    decide +kernel
  have hitems : MaskText.itemTexts " READ|UPDATE | 0x00010000 |READ " =
      "READ".toList :: (MaskText.itemTexts "UPDATE | 0x00010000|READ") := by
    decide +kernel
  have hread' : "READ".toList ∈ MaskText.itemTexts "UPDATE | 0x00010000|READ" := by
    decide +kernel
  obtain ⟨hagain, hreordered, -⟩ := exchange_loses_nothing.2.2 _ _ hread
  refine ⟨hread, hagain, hreordered _ fun x => ?_⟩
  rw [hitems, List.mem_cons]
  exact ⟨fun h => h.elim (fun hx => hx ▸ hread') fun hx => hx, .inr⟩

end TaskAccess
