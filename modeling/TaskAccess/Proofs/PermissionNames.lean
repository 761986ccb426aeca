import Mathlib.Data.List.Forall2
import Mathlib.Data.List.Nodup
import TaskAccess.Permission.Lookup
import TaskAccess.Proofs.ExchangeForm

/-!
# Names of permissions

A permission is configured by its name, around which blanks may stand, and whose letters may be in
either case.  Only ASCII letters have a case here; but blanks are those of Unicode.  No name of a
permission has a blank in it, so that what is left of a text without the blanks at its ends is the
name, or the text names nothing.  No two permissions have names that differ in case only.

## Main definitions

* `Text.SameLetter` — two characters are the same up to the case of an ASCII letter.
* `Permission.IsSpelled` — a text is the name of a permission, with blanks around it and in any
  case.

## Main results

* `Text.exists_eq_append_trim`, `Text.trim_append_append` — a text is trimmed of blanks, and of
  all that stand at its ends.
* `Permission.isNamed_iff_isSpelled` — a text is looked up by what it spells.
* `Permission.eq_of_isSpelled` — **a text spells one permission at most.**
* `Permission.forResource_eq_ok_iff`, `Permission.forResource_eq_error_iff` — what looking up a
  name comes to.
-/

namespace TaskAccess

namespace Text

/-! ### Blanks at the ends -/

theorem exists_eq_append_trimStart (s : List Char) :
    ∃ pre, s = pre ++ trimStart s ∧ ∀ c ∈ pre, isBlank c = true :=
  ⟨s.takeWhile isBlank, List.takeWhile_append_dropWhile.symm, fun _ => List.mem_takeWhile_imp⟩

/-- A text is trimmed of nothing but blanks. -/
theorem exists_eq_append_trim (s : List Char) :
    ∃ pre post, s = pre ++ trim s ++ post ∧ (∀ c ∈ pre, isBlank c = true) ∧
      ∀ c ∈ post, isBlank c = true := by
  obtain ⟨pre, hpre, hblank⟩ := exists_eq_append_trimStart s
  -- what is trimmed at the end stands at the start of the reversed text
  obtain ⟨post, hpost, hblank'⟩ := exists_eq_append_trimStart (trimStart s).reverse
  refine ⟨pre, post.reverse, ?_, hblank, fun c hc => hblank' c (List.mem_reverse.1 hc)⟩
  calc s = pre ++ (trimStart s).reverse.reverse := by rw [List.reverse_reverse]; exact hpre
    _ = pre ++ (trim s ++ post.reverse) := by
      rw [hpost, List.reverse_append]
      rfl
    _ = pre ++ trim s ++ post.reverse := (List.append_assoc _ _ _).symm

/-- It is trimmed of all blanks that stand at its ends. -/
theorem trim_append_append {pre post : List Char} (hpre : ∀ c ∈ pre, isBlank c = true)
    (hpost : ∀ c ∈ post, isBlank c = true) (s : List Char) : trim (pre ++ s ++ post) = trim s := by
  induction pre with
  | nil =>
    rw [List.nil_append]
    induction post generalizing s with
    | nil => rw [List.append_nil]
    | cons c rest ih =>
      rw [List.append_cons, ih (fun d hd => hpost d (List.mem_cons_of_mem c hd)),
        trim_append_of_isBlank (hpost c List.mem_cons_self)]
  | cons c rest ih =>
    rw [List.cons_append, List.cons_append, trim_cons_of_isBlank (hpre c List.mem_cons_self)]
    exact ih fun d hd => hpre d (List.mem_cons_of_mem c hd)

/-! ### Letters in either case -/

/-- The characters are the same up to the case of an ASCII letter. -/
def SameLetter (c d : Char) : Prop :=
  c = d ∨ (65 ≤ c.toNat ∧ c.toNat ≤ 90 ∧ d.toNat = c.toNat + 32) ∨
    (65 ≤ d.toNat ∧ d.toNat ≤ 90 ∧ c.toNat = d.toNat + 32)

theorem toNat_toLower (c : Char) :
    c.toLower.toNat = if 65 ≤ c.toNat ∧ c.toNat ≤ 90 then c.toNat + 32 else c.toNat := by
  have hupper : c.val ≥ 'A'.val ∧ c.val ≤ 'Z'.val ↔ 65 ≤ c.toNat ∧ c.toNat ≤ 90 := by
    rw [ge_iff_le, UInt32.le_iff_toNat_le, UInt32.le_iff_toNat_le]
    rfl
  by_cases h : c.val ≥ 'A'.val ∧ c.val ≤ 'Z'.val
  · have hlower : c.toLower.val = c.val + ('a'.val - 'A'.val) := congrArg Char.val (dif_pos h)
    have hle : c.val.toNat ≤ 90 := (hupper.1 h).2
    have hgap : ('a'.val - 'A'.val).toNat = 32 := rfl
    rw [if_pos (hupper.1 h)]
    show c.toLower.val.toNat = c.val.toNat + 32
    rw [hlower, UInt32.toNat_add, hgap]
    omega
  · have hlower : c.toLower = c := dif_neg h
    rw [hlower, if_neg (mt hupper.2 h)]

theorem toLower_eq_toLower_iff {c d : Char} : c.toLower = d.toLower ↔ SameLetter c d := by
  rw [← Char.toNat_inj, toNat_toLower, toNat_toLower, SameLetter, ← Char.toNat_inj]
  split <;> split <;> omega

/-- What is the same up to case as a character that is not blank is not blank. -/
theorem SameLetter.isBlank_eq_false {c d : Char} (h : SameLetter c d) (hd : isBlank d = false) :
    isBlank c = false := by
  rcases h with rfl | h | h
  · exact hd
  · exact (MaskText.isBlank_eq_false_of_toNat (by omega)).1
  · exact (MaskText.isBlank_eq_false_of_toNat (by omega)).1

theorem isBlank_eq_false_of_forall₂ {s s' : List Char} (h : List.Forall₂ SameLetter s s')
    (hs' : ∀ c ∈ s', isBlank c = false) : ∀ c ∈ s, isBlank c = false := by
  induction h with
  | nil =>
    intro c hc
    cases hc
  | cons hcd _ ih =>
    intro c hc
    rcases List.mem_cons.1 hc with rfl | hc
    · exact hcd.isBlank_eq_false (hs' _ List.mem_cons_self)
    · exact ih (fun d hd => hs' d (List.mem_cons_of_mem _ hd)) c hc

end Text

namespace Permission

open Text

variable {p q : Permission} {text : String} {t : ResourceType}

/-! ### What a text spells -/

theorem foldCase_eq_foldCase_iff {s s' : List Char} :
    foldCase s = foldCase s' ↔ List.Forall₂ SameLetter s s' := by
  rw [foldCase, foldCase, ← List.forall₂_eq_eq_eq, List.forall₂_map_left_iff,
    List.forall₂_map_right_iff]
  simp only [toLower_eq_toLower_iff]

/-- The text is the name of the permission up to the case of ASCII letters, with blanks around
it. -/
def IsSpelled (p : Permission) (text : String) : Prop :=
  ∃ pre core post, text.toList = pre ++ core ++ post ∧ (∀ c ∈ pre, isBlank c = true) ∧
    (∀ c ∈ post, isBlank c = true) ∧ List.Forall₂ SameLetter core p.name.toList

/-- A text is looked up by what it spells. -/
theorem isNamed_iff_isSpelled : p.IsNamed text ↔ p.IsSpelled text := by
  rw [IsNamed, eq_comm, foldCase_eq_foldCase_iff]
  constructor
  · intro h
    obtain ⟨pre, post, htext, hpre, hpost⟩ := exists_eq_append_trim text.toList
    exact ⟨pre, trim text.toList, post, htext, hpre, hpost, h⟩
  · rintro ⟨pre, core, post, htext, hpre, hpost, h⟩
    -- the name has no blanks, so nothing of it is trimmed
    have hcore : ∀ c ∈ core, isBlank c = false :=
      isBlank_eq_false_of_forall₂ h (MaskText.Item.isPlain_name p).isBlank_eq_false
    rw [htext, trim_append_append hpre hpost, trim_eq_self hcore]
    exact h

instance (p : Permission) (text : String) : Decidable (p.IsSpelled text) :=
  decidable_of_iff _ isNamed_iff_isSpelled

/-- A text spells one permission at most. -/
theorem eq_of_isSpelled (hp : p.IsSpelled text) (hq : q.IsSpelled text) : p = q := by
  have hnodup : (values.map fun p => foldCase p.name.toList).Nodup := by decide +kernel
  refine List.inj_on_of_nodup_map hnodup (mem_values p) (mem_values q) ?_
  exact (isNamed_iff_isSpelled.2 hp).trans (isNamed_iff_isSpelled.2 hq).symm

/-! ### What is looked up -/

/-- Looking up a text answers the permission that it spells, if the type defines it. -/
theorem forResource_eq_ok_iff :
    forResource text t = .ok p ↔ p.IsSpelled text ∧ t ∈ p.resourceTypes := by
  have hmeets : ∀ q : Permission, (decide (q.IsNamed text) && q.appliesTo t) = true ↔
      q.IsSpelled text ∧ t ∈ q.resourceTypes := by
    intro q
    rw [Bool.and_eq_true, decide_eq_true_eq, isNamed_iff_isSpelled, appliesTo,
      List.contains_iff_mem]
  rw [forResource]
  cases hfind : values.find? fun q => decide (q.IsNamed text) && q.appliesTo t with
  | none =>
    have hnone := List.find?_eq_none.1 hfind p (mem_values p)
    rw [hmeets] at hnone
    constructor
    · rintro ⟨⟩
    · intro h
      exact absurd h hnone
  | some q =>
    have hfound := List.find?_some hfind
    have hq := (hmeets q).1 hfound
    constructor
    · rintro ⟨⟩
      exact hq
    · rintro ⟨hp, -⟩
      rw [eq_of_isSpelled hp hq.1]

theorem eq_unknownPermission_of_forResource {e : Fault} (h : forResource text t = .error e) :
    e = .unknownPermission text t := by
  rw [forResource] at h
  split at h
  · cases h
  · exact (Except.error.inj h).symm

/-- It fails if there is none, with the text as it is. -/
theorem forResource_eq_error_iff {e : Fault} :
    forResource text t = .error e ↔
      (∀ p : Permission, p.IsSpelled text → t ∉ p.resourceTypes) ∧
        e = .unknownPermission text t := by
  constructor
  · intro h
    refine ⟨?_, eq_unknownPermission_of_forResource h⟩
    intro p hp ht
    rw [forResource_eq_ok_iff.2 ⟨hp, ht⟩] at h
    cases h
  · rintro ⟨hnone, rfl⟩
    cases h : forResource text t with
    | ok p =>
      obtain ⟨hp, ht⟩ := forResource_eq_ok_iff.1 h
      exact absurd ht (hnone p hp)
    | error e => rw [eq_unknownPermission_of_forResource h]

end Permission

end TaskAccess
