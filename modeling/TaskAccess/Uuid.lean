import TaskAccess.Text.Digits

/-!
# Identifiers of records

Records are identified by words of 128 bits, written as thirty-two hexadecimal
digits in five groups.  New identifiers are of version 7 and carry the last time
stamp of that layout with a serial number behind it.  So an identifier tells whether
it was made by a clock or has a serial number, and which one; a new one meets none in
use as long as those in use have smaller numbers, or none at all.

## Main definitions

* `Uuid` — the word.
* `Uuid.text` — lower case, with hyphens between the groups.
* `Uuid.read?` — the accepted forms: plain digits, groups, groups in braces, and
  groups behind the marker of a resource name.
* `Uuid.numbered`, `Uuid.serial?` — the identifier with a serial number, and back.

## Main results

* `Uuid.read?_text` — the written form reads back.
* `Uuid.serial?_numbered` — serial numbers keep new identifiers apart.
-/

namespace TaskAccess

open Text

/-- The identifier of a record. -/
structure Uuid where
  /-- The identifier as a word. -/
  value : BitVec 128
  deriving DecidableEq, Repr, Inhabited

namespace Uuid

/-- The lengths of the groups of digits. -/
def groupLengths : List Nat := [8, 4, 4, 4, 12]

/-- Puts a hyphen between groups of the given lengths. -/
def group : List Nat → List Char → List Char
  | [], s => s
  | [_], s => s
  | n :: rest, s => s.take n ++ '-' :: group rest (s.drop n)

/-- Removes the hyphens between groups of the given lengths. -/
def ungroup? : List Nat → List Char → Option (List Char)
  | [], s => if s.isEmpty then some [] else none
  | [n], s => if s.length = n then some s else none
  | n :: rest, s =>
    match s.drop n with
    | '-' :: more => (ungroup? rest more).map (s.take n ++ ·)
    | _ => none

/-- The written form: lower-case digits in groups. -/
def text (u : Uuid) : String :=
  String.ofList (group groupLengths (fixedHex 32 u.value.toNat))

/-- The thirty-two digits of an accepted form. -/
def digits? (s : List Char) : Option (List Char) :=
  if s.length = 32 then some s
  else if s.length = 36 then ungroup? groupLengths s
  else
    match s with
    | '\x7b' :: rest =>
      if rest.getLast? = some '\x7d' then ungroup? groupLengths rest.dropLast else none
    | 'u' :: 'r' :: 'n' :: ':' :: 'u' :: 'u' :: 'i' :: 'd' :: ':' :: rest =>
      ungroup? groupLengths rest
    | _ => none

/-- Reads an accepted form, with digits of either case. -/
def read? (s : String) : Option Uuid :=
  (digits? s.toList).bind fun ds => (readNat? 16 ds).map fun n => ⟨BitVec.ofNat 128 n⟩

/-- The identifier of version 7 with the last time stamp and serial number 0. -/
def serialBase : Nat := 0xffffffffffff70008000000000000000

/-- The number of serial numbers. -/
def serialCount : Nat := 0x4000000000000000

/-- The new identifier with a serial number. -/
def numbered (n : Nat) : Uuid := ⟨BitVec.ofNat 128 (serialBase + n % serialCount)⟩

/-- The serial number of an identifier that has one. -/
def serial? (u : Uuid) : Option Nat :=
  if serialBase ≤ u.value.toNat ∧ u.value.toNat < serialBase + serialCount then
    some (u.value.toNat - serialBase)
  else none

/-! ### The written form reads back -/

theorem ungroup?_group (ns : List Nat) (s : List Char) (hns : ns ≠ [])
    (hs : s.length = ns.foldr (· + ·) 0) : ungroup? ns (group ns s) = some s := by
  induction ns generalizing s with
  | nil => exact absurd rfl hns
  | cons n rest ih =>
    cases rest with
    | nil =>
      have hn : s.length = n := by simpa using hs
      simp [ungroup?, group, hn]
    | cons m more =>
      have hn : n ≤ s.length := by rw [hs, List.foldr_cons]; omega
      have hlen : (s.drop n).length = (m :: more).foldr (· + ·) 0 := by
        rw [List.length_drop, hs, List.foldr_cons]; omega
      have htake : (s.take n).length = n := by rw [List.length_take]; omega
      rw [group, ungroup?, List.drop_append_of_le_length (by omega),
        List.drop_of_length_le (by omega)]
      · simp only [List.nil_append]
        rw [ih _ (by simp) hlen]
        simp [htake]
      · simp
      · simp

/-- The written form reads back. -/
@[simp] theorem read?_text (u : Uuid) : read? u.text = some u := by
  have hlen := length_fixedHex 32 u.value.toNat
  have hgroup : (group groupLengths (fixedHex 32 u.value.toNat)).length = 36 := by
    simp [group, groupLengths, hlen]
  have hun := ungroup?_group groupLengths (fixedHex 32 u.value.toNat) (by simp [groupLengths])
    (by rw [hlen]; rfl)
  have hlt : u.value.toNat < Nat.pow 16 32 := u.value.isLt
  have hread : readNat? 16 (fixedHex 32 u.value.toNat) = some u.value.toNat := by
    have hne : (fixedHex 32 u.value.toNat).isEmpty = false := by
      cases h : fixedHex 32 u.value.toNat with
      | nil => rw [h] at hlen; cases hlen
      | cons c rest => rfl
    rw [readNat?, hne, readDigits?_fixedHex, Nat.mod_eq_of_lt hlt]
    rfl
  simp [read?, text, digits?, hgroup, hun, hread]

/-- Serial numbers keep new identifiers apart. -/
theorem serial?_numbered {n : Nat} (h : n < serialCount) :
    (numbered n).serial? = some n := by
  have hmod : n % serialCount = n := Nat.mod_eq_of_lt h
  rw [serialCount] at h
  have hval : (numbered n).value.toNat = serialBase + n := by
    rw [numbered, hmod, BitVec.toNat_ofNat]
    apply Nat.mod_eq_of_lt
    simp only [serialBase]
    omega
  simp only [serial?, hval, serialCount]
  rw [if_pos ⟨by omega, by omega⟩, Nat.add_sub_cancel_left]

end Uuid

end TaskAccess
