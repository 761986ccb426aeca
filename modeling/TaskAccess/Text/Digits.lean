/-!
# Numbers in a positional system

Digits of either case up to base thirty-six, numbers read from a non-empty run of
digits, and numbers written with no leading zero or in a fixed width.

## Main definitions

* `digitValue?` — the value of a digit in a base.
* `readNat?` — the number that a non-empty run of digits stands for.
* `hexDigits` — the shortest hexadecimal form of a number.
* `fixedHex` — its last digits, filled up with zeros to a width.

## Main results

* `readNat?_hexDigits`, `readDigits?_fixedHex` — what is written reads back.
-/

namespace TaskAccess.Text

/-- The value of a digit of either case, if the base has it. -/
def digitValue? (base : Nat) (c : Char) : Option Nat :=
  let n := c.toNat
  let value :=
    if 48 ≤ n && n ≤ 57 then n - 48
    else if 97 ≤ n && n ≤ 122 then n - 87
    else if 65 ≤ n && n ≤ 90 then n - 55
    else base
  if value < base then some value else none

/-- Continues the number `acc` by the given digits. -/
def readDigits? (base acc : Nat) : List Char → Option Nat
  | [] => some acc
  | c :: rest => (digitValue? base c).bind fun d => readDigits? base (acc * base + d) rest

/-- The number that a non-empty run of digits stands for. -/
def readNat? (base : Nat) (s : List Char) : Option Nat :=
  if s.isEmpty then none else readDigits? base 0 s

/-- The lower-case hexadecimal digit of a number below sixteen. -/
def hexDigit (n : Nat) : Char := Nat.digitChar n

/-- The hexadecimal form of a number, with no leading zero. -/
def hexDigits (n : Nat) : List Char :=
  if n < 16 then [hexDigit n] else hexDigits (n / 16) ++ [hexDigit (n % 16)]
termination_by n

/-- The last `width` hexadecimal digits of a number. -/
def fixedHex : (width : Nat) → Nat → List Char
  | 0, _ => []
  | width + 1, n => fixedHex width (n / 16) ++ [hexDigit (n % 16)]

/-! ### What is written reads back -/

theorem digitValue?_hexDigit {n : Nat} (h : n < 16) :
    digitValue? 16 (hexDigit n) = some n := by
  rcases n with _ | _ | _ | _ | _ | _ | _ | _ | _ | _ | _ | _ | _ | _ | _ | _ | n
  all_goals first | rfl | omega

theorem readDigits?_append (base acc : Nat) (s t : List Char) :
    readDigits? base acc (s ++ t)
      = (readDigits? base acc s).bind fun n => readDigits? base n t := by
  induction s generalizing acc with
  | nil => rfl
  | cons c rest ih =>
    simp only [List.cons_append, readDigits?]
    cases digitValue? base c with
    | none => rfl
    | some d => simpa using ih _

theorem hexDigits_ne_nil (n : Nat) : hexDigits n ≠ [] := by
  rw [hexDigits]
  split <;> simp

theorem readDigits?_hexDigits (n : Nat) : readDigits? 16 0 (hexDigits n) = some n := by
  induction n using hexDigits.induct with
  | case1 n h => rw [hexDigits, if_pos h]; simp [readDigits?, digitValue?_hexDigit h]
  | case2 n h ih =>
    rw [hexDigits, if_neg h, readDigits?_append, ih]
    simp only [Option.bind_some, readDigits?, digitValue?_hexDigit (Nat.mod_lt n (by decide))]
    congr 1
    omega

theorem readNat?_hexDigits (n : Nat) : readNat? 16 (hexDigits n) = some n := by
  simp [readNat?, hexDigits_ne_nil, readDigits?_hexDigits]

theorem readDigits?_fixedHex (width n : Nat) :
    readDigits? 16 0 (fixedHex width n) = some (n % Nat.pow 16 width) := by
  induction width generalizing n with
  | zero => simp [fixedHex, readDigits?, Nat.mod_one]
  | succ width ih =>
    rw [fixedHex, readDigits?_append, ih]
    simp only [Option.bind_some, readDigits?, digitValue?_hexDigit (Nat.mod_lt n (by decide))]
    rw [show Nat.pow 16 (width + 1) = 16 * Nat.pow 16 width from Nat.mul_comm _ _, Nat.mod_mul]
    congr 1
    omega

theorem length_fixedHex (width n : Nat) : (fixedHex width n).length = width := by
  induction width generalizing n with
  | zero => rfl
  | succ width ih => simp [fixedHex, ih]

end TaskAccess.Text
