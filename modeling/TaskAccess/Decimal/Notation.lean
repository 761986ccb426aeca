import TaskAccess.Decimal.Shortest
import TaskAccess.Text.Digits

/-!
# Floating-point numbers as text

Numbers are written with the fewest digits that identify them, always with a
point and never with an exponent, and without a point if they are whole.  They are
read with or without an exponent.

## Main definitions

* `Decimal.write` — the text of a number.
* `Decimal.read?` — the number nearest to a text.
* `Decimal.roundToNat` — the nearest natural number, a half going up.
-/

namespace TaskAccess.Decimal

open Text

/-- Writes a decimal with a point and no exponent.  Zeros at the end of the digits
do not count as digits. -/
def Scaled.writePositional (d : Scaled) : String :=
  let all := (Nat.repr d.digits).toList
  let digits := (all.reverse.dropWhile (· == '0')).reverse
  let exponent := d.exponent + (all.length - digits.length : Nat)
  if 0 ≤ exponent then
    String.ofList (digits ++ List.replicate exponent.toNat '0')
  else
    let places := (-exponent).toNat
    let padded := List.replicate (places + 1 - digits.length) '0' ++ digits
    let whole := padded.length - places
    String.ofList (padded.take whole ++ '.' :: padded.drop whole)

/-- The text of a number. -/
def write (x : Float) : String :=
  if x.isNaN then "NaN"
  else
    let sign := if x.toBits ≥ 0x8000000000000000 then "-" else ""
    let magnitude := x.toBits &&& 0x7fffffffffffffff
    sign ++
      (if x.isInf then "inf"
        else if magnitude = 0 then "0"
        else (Binary.ofBits magnitude).shortest.writePositional)

/-- The number nearest to `mantissa * 10 ^ exponent`. -/
def nearest (mantissa : Nat) (exponent : Int) : Float :=
  -- far outside the range there is no need for the power of ten
  let order := exponent + (Nat.repr mantissa).length
  if mantissa = 0 || order < -400 then 0.0
  else if order > 400 then 1.0 / 0.0
  else Float.ofScientific mantissa (exponent < 0) exponent.natAbs

/-- The sign in front of a text, and the rest. -/
def splitSign : List Char → Bool × List Char
  | '-' :: rest => (true, rest)
  | '+' :: rest => (false, rest)
  | s => (false, s)

/-- Reads digits with an optional point among them, behind or in front of them, and
an optional exponent. -/
def readUnsigned? (s : List Char) : Option Float := do
  let whole := s.takeWhile Char.isDigit
  let rest := s.drop whole.length
  let (fraction, rest) := match rest with
    | '.' :: more => (more.takeWhile Char.isDigit, more.dropWhile Char.isDigit)
    | _ => ([], rest)
  let mantissa ← readNat? 10 (whole ++ fraction)
  let exponent ← match rest with
    | [] => some (0 : Int)
    | c :: more =>
      if c = 'e' || c = 'E' then
        let (negative, digits) := splitSign more
        (readNat? 10 digits).map fun n => if negative then -(n : Int) else n
      else none
  return nearest mantissa (exponent - fraction.length)

/-- Reads a number with an optional sign; the names of infinity and of what is not
a number may be in either case. -/
def read? (s : String) : Option Float := do
  let (negative, rest) := splitSign s.toList
  let name := String.ofList (rest.map Char.toLower)
  let magnitude ←
    if name = "inf" || name = "infinity" then some (1.0 / 0.0)
    else if name = "nan" then some (0.0 / 0.0)
    else readUnsigned? rest
  return if negative then -magnitude else magnitude

/-- The nearest natural number below `2 ^ 64`, a half going up; numbers outside the
range go to its nearer end, and what is not a number to zero. -/
def roundToNat (x : Float) : Nat := x.round.toUInt64.toNat

end TaskAccess.Decimal
