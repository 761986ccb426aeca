/-!
# The shortest decimal of a floating-point number

A finite floating-point number stands for all the reals that round to it.  Of the
decimals among those, the ones with the fewest digits are kept, and of these the
nearest; of two that are equally near, the greater.

## Main definitions

* `Decimal.Binary` — a finite number, as a natural number times a power of two.
* `Decimal.Binary.covers` — a decimal is among the reals that round to the number.
* `Decimal.Binary.candidate?` — the nearest decimal on a grid that is.
* `Decimal.Binary.shortest` — the first of these on ever finer grids.
-/

namespace TaskAccess.Decimal

/-- The number `digits * 10 ^ exponent`. -/
structure Scaled where
  digits : Nat
  exponent : Int
  deriving DecidableEq, Repr

/-- The number `significand * 2 ^ exponent`, as a floating-point number of 64 bits. -/
structure Binary where
  significand : Nat
  exponent : Int
  /-- The number below is only half as far away as the number above. -/
  narrowBelow : Bool
  deriving DecidableEq, Repr

namespace Binary

/-- The magnitude of a finite floating-point number, from its bits. -/
def ofBits (bits : UInt64) : Binary :=
  let biased : Nat := ((bits >>> 52) &&& 0x7ff).toNat
  let fraction : Nat := (bits &&& 0xfffffffffffff).toNat
  if biased = 0 then ⟨fraction, -1074, false⟩
  else ⟨0x10000000000000 + fraction, (biased : Int) - 1075, fraction == 0 && biased != 1⟩

/-- Compares `a * 10 ^ i` with `b * 2 ^ j`. -/
def compareScaled (a : Nat) (i : Int) (b : Nat) (j : Int) : Ordering :=
  compare (a * Nat.pow 10 i.toNat * Nat.pow 2 (-j).toNat)
    (b * Nat.pow 2 j.toNat * Nat.pow 10 (-i).toNat)

/-- The decimal is among the reals that round to the number: no further away than
half the gap on its side, and exactly half only if the significand is even. -/
def covers (x : Binary) (d : Scaled) : Bool :=
  let quarter := x.exponent - 2
  let low := if x.narrowBelow then 4 * x.significand - 1 else 4 * x.significand - 2
  let high := 4 * x.significand + 2
  let endsIncluded := x.significand % 2 == 0
  let fromLow := compareScaled d.digits d.exponent low quarter
  let fromHigh := compareScaled d.digits d.exponent high quarter
  (fromLow == .gt || (endsIncluded && fromLow == .eq)) &&
    (fromHigh == .lt || (endsIncluded && fromHigh == .eq))

/-- The greatest multiple of `10 ^ e` that is not above the number, in these units. -/
def floorUnits (x : Binary) (e : Int) : Nat :=
  (x.significand * Nat.pow 2 x.exponent.toNat * Nat.pow 10 (-e).toNat) /
    (Nat.pow 2 (-x.exponent).toNat * Nat.pow 10 e.toNat)

/-- The multiple of `10 ^ e` that is nearest to the number, if one of its two
neighbours among them rounds to it. -/
def candidate? (x : Binary) (e : Int) : Option Scaled :=
  let n := x.floorUnits e
  let below : Scaled := ⟨n, e⟩
  let above : Scaled := ⟨n + 1, e⟩
  match x.covers below, x.covers above with
  | true, true =>
    -- twice the number against the sum of the two
    if compareScaled (2 * n + 1) e (2 * x.significand) x.exponent == .gt then some below
    else some above
  | true, false => some below
  | false, true => some above
  | false, false => none

/-- The number of decimal digits before the point, and less the number of zeros
after it if there are none before it. -/
def scale (x : Binary) : Int :=
  let digits := (Nat.repr (x.floorUnits 0)).length
  if x.floorUnits 0 ≠ 0 then digits
  else
    -- no positive number is below 10 ^ (-324)
    let shifted := (Nat.repr (x.floorUnits (-340))).length
    (shifted : Int) - 340

/-- The first candidate on the grids of one digit, two digits and so on. -/
def firstCandidate? (x : Binary) (scale : Int) : (digits : Nat) → (tries : Nat) → Option Scaled
  | _, 0 => none
  | digits, tries + 1 =>
    match x.candidate? (scale - digits) with
    | some d => some d
    | none => firstCandidate? x scale (digits + 1) tries

/-- The shortest decimal of a positive number.  Seventeen digits are always enough. -/
def shortest (x : Binary) : Scaled :=
  (x.firstCandidate? x.scale 1 17).getD ⟨x.floorUnits 0, 0⟩

end Binary

end TaskAccess.Decimal
