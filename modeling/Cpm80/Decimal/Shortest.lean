import Cpm80.Decimal.Fixed

/-!
Contract: numbers with the fewest digits that identify them.

A decimal identifies a number of double precision if it lies among the reals that
round to the number. Of the decimals with the fewest digits the nearest is taken,
and of two equally near ones the larger. The result is written without an exponent.

Owns:
- the test whether a decimal reads back as a number;
- the search for the shortest such decimal, in exact arithmetic.

Does not own: numbers of other precisions.
-/

namespace Cpm80.Decimal

/-- `digits` times ten to the `exponent`. -/
structure Scaled where
  digits : Nat
  exponent : Int
deriving DecidableEq, Repr

/-- How a decimal compares with `number` times two to the `power`. -/
def Scaled.compareScaled (decimal : Scaled) (number : Nat) (power : Int) : Ordering :=
  compare ((decimal.digits * Nat.pow 10 decimal.exponent.toNat) <<< (-power).toNat)
    ((number * Nat.pow 10 (-decimal.exponent).toNat) <<< power.toNat)

namespace Binary

/-- Whether a decimal lies among the reals that round to this magnitude. The ends,
halfway to the neighbours, belong to it exactly if the significand is even. -/
def readsBack (binary : Binary) (decimal : Scaled) : Bool :=
  let lowest := 4 * binary.significand - (if binary.narrowBelow then 1 else 2)
  let highest := 4 * binary.significand + 2
  let even := binary.significand % 2 == 0
  let fromBelow := decimal.compareScaled lowest (binary.exponent - 2)
  let fromAbove := decimal.compareScaled highest (binary.exponent - 2)
  (fromBelow == .gt || (even && fromBelow == .eq)) &&
    (fromAbove == .lt || (even && fromAbove == .eq))

/-- The least power of ten above a magnitude that is not zero. -/
def scale (binary : Binary) : Int :=
  if binary.denominator ≤ binary.numerator then
    ((Nat.toDigits 10 (binary.numerator / binary.denominator)).length : Int)
  else
    1 - ((Nat.toDigits 10 ((binary.denominator - 1) / binary.numerator)).length : Int)

/-- The decimal just below or at a magnitude among the multiples of a power of ten. -/
def below (binary : Binary) (exponent : Int) : Scaled :=
  ⟨binary.numerator * Nat.pow 10 (-exponent).toNat /
    (binary.denominator * Nat.pow 10 exponent.toNat), exponent⟩

/-- The decimal to use among the multiples of a power of ten, if one reads back. -/
def onGrid? (binary : Binary) (exponent : Int) : Option Scaled :=
  let lower := binary.below exponent
  let upper : Scaled := ⟨lower.digits + 1, exponent⟩
  let middle : Scaled := ⟨10 * lower.digits + 5, exponent - 1⟩
  match binary.readsBack lower, binary.readsBack upper with
  | true, true =>
    if middle.compareScaled binary.significand binary.exponent == .gt then some lower
    else some upper
  | true, false => some lower
  | false, true => some upper
  | false, false => none

/-- The first decimal that reads back on grids of `count` sizes, the coarsest first. -/
def search (binary : Binary) : Nat → Int → Option Scaled
  | 0, _ => none
  | count + 1, exponent =>
    match binary.onGrid? exponent with
    | some decimal => some decimal
    | none => binary.search count (exponent - 1)

/-- The shortest decimal that reads back. Seventeen digits are always enough; were
they not, the exact value would stand in. -/
def shortest (binary : Binary) : Scaled :=
  match binary.search 17 (binary.scale - 1) with
  | some decimal => decimal
  | none =>
    ⟨binary.numerator * Nat.pow 10 (-binary.exponent).toNat / binary.denominator,
      binary.exponent⟩

end Binary

/-- Drops zeros at the end of the digits, as many as `places`, while there are any. -/
def Scaled.trim : Nat → Scaled → Scaled
  | 0, decimal => decimal
  | places + 1, decimal =>
    if decimal.digits % 10 = 0 then Scaled.trim places ⟨decimal.digits / 10, decimal.exponent + 1⟩
    else decimal

/-- A decimal without an exponent and without zeros behind the last place. -/
def Scaled.positional (decimal : Scaled) : String :=
  let short := decimal.trim (-decimal.exponent).toNat
  if 0 ≤ short.exponent then toString (short.digits * Nat.pow 10 short.exponent.toNat)
  else pointed (-short.exponent).toNat short.digits

def Binary.shortestText (binary : Binary) : String :=
  if binary.significand = 0 then "0" else binary.shortest.positional

/-- A number with the fewest digits that identify it. -/
def shortest (number : Float) : String :=
  (Parts.ofBits number.toBits).render Binary.shortestText

end Cpm80.Decimal
