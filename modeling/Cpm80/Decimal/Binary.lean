/-!
Contract: floating-point numbers as exact fractions.

Owns:
- the parts of a number of double precision: special values, sign, and an integer
  times a power of two;
- that magnitude as a quotient of natural numbers.

Does not own: rounding to decimal places or digits.
-/

namespace Cpm80.Decimal

/-- The magnitude of a finite number: `significand` times two to the `exponent`. -/
structure Binary where
  significand : Nat
  exponent : Int
  /-- The next smaller number is half as far away as the next larger one. -/
  narrowBelow : Bool
deriving DecidableEq, Repr

inductive Parts where
  | nan
  | infinite (negative : Bool)
  | finite (negative : Bool) (magnitude : Binary)
deriving DecidableEq, Repr

/-- The parts that the bits of a number of double precision spell. -/
def Parts.ofBits (bits : UInt64) : Parts :=
  let negative := bits.toBitVec.getLsbD 63
  let exponent := ((bits >>> 52) &&& 0x7ff).toNat
  let fraction := (bits &&& 0xfffffffffffff).toNat
  if exponent = 0x7ff then
    if fraction = 0 then .infinite negative else .nan
  else if exponent = 0 then .finite negative ⟨fraction, -1074, false⟩
  else
    .finite negative ⟨0x10000000000000 + fraction, (exponent : Int) - 1075, fraction == 0 && 1 < exponent⟩

namespace Binary

/-- The numerator of the magnitude as a quotient. -/
def numerator (binary : Binary) : Nat :=
  binary.significand <<< binary.exponent.toNat

/-- The denominator of the magnitude as a quotient. -/
def denominator (binary : Binary) : Nat :=
  1 <<< (-binary.exponent).toNat

theorem denominator_pos (binary : Binary) : 0 < binary.denominator := by
  rw [denominator, Nat.one_shiftLeft]
  exact Nat.two_pow_pos _

end Binary

/-- The text of a number, given how a finite magnitude is written. -/
def Parts.render (magnitudeText : Binary → String) : Parts → String
  | .nan => "NaN"
  | .infinite negative => if negative then "-inf" else "inf"
  | .finite negative magnitude =>
    if negative then "-" ++ magnitudeText magnitude else magnitudeText magnitude

end Cpm80.Decimal
