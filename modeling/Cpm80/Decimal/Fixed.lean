import Cpm80.Decimal.Binary

/-!
Contract: numbers with a fixed count of decimal places.

The exact value is rounded, and a value halfway between two neighbours goes to the
even one.

Owns:
- the rounding of a quotient to an integer;
- setting the point before the last places of an integer.

Does not own: the count of places that any report shows.
-/

namespace Cpm80.Decimal

/-- The integer nearest to a quotient; of two equally near ones, the even one. -/
def roundQuotient (numerator denominator : Nat) : Nat :=
  let quotient := numerator / denominator
  match compare (2 * (numerator % denominator)) denominator with
  | .lt => quotient
  | .gt => quotient + 1
  | .eq => quotient + quotient % 2

/-- The rounded quotient is at most half a unit away from the exact one. -/
theorem roundQuotient_near (numerator denominator : Nat) (positive : 0 < denominator) :
    2 * (roundQuotient numerator denominator * denominator) ≤ 2 * numerator + denominator ∧
      2 * numerator ≤ 2 * (roundQuotient numerator denominator * denominator) + denominator := by
  have divided : denominator * (numerator / denominator) + numerator % denominator = numerator :=
    Nat.div_add_mod numerator denominator
  have small : numerator % denominator < denominator := Nat.mod_lt _ positive
  have above : (numerator / denominator + 1) * denominator =
      denominator * (numerator / denominator) + denominator := by
    rw [Nat.add_mul, Nat.mul_comm, Nat.one_mul]
  have below : numerator / denominator * denominator =
      denominator * (numerator / denominator) := Nat.mul_comm _ _
  simp only [roundQuotient]
  split
  · next order =>
    rw [Nat.compare_eq_lt] at order
    omega
  · next order =>
    rw [Nat.compare_eq_gt] at order
    omega
  · next order =>
    rw [Nat.compare_eq_eq] at order
    rcases Nat.mod_two_eq_zero_or_one (numerator / denominator) with even | odd
    · rw [even, Nat.add_zero]
      omega
    · rw [odd]
      omega

/-- A quotient halfway between two integers is rounded to the even one. -/
theorem roundQuotient_half_even (numerator denominator : Nat)
    (half : 2 * (numerator % denominator) = denominator) :
    roundQuotient numerator denominator % 2 = 0 := by
  simp only [roundQuotient]
  rw [half, Nat.compare_eq_eq.2 rfl]
  simp only
  omega

/-- The decimal digits of a number with the point before the last `places` of them,
and at least one digit before the point. Without places there is no point. -/
def pointed (places number : Nat) : String :=
  if places = 0 then toString number
  else
    let digits := (toString number).toList
    let padded := List.replicate (places + 1 - digits.length) '0' ++ digits
    let whole := padded.length - places
    String.ofList (padded.take whole ++ '.' :: padded.drop whole)

def Binary.fixed (places : Nat) (binary : Binary) : String :=
  pointed places (roundQuotient (binary.numerator * Nat.pow 10 places) binary.denominator)

def fixed (places : Nat) (number : Float) : String :=
  (Parts.ofBits number.toBits).render (Binary.fixed places)

end Cpm80.Decimal
