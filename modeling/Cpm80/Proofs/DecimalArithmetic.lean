import Cpm80.Proofs.MultiByte

/-!
Contract: decimal adjustment as arithmetic on packed digits.

A packed byte holds two decimal digits, one in each half. Binary addition or
subtraction of packed bytes leaves in the flags what decimal adjustment needs to
find the digits again, and the carry between bytes of a decimal number.

Owns:
- packed bytes and the numbers that they spell;
- what decimal adjustment adds or takes away, and the carry that it gives;
- addition and subtraction of packed bytes as operations on digits of base 100.

Does not own: decimal adjustment of bytes that are not packed.
-/

namespace Cpm80

/-! ## Packed digits -/

/-- Whether both halves of a byte are decimal digits. -/
def Packed (byte : UInt8) : Prop :=
  byte.toNat / 16 ≤ 9 ∧ byte.toNat % 16 ≤ 9

instance (byte : UInt8) : Decidable (Packed byte) :=
  inferInstanceAs (Decidable (byte.toNat / 16 ≤ 9 ∧ byte.toNat % 16 ≤ 9))

/-- The number that the halves of a byte spell as decimal digits. -/
def packedValue (byte : UInt8) : Nat :=
  10 * (byte.toNat / 16) + byte.toNat % 16

theorem Packed.value_lt {byte : UInt8} (packed : Packed byte) : packedValue byte < 100 := by
  obtain ⟨upper, lower⟩ := packed
  unfold packedValue
  omega

namespace Arithmetic

/-! ## Adjustment -/

theorem toNat_and_lowerHalf (byte : UInt8) : (byte &&& 0x0f).toNat = byte.toNat % 16 := by
  rw [UInt8.toNat_and]
  exact Nat.and_two_pow_sub_one_eq_mod byte.toNat 4

section Adjustment

variable {accumulator : UInt8} {flags : Flags} {lowCarry highCarry : Prop} [Decidable lowCarry]
  [Decidable highCarry]

theorem decide_outOfRange
    (high : flags.carry = true ∨ 0x99 < accumulator.toNat ↔ highCarry) :
    (flags.carry || 0x99 < accumulator) = decide highCarry := by
  rw [Bool.eq_iff_iff, decide_eq_true_iff, ← high, Bool.or_eq_true, decide_eq_true_iff,
    UInt8.lt_iff_toNat_lt]
  rfl

/-- Each digit out of which a carry comes is moved by six, the distance between the
bases. -/
theorem toNat_decimalCorrection
    (low : flags.half = true ∨ 9 < accumulator.toNat % 16 ↔ lowCarry)
    (high : flags.carry = true ∨ 0x99 < accumulator.toNat ↔ highCarry) :
    (decimalCorrection accumulator flags).toNat =
      (if lowCarry then 6 else 0) + if highCarry then 0x60 else 0 := by
  have lowTest : (flags.half || 9 < accumulator &&& 0x0f) = decide lowCarry := by
    rw [Bool.eq_iff_iff, decide_eq_true_iff, ← low, Bool.or_eq_true, decide_eq_true_iff,
      UInt8.lt_iff_toNat_lt, toNat_and_lowerHalf]
    rfl
  simp only [decimalCorrection, lowTest, decide_outOfRange high, decide_eq_true_eq]
  split_ifs <;> rfl

theorem toNat_decimalAdjust_sum (sum : flags.subtract = false) :
    (decimalAdjust accumulator flags).1.toNat =
      (accumulator.toNat + (decimalCorrection accumulator flags).toNat) % 256 := by
  simp only [decimalAdjust, sum, Bool.false_eq_true, if_false]
  exact UInt8.toNat_add _ _

theorem toNat_decimalAdjust_difference (difference : flags.subtract = true) :
    (decimalAdjust accumulator flags).1.toNat =
      (256 - (decimalCorrection accumulator flags).toNat + accumulator.toNat) % 256 := by
  simp only [decimalAdjust, difference, if_true]
  exact UInt8.toNat_sub _ _

theorem carry_decimalAdjust
    (high : flags.carry = true ∨ 0x99 < accumulator.toNat ↔ highCarry) :
    (decimalAdjust accumulator flags).2.carry = decide highCarry :=
  decide_outOfRange high

end Adjustment

/-! ## Sums and differences of packed bytes

The accumulator and the flags are those of the binary operation: what is needed of
them is the total that they make up with the carry, the half carry, and which of the
two operations it was. -/

section Digits

variable {left right accumulator : UInt8} {flags : Flags} {carry : Bool}

theorem decimalAdjust_sum (packedLeft : Packed left) (packedRight : Packed right)
    (total : accumulator.toNat + 256 * flags.carry.toNat =
      left.toNat + right.toNat + carry.toNat)
    (half : flags.half = decide (15 < left.toNat % 16 + right.toNat % 16 + carry.toNat))
    (sum : flags.subtract = false) :
    Packed (decimalAdjust accumulator flags).1 ∧
      packedValue (decimalAdjust accumulator flags).1 +
          100 * (decimalAdjust accumulator flags).2.carry.toNat =
        packedValue left + packedValue right + carry.toNat := by
  have carryBound := carry.toNat_le
  have low : flags.half = true ∨ 9 < accumulator.toNat % 16 ↔
      9 < left.toNat % 16 + right.toNat % 16 + carry.toNat := by
    rw [half, decide_eq_true_iff]
    omega
  have high : flags.carry = true ∨ 0x99 < accumulator.toNat ↔
      0x99 < left.toNat + right.toNat + carry.toNat := by
    have bound := accumulator.toNat_lt
    cases carries : flags.carry <;> simp [carries] at total ⊢ <;> omega
  have result : (decimalAdjust accumulator flags).1.toNat = _ := toNat_decimalAdjust_sum sum
  rw [toNat_decimalCorrection low high] at result
  rw [carry_decimalAdjust high]
  unfold Packed packedValue at *
  split_ifs at result with lowCarries highCarries <;> simp [*] <;> omega

theorem decimalAdjust_difference (packedLeft : Packed left) (packedRight : Packed right)
    (total : accumulator.toNat + right.toNat + carry.toNat =
      left.toNat + 256 * flags.carry.toNat)
    (half : flags.half = decide (left.toNat % 16 < right.toNat % 16 + carry.toNat))
    (difference : flags.subtract = true) :
    Packed (decimalAdjust accumulator flags).1 ∧
      packedValue (decimalAdjust accumulator flags).1 + packedValue right + carry.toNat =
        packedValue left + 100 * (decimalAdjust accumulator flags).2.carry.toNat := by
  have carryBound := carry.toNat_le
  unfold Packed at packedLeft packedRight
  have low : flags.half = true ∨ 9 < accumulator.toNat % 16 ↔
      left.toNat % 16 < right.toNat % 16 + carry.toNat := by
    rw [half, decide_eq_true_iff]
    omega
  have high : flags.carry = true ∨ 0x99 < accumulator.toNat ↔
      left.toNat < right.toNat + carry.toNat := by
    have bound := accumulator.toNat_lt
    cases carries : flags.carry <;> simp [carries] at total ⊢ <;> omega
  have result : (decimalAdjust accumulator flags).1.toNat = _ :=
    toNat_decimalAdjust_difference difference
  rw [toNat_decimalCorrection low high] at result
  rw [carry_decimalAdjust high]
  unfold Packed packedValue at *
  split_ifs at result with lowCarries highCarries <;> simp [*] <;> omega

end Digits

end Arithmetic

/-! ## Digits of base 100 -/

namespace Chained

/-- A binary operation and the decimal adjustment of what comes of it. -/
def combineDecimal (operation : Chained) (left right : UInt8) (flags : Flags) :
    UInt8 × Flags :=
  let binary := operation.combine left right flags
  Arithmetic.decimalAdjust binary.1 binary.2

theorem total_combineDecimal (operation : Chained) {left right : UInt8}
    (packedLeft : Packed left) (packedRight : Packed right) (flags : Flags) :
    Packed (operation.combineDecimal left right flags).1 ∧
      operation.total (packedValue left) (packedValue right) flags.carry.toNat =
        packedValue (operation.combineDecimal left right flags).1 +
          (100 : Nat) *
            operation.total 0 0 (operation.combineDecimal left right flags).2.carry.toNat := by
  cases operation with
  | addition =>
    obtain ⟨packed, sum⟩ := Arithmetic.decimalAdjust_sum packedLeft packedRight
      (Arithmetic.toNat_add left right flags.carry)
      (Arithmetic.half_add left right flags.carry) rfl
    refine ⟨packed, ?_⟩
    simp only [total, combineDecimal, combine]
    omega
  | subtraction =>
    obtain ⟨packed, difference⟩ := Arithmetic.decimalAdjust_difference packedLeft packedRight
      (Arithmetic.toNat_sub left right flags.carry)
      (Arithmetic.half_sub left right flags.carry) rfl
    refine ⟨packed, ?_⟩
    simp only [total, combineDecimal, combine]
    omega

theorem digitwiseDecimal (operation : Chained) :
    Digitwise operation 100 packedValue Packed operation.combineDecimal where
  base_gt := by decide
  small _ packed := packed.value_lt
  keeps _ _ flags packedLeft packedRight :=
    (operation.total_combineDecimal packedLeft packedRight flags).1
  total _ _ flags packedLeft packedRight :=
    (operation.total_combineDecimal packedLeft packedRight flags).2

end Chained

/-- The number that packed bytes spell in decimal, the lowest digits first. -/
def packedLittleEndian (bytes : List UInt8) : Nat :=
  spelled 100 packedValue bytes

end Cpm80
