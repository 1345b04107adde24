import Cpm80.Arithmetic
import Mathlib.Tactic.SplitIfs

/-!
Contract: addition and subtraction of bytes as arithmetic on integers.

Owns:
- the result and the carry of a byte operation as one number;
- the half carry as the carry out of the lower halves;
- bytes read as signed numbers;
- the sign and overflow flags, which together give the sign of the exact result;
- the overflow flag by itself, which says that the exact result is no signed byte.

Does not own: numbers of more than one byte.
-/

namespace Cpm80

/-! ## Single bits -/

theorem bitOf_xor (left right : UInt8) (index : Fin 8) :
    bitOf (left ^^^ right) (UInt8.ofNat index.val) =
      (bitOf left (UInt8.ofNat index.val) ^^ bitOf right (UInt8.ofNat index.val)) := by
  rw [bitOf_eq_getLsbD, bitOf_eq_getLsbD, bitOf_eq_getLsbD, UInt8.toBitVec_xor,
    BitVec.getLsbD_xor]

theorem bitOf_seven (byte : UInt8) : bitOf byte 7 = decide (128 ≤ byte.toNat) := by
  revert byte
  apply Instruction.forall_byte
  decide +kernel

theorem bitOf_seven_xor (left right : UInt8) :
    bitOf (left ^^^ right) 7 = (bitOf left 7 ^^ bitOf right 7) :=
  bitOf_xor left right 7

theorem bitOf_four (byte : UInt8) : bitOf byte 4 = decide (byte.toNat / 16 % 2 = 1) := by
  revert byte
  apply Instruction.forall_byte
  decide +kernel

theorem decide_odd_add (first second : Nat) :
    decide ((first + second) % 2 = 1) =
      (decide (first % 2 = 1) ^^ decide (second % 2 = 1)) := by
  rcases Nat.mod_two_eq_zero_or_one first with firstEven | firstOdd <;>
    rcases Nat.mod_two_eq_zero_or_one second with secondEven | secondOdd <;>
    simp [Nat.add_mod, *]

/-- Three bytes differ in bit 4 where their upper halves have an odd sum. -/
theorem bitOf_four_xor_xor (left right result : UInt8) :
    bitOf (left ^^^ right ^^^ result) 4 =
      decide ((left.toNat / 16 + right.toNat / 16 + result.toNat / 16) % 2 = 1) := by
  have outer : bitOf (left ^^^ right ^^^ result) 4 =
      (bitOf (left ^^^ right) 4 ^^ bitOf result 4) := bitOf_xor (left ^^^ right) result 4
  have inner : bitOf (left ^^^ right) 4 = (bitOf left 4 ^^ bitOf right 4) :=
    bitOf_xor left right 4
  rw [outer, inner, bitOf_four, bitOf_four, bitOf_four, decide_odd_add, decide_odd_add]

/-- A byte read as a signed number. -/
theorem bmod_toNat (byte : UInt8) :
    Int.bmod byte.toNat 256 = byte.toNat - if bitOf byte 7 then 256 else 0 := by
  revert byte
  apply Instruction.forall_byte
  decide +kernel

namespace Arithmetic

/-! ## Results and carries -/

theorem toNat_toUInt16_carry (carry : Bool) : carry.toUInt16.toNat = carry.toNat := by
  cases carry <;> rfl

theorem toNat_add (left right : UInt8) (carry : Bool) :
    (add left right carry).1.toNat + 256 * (add left right carry).2.carry.toNat =
      left.toNat + right.toNat + carry.toNat := by
  have leftBound := left.toNat_lt
  have rightBound := right.toNat_lt
  have carryBound := carry.toNat_le
  have wide : (left.toUInt16 + right.toUInt16 + carry.toUInt16).toNat =
      left.toNat + right.toNat + carry.toNat := by
    simp only [UInt16.toNat_add, UInt8.toNat_toUInt16, toNat_toUInt16_carry]
    omega
  simp only [add, UInt16.toNat_toUInt8, UInt16.lt_iff_toNat_lt, wide, UInt16.reduceToNat]
  by_cases carries : 255 < left.toNat + right.toNat + carry.toNat
  · rw [decide_eq_true carries, Bool.toNat_true]
    omega
  · rw [decide_eq_false carries, Bool.toNat_false]
    omega

theorem toNat_sub (left right : UInt8) (borrow : Bool) :
    (sub left right borrow).1.toNat + right.toNat + borrow.toNat =
      left.toNat + 256 * (sub left right borrow).2.carry.toNat := by
  have leftBound := left.toNat_lt
  have rightBound := right.toNat_lt
  have borrowBound := borrow.toNat_le
  have wide : (left.toUInt16 - right.toUInt16 - borrow.toUInt16).toNat =
      (left.toNat + 65536 - (right.toNat + borrow.toNat)) % 65536 := by
    simp only [UInt16.toNat_sub, UInt8.toNat_toUInt16, toNat_toUInt16_carry]
    omega
  simp only [sub, UInt16.toNat_toUInt8, UInt16.lt_iff_toNat_lt, wide, UInt16.reduceToNat]
  by_cases carries : 255 < (left.toNat + 65536 - (right.toNat + borrow.toNat)) % 65536
  · rw [decide_eq_true carries, Bool.toNat_true]
    omega
  · rw [decide_eq_false carries, Bool.toNat_false]
    omega

/-! ## Half carries -/

theorem half_add (left right : UInt8) (carry : Bool) :
    (add left right carry).2.half =
      decide (15 < left.toNat % 16 + right.toNat % 16 + carry.toNat) := by
  have total := toNat_add left right carry
  have carryBound := carry.toNat_le
  have half : (add left right carry).2.half =
      bitOf (left ^^^ right ^^^ (add left right carry).1) 4 := rfl
  rw [half, bitOf_four_xor_xor, decide_eq_decide]
  omega

theorem half_sub (left right : UInt8) (borrow : Bool) :
    (sub left right borrow).2.half =
      decide (left.toNat % 16 < right.toNat % 16 + borrow.toNat) := by
  have total := toNat_sub left right borrow
  have borrowBound := borrow.toNat_le
  have half : (sub left right borrow).2.half =
      bitOf (left ^^^ right ^^^ (sub left right borrow).1) 4 := rfl
  rw [half, bitOf_four_xor_xor, decide_eq_decide]
  omega

/-! ## Signs -/

/-- Operands of one sign give a sum of that sign. Others give a sum that is the result
read as a signed number. -/
theorem sign_xor_parity_add (left right : UInt8) (carry : Bool) :
    ((add left right carry).2.sign ^^ (add left right carry).2.parity) =
      if bitOf left 7 = bitOf right 7 then bitOf left 7
      else bitOf (add left right carry).1 7 := by
  have sign : (add left right carry).2.sign = bitOf (add left right carry).1 7 := rfl
  have overflow : (add left right carry).2.parity =
      (!bitOf (left ^^^ right) 7 && bitOf (left ^^^ (add left right carry).1) 7) := rfl
  rw [sign, overflow, bitOf_seven_xor, bitOf_seven_xor]
  cases bitOf left 7 <;> cases bitOf right 7 <;> simp

/-- Operands of two signs give a difference of the sign of the first. Others give a
difference that is the result read as a signed number. -/
theorem sign_xor_parity_sub (left right : UInt8) (borrow : Bool) :
    ((sub left right borrow).2.sign ^^ (sub left right borrow).2.parity) =
      if bitOf left 7 = bitOf right 7 then bitOf (sub left right borrow).1 7
      else bitOf left 7 := by
  have sign : (sub left right borrow).2.sign = bitOf (sub left right borrow).1 7 := rfl
  have overflow : (sub left right borrow).2.parity =
      (bitOf (left ^^^ right) 7 && bitOf (left ^^^ (sub left right borrow).1) 7) := rfl
  rw [sign, overflow, bitOf_seven_xor, bitOf_seven_xor]
  cases bitOf left 7 <;> cases bitOf right 7 <;> simp

theorem negative_add (left right : UInt8) (carry : Bool) :
    ((add left right carry).2.sign ^^ (add left right carry).2.parity) = true ↔
      Int.bmod left.toNat 256 + Int.bmod right.toNat 256 + carry.toNat < 0 := by
  have total := toNat_add left right carry
  have leftBound := left.toNat_lt
  have rightBound := right.toNat_lt
  have carryBound := carry.toNat_le
  have resultBound := (add left right carry).1.toNat_lt
  have overBound := (add left right carry).2.carry.toNat_le
  rw [sign_xor_parity_add, bmod_toNat, bmod_toNat]
  simp only [bitOf_seven, decide_eq_decide, decide_eq_true_eq]
  split_ifs <;> simp only [decide_eq_true_eq] <;> omega

theorem negative_sub (left right : UInt8) (borrow : Bool) :
    ((sub left right borrow).2.sign ^^ (sub left right borrow).2.parity) = true ↔
      Int.bmod left.toNat 256 - Int.bmod right.toNat 256 - borrow.toNat < 0 := by
  have total := toNat_sub left right borrow
  have leftBound := left.toNat_lt
  have rightBound := right.toNat_lt
  have borrowBound := borrow.toNat_le
  have resultBound := (sub left right borrow).1.toNat_lt
  have overBound := (sub left right borrow).2.carry.toNat_le
  rw [sign_xor_parity_sub, bmod_toNat, bmod_toNat]
  simp only [bitOf_seven, decide_eq_decide, decide_eq_true_eq]
  split_ifs <;> simp only [decide_eq_true_eq] <;> omega

/-! ## Overflows -/

/-- Operands of one sign overflow into a result of the other. -/
theorem overflow_add (left right : UInt8) (carry : Bool) :
    (add left right carry).2.parity = true ↔
      Int.bmod left.toNat 256 + Int.bmod right.toNat 256 + carry.toNat < -128 ∨
        127 < Int.bmod left.toNat 256 + Int.bmod right.toNat 256 + carry.toNat := by
  have total := toNat_add left right carry
  have leftBound := left.toNat_lt
  have rightBound := right.toNat_lt
  have carryBound := carry.toNat_le
  have resultBound := (add left right carry).1.toNat_lt
  have overBound := (add left right carry).2.carry.toNat_le
  have overflow : (add left right carry).2.parity =
      (!bitOf (left ^^^ right) 7 && bitOf (left ^^^ (add left right carry).1) 7) := rfl
  rw [overflow, bitOf_seven_xor, bitOf_seven_xor, bmod_toNat, bmod_toNat]
  simp only [bitOf_seven, decide_eq_true_eq]
  split_ifs <;> simp [*] <;> omega

theorem overflow_sub (left right : UInt8) (borrow : Bool) :
    (sub left right borrow).2.parity = true ↔
      Int.bmod left.toNat 256 - Int.bmod right.toNat 256 - borrow.toNat < -128 ∨
        127 < Int.bmod left.toNat 256 - Int.bmod right.toNat 256 - borrow.toNat := by
  have total := toNat_sub left right borrow
  have leftBound := left.toNat_lt
  have rightBound := right.toNat_lt
  have borrowBound := borrow.toNat_le
  have resultBound := (sub left right borrow).1.toNat_lt
  have overBound := (sub left right borrow).2.carry.toNat_le
  have overflow : (sub left right borrow).2.parity =
      (bitOf (left ^^^ right) 7 && bitOf (left ^^^ (sub left right borrow).1) 7) := rfl
  rw [overflow, bitOf_seven_xor, bitOf_seven_xor, bmod_toNat, bmod_toNat]
  simp only [bitOf_seven, decide_eq_true_eq]
  split_ifs <;> simp [*] <;> omega

end Arithmetic

end Cpm80
