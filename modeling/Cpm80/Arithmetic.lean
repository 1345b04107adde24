import Cpm80.Flags
import Cpm80.Instruction

/-!
Contract: results and flags of the arithmetic and logic instructions, as
functions of their operands.

Carries are read off sums that are one step wider than the operands; half
carries and overflows off the bits in which operands and result differ.

Owns:
- the eight accumulator operations;
- increments and decrements of a byte and sixteen-bit addition;
- rotations, decimal adjustment and the carry instructions.

Does not own: where operands come from and where results go.
-/

namespace Cpm80.Arithmetic

/-! ## Addition and subtraction of bytes -/

def add (left right : UInt8) (carry : Bool) : UInt8 × Flags :=
  let wide := left.toUInt16 + right.toUInt16 + carry.toUInt16
  let result := wide.toUInt8
  (result,
    { Flags.ofResult result with
      half := bitOf (left ^^^ right ^^^ result) 4
      parity := !bitOf (left ^^^ right) 7 && bitOf (left ^^^ result) 7
      carry := 0xff < wide })

/-- The difference of two bytes, less a borrow. A difference below zero wraps
around to a word above the largest byte. -/
def sub (left right : UInt8) (borrow : Bool) : UInt8 × Flags :=
  let wide := left.toUInt16 - right.toUInt16 - borrow.toUInt16
  let result := wide.toUInt8
  (result,
    { Flags.ofResult result with
      half := bitOf (left ^^^ right ^^^ result) 4
      parity := bitOf (left ^^^ right) 7 && bitOf (left ^^^ result) 7
      subtract := true
      carry := 0xff < wide })

/-! ## Accumulator operations -/

/-- The accumulator and the flags after an operation with `operand`. Comparison
subtracts, keeps the accumulator, and copies bits 5 and 3 from the operand. -/
def accumulate (operation : AccumulatorOperation) (accumulator operand : UInt8)
    (flags : Flags) : UInt8 × Flags :=
  match operation with
  | .add => add accumulator operand false
  | .adc => add accumulator operand flags.carry
  | .sub => sub accumulator operand false
  | .sbc => sub accumulator operand flags.carry
  | .and =>
    let result := accumulator &&& operand
    (result, { Flags.ofResultParity result with half := true })
  | .xor =>
    let result := accumulator ^^^ operand
    (result, Flags.ofResultParity result)
  | .or =>
    let result := accumulator ||| operand
    (result, Flags.ofResultParity result)
  | .cp => (accumulator, (sub accumulator operand false).2.copyFrom operand)

/-! ## Increments, decrements and sixteen-bit addition -/

/-- One more than a byte. The carry flag is kept. -/
def increment (value : UInt8) (flags : Flags) : UInt8 × Flags :=
  let result := value + 1
  (result,
    { Flags.ofResult result with
      half := value &&& 0x0f == 0x0f
      parity := value == 0x7f
      carry := flags.carry })

/-- One less than a byte. The carry flag is kept. -/
def decrement (value : UInt8) (flags : Flags) : UInt8 × Flags :=
  let result := value - 1
  (result,
    { Flags.ofResult result with
      half := value &&& 0x0f == 0
      parity := value == 0x80
      subtract := true
      carry := flags.carry })

/-- The sum of two words. Sign, zero and parity are kept; the half carry comes out
of bit 11, and bits 5 and 3 are those of the high byte. -/
def addWord (left right : UInt16) (flags : Flags) : UInt16 × Flags :=
  let wide := left.toUInt32 + right.toUInt32
  let result := wide.toUInt16
  (result,
    { flags.copyFrom (Word.high result) with
      half := bitOf (Word.high (left ^^^ right ^^^ result)) 4
      subtract := false
      carry := 0xffff < wide })

/-! ## Adjustments of the accumulator -/

/-- The flags after a rotation to `result`: sign, zero and parity are kept. -/
def rotated (flags : Flags) (result : UInt8) (carry : Bool) : Flags :=
  { flags.copyFrom result with half := false, subtract := false, carry := carry }

/-- What decimal adjustment adds or subtracts: six for each digit that is out of range. -/
def decimalCorrection (accumulator : UInt8) (flags : Flags) : UInt8 :=
  (if flags.half || 9 < accumulator &&& 0x0f then 0x06 else 0) |||
    (if flags.carry || 0x99 < accumulator then 0x60 else 0)

/-- Turns the sum or difference of two packed decimal bytes into packed decimal. -/
def decimalAdjust (accumulator : UInt8) (flags : Flags) : UInt8 × Flags :=
  let correction := decimalCorrection accumulator flags
  let result := if flags.subtract then accumulator - correction else accumulator + correction
  let half :=
    if flags.subtract then flags.half && accumulator &&& 0x0f < 6
    else 9 < accumulator &&& 0x0f
  (result,
    { Flags.ofResultParity result with
      half := half
      subtract := flags.subtract
      carry := flags.carry || 0x99 < accumulator })

def adjust (adjustment : Adjustment) (accumulator : UInt8) (flags : Flags) : UInt8 × Flags :=
  match adjustment with
  | .rotateLeft =>
    let result := (accumulator <<< 1) ||| (accumulator >>> 7)
    (result, rotated flags result (bitOf result 0))
  | .rotateRight =>
    let result := (accumulator >>> 1) ||| (accumulator <<< 7)
    (result, rotated flags result (bitOf accumulator 0))
  | .rotateLeftThroughCarry =>
    let result := (accumulator <<< 1) ||| flags.carry.toUInt8
    (result, rotated flags result (bitOf accumulator 7))
  | .rotateRightThroughCarry =>
    let result := (accumulator >>> 1) ||| (flags.carry.toUInt8 <<< 7)
    (result, rotated flags result (bitOf accumulator 0))
  | .decimal => decimalAdjust accumulator flags
  | .complement =>
    let result := ~~~accumulator
    (result, { flags.copyFrom result with half := true, subtract := true })
  | .setCarry => (accumulator, rotated flags accumulator true)
  | .complementCarry =>
    (accumulator, { rotated flags accumulator (!flags.carry) with half := flags.carry })

end Cpm80.Arithmetic
