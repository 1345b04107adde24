import Cpm80.Word

/-!
Contract: the three octal fields of an unprefixed Z80 opcode, and the operand
tables that they index.

A byte is laid out as xx yyy zzz; y divides further into p (bits 5 and 4) and
q (bit 3).

Owns:
- the fields of an opcode;
- registers, register pairs, branch conditions and accumulator operations, in
  the order in which the fields number them.

Does not own: which instruction a combination of fields stands for.
-/

namespace Cpm80

/-! ## Fields -/

structure Opcode where
  x : Fin 4
  y : Fin 8
  z : Fin 8
deriving DecidableEq, Repr

namespace Opcode

def ofByte (byte : UInt8) : Opcode where
  x := Fin.ofNat 4 (Word.extract byte.toBitVec 6 2).toNat
  y := Fin.ofNat 8 (Word.extract byte.toBitVec 3 3).toNat
  z := Fin.ofNat 8 (Word.extract byte.toBitVec 0 3).toNat

/-- The two upper bits of y. -/
def p (opcode : Opcode) : Fin 4 :=
  Fin.ofNat 4 (opcode.y.val / 2)

/-- The lowest bit of y. -/
def q (opcode : Opcode) : Bool :=
  Word.isSet (BitVec.ofFin opcode.y : BitVec 3) 0

def toByte (opcode : Opcode) : UInt8 :=
  UInt8.ofNat (64 * opcode.x.val + 8 * opcode.y.val + opcode.z.val)

theorem toByte_ofByte (byte : UInt8) : (ofByte byte).toByte = byte := by
  have all : ∀ value : Fin 256, (ofByte (UInt8.ofFin value)).toByte = UInt8.ofFin value := by
    decide +kernel
  exact all byte.toFin

end Opcode

def lowestOctalDigit (byte : UInt8) : Fin 8 :=
  Fin.ofNat 8 (Word.extract byte.toBitVec 0 3).toNat

/-! ## Registers -/

/-- The eight-bit registers that a program's surroundings can see. -/
inductive Register where
  | a | f | b | c | d | e | h | l
deriving DecidableEq, Repr

/-- The sixteen-bit register pairs, the stack pointer among them. -/
inductive RegisterPair where
  | af | bc | de | hl | sp
deriving DecidableEq, Repr

namespace RegisterPair

/-- The pairs that loads, increments and sixteen-bit additions number. -/
def ofField : Fin 4 → RegisterPair
  | 0 => .bc
  | 1 => .de
  | 2 => .hl
  | 3 => .sp

/-- The pairs that pushes and pops number: AF stands in the place of SP. -/
def ofStackField : Fin 4 → RegisterPair
  | 0 => .bc
  | 1 => .de
  | 2 => .hl
  | 3 => .af

end RegisterPair

/-- A byte that an instruction reads or writes: a register, or the byte at HL. -/
inductive Operand where
  | b | c | d | e | h | l | atHL | a
deriving DecidableEq, Repr

def Operand.ofField : Fin 8 → Operand
  | 0 => .b
  | 1 => .c
  | 2 => .d
  | 3 => .e
  | 4 => .h
  | 5 => .l
  | 6 => .atHL
  | 7 => .a

/-! ## Conditions and accumulator operations -/

/-- A condition on the flags under which a jump, call or return is taken. -/
inductive Condition where
  | nonZero | zero | noCarry | carry | parityOdd | parityEven | plus | minus
deriving DecidableEq, Repr

def Condition.ofField : Fin 8 → Condition
  | 0 => .nonZero
  | 1 => .zero
  | 2 => .noCarry
  | 3 => .carry
  | 4 => .parityOdd
  | 5 => .parityEven
  | 6 => .plus
  | 7 => .minus

inductive AccumulatorOperation where
  | add | adc | sub | sbc | and | xor | or | cp
deriving DecidableEq, Repr

def AccumulatorOperation.ofField : Fin 8 → AccumulatorOperation
  | 0 => .add
  | 1 => .adc
  | 2 => .sub
  | 3 => .sbc
  | 4 => .and
  | 5 => .xor
  | 6 => .or
  | 7 => .cp

end Cpm80
