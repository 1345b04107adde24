import Cpm80.Opcode

/-!
Contract: the unprefixed instruction table of the Z80.

Every byte stands for exactly one instruction. Operand bytes are not part of
an instruction: they are fetched when it is carried out.

Owns:
- the instructions, divided by what they need from outside the processor;
- the instruction that each opcode byte stands for.

Does not own: the effect of any instruction.
-/

namespace Cpm80

/-- An address that a load or store between memory and a register goes through. -/
inductive Pointer where
  | bc
  | de
  | immediate
deriving DecidableEq, Repr

/-- The eight operations on the accumulator and the flags that take no operand. -/
inductive Adjustment where
  | rotateLeft
  | rotateRight
  | rotateLeftThroughCarry
  | rotateRightThroughCarry
  | decimal
  | complement
  | setCarry
  | complementCarry
deriving DecidableEq, Repr

def Adjustment.ofField : Fin 8 → Adjustment
  | 0 => .rotateLeft
  | 1 => .rotateRight
  | 2 => .rotateLeftThroughCarry
  | 3 => .rotateRightThroughCarry
  | 4 => .decimal
  | 5 => .complement
  | 6 => .setCarry
  | 7 => .complementCarry

/-- An instruction that needs nothing but the processor and its memory. -/
inductive Operation where
  | nop
  | halt
  | disableInterrupts
  | enableInterrupts
  | exchangeAF
  | exchangeAll
  | exchangeDEHL
  | exchangeTop
  | loadStackPointer
  | move (target source : Operand)
  | loadByte (target : Operand)
  | loadPair (target : RegisterPair)
  | loadA (source : Pointer)
  | storeA (target : Pointer)
  | loadHL
  | storeHL
  | increment (target : Operand)
  | decrement (target : Operand)
  | incrementPair (target : RegisterPair)
  | decrementPair (target : RegisterPair)
  | addHL (source : RegisterPair)
  | adjust (adjustment : Adjustment)
  | accumulate (operation : AccumulatorOperation) (source : Operand)
  | accumulateByte (operation : AccumulatorOperation)
  | push (source : RegisterPair)
  | pop (target : RegisterPair)
  | jumpRelative
  | jumpRelativeIf (condition : Condition)
  | decrementJump
  | jump
  | jumpIf (condition : Condition)
  | jumpHL
  | call
  | callIf (condition : Condition)
  | ret
  | retIf (condition : Condition)
  | restart (vector : Fin 8)
deriving DecidableEq, Repr

/-- An instruction: one that stays inside the processor, one that reads or
writes a port, or the first byte of a group that is not implemented. -/
inductive Instruction where
  | internal (operation : Operation)
  | portRead
  | portWrite
  | unimplemented
deriving DecidableEq, Repr

namespace Instruction

/-- Opcodes with x = 0. -/
def ofLoadGroup (opcode : Opcode) : Operation :=
  match opcode.z with
  | 0 =>
    match opcode.y with
    | 0 => .nop
    | 1 => .exchangeAF
    | 2 => .decrementJump
    | 3 => .jumpRelative
    | 4 => .jumpRelativeIf .nonZero
    | 5 => .jumpRelativeIf .zero
    | 6 => .jumpRelativeIf .noCarry
    | 7 => .jumpRelativeIf .carry
  | 1 =>
    if opcode.q then .addHL (.ofField opcode.p) else .loadPair (.ofField opcode.p)
  | 2 =>
    match opcode.y with
    | 0 => .storeA .bc
    | 1 => .loadA .bc
    | 2 => .storeA .de
    | 3 => .loadA .de
    | 4 => .storeHL
    | 5 => .loadHL
    | 6 => .storeA .immediate
    | 7 => .loadA .immediate
  | 3 =>
    if opcode.q then .decrementPair (.ofField opcode.p) else .incrementPair (.ofField opcode.p)
  | 4 => .increment (.ofField opcode.y)
  | 5 => .decrement (.ofField opcode.y)
  | 6 => .loadByte (.ofField opcode.y)
  | 7 => .adjust (.ofField opcode.y)

/-- Opcodes with x = 3. -/
def ofControlGroup (opcode : Opcode) : Instruction :=
  match opcode.z with
  | 0 => .internal (.retIf (.ofField opcode.y))
  | 1 =>
    match opcode.y with
    | 1 => .internal .ret
    | 3 => .internal .exchangeAll
    | 5 => .internal .jumpHL
    | 7 => .internal .loadStackPointer
    | 0 | 2 | 4 | 6 => .internal (.pop (.ofStackField opcode.p))
  | 2 => .internal (.jumpIf (.ofField opcode.y))
  | 3 =>
    match opcode.y with
    | 0 => .internal .jump
    | 1 => .unimplemented
    | 2 => .portWrite
    | 3 => .portRead
    | 4 => .internal .exchangeTop
    | 5 => .internal .exchangeDEHL
    | 6 => .internal .disableInterrupts
    | 7 => .internal .enableInterrupts
  | 4 => .internal (.callIf (.ofField opcode.y))
  | 5 =>
    match opcode.y with
    | 1 => .internal .call
    | 3 | 5 | 7 => .unimplemented
    | 0 | 2 | 4 | 6 => .internal (.push (.ofStackField opcode.p))
  | 6 => .internal (.accumulateByte (.ofField opcode.y))
  | 7 => .internal (.restart opcode.y)

/-- The instruction with the given opcode fields. HALT has the fields that a move
of the byte at HL to itself would have. -/
def ofOpcode (opcode : Opcode) : Instruction :=
  match opcode.x with
  | 0 => .internal (ofLoadGroup opcode)
  | 1 =>
    if opcode.y.val = 6 ∧ opcode.z.val = 6 then .internal .halt
    else .internal (.move (.ofField opcode.y) (.ofField opcode.z))
  | 2 => .internal (.accumulate (.ofField opcode.y) (.ofField opcode.z))
  | 3 => ofControlGroup opcode

def table : Vector Instruction 256 :=
  Vector.ofFn fun index => ofOpcode (Opcode.ofByte (UInt8.ofFin index))

def decode (byte : UInt8) : Instruction :=
  have bound : byte.toNat < 256 := byte.toNat_lt
  table[byte.toNat]

/-- What the table holds for a byte is read off its fields. -/
theorem decode_eq (byte : UInt8) : decode byte = ofOpcode (Opcode.ofByte byte) := by
  rw [decode, table, Vector.getElem_ofFn]
  exact congrArg (fun same => ofOpcode (Opcode.ofByte same)) (UInt8.ofFin_toFin byte)

/-- A statement about every byte can be checked byte by byte. -/
theorem forall_byte (property : UInt8 → Prop)
    (each : ∀ value : Fin 256, property (UInt8.ofFin value)) (byte : UInt8) : property byte :=
  each byte.toFin

/-- The unimplemented opcodes are the four that open a group of longer ones. -/
theorem decode_eq_unimplemented_iff (byte : UInt8) :
    decode byte = .unimplemented ↔
      byte = 0xcb ∨ byte = 0xdd ∨ byte = 0xed ∨ byte = 0xfd := by
  rw [decode_eq]
  revert byte
  apply forall_byte
  decide +kernel

theorem decode_eq_portWrite_iff (byte : UInt8) : decode byte = .portWrite ↔ byte = 0xd3 := by
  rw [decode_eq]
  revert byte
  apply forall_byte
  decide +kernel

theorem decode_eq_portRead_iff (byte : UInt8) : decode byte = .portRead ↔ byte = 0xdb := by
  rw [decode_eq]
  revert byte
  apply forall_byte
  decide +kernel

end Instruction

end Cpm80
