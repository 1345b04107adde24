import Cpm80.Proofs.Accumulator
import Cpm80.Proofs.ByteLoop

/-!
Contract: instructions with an arithmetic of their own against the operations on the
accumulator.

Additions to HL, increments, decrements and rotations through the carry each work out
result and flags in their own way. The additions and counts differ from operations on the
accumulator in the flags that they keep alone. A rotation to the left has the result and
the carry of a sum, with other flags.

Owns:
- a sum of words as two sums of bytes, and steps of one as sums and differences with one;
- the rotations through the carry as rotations of a number of nine bits;
- the opcodes of these instructions and a step that meets one of them.

Does not own: what the operations on the accumulator give, and the other rotations.
-/

namespace Cpm80

theorem eq_of_toNat_eq {left right : Bool} (same : left.toNat = right.toNat) : left = right := by
  rw [← Bool.ofNat_toNat left, same, Bool.ofNat_toNat]

theorem Word.high_xor (left right : UInt16) :
    high (left ^^^ right) = high left ^^^ high right := by
  rw [high, UInt16.shiftRight_xor, UInt16.toUInt8_xor]
  rfl

namespace Arithmetic

/-! ## Sums of words -/

theorem toNat_addWord (left right : UInt16) (flags : Flags) :
    (addWord left right flags).1.toNat + 65536 * (addWord left right flags).2.carry.toNat =
      left.toNat + right.toNat := by
  have leftBound := left.toNat_lt
  have rightBound := right.toNat_lt
  have wide : (left.toUInt32 + right.toUInt32).toNat = left.toNat + right.toNat := by
    simp only [UInt32.toNat_add, UInt16.toNat_toUInt32]
    omega
  simp only [addWord, UInt32.toNat_toUInt16, UInt32.lt_iff_toNat_lt, wide, UInt32.reduceToNat]
  by_cases carries : 65535 < left.toNat + right.toNat
  · rw [decide_eq_true carries, Bool.toNat_true]
    omega
  · rw [decide_eq_false carries, Bool.toNat_false]
    omega

/-- The sum of two words is that of their low bytes and, with the carry from there, that of
their high bytes. -/
theorem addWord_eq (left right : UInt16) (flags : Flags) :
    let low := add (Word.low left) (Word.low right) false
    let high := add (Word.high left) (Word.high right) low.2.carry
    addWord left right flags = (Word.join high.1 low.1,
      { high.2 with sign := flags.sign, zero := flags.zero, parity := flags.parity }) := by
  intro low high
  have whole := toNat_addWord left right flags
  have lowSum : low.1.toNat + 256 * low.2.carry.toNat = _ :=
    toNat_add (Word.low left) (Word.low right) false
  have highSum : high.1.toNat + 256 * high.2.carry.toNat = _ :=
    toNat_add (Word.high left) (Word.high right) low.2.carry
  rw [Word.toNat_low, Word.toNat_low, Bool.toNat_false] at lowSum
  rw [Word.toNat_high, Word.toNat_high] at highSum
  have lowBound := low.1.toNat_lt
  have highBound := high.1.toNat_lt
  have wordBound := (addWord left right flags).1.toNat_lt
  have sum : (addWord left right flags).1 = Word.join high.1 low.1 := by
    apply UInt16.toNat_inj.1
    rw [Word.toNat_join]
    omega
  have carry : (addWord left right flags).2.carry = high.2.carry := by
    apply eq_of_toNat_eq
    omega
  have highByte : Word.high (addWord left right flags).1 = high.1 := by
    rw [sum, Word.high_join]
  -- The half carry is read off the high bytes only, as it is for their sum.
  have half : (addWord left right flags).2.half = high.2.half := by
    show bitOf (Word.high (left ^^^ right ^^^ (addWord left right flags).1)) 4 =
      bitOf (Word.high left ^^^ Word.high right ^^^ high.1) 4
    rw [Word.high_xor, Word.high_xor, highByte]
  refine Prod.ext sum ?_
  show { flags.copyFrom (Word.high (addWord left right flags).1) with
    half := (addWord left right flags).2.half
    subtract := false
    carry := (addWord left right flags).2.carry } = _
  rw [half, carry, highByte]
  rfl

end Arithmetic

/-! ## Steps of one -/

namespace Chained

/-- The operation on the accumulator that takes no carry into account. -/
def withoutCarry : Chained → AccumulatorOperation
  | .addition => .add
  | .subtraction => .sub

/-- One more or one less, as the instructions for it have it. -/
def byOne : Chained → UInt8 → Flags → UInt8 × Flags
  | .addition => Arithmetic.increment
  | .subtraction => Arithmetic.decrement

theorem byOne_eq (operation : Chained) (value : UInt8) (flags : Flags) :
    let whole := Arithmetic.accumulate operation.withoutCarry value 1 flags
    operation.byOne value flags = (whole.1, { whole.2 with carry := flags.carry }) := by
  -- Of the old flags both sides know the carry alone.
  cases operation
  all_goals
    simp only [byOne, withoutCarry, Arithmetic.increment, Arithmetic.decrement,
      Arithmetic.accumulate]
    generalize flags.carry = carry
    revert value carry
    apply Instruction.forall_byte
    decide +kernel

end Chained

/-! ## Rotations through the carry -/

/-- The two rotations of the accumulator together with the carry. -/
inductive Rotation where
  | left
  | right
deriving DecidableEq, Repr

namespace Rotation

def opposite : Rotation → Rotation
  | .left => .right
  | .right => .left

def adjustment : Rotation → Adjustment
  | .left => .rotateLeftThroughCarry
  | .right => .rotateRightThroughCarry

def opcode : Rotation → UInt8
  | .left => 0x17
  | .right => 0x1f

theorem decode_opcode (rotation : Rotation) :
    Instruction.decode rotation.opcode = .internal (.adjust rotation.adjustment) := by
  rw [Instruction.decode_eq]
  cases rotation <;> rfl

end Rotation

namespace Arithmetic

/-- To the left, the carry is what comes in at the bottom and what goes out at the top. -/
theorem toNat_rotateLeft (accumulator : UInt8) (flags : Flags) :
    (adjust .rotateLeftThroughCarry accumulator flags).1.toNat +
        256 * (adjust .rotateLeftThroughCarry accumulator flags).2.carry.toNat =
      2 * accumulator.toNat + flags.carry.toNat := by
  simp only [adjust, rotated]
  generalize flags.carry = carry
  revert accumulator carry
  apply Instruction.forall_byte
  decide +kernel

theorem toNat_rotateRight (accumulator : UInt8) (flags : Flags) :
    2 * (adjust .rotateRightThroughCarry accumulator flags).1.toNat +
        (adjust .rotateRightThroughCarry accumulator flags).2.carry.toNat =
      accumulator.toNat + 256 * flags.carry.toNat := by
  simp only [adjust, rotated]
  generalize flags.carry = carry
  revert accumulator carry
  apply Instruction.forall_byte
  decide +kernel

/-- A rotation to the left doubles the accumulator and adds the carry. -/
theorem rotateLeft_eq (accumulator : UInt8) (flags : Flags) :
    (adjust .rotateLeftThroughCarry accumulator flags).1 =
        (add accumulator accumulator flags.carry).1 ∧
      (adjust .rotateLeftThroughCarry accumulator flags).2.carry =
        (add accumulator accumulator flags.carry).2.carry := by
  have rotated := toNat_rotateLeft accumulator flags
  have doubled := toNat_add accumulator accumulator flags.carry
  have rotatedBound := (adjust .rotateLeftThroughCarry accumulator flags).1.toNat_lt
  have doubledBound := (add accumulator accumulator flags.carry).1.toNat_lt
  refine ⟨UInt8.toNat_inj.1 ?_, eq_of_toNat_eq ?_⟩ <;> omega

/-- One rotation takes back the other. -/
theorem adjust_opposite (rotation : Rotation) (accumulator : UInt8) (flags : Flags) :
    let there := adjust rotation.adjustment accumulator flags
    let back := adjust rotation.opposite.adjustment there.1 there.2
    back.1 = accumulator ∧ back.2.carry = flags.carry := by
  have bound := accumulator.toNat_lt
  have carryBound := flags.carry.toNat_le
  cases rotation with
  | left =>
    intro there back
    have first : there.1.toNat + 256 * there.2.carry.toNat = _ :=
      toNat_rotateLeft accumulator flags
    have second : 2 * back.1.toNat + back.2.carry.toNat = _ :=
      toNat_rotateRight there.1 there.2
    have lastBound := back.2.carry.toNat_le
    refine ⟨UInt8.toNat_inj.1 ?_, eq_of_toNat_eq ?_⟩ <;> omega
  | right =>
    intro there back
    have first : 2 * there.1.toNat + there.2.carry.toNat = _ :=
      toNat_rotateRight accumulator flags
    have second : back.1.toNat + 256 * back.2.carry.toNat = _ :=
      toNat_rotateLeft there.1 there.2
    have lastBound := back.1.toNat_lt
    refine ⟨UInt8.toNat_inj.1 ?_, eq_of_toNat_eq ?_⟩ <;> omega

end Arithmetic

/-! ## By way of the accumulator -/

/-- What a sum of words and its flags are by way of the accumulator: the low bytes are added
first, then the high bytes with the carry from there. Sign, zero and parity are those from
before. -/
def AddsByBytes (left right : UInt16) (before : Flags) (sum : UInt16) (flags : Flags) : Prop :=
  ∃ low lowFlags high highFlags,
    (∀ carry, AccumulatorOperation.add.Yields (Word.low left) (Word.low right) carry low
      lowFlags) ∧
    AccumulatorOperation.adc.Yields (Word.high left) (Word.high right) lowFlags.carry high
      highFlags ∧
    sum = Word.join high low ∧
    flags = { highFlags with
      sign := before.sign
      zero := before.zero
      parity := before.parity }

/-- What one more or one less than a byte and its flags are by way of the accumulator. The
carry is that from before. -/
def Chained.CountsByOne (operation : Chained) (value : UInt8) (before : Flags)
    (result : UInt8) (flags : Flags) : Prop :=
  ∃ whole, (∀ carry, operation.withoutCarry.Yields value 1 carry result whole) ∧
    flags = { whole with carry := before.carry }

/-- Whether a byte and a carry are those of adding a byte to itself with a carry. -/
def Doubles (value : UInt8) (before : Bool) (result : UInt8) (carry : Bool) : Prop :=
  ∃ flags, AccumulatorOperation.adc.Yields value value before result flags ∧
    carry = flags.carry

namespace Arithmetic

theorem addWord_addsByBytes (left right : UInt16) (flags : Flags) :
    AddsByBytes left right flags (addWord left right flags).1 (addWord left right flags).2 := by
  have parts := addWord_eq left right flags
  refine ⟨_, (add (Word.low left) (Word.low right) false).2, _, _, ?_, ?_,
    congrArg Prod.fst parts, congrArg Prod.snd parts⟩
  · intro carry
    exact AccumulatorOperation.yields_accumulate .add _ _ { flags with carry := carry }
  · exact AccumulatorOperation.yields_accumulate .adc _ _ _

theorem byOne_countsByOne (operation : Chained) (value : UInt8) (flags : Flags) :
    operation.CountsByOne value flags (operation.byOne value flags).1
      (operation.byOne value flags).2 := by
  rw [operation.byOne_eq]
  refine ⟨_, ?_, rfl⟩
  intro carry
  cases operation <;>
    exact AccumulatorOperation.yields_accumulate _ value 1 { flags with carry := carry }

theorem rotateLeft_doubles (accumulator : UInt8) (flags : Flags) :
    Doubles accumulator flags.carry (adjust .rotateLeftThroughCarry accumulator flags).1
      (adjust .rotateLeftThroughCarry accumulator flags).2.carry := by
  obtain ⟨result, carry⟩ := rotateLeft_eq accumulator flags
  rw [result]
  exact ⟨_, AccumulatorOperation.yields_accumulate .adc accumulator accumulator flags, carry⟩

end Arithmetic

/-! ## Opcodes -/

/-- The opcode that adds a pair to HL. There is none for AF. -/
def RegisterPair.addHLOpcode : RegisterPair → Option UInt8
  | .bc => some 0x09
  | .de => some 0x19
  | .hl => some 0x29
  | .sp => some 0x39
  | .af => none

theorem RegisterPair.decode_addHLOpcode {source : RegisterPair} {opcode : UInt8}
    (adds : source.addHLOpcode = some opcode) :
    Instruction.decode opcode = .internal (.addHL source) := by
  rw [Instruction.decode_eq]
  cases source with
  | af => cases adds
  | bc | de | hl | sp =>
    cases adds
    rfl

namespace Chained

def byOneOperation : Chained → Operand → Operation
  | .addition => .increment
  | .subtraction => .decrement

/-- The opcode for one more or one less: those for B come first, the others follow at
distances of eight. -/
def byOneOpcode (operation : Chained) (target : Operand) : UInt8 :=
  match operation with
  | .addition => 0x04 + 8 * (Source.operand target).distance
  | .subtraction => 0x05 + 8 * (Source.operand target).distance

theorem decode_byOneOpcode (operation : Chained) (target : Operand) :
    Instruction.decode (operation.byOneOpcode target) =
      .internal (operation.byOneOperation target) := by
  rw [Instruction.decode_eq]
  cases operation <;> cases target <;> rfl

end Chained

/-! ## Steps -/

namespace Z80

theorem operand_setOperand (cpu : Z80) (target : Operand) (value : UInt8) :
    (cpu.setOperand target value).operand target = value := by
  cases target with
  | atHL => exact cpu.memory.load_store_same _ _
  | b | c | d | e | h | l | a => rfl

theorem operand_update (cpu : Z80) (target : Operand) (result : UInt8 × Flags) :
    (cpu.update target result).operand target = result.1 := by
  rw [← operand_setOperand cpu target result.1]
  cases target <;> rfl

theorem execute_byOne (cpu : Z80) (operation : Chained) (target : Operand) :
    cpu.execute (operation.byOneOperation target) =
      cpu.update target (operation.byOne (cpu.operand target) cpu.f) := by
  cases operation <;> rfl

theorem pair_hl_addHL (cpu : Z80) (value : UInt16) :
    (cpu.addHL value).pair .hl = (Arithmetic.addWord (cpu.pair .hl) value cpu.f).1 :=
  Word.join_high_low _

section Steps

variable {cpu : Z80}

/-- An addition to HL and its flags, by way of the accumulator. -/
theorem step_addHL {source : RegisterPair} (adds : source.addHLOpcode = some cpu.nextByte) :
    ∃ next, Processor.step cpu = .finished next none ∧
      AddsByBytes (cpu.pair .hl) (cpu.pair source) cpu.f (next.pair .hl) next.f := by
  refine ⟨_, session_internal (RegisterPair.decode_addHLOpcode adds), ?_⟩
  show AddsByBytes _ _ _ (((cpu.skip 1).addHL ((cpu.skip 1).pair source)).pair .hl) _
  rw [pair_hl_addHL]
  cases source <;> exact Arithmetic.addWord_addsByBytes (cpu.pair .hl) _ cpu.f

theorem step_byOne {operation : Chained} {target : Operand}
    (counts : cpu.nextByte = operation.byOneOpcode target) :
    ∃ next, Processor.step cpu = .finished next none ∧
      operation.CountsByOne (cpu.operand target) cpu.f (next.operand target) next.f := by
  have decoded := operation.decode_byOneOpcode target
  rw [← counts] at decoded
  refine ⟨_, session_internal decoded, ?_⟩
  rw [execute_byOne, operand_update]
  cases target <;> exact Arithmetic.byOne_countsByOne operation _ cpu.f

theorem step_rotateLeft (rotates : cpu.nextByte = Rotation.left.opcode) :
    ∃ next, Processor.step cpu = .finished next none ∧
      Doubles cpu.a cpu.f.carry next.a next.f.carry := by
  have decoded := Rotation.left.decode_opcode
  rw [← rotates] at decoded
  exact ⟨_, session_internal decoded, Arithmetic.rotateLeft_doubles cpu.a cpu.f⟩

theorem runs_opposite {rotation : Rotation}
    (code : cpu.memory.read cpu.pc 2 = [rotation.opcode, rotation.opposite.opcode]) :
    ∃ next, Processor.Runs 2 cpu next ∧ next.a = cpu.a ∧ next.f.carry = cpu.f.carry := by
  simp only [Memory.read_succ_eq_cons] at code
  obtain ⟨there, back, -⟩ := code
  have runs := Runs.internal there rotation.decode_opcode
    (Runs.internal back rotation.opposite.decode_opcode (.done _))
  exact ⟨_, runs, Arithmetic.adjust_opposite rotation cpu.a cpu.f⟩

end Steps

/-- ADD HL, INC, DEC and the rotations through the carry take one step, which turns to no
port and does not fail.

An addition to HL gives the sum and the carry, half carry, subtract and undocumented flags
that two additions of bytes on the accumulator give. An increment or decrement gives, in its
register or at HL, the byte and all flags but the carry that adding or subtracting one on
the accumulator gives. The rotation to the left gives the accumulator and carry of adding
the accumulator to itself with the carry. Two rotations in opposite directions, one behind
the other, leave accumulator and carry as they were. -/
theorem arithmetic_paths_agree (cpu : Z80) :
    (∀ source : RegisterPair, source.addHLOpcode = some cpu.nextByte →
      ∃ next, Processor.step cpu = .finished next none ∧
        AddsByBytes (cpu.pair .hl) (cpu.pair source) cpu.f (next.pair .hl) next.f) ∧
    (∀ (operation : Chained) (target : Operand), cpu.nextByte = operation.byOneOpcode target →
      ∃ next, Processor.step cpu = .finished next none ∧
        operation.CountsByOne (cpu.operand target) cpu.f (next.operand target) next.f) ∧
    (cpu.nextByte = Rotation.left.opcode →
      ∃ next, Processor.step cpu = .finished next none ∧
        Doubles cpu.a cpu.f.carry next.a next.f.carry) ∧
    (∀ rotation : Rotation,
      cpu.memory.read cpu.pc 2 = [rotation.opcode, rotation.opposite.opcode] →
        ∃ next, Processor.Runs 2 cpu next ∧ next.a = cpu.a ∧ next.f.carry = cpu.f.carry) := by
  refine ⟨?_, ?_, step_rotateLeft, ?_⟩
  · intro source adds
    exact step_addHL adds
  · intro operation target counts
    exact step_byOne counts
  · intro rotation code
    exact runs_opposite code

/-- A processor at ADD HL,SP with 0FFF in HL and 0001 in SP. -/
def pairAdder : Z80 :=
  { fresh with
    h := 0x0f
    l := 0xff
    sp := 0x0001
    memory := Memory.zeroed.storeAll 0x0000 [0x39] }

/-- A processor at DEC (HL) with HL at this very opcode. -/
def selfDecrementer : Z80 :=
  { fresh with memory := Memory.zeroed.storeAll 0x0000 [0x35] }

/-- A processor at RLA and RRA across the end of memory, with 80 in the accumulator and the
carry set. -/
def wrappedRotator : Z80 :=
  { fresh with
    a := 0x80
    f := Flags.ofByte 0x01
    pc := 0xffff
    memory := Memory.zeroed.storeAll 0xffff [0x17, 0x1f] }

/-- The sum is 1000 with a half carry, the opcode becomes 34, and the accumulator 01 on its
way back to 80. -/
theorem arithmetic_paths_agree_edges :
    (∃ next, Processor.step pairAdder = .finished next none ∧
      next.pair .hl = 0x1000 ∧ next.f.half = true) ∧
    (∃ next, Processor.step selfDecrementer = .finished next none ∧
      next.operand .atHL = 0x34 ∧ next.f.carry = selfDecrementer.f.carry) ∧
    (∃ next, Processor.step wrappedRotator = .finished next none ∧
      next.a = 0x01 ∧ next.f.carry = true) ∧
    (∃ next, Processor.Runs 2 wrappedRotator next ∧ next.a = 0x80 ∧ next.f.carry = true) := by
  have adderCode : pairAdder.memory.read pairAdder.pc 1 = [0x39] :=
    Memory.read_storeAll _ _ [0x39] (by decide)
  have decrementerCode : selfDecrementer.memory.read selfDecrementer.pc 1 = [0x35] :=
    Memory.read_storeAll _ _ [0x35] (by decide)
  have rotatorCode : wrappedRotator.memory.read wrappedRotator.pc 2 = [0x17, 0x1f] :=
    Memory.read_storeAll _ _ [0x17, 0x1f] (by decide)
  have adds : RegisterPair.sp.addHLOpcode = some pairAdder.nextByte :=
    congrArg some (Memory.read_succ_eq_cons.1 adderCode).1.symm
  have counts : selfDecrementer.nextByte = Chained.subtraction.byOneOpcode .atHL :=
    (Memory.read_succ_eq_cons.1 decrementerCode).1
  have rotates : wrappedRotator.nextByte = Rotation.left.opcode :=
    (Memory.read_succ_eq_cons.1 rotatorCode).1
  refine ⟨?_, ?_, ?_, (arithmetic_paths_agree wrappedRotator).2.2.2 .left rotatorCode⟩
  · obtain ⟨next, steps, low, lowFlags, high, highFlags, lows, highs, sum, flags⟩ :=
      (arithmetic_paths_agree pairAdder).1 .sp adds
    obtain ⟨_, lowSum, -, rfl⟩ := (lows false).leaves
    obtain ⟨_, highSum, -, rfl⟩ := highs.leaves
    rw [lowSum.carries.2 (by decide)] at highSum
    have lowByte : low = 0x00 := UInt8.toNat_inj.1 (Int.ofNat.inj lowSum.total)
    have highByte : high = 0x10 := UInt8.toNat_inj.1 (Int.ofNat.inj highSum.total)
    refine ⟨next, steps, ?_, ?_⟩
    · rw [sum]
      show Word.join high low = 0x1000
      rw [lowByte, highByte]
      rfl
    · rw [flags]
      exact highSum.carriesHalf.2 (by decide)
  · obtain ⟨next, steps, whole, differences, flags⟩ :=
      (arithmetic_paths_agree selfDecrementer).2.1 .subtraction .atHL counts
    have operand : selfDecrementer.operand .atHL = 0x35 := counts
    rw [operand] at differences
    obtain ⟨_, difference, -, rfl⟩ := (differences false).leaves
    refine ⟨next, steps, UInt8.toNat_inj.1 (Int.ofNat.inj difference.total), ?_⟩
    rw [flags]
  · obtain ⟨next, steps, flags, sums, carry⟩ :=
      (arithmetic_paths_agree wrappedRotator).2.2.1 rotates
    obtain ⟨_, sum, -, result⟩ := sums.leaves
    refine ⟨next, steps, ?_, ?_⟩
    · rw [result]
      exact UInt8.toNat_inj.1 (Int.ofNat.inj sum.total)
    · rw [carry]
      exact sum.carries.2 (by decide)

end Z80

end Cpm80
