import Cpm80.Proofs.MultiByte
import Cpm80.Proofs.Stepping

/-!
Contract: the operations on the accumulator as operations on numbers.

Sums and differences are those of integers, with flags that say in which ways the result
falls short of them. The logical operations are taken bit by bit.

Owns:
- what each operation is to leave in the accumulator and the flags, without reference to
  how that is computed, and that this leaves no choice;
- the places that an operand can come from, and the opcode for each operation and place;
- a step that meets one of these opcodes, and what all processors have in common that meet
  one with the same bytes and carry.

Does not own: operations on words, increments and rotations.
-/

namespace Cpm80

/-! ## Results -/

theorem bitOf_eq_testBit (byte : UInt8) (index : Fin 8) :
    bitOf byte (UInt8.ofNat index.val) = byte.toNat.testBit index.val :=
  bitOf_eq_getLsbD byte index

/-- Whether the sign and zero flags describe a result, and the undocumented flags are
copied from a byte. -/
structure Flags.Describe (flags : Flags) (result copied : UInt8) : Prop where
  sign : flags.sign = true ↔ 128 ≤ result.toNat
  zero : flags.zero = true ↔ result.toNat = 0
  bit5 : flags.bit5 = copied.toNat.testBit 5
  bit3 : flags.bit3 = copied.toNat.testBit 3

/-- Whether a byte and flags are what comes of adding or subtracting two bytes and a carry:
the total modulo 256, the carries out of both halves, and whether the total of the bytes
read as signed numbers is no signed byte. -/
structure Chained.Gives (operation : Chained) (left right : UInt8) (carry : Bool)
    (result : UInt8) (flags : Flags) : Prop where
  total : (result.toNat : Int) = operation.total left.toNat right.toNat carry.toNat % 256
  carries : flags.carry = true ↔ operation.Carries 256 left.toNat right.toNat carry.toNat
  carriesHalf : flags.half = true ↔
    operation.Carries 16 (left.toNat % 16) (right.toNat % 16) carry.toNat
  overflows : flags.parity = true ↔
    operation.total (Int.bmod left.toNat 256) (Int.bmod right.toNat 256) carry.toNat < -128 ∨
      127 < operation.total (Int.bmod left.toNat 256) (Int.bmod right.toNat 256) carry.toNat
  subtracts : flags.subtract = true ↔ operation = .subtraction

/-- Whether a byte and flags are what comes of combining two bytes bit by bit, the parity
flag telling of an even number of ones. -/
structure GivesBitwise (combine : Bool → Bool → Bool) (halfCarry : Bool)
    (left right result : UInt8) (flags : Flags) : Prop where
  bits : ∀ bit, result.toNat.testBit bit =
    combine (left.toNat.testBit bit) (right.toNat.testBit bit)
  carry : flags.carry = false
  half : flags.half = halfCarry
  parity : flags.parity = true ↔ Word.onesBelow result 8 % 2 = 0
  subtract : flags.subtract = false

namespace AccumulatorOperation

/-- What an operation is to compute. The carry counts only where it is said to. -/
def Computes (operation : AccumulatorOperation) (left right : UInt8) (carry : Bool)
    (result : UInt8) (flags : Flags) : Prop :=
  match operation with
  | .add => Chained.addition.Gives left right false result flags
  | .adc => Chained.addition.Gives left right carry result flags
  | .sub | .cp => Chained.subtraction.Gives left right false result flags
  | .sbc => Chained.subtraction.Gives left right carry result flags
  | .and => GivesBitwise (fun first second => first && second) true left right result flags
  | .xor => GivesBitwise (fun first second => first ^^ second) false left right result flags
  | .or => GivesBitwise (fun first second => first || second) false left right result flags

/-- What an operation is to leave in the accumulator and the flags. Comparison leaves the
accumulator as it was, and copies the undocumented flags from the operand. -/
def Leaves (operation : AccumulatorOperation) (left right : UInt8) (carry : Bool)
    (accumulator : UInt8) (flags : Flags) : Prop :=
  ∃ result, operation.Computes left right carry result flags ∧
    flags.Describe result (if operation = .cp then right else result) ∧
    accumulator = if operation = .cp then left else result

end AccumulatorOperation

/-! ## The operations -/

theorem Flags.Describe.of_bits {flags : Flags} {result copied : UInt8}
    (sign : flags.sign = bitOf result 7) (zero : flags.zero = (result == 0))
    (bit5 : flags.bit5 = bitOf copied 5) (bit3 : flags.bit3 = bitOf copied 3) :
    flags.Describe result copied where
  sign := by rw [sign, bitOf_seven, decide_eq_true_iff]
  zero := by
    rw [zero, beq_iff_eq, ← UInt8.toNat_inj]
    rfl
  bit5 := bit5.trans (bitOf_eq_testBit copied 5)
  bit3 := bit3.trans (bitOf_eq_testBit copied 3)

namespace Chained

variable (operation : Chained) (left right : UInt8) (flags : Flags)

theorem gives_combine :
    operation.Gives left right flags.carry (operation.combine left right flags).1
      (operation.combine left right flags).2 := by
  have whole := operation.digitwise.total left right flags trivial trivial
  have small := (operation.combine left right flags).1.toNat_lt
  constructor
  case total =>
    rw [whole, Nat.cast_ofNat, Int.add_mul_emod_self_left]
    exact (Int.emod_eq_of_lt (Int.natCast_nonneg _) (Int.ofNat_lt.2 small)).symm
  case carries => exact operation.carries_iff small whole
  case carriesHalf =>
    cases operation with
    | addition =>
      show (Arithmetic.add left right flags.carry).2.half = true ↔ _
      rw [Arithmetic.half_add, decide_eq_true_iff]
      rfl
    | subtraction =>
      show (Arithmetic.sub left right flags.carry).2.half = true ↔ _
      rw [Arithmetic.half_sub, decide_eq_true_iff]
      rfl
  case overflows =>
    cases operation with
    | addition => exact Arithmetic.overflow_add left right flags.carry
    | subtraction => exact Arithmetic.overflow_sub left right flags.carry
  case subtracts =>
    cases operation with
    | addition => exact iff_of_false Bool.false_ne_true nofun
    | subtraction => exact iff_of_true rfl rfl

theorem describe_combine :
    (operation.combine left right flags).2.Describe (operation.combine left right flags).1
      (operation.combine left right flags).1 := by
  cases operation <;> exact .of_bits rfl rfl rfl rfl

end Chained

namespace Arithmetic

/-- A logical operation, from what it does to each bit. -/
theorem gives_ofResultParity {combine : Bool → Bool → Bool} {left right result : UInt8}
    (bits : ∀ bit, result.toNat.testBit bit =
      combine (left.toNat.testBit bit) (right.toNat.testBit bit)) (halfCarry : Bool) :
    GivesBitwise combine halfCarry left right result
        { Flags.ofResultParity result with half := halfCarry } ∧
      { Flags.ofResultParity result with half := halfCarry }.Describe result result := by
  refine ⟨⟨bits, rfl, rfl, ?_, rfl⟩, .of_bits rfl rfl rfl rfl⟩
  show Word.evenParity result = true ↔ _
  rw [Word.evenParity_eq, beq_iff_eq]

/-- Every operation leaves what it is to leave. -/
theorem accumulate_leaves (operation : AccumulatorOperation) (left right : UInt8)
    (flags : Flags) :
    operation.Leaves left right flags.carry (accumulate operation left right flags).1
      (accumulate operation left right flags).2 := by
  -- Without a carry an operation is the one with a carry for flags that have it clear.
  let clear : Flags := { flags with carry := false }
  cases operation with
  | add =>
    exact ⟨_, Chained.addition.gives_combine left right clear,
      Chained.addition.describe_combine left right clear, rfl⟩
  | adc =>
    exact ⟨_, Chained.addition.gives_combine left right flags,
      Chained.addition.describe_combine left right flags, rfl⟩
  | sub =>
    exact ⟨_, Chained.subtraction.gives_combine left right clear,
      Chained.subtraction.describe_combine left right clear, rfl⟩
  | sbc =>
    exact ⟨_, Chained.subtraction.gives_combine left right flags,
      Chained.subtraction.describe_combine left right flags, rfl⟩
  | and =>
    have bits (bit : Nat) : (left &&& right).toNat.testBit bit =
        (left.toNat.testBit bit && right.toNat.testBit bit) := by
      rw [UInt8.toNat_and, Nat.testBit_and]
    obtain ⟨gives, describe⟩ := gives_ofResultParity bits true
    exact ⟨_, gives, describe, rfl⟩
  | xor =>
    have bits (bit : Nat) : (left ^^^ right).toNat.testBit bit =
        (left.toNat.testBit bit ^^ right.toNat.testBit bit) := by
      rw [UInt8.toNat_xor, Nat.testBit_xor]
    obtain ⟨gives, describe⟩ := gives_ofResultParity bits false
    exact ⟨_, gives, describe, rfl⟩
  | or =>
    have bits (bit : Nat) : (left ||| right).toNat.testBit bit =
        (left.toNat.testBit bit || right.toNat.testBit bit) := by
      rw [UInt8.toNat_or, Nat.testBit_or]
    obtain ⟨gives, describe⟩ := gives_ofResultParity bits false
    exact ⟨_, gives, describe, rfl⟩
  | cp =>
    -- The flags are those of the difference but for the copies, which come from the operand.
    have gives := Chained.subtraction.gives_combine left right clear
    exact ⟨(sub left right false).1,
      ⟨gives.total, gives.carries, gives.carriesHalf, gives.overflows, gives.subtracts⟩,
      .of_bits rfl rfl rfl rfl, rfl⟩

end Arithmetic

/-! ## No choice -/

section Unique

variable {left right result other : UInt8} {carry : Bool} {flags others : Flags}

theorem Chained.Gives.unique {operation : Chained}
    (first : operation.Gives left right carry result flags)
    (second : operation.Gives left right carry other others) :
    result = other ∧ flags.carry = others.carry ∧ flags.half = others.half ∧
      flags.parity = others.parity ∧ flags.subtract = others.subtract := by
  have same : (result.toNat : Int) = other.toNat := first.total.trans second.total.symm
  exact ⟨UInt8.toNat_inj.1 (Int.ofNat.inj same),
    Bool.eq_iff_iff.2 (first.carries.trans second.carries.symm),
    Bool.eq_iff_iff.2 (first.carriesHalf.trans second.carriesHalf.symm),
    Bool.eq_iff_iff.2 (first.overflows.trans second.overflows.symm),
    Bool.eq_iff_iff.2 (first.subtracts.trans second.subtracts.symm)⟩

theorem GivesBitwise.unique {combine : Bool → Bool → Bool} {halfCarry : Bool}
    (first : GivesBitwise combine halfCarry left right result flags)
    (second : GivesBitwise combine halfCarry left right other others) :
    result = other ∧ flags.carry = others.carry ∧ flags.half = others.half ∧
      flags.parity = others.parity ∧ flags.subtract = others.subtract := by
  have same : result = other :=
    UInt8.toNat_inj.1 (Nat.eq_of_testBit_eq fun bit => (first.bits bit).trans (second.bits bit).symm)
  subst same
  exact ⟨rfl, first.carry.trans second.carry.symm, first.half.trans second.half.symm,
    Bool.eq_iff_iff.2 (first.parity.trans second.parity.symm),
    first.subtract.trans second.subtract.symm⟩

namespace AccumulatorOperation

variable {operation : AccumulatorOperation}

theorem Computes.unique (first : operation.Computes left right carry result flags)
    (second : operation.Computes left right carry other others) :
    result = other ∧ flags.carry = others.carry ∧ flags.half = others.half ∧
      flags.parity = others.parity ∧ flags.subtract = others.subtract := by
  cases operation with
  | add | adc | sub | sbc | cp => exact Chained.Gives.unique first second
  | and | xor | or => exact GivesBitwise.unique first second

/-- What an operation is to leave is one byte and one set of flags. -/
theorem Leaves.unique (first : operation.Leaves left right carry result flags)
    (second : operation.Leaves left right carry other others) :
    result = other ∧ flags = others := by
  obtain ⟨value, computes, describes, rfl⟩ := first
  obtain ⟨otherValue, computesOther, describesOther, rfl⟩ := second
  obtain ⟨rfl, carries, halves, parities, subtracts⟩ := computes.unique computesOther
  have signs := Bool.eq_iff_iff.2 (describes.sign.trans describesOther.sign.symm)
  have zeros := Bool.eq_iff_iff.2 (describes.zero.trans describesOther.zero.symm)
  have copies5 := describes.bit5.trans describesOther.bit5.symm
  have copies3 := describes.bit3.trans describesOther.bit3.symm
  refine ⟨rfl, ?_⟩
  cases flags
  cases others
  simp only at carries halves parities subtracts signs zeros copies5 copies3
  subst carries halves parities subtracts signs zeros copies5 copies3
  rfl

end AccumulatorOperation

end Unique

/-! ## Opcodes -/

/-- Where the operand of an accumulator operation comes from: a register, the byte at HL, or
the byte behind the opcode. -/
inductive Source where
  | operand (place : Operand)
  | immediate
deriving DecidableEq, Repr

/-- How far the opcode for a source is behind the first one of its operation. -/
def Source.distance : Source → UInt8
  | .operand .b => 0x00
  | .operand .c => 0x01
  | .operand .d => 0x02
  | .operand .e => 0x03
  | .operand .h => 0x04
  | .operand .l => 0x05
  | .operand .atHL => 0x06
  | .operand .a => 0x07
  | .immediate => 0x46

/-- How many bytes an operation with an operand from this source takes. -/
def Source.length : Source → UInt16
  | .operand _ => 1
  | .immediate => 2

def Source.accumulate (operation : AccumulatorOperation) : Source → Operation
  | .operand place => .accumulate operation place
  | .immediate => .accumulateByte operation

namespace AccumulatorOperation

/-- The opcode of an operation with B for its operand, the lowest of its opcodes. -/
def firstOpcode : AccumulatorOperation → UInt8
  | .add => 0x80
  | .adc => 0x88
  | .sub => 0x90
  | .sbc => 0x98
  | .and => 0xa0
  | .xor => 0xa8
  | .or => 0xb0
  | .cp => 0xb8

def opcode (operation : AccumulatorOperation) (source : Source) : UInt8 :=
  operation.firstOpcode + source.distance

theorem decode_opcode (operation : AccumulatorOperation) (source : Source) :
    Instruction.decode (operation.opcode source) = .internal (source.accumulate operation) := by
  rw [Instruction.decode_eq]
  cases source with
  | operand place => cases operation <;> cases place <;> rfl
  | immediate => cases operation <;> rfl

end AccumulatorOperation

/-! ## Steps -/

namespace Z80

/-- The operand that the instruction at the program counter takes from a source. -/
def sourceByte (cpu : Z80) : Source → UInt8
  | .operand place => cpu.operand place
  | .immediate => cpu.load (cpu.pc + 1)

theorem session_accumulate {cpu : Z80} {operation : AccumulatorOperation} {source : Source}
    (opcode : cpu.nextByte = operation.opcode source) :
    Processor.step cpu =
      .finished ((cpu.skip source.length).setAccumulator
        (Arithmetic.accumulate operation cpu.a (cpu.sourceByte source) cpu.f)) none := by
  have decoded := operation.decode_opcode source
  rw [← opcode] at decoded
  rw [session_internal decoded]
  cases source with
  | operand place => cases place <;> rfl
  | immediate =>
    show Session.finished (((cpu.skip 1).skip 1).setAccumulator _) none = _
    rw [skip_skip]
    rfl

/-- Whether a processor is about to carry out an operation on two bytes and a carry, wherever
the second byte comes from. -/
structure AboutTo (cpu : Z80) (operation : AccumulatorOperation) (left right : UInt8)
    (carry : Bool) : Prop where
  accumulator : cpu.a = left
  carries : cpu.f.carry = carry
  operand : ∃ source, cpu.nextByte = operation.opcode source ∧ cpu.sourceByte source = right

/-- Such a processor turns to no port and does not fail. -/
theorem AboutTo.exists_step {cpu : Z80} {operation : AccumulatorOperation} {left right : UInt8}
    {carry : Bool} (about : cpu.AboutTo operation left right carry) :
    ∃ next, Processor.step cpu = .finished next none ∧
      operation.Leaves left right carry next.a next.f := by
  obtain ⟨rfl, rfl, source, opcode, rfl⟩ := about
  exact ⟨_, session_accumulate opcode, Arithmetic.accumulate_leaves _ _ _ _⟩

/-- An accumulator operation is carried out in one step, which turns to no port and does not
fail. It leaves what the operation is to leave of the accumulator, the operand and the
carry. Where the operand comes from makes no difference: every processor that is about to
carry out the operation on the same bytes and carry has the same accumulator and flags
behind it. -/
theorem accumulator_after_step (cpu : Z80) {operation : AccumulatorOperation} {source : Source}
    (opcode : cpu.nextByte = operation.opcode source) :
    ∃ next, Processor.step cpu = .finished next none ∧
      operation.Leaves cpu.a (cpu.sourceByte source) cpu.f.carry next.a next.f ∧
      ∀ other : Z80, other.AboutTo operation cpu.a (cpu.sourceByte source) cpu.f.carry →
        ∃ otherNext, Processor.step other = .finished otherNext none ∧
          otherNext.a = next.a ∧ otherNext.f = next.f := by
  have about : cpu.AboutTo operation cpu.a (cpu.sourceByte source) cpu.f.carry :=
    ⟨rfl, rfl, source, opcode, rfl⟩
  obtain ⟨next, steps, leaves⟩ := about.exists_step
  refine ⟨next, steps, leaves, ?_⟩
  intro other aboutOther
  obtain ⟨otherNext, otherSteps, otherLeaves⟩ := aboutOther.exists_step
  exact ⟨otherNext, otherSteps, otherLeaves.unique leaves⟩

/-- A processor at SBC A,01 across the end of memory, with 80 in the accumulator and the
carry set. -/
def wrappedSubtracter : Z80 :=
  { fresh with
    a := 0x80
    f := Flags.ofByte 0x01
    pc := 0xffff
    memory := Memory.zeroed.storeAll 0xffff [0xde, 0x01] }

/-- The same difference with B for its operand. -/
def registerSubtracter : Z80 :=
  { fresh with
    a := 0x80
    b := 0x01
    f := Flags.ofByte 0x01
    memory := Memory.zeroed.storeAll 0x0000 [0x98] }

/-- The difference is 7e, which overflows without a borrow, for both. -/
theorem accumulator_after_step_wrappedSubtracter :
    ∃ next otherNext, Processor.step wrappedSubtracter = .finished next none ∧
      Processor.step registerSubtracter = .finished otherNext none ∧
      next.a = 0x7e ∧ next.f.carry = false ∧ next.f.parity = true ∧
      otherNext.a = next.a ∧ otherNext.f = next.f := by
  have code : wrappedSubtracter.memory.read wrappedSubtracter.pc 2 = [0xde, 0x01] :=
    Memory.read_storeAll _ _ [0xde, 0x01] (by decide)
  simp only [Memory.read_succ_eq_cons] at code
  obtain ⟨first, operand, -⟩ := code
  have opcode : wrappedSubtracter.nextByte = AccumulatorOperation.sbc.opcode .immediate := first
  have registerCode : registerSubtracter.memory.read registerSubtracter.pc 1 = [0x98] :=
    Memory.read_storeAll _ _ [0x98] (by decide)
  rw [Memory.read_succ_eq_cons] at registerCode
  have byte : wrappedSubtracter.sourceByte .immediate = 0x01 := operand
  obtain ⟨next, steps, ⟨result, computes, -, accumulator⟩, same⟩ :=
    accumulator_after_step wrappedSubtracter opcode
  have about : registerSubtracter.AboutTo .sbc wrappedSubtracter.a
      (wrappedSubtracter.sourceByte .immediate) wrappedSubtracter.f.carry :=
    ⟨rfl, rfl, .operand .b, registerCode.1, byte.symm⟩
  obtain ⟨otherNext, otherSteps, sameResult, sameFlags⟩ := same registerSubtracter about
  rw [byte] at computes
  refine ⟨next, otherNext, steps, otherSteps, ?_, ?_, ?_, sameResult, sameFlags⟩
  · rw [accumulator]
    exact UInt8.toNat_inj.1 (Int.ofNat.inj computes.total)
  · rw [Bool.eq_false_iff]
    exact fun borrows => absurd (computes.carries.1 borrows) (by decide)
  · exact computes.overflows.2 (by decide)

end Z80

/-! ## What every processor comes to -/

/-- A processor at an operation with the byte behind the opcode. -/
def Z80.atImmediate (operation : AccumulatorOperation) (left right : UInt8) (flags : Flags) :
    Z80 :=
  { fresh with
    a := left
    f := flags
    memory := Memory.zeroed.storeAll 0x0000 [operation.opcode .immediate, right] }

theorem Z80.aboutTo_atImmediate (operation : AccumulatorOperation) (left right : UInt8)
    (flags : Flags) :
    (atImmediate operation left right flags).AboutTo operation left right flags.carry := by
  have code : (atImmediate operation left right flags).memory.read 0x0000 2 =
      [operation.opcode .immediate, right] :=
    Memory.read_storeAll _ _ [operation.opcode .immediate, right] (Nat.le_of_ble_eq_true rfl)
  simp only [Memory.read_succ_eq_cons] at code
  obtain ⟨opcode, operand, -⟩ := code
  exact ⟨rfl, rfl, .immediate, opcode, operand⟩

namespace AccumulatorOperation

/-- Whether there are processors about to carry out an operation on two bytes and a carry,
and all of them have this accumulator and these flags one step later. -/
structure Yields (operation : AccumulatorOperation) (left right : UInt8) (carry : Bool)
    (accumulator : UInt8) (flags : Flags) : Prop where
  occurs : ∃ cpu : Z80, cpu.AboutTo operation left right carry
  follows : ∀ cpu : Z80, cpu.AboutTo operation left right carry →
    ∃ next, Processor.step cpu = .finished next none ∧ next.a = accumulator ∧ next.f = flags

theorem yields_accumulate (operation : AccumulatorOperation) (left right : UInt8)
    (flags : Flags) :
    operation.Yields left right flags.carry
      (Arithmetic.accumulate operation left right flags).1
      (Arithmetic.accumulate operation left right flags).2 where
  occurs := ⟨_, Z80.aboutTo_atImmediate operation left right flags⟩
  follows := by
    intro cpu about
    obtain ⟨next, steps, leaves⟩ := about.exists_step
    exact ⟨next, steps, leaves.unique (Arithmetic.accumulate_leaves operation left right flags)⟩

/-- What they come to is what the operation is to leave. -/
theorem Yields.leaves {operation : AccumulatorOperation} {left right accumulator : UInt8}
    {carry : Bool} {flags : Flags}
    (yields : operation.Yields left right carry accumulator flags) :
    operation.Leaves left right carry accumulator flags := by
  obtain ⟨cpu, about⟩ := yields.occurs
  obtain ⟨next, steps, rfl, rfl⟩ := yields.follows cpu about
  obtain ⟨same, sameSteps, leaves⟩ := about.exists_step
  rw [steps] at sameSteps
  cases sameSteps
  exact leaves

end AccumulatorOperation

end Cpm80
