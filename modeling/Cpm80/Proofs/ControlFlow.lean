import Cpm80.Proofs.Footprint

/-!
Contract: where each instruction leads.

Owns:
- what the conditions of branches ask of the flag register, bit by bit;
- the ways in which an instruction can lead on, and the addresses they lead to;
- the way of every opcode, as a table of bytes;
- the program counter behind a step, and the steps that fail.

The table is one of opcode bytes, as a programmer has it. It does not go by the fields of
an opcode, by which instructions are decoded; that the two agree is shown byte by byte.

Does not own: what else an instruction does.
-/

namespace Cpm80

/-! ## Conditions -/

namespace Condition

/-- The bit of the flag register that a condition is about: zero, carry, parity or sign. -/
def mask : Condition → UInt8
  | .nonZero | .zero => 0x40
  | .noCarry | .carry => 0x01
  | .parityOdd | .parityEven => 0x04
  | .plus | .minus => 0x80

/-- Whether a condition asks for its bit to be set. -/
def wantsSet : Condition → Bool
  | .nonZero | .noCarry | .parityOdd | .plus => false
  | .zero | .carry | .parityEven | .minus => true

theorem holds_eq (condition : Condition) (flags : Flags) :
    condition.holds flags = ((flags.toByte &&& condition.mask != 0) == condition.wantsSet) := by
  obtain ⟨sign, zero, bit5, half, bit3, parity, subtract, carry⟩ := flags
  revert sign zero bit5 half bit3 parity subtract carry
  cases condition <;> decide +kernel

end Condition

/-! ## Ways to lead on -/

/-- How an instruction leads on. Where there is a condition and it does not hold, the next
instruction is the one behind. -/
inductive Flow where
  /-- The instruction behind, so many bytes on. -/
  | onward (length : UInt16)
  /-- The same instruction again. -/
  | stay
  /-- The operand word: jumps and calls. -/
  | toWord (condition : Option Condition)
  /-- As far away as the operand byte says: relative jumps. -/
  | away (condition : Option Condition)
  /-- The same, unless B counts down to zero. -/
  | countdown
  /-- The word on top of the stack: returns. -/
  | toTop (condition : Option Condition)
  | toHL
  | toAddress (address : UInt16)
deriving DecidableEq, Repr

/-- How the instruction of an opcode leads on. What is not listed is a single byte long. -/
def Flow.ofOpcode : UInt8 → Flow
  | 0x76 => .stay
  | 0x01 | 0x11 | 0x21 | 0x31 => .onward 3
  | 0x22 | 0x2a | 0x32 | 0x3a => .onward 3
  | 0x06 | 0x0e | 0x16 | 0x1e | 0x26 | 0x2e | 0x36 | 0x3e => .onward 2
  | 0xc6 | 0xce | 0xd6 | 0xde | 0xe6 | 0xee | 0xf6 | 0xfe => .onward 2
  | 0xd3 | 0xdb => .onward 2
  | 0x10 => .countdown
  | 0x18 => .away none
  | 0x20 => .away (some .nonZero)
  | 0x28 => .away (some .zero)
  | 0x30 => .away (some .noCarry)
  | 0x38 => .away (some .carry)
  | 0xc3 | 0xcd => .toWord none
  | 0xc2 | 0xc4 => .toWord (some .nonZero)
  | 0xca | 0xcc => .toWord (some .zero)
  | 0xd2 | 0xd4 => .toWord (some .noCarry)
  | 0xda | 0xdc => .toWord (some .carry)
  | 0xe2 | 0xe4 => .toWord (some .parityOdd)
  | 0xea | 0xec => .toWord (some .parityEven)
  | 0xf2 | 0xf4 => .toWord (some .plus)
  | 0xfa | 0xfc => .toWord (some .minus)
  | 0xc9 => .toTop none
  | 0xc0 => .toTop (some .nonZero)
  | 0xc8 => .toTop (some .zero)
  | 0xd0 => .toTop (some .noCarry)
  | 0xd8 => .toTop (some .carry)
  | 0xe0 => .toTop (some .parityOdd)
  | 0xe8 => .toTop (some .parityEven)
  | 0xf0 => .toTop (some .plus)
  | 0xf8 => .toTop (some .minus)
  | 0xe9 => .toHL
  | 0xc7 => .toAddress 0x00
  | 0xcf => .toAddress 0x08
  | 0xd7 => .toAddress 0x10
  | 0xdf => .toAddress 0x18
  | 0xe7 => .toAddress 0x20
  | 0xef => .toAddress 0x28
  | 0xf7 => .toAddress 0x30
  | 0xff => .toAddress 0x38
  | _ => .onward 1

/-- A byte as a signed number, in sixteen bits. -/
def Word.signExtend (byte : UInt8) : UInt16 :=
  if byte < 0x80 then byte.toUInt16 else 0xff00 + byte.toUInt16

theorem Word.displace_eq (base : UInt16) (displacement : UInt8) :
    displace base displacement = base + signExtend displacement := by
  have all : ∀ value : Fin 256,
      (UInt8.ofFin value).toInt8.toInt16.toUInt16 = signExtend (UInt8.ofFin value) := by
    decide +kernel
  exact congrArg (base + ·) (all displacement.toFin)

namespace Z80

/-- Whether a branch is taken: always, or if its condition finds its bit as it wants it. -/
def takes (cpu : Z80) : Option Condition → Bool
  | none => true
  | some condition => (cpu.register .f &&& condition.mask != 0) == condition.wantsSet

/-- Where the instruction at the program counter leads, if it leads on in this way. -/
def follow (cpu : Z80) : Flow → UInt16
  | .onward length => cpu.pc + length
  | .stay => cpu.pc
  | .toWord condition =>
    if cpu.takes condition then Word.join (cpu.load (cpu.pc + 2)) (cpu.load (cpu.pc + 1))
    else cpu.pc + 3
  | .away condition =>
    if cpu.takes condition then cpu.pc + 2 + Word.signExtend (cpu.load (cpu.pc + 1))
    else cpu.pc + 2
  | .countdown =>
    if cpu.b = 1 then cpu.pc + 2 else cpu.pc + 2 + Word.signExtend (cpu.load (cpu.pc + 1))
  | .toTop condition =>
    if cpu.takes condition then Word.join (cpu.load (cpu.sp + 1)) (cpu.load cpu.sp)
    else cpu.pc + 1
  | .toHL => Word.join cpu.h cpu.l
  | .toAddress address => address

end Z80

/-! ## The way of a decoded instruction -/

def Operation.flow : Operation → Flow
  | .halt => .stay
  | .jump | .call => .toWord none
  | .jumpIf condition | .callIf condition => .toWord (some condition)
  | .jumpRelative => .away none
  | .jumpRelativeIf condition => .away (some condition)
  | .decrementJump => .countdown
  | .ret => .toTop none
  | .retIf condition => .toTop (some condition)
  | .jumpHL => .toHL
  | .restart vector => .toAddress (UInt16.ofNat (8 * vector.val))
  | operation => .onward (UInt16.ofNat (operation.operandBytes + 1))

def Instruction.flow : Instruction → Flow
  | .internal operation => operation.flow
  | .portRead | .portWrite => .onward 2
  | .unimplemented => .onward 1

/-- Decoding by fields gives every opcode the way that the table has for it. -/
theorem Instruction.flow_decode (opcode : UInt8) : (decode opcode).flow = .ofOpcode opcode := by
  rw [decode_eq]
  revert opcode
  apply forall_byte
  decide +kernel

/-! ## The counter behind a step -/

namespace Z80

section Branches

variable (cpu : Z80)

theorem pc_update (target : Operand) (result : UInt8 × Flags) :
    (cpu.update target result).pc = cpu.pc :=
  pc_setOperand cpu target

theorem pc_skip_byte : ((cpu.skip 1).skip 1).pc = cpu.pc + 2 :=
  congrArg Z80.pc (cpu.skip_skip 1 1)

theorem pc_skip_word : ((cpu.skip 1).skip 2).pc = cpu.pc + 3 :=
  congrArg Z80.pc (cpu.skip_skip 1 2)

/-- A relative jump counts from behind its operand. -/
theorem displace_nextByte :
    Word.displace ((cpu.skip 1).pc + 1) (cpu.skip 1).nextByte =
      cpu.pc + 2 + Word.signExtend (cpu.load (cpu.pc + 1)) := by
  have behind : (cpu.skip 1).pc + 1 = cpu.pc + 2 := cpu.pc_skip_byte
  rw [Word.displace_eq, behind]
  rfl

theorem pc_branch (condition : Option Condition) :
    ((cpu.skip 1).branch (cpu.takes condition)).pc = cpu.follow (.toWord condition) := by
  simp only [branch, follow]
  split
  · exact nextWord_skip_one cpu
  · exact cpu.pc_skip_word

theorem pc_branchCall (condition : Option Condition) :
    ((cpu.skip 1).branchCall (cpu.takes condition)).pc = cpu.follow (.toWord condition) := by
  simp only [branchCall, follow]
  split
  · exact nextWord_skip_one cpu
  · exact cpu.pc_skip_word

theorem pc_branchRelative (condition : Option Condition) :
    ((cpu.skip 1).branchRelative (cpu.takes condition)).pc = cpu.follow (.away condition) := by
  simp only [branchRelative, follow]
  split
  · exact cpu.displace_nextByte
  · exact cpu.pc_skip_byte

theorem pc_decrementJump : (cpu.skip 1).decrementJump.pc = cpu.follow .countdown := by
  unfold decrementJump branchRelative follow
  by_cases last : cpu.b = 1
  · have done : ((cpu.skip 1).b - 1 != 0) = false := by
      show (cpu.b - 1 != 0) = false
      rw [last]
      rfl
    rw [done, if_pos last]
    exact cpu.pc_skip_byte
  · have goesOn : ((cpu.skip 1).b - 1 != 0) = true := by
      show (cpu.b - 1 != 0) = true
      grind
    rw [goesOn, if_neg last]
    exact cpu.displace_nextByte

theorem pc_branchReturn (condition : Option Condition) :
    ((cpu.skip 1).branchReturn (cpu.takes condition)).pc = cpu.follow (.toTop condition) := by
  simp only [branchReturn, follow]
  split <;> rfl

/-- Every operation leads on in its way, from behind its opcode. -/
theorem pc_execute (operation : Operation) :
    ((cpu.skip 1).execute operation).pc = cpu.follow operation.flow := by
  cases operation with
  | nop | disableInterrupts | enableInterrupts | exchangeAF | exchangeAll | exchangeDEHL
  | exchangeTop | loadStackPointer | push | jumpHL | restart | adjust | accumulate | addHL => rfl
  | halt =>
    show cpu.pc + 1 - 1 = cpu.pc
    grind
  | move target source => exact pc_setOperand (cpu.skip 1) target
  | increment target | decrement target => exact pc_update (cpu.skip 1) target _
  | incrementPair target | decrementPair target => exact pc_setPair (cpu.skip 1) target
  | pop target => exact pc_setPair (cpu.skip 1).drop target
  | loadByte target =>
    exact (pc_setOperand ((cpu.skip 1).skip 1) target).trans cpu.pc_skip_byte
  | accumulateByte => exact cpu.pc_skip_byte
  | loadPair target => exact (pc_setPair ((cpu.skip 1).skip 2) target).trans cpu.pc_skip_word
  | loadHL | storeHL => exact cpu.pc_skip_word
  | loadA source | storeA source =>
    cases source with
    | bc | de => rfl
    | immediate => exact cpu.pc_skip_word
  | jump => exact cpu.pc_branch none
  | jumpIf condition =>
    show ((cpu.skip 1).branch (condition.holds cpu.f)).pc = _
    rw [Condition.holds_eq]
    exact cpu.pc_branch (some condition)
  | call => exact cpu.pc_branchCall none
  | callIf condition =>
    show ((cpu.skip 1).branchCall (condition.holds cpu.f)).pc = _
    rw [Condition.holds_eq]
    exact cpu.pc_branchCall (some condition)
  | jumpRelative => exact cpu.pc_branchRelative none
  | jumpRelativeIf condition =>
    show ((cpu.skip 1).branchRelative (condition.holds cpu.f)).pc = _
    rw [Condition.holds_eq]
    exact cpu.pc_branchRelative (some condition)
  | decrementJump => exact cpu.pc_decrementJump
  | ret => exact cpu.pc_branchReturn none
  | retIf condition =>
    show ((cpu.skip 1).branchReturn (condition.holds cpu.f)).pc = _
    rw [Condition.holds_eq]
    exact cpu.pc_branchReturn (some condition)

end Branches

variable {State : Type} (cpu : Z80) (ports : Ports Z80 State) (state : State)

theorem pc_run_step :
    ((Processor.step cpu).run ports state).cpu.pc =
      cpu.follow (Instruction.decode cpu.nextByte).flow := by
  cases decoded : Instruction.decode cpu.nextByte with
  | internal operation =>
    rw [session_internal decoded]
    exact cpu.pc_execute operation
  | portRead =>
    rw [session_portRead decoded]
    rfl
  | portWrite =>
    rw [session_portWrite decoded]
    rfl
  | unimplemented =>
    rw [session_unimplemented decoded]
    rfl

/-- A step fails just when it meets an instruction that is not implemented. -/
theorem isSome_fault_run_step :
    ((Processor.step cpu).run ports state).fault.isSome = true ↔
      Instruction.decode cpu.nextByte = .unimplemented := by
  cases decoded : Instruction.decode cpu.nextByte with
  | internal => simp [session_internal decoded, Session.run]
  | portRead => simp [session_portRead decoded, Session.run]
  | portWrite => simp [session_portWrite decoded, Session.run]
  | unimplemented => simp [session_unimplemented decoded, Session.run]

/-- Whatever the ports reply, one step leads to where the table says for the opcode at the
program counter, all taken from the processor and its memory before the step. It fails
just at the four bytes that open a group, and moves on by one byte then too. -/
theorem counter_after_step :
    ((Processor.step cpu).run ports state).cpu.pc = cpu.follow (.ofOpcode cpu.nextByte) ∧
      (((Processor.step cpu).run ports state).fault.isSome = true ↔
        cpu.nextByte ∈ [0xcb, 0xdd, 0xed, 0xfd]) := by
  constructor
  · rw [pc_run_step, Instruction.flow_decode]
  · rw [isSome_fault_run_step, Instruction.decode_eq_unimplemented_iff]
    simp

end Z80

end Cpm80
