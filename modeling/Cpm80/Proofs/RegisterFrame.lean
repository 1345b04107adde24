import Cpm80.Proofs.Deposits

/-!
Contract: which registers and flags each instruction can change.

Owns:
- the components of a processor, its program counter, stack pointer and memory apart;
- for each component the opcodes that can change it, as a table of bytes;
- the ways in which an instruction can move the stack pointer, and the way of every opcode;
- the registers behind a step: what the tables do not list is as it was.

Does not own: what an instruction changes a register to, the stack pointer apart.
-/

namespace Cpm80

/-! ## Components -/

/-- The registers, the flags and the interrupt flag. The alternate registers are taken in
pairs, as they are reached. -/
inductive Component where
  | a | f | b | c | d | e | h | l
  | altAF | altBC | altDE | altHL
  | interrupts
deriving DecidableEq, Repr

/-- What a component holds, as a word. -/
def Z80.component (cpu : Z80) : Component → UInt16
  | .a => cpu.a.toUInt16
  | .f => cpu.f.toByte.toUInt16
  | .b => cpu.b.toUInt16
  | .c => cpu.c.toUInt16
  | .d => cpu.d.toUInt16
  | .e => cpu.e.toUInt16
  | .h => cpu.h.toUInt16
  | .l => cpu.l.toUInt16
  | .altAF => Word.join cpu.altA cpu.altF.toByte
  | .altBC => cpu.altBC
  | .altDE => cpu.altDE
  | .altHL => cpu.altHL
  | .interrupts => cpu.interrupts.toUInt16

/-- So many opcodes, one after the other. -/
def Opcode.row (first : UInt8) (count : Nat) : List UInt8 :=
  (List.range count).map fun index => first + UInt8.ofNat index

/-- Eight opcodes that differ in y alone. -/
def Opcode.column (first : UInt8) : List UInt8 :=
  (List.range 8).map fun index => first + 8 * UInt8.ofNat index

/-- The opcodes that can change a component. Those of a register are, in this order: loads
and arithmetic of the register itself; loads, counting and pops of its pair; all others. -/
def Component.changers : Component → List UInt8
  | .a =>
    Opcode.row 0x78 8 ++ [0x3e, 0x0a, 0x1a, 0x3a, 0x3c, 0x3d] ++ [0xf1] ++
      -- rotations, decimal adjustment and complement; all accumulator operations but CP
      [0x07, 0x0f, 0x17, 0x1f, 0x27, 0x2f] ++ Opcode.row 0x80 56 ++
      [0xc6, 0xce, 0xd6, 0xde, 0xe6, 0xee, 0xf6] ++ [0x08, 0xdb]
  | .f =>
    -- increments and decrements of bytes; adjustments; accumulator operations; ADD HL
    Opcode.column 0x04 ++ Opcode.column 0x05 ++ Opcode.column 0x07 ++ Opcode.row 0x80 64 ++
      Opcode.column 0xc6 ++ [0x09, 0x19, 0x29, 0x39] ++ [0xf1, 0x08]
  | .b => Opcode.row 0x40 8 ++ [0x06, 0x04, 0x05] ++ [0x01, 0x03, 0x0b, 0xc1] ++ [0x10, 0xd9]
  | .c => Opcode.row 0x48 8 ++ [0x0e, 0x0c, 0x0d] ++ [0x01, 0x03, 0x0b, 0xc1] ++ [0xd9]
  | .d => Opcode.row 0x50 8 ++ [0x16, 0x14, 0x15] ++ [0x11, 0x13, 0x1b, 0xd1] ++ [0xeb, 0xd9]
  | .e => Opcode.row 0x58 8 ++ [0x1e, 0x1c, 0x1d] ++ [0x11, 0x13, 0x1b, 0xd1] ++ [0xeb, 0xd9]
  | .h =>
    Opcode.row 0x60 8 ++ [0x26, 0x24, 0x25] ++ [0x21, 0x23, 0x2b, 0xe1] ++
      [0x09, 0x19, 0x29, 0x39, 0x2a, 0xe3, 0xeb, 0xd9]
  | .l =>
    Opcode.row 0x68 8 ++ [0x2e, 0x2c, 0x2d] ++ [0x21, 0x23, 0x2b, 0xe1] ++
      [0x09, 0x19, 0x29, 0x39, 0x2a, 0xe3, 0xeb, 0xd9]
  | .altAF => [0x08]
  | .altBC | .altDE | .altHL => [0xd9]
  | .interrupts => [0xf3, 0xfb]

/-! ## Changes of decoded instructions -/

def Operand.components : Operand → List Component
  | .b => [.b]
  | .c => [.c]
  | .d => [.d]
  | .e => [.e]
  | .h => [.h]
  | .l => [.l]
  | .atHL => []
  | .a => [.a]

def RegisterPair.components : RegisterPair → List Component
  | .af => [.a, .f]
  | .bc => [.b, .c]
  | .de => [.d, .e]
  | .hl => [.h, .l]
  | .sp => []

/-- Adjustments that only set flags. -/
def Adjustment.keepsAccumulator : Adjustment → Bool
  | .setCarry | .complementCarry => true
  | _ => false

/-- The components that the result of an accumulator operation goes to. -/
def Component.accumulated (keepsAccumulator : Bool) : List Component :=
  if keepsAccumulator then [.f] else [.a, .f]

/-- The components that an operation can change. -/
def Operation.changes : Operation → List Component
  | .disableInterrupts | .enableInterrupts => [.interrupts]
  | .exchangeAF => [.a, .f, .altAF]
  | .exchangeAll => [.b, .c, .d, .e, .h, .l, .altBC, .altDE, .altHL]
  | .exchangeDEHL => [.d, .e, .h, .l]
  | .exchangeTop | .loadHL => [.h, .l]
  | .move target _ | .loadByte target => target.components
  | .loadPair target | .incrementPair target | .decrementPair target | .pop target =>
    target.components
  | .loadA _ => [.a]
  | .increment target | .decrement target => .f :: target.components
  | .addHL _ => [.f, .h, .l]
  | .adjust adjustment => Component.accumulated adjustment.keepsAccumulator
  | .accumulate operation _ | .accumulateByte operation =>
    Component.accumulated (operation == .cp)
  | .decrementJump => [.b]
  | _ => []

def Instruction.changes : Instruction → List Component
  | .internal operation => operation.changes
  | .portRead => [.a]
  | .portWrite | .unimplemented => []

/-- What decoding by fields lets an opcode change, the table has for it. -/
theorem Instruction.mem_changers {opcode : UInt8} {component : Component}
    (changes : component ∈ (decode opcode).changes) : opcode ∈ component.changers := by
  have each : ∀ opcode,
      component ∈ (ofOpcode (.ofByte opcode)).changes → opcode ∈ component.changers := by
    apply forall_byte
    cases component <;> decide +kernel
  rw [decode_eq] at changes
  exact each opcode changes

/-! ## Components behind an operation -/

namespace Z80

section Operations

variable (cpu : Z80) {component : Component}

theorem component_setOperand (target : Operand) {value : UInt8}
    (kept : component ∉ target.components) :
    (cpu.setOperand target value).component component = cpu.component component := by
  cases target <;> cases component
  all_goals first
    | rfl
    | exact absurd (List.mem_singleton_self _) kept

theorem component_setPair (target : RegisterPair) {value : UInt16}
    (kept : component ∉ target.components) :
    (cpu.setPair target value).component component = cpu.component component := by
  cases target <;> cases component
  all_goals first
    | rfl
    | simp [RegisterPair.components] at kept

theorem component_setFlags {flags : Flags} (kept : component ≠ .f) :
    { cpu with f := flags }.component component = cpu.component component := by
  cases component
  case f => exact absurd rfl kept
  all_goals rfl

theorem component_update {target : Operand} {result : UInt8 × Flags}
    (kept : component ∉ .f :: target.components) :
    (cpu.update target result).component component = cpu.component component := by
  rw [List.mem_cons, not_or] at kept
  exact (component_setFlags _ kept.1).trans (cpu.component_setOperand target kept.2)

theorem component_addHL {value : UInt16} (kept : component ∉ [.f, .h, .l]) :
    (cpu.addHL value).component component = cpu.component component := by
  rw [List.mem_cons, not_or] at kept
  exact (component_setFlags _ kept.1).trans (cpu.component_setPair .hl kept.2)

/-- The accumulator may be listed as kept only if the result is what it was. -/
theorem component_setAccumulator {result : UInt8 × Flags} {keepsAccumulator : Bool}
    (same : keepsAccumulator = true → result.1 = cpu.a)
    (kept : component ∉ Component.accumulated keepsAccumulator) :
    (cpu.setAccumulator result).component component = cpu.component component := by
  cases component
  case f => cases keepsAccumulator <;> simp [Component.accumulated] at kept
  case a =>
    cases keepsAccumulator with
    | false => simp [Component.accumulated] at kept
    | true => exact congrArg UInt8.toUInt16 (same rfl)
  all_goals rfl

theorem component_exchangeAF (kept : component ∉ [.a, .f, .altAF]) :
    cpu.exchangeAF.component component = cpu.component component := by
  cases component
  case a | f | altAF => simp at kept
  all_goals rfl

theorem component_exchangeAll
    (kept : component ∉ [.b, .c, .d, .e, .h, .l, .altBC, .altDE, .altHL]) :
    cpu.exchangeAll.component component = cpu.component component := by
  cases component
  case a | f | altAF | interrupts => rfl
  all_goals simp at kept

theorem component_exchangeDEHL (kept : component ∉ [.d, .e, .h, .l]) :
    cpu.exchangeDEHL.component component = cpu.component component := by
  cases component
  case d | e | h | l => simp at kept
  all_goals rfl

theorem component_branchRelative (taken : Bool) :
    (cpu.branchRelative taken).component component = cpu.component component := by
  cases taken <;> rfl

theorem component_branch (taken : Bool) :
    (cpu.branch taken).component component = cpu.component component := by
  cases taken <;> rfl

theorem component_branchCall (taken : Bool) :
    (cpu.branchCall taken).component component = cpu.component component := by
  cases taken <;> rfl

theorem component_branchReturn (taken : Bool) :
    (cpu.branchReturn taken).component component = cpu.component component := by
  cases taken <;> rfl

/-- An operation changes no component but those that it lists. -/
theorem component_execute {operation : Operation} (kept : component ∉ operation.changes) :
    (cpu.execute operation).component component = cpu.component component := by
  cases operation with
  | nop | halt | loadStackPointer | storeHL | push | jumpHL | restart => rfl
  | disableInterrupts | enableInterrupts =>
    cases component
    case interrupts => simp [Operation.changes] at kept
    all_goals rfl
  | exchangeAF => exact cpu.component_exchangeAF kept
  | exchangeAll => exact cpu.component_exchangeAll kept
  | exchangeDEHL => exact cpu.component_exchangeDEHL kept
  | exchangeTop => exact component_setPair (cpu.storeWord cpu.sp (cpu.pair .hl)) .hl kept
  | move target source => exact cpu.component_setOperand target kept
  | loadByte target => exact component_setOperand (cpu.skip 1) target kept
  | loadPair target => exact component_setPair (cpu.skip 2) target kept
  | loadHL => exact component_setPair (cpu.skip 2) .hl kept
  | incrementPair target | decrementPair target => exact cpu.component_setPair target kept
  | pop target => exact component_setPair cpu.drop target kept
  | loadA source =>
    cases source with
    | bc | de => exact cpu.component_setOperand .a kept
    | immediate => exact component_setOperand (cpu.skip 2) .a kept
  | storeA target => cases target <;> rfl
  | increment target | decrement target => exact cpu.component_update kept
  | addHL source => exact cpu.component_addHL kept
  | adjust adjustment =>
    refine cpu.component_setAccumulator ?_ kept
    intro keeps
    cases adjustment <;> first | rfl | contradiction
  | accumulate operation source =>
    refine cpu.component_setAccumulator ?_ kept
    intro compares
    rw [beq_iff_eq] at compares
    rw [compares]
    rfl
  | accumulateByte operation =>
    refine component_setAccumulator (cpu.skip 1) ?_ kept
    intro compares
    rw [beq_iff_eq] at compares
    rw [compares]
    rfl
  | jumpRelative => exact cpu.component_branchRelative true
  | jumpRelativeIf condition => exact cpu.component_branchRelative _
  | decrementJump =>
    have counted : { cpu with b := cpu.b - 1 }.component component = cpu.component component :=
      cpu.component_setOperand .b kept
    exact (component_branchRelative { cpu with b := cpu.b - 1 } _).trans counted
  | jump => exact cpu.component_branch true
  | jumpIf condition => exact cpu.component_branch _
  | call => exact cpu.component_branchCall true
  | callIf condition => exact cpu.component_branchCall _
  | ret => exact cpu.component_branchReturn true
  | retIf condition => exact cpu.component_branchReturn _

end Operations

end Z80

/-! ## The stack pointer -/

/-- How an instruction moves the stack pointer. Where there is a condition and it does not
hold, the stack pointer stays. -/
inductive StackMove where
  | stay
  | oneUp
  | oneDown
  | toWord
  | toHL
  /-- Past the word on top of the stack: pops and returns. -/
  | drop (condition : Option Condition)
  /-- To a word that is put on top of the stack: pushes and calls. -/
  | push (condition : Option Condition)
deriving DecidableEq, Repr

/-- How the instruction of an opcode moves the stack pointer. -/
def StackMove.ofOpcode : UInt8 → StackMove
  | 0x31 => .toWord
  | 0x33 => .oneUp
  | 0x3b => .oneDown
  | 0xf9 => .toHL
  | 0xc1 | 0xd1 | 0xe1 | 0xf1 | 0xc9 => .drop none
  | 0xc0 => .drop (some .nonZero)
  | 0xc8 => .drop (some .zero)
  | 0xd0 => .drop (some .noCarry)
  | 0xd8 => .drop (some .carry)
  | 0xe0 => .drop (some .parityOdd)
  | 0xe8 => .drop (some .parityEven)
  | 0xf0 => .drop (some .plus)
  | 0xf8 => .drop (some .minus)
  | 0xc5 | 0xd5 | 0xe5 | 0xf5 | 0xcd => .push none
  | 0xc7 | 0xcf | 0xd7 | 0xdf | 0xe7 | 0xef | 0xf7 | 0xff => .push none
  | 0xc4 => .push (some .nonZero)
  | 0xcc => .push (some .zero)
  | 0xd4 => .push (some .noCarry)
  | 0xdc => .push (some .carry)
  | 0xe4 => .push (some .parityOdd)
  | 0xec => .push (some .parityEven)
  | 0xf4 => .push (some .plus)
  | 0xfc => .push (some .minus)
  | _ => .stay

/-- Where a move takes the stack pointer of a processor at the opcode. -/
def Z80.stackPointer (cpu : Z80) : StackMove → UInt16
  | .stay => cpu.sp
  | .oneUp => cpu.sp + 1
  | .oneDown => cpu.sp - 1
  | .toWord => cpu.operandWord
  | .toHL => Word.join cpu.h cpu.l
  | .drop condition => if cpu.takes condition then cpu.sp + 2 else cpu.sp
  | .push condition => if cpu.takes condition then cpu.sp - 2 else cpu.sp

def Operation.stackMove : Operation → StackMove
  | .loadPair .sp => .toWord
  | .incrementPair .sp => .oneUp
  | .decrementPair .sp => .oneDown
  | .loadStackPointer => .toHL
  | .pop _ | .ret => .drop none
  | .retIf condition => .drop (some condition)
  | .push _ | .call | .restart _ => .push none
  | .callIf condition => .push (some condition)
  | _ => .stay

def Instruction.stackMove : Instruction → StackMove
  | .internal operation => operation.stackMove
  | .portRead | .portWrite | .unimplemented => .stay

/-- Decoding by fields gives every opcode the move that the table has for it. -/
theorem Instruction.stackMove_decode (opcode : UInt8) :
    (decode opcode).stackMove = .ofOpcode opcode := by
  rw [decode_eq]
  revert opcode
  apply forall_byte
  decide +kernel

/-- No instruction takes a word off the stack for the stack pointer itself. -/
theorem Instruction.decode_ne_popSP (opcode : UInt8) :
    decode opcode ≠ .internal (.pop .sp) := by
  rw [decode_eq]
  revert opcode
  apply forall_byte
  decide +kernel

namespace Z80

section Operations

variable (cpu : Z80)

theorem sp_branchCall (condition : Option Condition) :
    ((cpu.skip 1).branchCall (cpu.takes condition)).sp = cpu.stackPointer (.push condition) := by
  simp only [branchCall, stackPointer]
  split <;> rfl

theorem sp_branchReturn (condition : Option Condition) :
    ((cpu.skip 1).branchReturn (cpu.takes condition)).sp =
      cpu.stackPointer (.drop condition) := by
  simp only [branchReturn, stackPointer]
  split <;> rfl

theorem sp_branchRelative (taken : Bool) : (cpu.branchRelative taken).sp = cpu.sp := by
  cases taken <;> rfl

theorem sp_branch (taken : Bool) : (cpu.branch taken).sp = cpu.sp := by
  cases taken <;> rfl

theorem sp_execute {operation : Operation} (general : operation ≠ .pop .sp) :
    ((cpu.skip 1).execute operation).sp = cpu.stackPointer operation.stackMove := by
  cases operation with
  | nop | halt | disableInterrupts | enableInterrupts | exchangeAF | exchangeAll
  | exchangeDEHL | exchangeTop | loadStackPointer | loadHL | storeHL | addHL | adjust
  | accumulate | accumulateByte | push | jumpHL | restart => rfl
  | move target source => exact sp_setOperand (cpu.skip 1) target
  | loadByte target => exact sp_setOperand ((cpu.skip 1).skip 1) target
  | loadPair target =>
    cases target
    case sp => exact nextWord_skip_one cpu
    all_goals rfl
  | incrementPair target | decrementPair target => cases target <;> rfl
  | loadA pointer | storeA pointer => cases pointer <;> rfl
  | increment target | decrement target => exact sp_setOperand (cpu.skip 1) target
  | pop target =>
    cases target
    case sp => exact absurd rfl general
    all_goals rfl
  | jumpRelative | jumpRelativeIf => exact sp_branchRelative (cpu.skip 1) _
  | decrementJump => exact sp_branchRelative { cpu.skip 1 with b := cpu.b - 1 } _
  | jump | jumpIf => exact sp_branch (cpu.skip 1) _
  | call => exact cpu.sp_branchCall none
  | callIf condition =>
    show ((cpu.skip 1).branchCall (condition.holds cpu.f)).sp = _
    rw [Condition.holds_eq]
    exact cpu.sp_branchCall (some condition)
  | ret => exact cpu.sp_branchReturn none
  | retIf condition =>
    show ((cpu.skip 1).branchReturn (condition.holds cpu.f)).sp = _
    rw [Condition.holds_eq]
    exact cpu.sp_branchReturn (some condition)

end Operations

/-! ## Registers behind a step -/

variable {State : Type} (cpu : Z80) (ports : Ports Z80 State) (state : State)

theorem component_run_step {component : Component}
    (kept : component ∉ (Instruction.decode cpu.nextByte).changes) :
    ((Processor.step cpu).run ports state).cpu.component component =
      cpu.component component := by
  cases decoded : Instruction.decode cpu.nextByte with
  | internal operation =>
    rw [decoded] at kept
    rw [session_internal decoded]
    exact component_execute (cpu.skip 1) kept
  | portRead =>
    rw [decoded] at kept
    rw [session_portRead decoded]
    exact component_setOperand (cpu.skip 2) .a kept
  | portWrite =>
    rw [session_portWrite decoded]
    rfl
  | unimplemented =>
    rw [session_unimplemented decoded]
    rfl

theorem sp_run_step :
    ((Processor.step cpu).run ports state).cpu.sp =
      cpu.stackPointer (Instruction.decode cpu.nextByte).stackMove := by
  cases decoded : Instruction.decode cpu.nextByte with
  | internal operation =>
    have general : operation ≠ .pop .sp := by
      rintro rfl
      exact Instruction.decode_ne_popSP _ decoded
    rw [session_internal decoded]
    exact cpu.sp_execute general
  | portRead =>
    rw [session_portRead decoded]
    rfl
  | portWrite =>
    rw [session_portWrite decoded]
    rfl
  | unimplemented =>
    rw [session_unimplemented decoded]
    rfl

/-- Whatever the ports reply, one step leaves every register, the flags and the interrupt
flag as they were but for those that the table has for the opcode at the program counter,
and the stack pointer where the table says. A step that fails changes none of them. -/
theorem registers_after_step :
    (∀ component : Component, cpu.nextByte ∉ component.changers →
        ((Processor.step cpu).run ports state).cpu.component component =
          cpu.component component) ∧
      ((Processor.step cpu).run ports state).cpu.sp =
        cpu.stackPointer (.ofOpcode cpu.nextByte) := by
  constructor
  · intro component unlisted
    exact cpu.component_run_step ports state
      fun changes => unlisted (Instruction.mem_changers changes)
  · rw [sp_run_step, Instruction.stackMove_decode]

end Z80

end Cpm80
