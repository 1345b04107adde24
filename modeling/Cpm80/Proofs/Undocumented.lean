import Cpm80.Proofs.Correspondence
import Cpm80.Proofs.Stepping

/-!
Contract: the two undocumented flags, which a program can learn of only through a push of
AF.

Owns:
- flags and processors without the two;
- the operations that take the flag register as a byte, and the only opcode of one;
- every other operation as one on processors without the two flags;
- two machines that differ in nothing else, for as long as the first pushes no AF.

Does not own: what an instruction sets the two flags to.
-/

namespace Cpm80

/-! ## Without the two flags -/

/-- Flags with both undocumented ones cleared. -/
def Flags.documented (flags : Flags) : Flags :=
  { flags with bit5 := false, bit3 := false }

theorem Condition.holds_documented (condition : Condition) (flags : Flags) :
    condition.holds flags.documented = condition.holds flags := by
  cases condition <;> rfl

/-! ## The flag register as a byte -/

/-- Whether an operation has the pair AF for its operand, and with it the flag register
as a byte. -/
def Operation.readsFlagByte : Operation → Bool
  | .push .af | .addHL .af | .incrementPair .af | .decrementPair .af => true
  | _ => false

/-- Of all opcodes only the push of AF stands for such an operation. -/
theorem Instruction.eq_pushAF {byte : UInt8} {operation : Operation}
    (decoded : decode byte = .internal operation) (reads : operation.readsFlagByte = true) :
    byte = 0xf5 := by
  have each : ∀ byte, (match ofOpcode (.ofByte byte) with
      | .internal operation => operation.readsFlagByte
      | _ => false) = true → byte = 0xf5 := by
    apply forall_byte
    decide +kernel
  apply each
  rw [← decode_eq, decoded]
  exact reads

/-! ## Processors without the two flags -/

namespace Z80

/-- A processor with both undocumented flags cleared, in the alternate flags too. -/
def documented (cpu : Z80) : Z80 :=
  { cpu with f := cpu.f.documented, altF := cpu.altF.documented }

section Operations

variable (cpu : Z80)

theorem operand_documented (source : Operand) :
    cpu.documented.operand source = cpu.operand source := by
  cases source <;> rfl

theorem setOperand_documented (target : Operand) (value : UInt8) :
    cpu.documented.setOperand target value = (cpu.setOperand target value).documented := by
  cases target <;> rfl

theorem branchRelative_documented (taken : Bool) :
    cpu.documented.branchRelative taken = (cpu.branchRelative taken).documented := by
  cases taken <;> rfl

theorem decrementJump_documented :
    cpu.documented.decrementJump = cpu.decrementJump.documented :=
  branchRelative_documented { cpu with b := cpu.b - 1 } (cpu.b - 1 != 0)

theorem branch_documented (taken : Bool) :
    cpu.documented.branch taken = (cpu.branch taken).documented := by
  cases taken <;> rfl

theorem branchCall_documented (taken : Bool) :
    cpu.documented.branchCall taken = (cpu.branchCall taken).documented := by
  cases taken <;> rfl

theorem branchReturn_documented (taken : Bool) :
    cpu.documented.branchReturn taken = (cpu.branchReturn taken).documented := by
  cases taken <;> rfl

/-- What an operation makes of a processor, the two flags apart, it makes of the processor
without them. -/
theorem execute_documented {operation : Operation} (blind : operation.readsFlagByte = false) :
    (cpu.documented.execute operation).documented = (cpu.execute operation).documented := by
  have taken (condition : Condition) :
      condition.holds cpu.documented.f = condition.holds cpu.f :=
    condition.holds_documented cpu.f
  cases operation with
  | nop | halt | disableInterrupts | enableInterrupts | exchangeAF | exchangeAll
  | exchangeDEHL | exchangeTop | loadStackPointer | loadHL | storeHL | jumpRelative | jump
  | jumpHL | call | ret | restart => rfl
  | move target source =>
    simp only [execute, operand_documented, setOperand_documented]
    rfl
  | loadByte target | increment target | decrement target => cases target <;> rfl
  | loadPair target | pop target => cases target <;> rfl
  | loadA pointer | storeA pointer => cases pointer <;> rfl
  | incrementPair target | decrementPair target =>
    cases target
    case af => contradiction
    all_goals rfl
  | addHL source | push source =>
    cases source
    case af => contradiction
    all_goals rfl
  | adjust adjustment => cases adjustment <;> rfl
  | accumulate operation source =>
    simp only [execute, operand_documented]
    cases operation <;> rfl
  | accumulateByte operation => cases operation <;> rfl
  | jumpRelativeIf condition =>
    simp only [execute, taken, branchRelative_documented]
    rfl
  | decrementJump =>
    simp only [execute, decrementJump_documented]
    rfl
  | jumpIf condition =>
    simp only [execute, taken, branch_documented]
    rfl
  | callIf condition =>
    simp only [execute, taken, branchCall_documented]
    rfl
  | retIf condition =>
    simp only [execute, taken, branchReturn_documented]
    rfl

end Operations

/-! ## Two processors -/

/-- Whether two processors differ at most in the undocumented flags. -/
def AgreeDocumented (left right : Z80) : Prop :=
  left.documented = right.documented

/-- Whatever does not look at the two flags sees the same on both. -/
theorem AgreeDocumented.same {Result : Type} {left right : Z80}
    (agree : AgreeDocumented left right) (view : Z80 → Result)
    (blind : ∀ cpu, view cpu.documented = view cpu) : view left = view right := by
  rw [← blind left, ← blind right, show left.documented = right.documented from agree]

/-- Processors that differ in no more come to the same but for a push of AF. -/
theorem AgreeDocumented.execute {left right : Z80} (agree : AgreeDocumented left right)
    {operation : Operation} (blind : operation.readsFlagByte = false) :
    AgreeDocumented (left.execute operation) (right.execute operation) := by
  exact agree.same (fun cpu => (cpu.execute operation).documented)
    fun cpu => cpu.execute_documented blind

theorem AgreeDocumented.step {left right : Z80} (agree : AgreeDocumented left right)
    (unpushed : left.nextByte ≠ 0xf5) :
    Session.Corresponds AgreeDocumented (Processor.step left) (Processor.step right) := by
  have opcode : left.nextByte = right.nextByte := agree.same nextByte fun _ => rfl
  have counter : left.pc = right.pc := agree.same pc fun _ => rfl
  have behind (count : UInt16) : AgreeDocumented (left.skip count) (right.skip count) :=
    agree.same (fun cpu => (cpu.skip count).documented) fun _ => rfl
  cases decoded : Instruction.decode left.nextByte with
  | internal operation =>
    have blind : operation.readsFlagByte = false := by
      rw [Bool.eq_false_iff]
      exact fun reads => unpushed (Instruction.eq_pushAF decoded reads)
    rw [session_internal decoded, session_internal (opcode ▸ decoded)]
    exact .finished none ((behind 1).execute blind)
  | portRead =>
    have port : left.port = right.port := agree.same Z80.port fun _ => rfl
    rw [session_portRead decoded, session_portRead (opcode ▸ decoded), port]
    refine .portRead right.port ?asks fun reply => .finished none ?ends
    case asks => exact agree.same (fun cpu => requested (cpu.skip 2)) fun _ => rfl
    case ends =>
      exact agree.same (fun cpu => documented { cpu.skip 2 with a := reply }) fun _ => rfl
  | portWrite =>
    have port : left.port = right.port := agree.same Z80.port fun _ => rfl
    have value : left.a = right.a := agree.same a fun _ => rfl
    rw [session_portWrite decoded, session_portWrite (opcode ▸ decoded), port, value]
    exact .portWrite right.port right.a (.finished none (behind 2))
  | unimplemented =>
    rw [session_unimplemented decoded, session_unimplemented (opcode ▸ decoded), opcode, counter]
    exact .finished _ (behind 1)

end Z80

/-! ## Two machines -/

namespace Machine

variable {First Second : Type} [Console First] [Console Second]

/-- Two machines that differ in no more than the undocumented flags do so for as many steps
as the first of them pushes no AF. Their results, what they print, their ends and their counts
are the same. -/
theorem undocumented_unobserved {left : Machine Z80 First} {right : Machine Z80 Second}
    {count : Nat} (leftReliable : Console.Reliable left.host.console)
    (rightReliable : Console.Reliable right.host.console)
    (agree : left.cpu.documented = right.cpu.documented)
    (halted : left.host.halted = right.host.halted) (fault : left.host.fault = right.host.fault)
    (instructions : left.instructions = right.instructions)
    (unpushed : ∀ index < count, (left.after index).host.halted = false →
      (left.after index).cpu.nextByte ≠ 0xf5) :
    (∀ index < count, left.outcome index = right.outcome index) ∧
      (left.after count).cpu.documented = (right.after count).cpu.documented ∧
      (left.after count).host.halted = (right.after count).host.halted ∧
      (left.after count).instructions = (right.after count).instructions ∧
      ∃ text, (left.after count).host.console = Console.printAll left.host.console text ∧
        (right.after count).host.console = Console.printAll right.host.console text := by
  have begins : Abreast Z80.AgreeDocumented left right left right := .start agree halted fault
  obtain ⟨results, abreast⟩ := after_abreast (fun _ => Z80.AgreeDocumented)
    leftReliable rightReliable begins
    (fun index below running _ tied => tied.step (unpushed index below running))
    (fun _ _ _ _ tied => tied)
  obtain ⟨completed, onLeft, onRight⟩ := abreast.counted
  refine ⟨results, abreast.cpu, abreast.host.halted, ?_, abreast.host.console⟩
  rw [onLeft, onRight, instructions]

/-- A machine about to adjust the accumulator and then to print a character, with a byte in
both flag registers. -/
def flaggedPrinter (flags : UInt8) : Machine Z80 Transcript where
  cpu :=
    { Z80.fresh with
      c := 2
      e := 0x41
      f := Flags.ofByte flags
      altF := Flags.ofByte flags
      memory := Memory.zeroed.storeAll 0x0000 [0x27, 0xdb, 0x00] }
  host := Host.ofConsole Transcript.empty
  instructions := 0

/-- All eight flags against all but the undocumented two. -/
theorem undocumented_unobserved_flaggedPrinter :
    (∀ index < 2, (flaggedPrinter 0xff).outcome index = (flaggedPrinter 0xd7).outcome index) ∧
      ((flaggedPrinter 0xff).after 2).cpu.documented =
        ((flaggedPrinter 0xd7).after 2).cpu.documented ∧
      ((flaggedPrinter 0xff).after 2).instructions =
        ((flaggedPrinter 0xd7).after 2).instructions ∧
      ((flaggedPrinter 0xff).after 2).host.console =
        ((flaggedPrinter 0xd7).after 2).host.console := by
  have code : (flaggedPrinter 0xff).cpu.memory.read 0x0000 3 = [0x27, 0xdb, 0x00] :=
    Memory.read_storeAll _ 0x0000 [0x27, 0xdb, 0x00] (by decide)
  simp only [Memory.read_succ_eq_cons] at code
  obtain ⟨adjusts, prints, -⟩ := code
  have adjusted : ((flaggedPrinter 0xff).after 1).cpu.nextByte = 0xdb := by
    have decoded : Instruction.decode (flaggedPrinter 0xff).cpu.nextByte =
        .internal (.adjust .decimal) := by
      rw [show (flaggedPrinter 0xff).cpu.nextByte = 0x27 from adjusts, Instruction.decode_eq]
      rfl
    rw [after_succ, after_zero, next, step_internal decoded rfl rfl]
    exact prints
  have unpushed : ∀ index < 2, ((flaggedPrinter 0xff).after index).host.halted = false →
      ((flaggedPrinter 0xff).after index).cpu.nextByte ≠ 0xf5 := by
    intro index below _
    have small : index = 0 ∨ index = 1 := by omega
    rcases small with rfl | rfl
    · rw [after_zero, show (flaggedPrinter 0xff).cpu.nextByte = 0x27 from adjusts]
      decide
    · rw [adjusted]
      decide
  have agree : (flaggedPrinter 0xff).cpu.documented = (flaggedPrinter 0xd7).cpu.documented := rfl
  obtain ⟨results, cpus, -, counts, text, onLeft, onRight⟩ :=
    undocumented_unobserved (Transcript.reliable _) (Transcript.reliable _) agree rfl rfl rfl
      unpushed
  refine ⟨results, cpus, counts, ?_⟩
  rw [onLeft, onRight]
  rfl

end Machine

end Cpm80
