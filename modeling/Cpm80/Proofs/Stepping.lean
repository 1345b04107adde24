import Cpm80.Proofs.Course
import Cpm80.Proofs.Printing

/-!
Contract: the steps of a machine whose processor is a Z80.

Owns:
- one law for each kind of instruction: one that stays inside the processor, a
  port read, a port write, and an unimplemented opcode;
- the opcodes of single instructions that programs in these proofs consist of;
- what moving on and writing an operand leave alone.

The machine of each law has not ended and, where a console failure would show, keeps
none. The result of a port read is stated for consoles that never fail, the machine behind
it for all.

Does not own: what instructions inside the processor do.
-/

namespace Cpm80

/-! ## Opcodes -/

namespace Instruction

theorem decode_loadC : decode 0x0e = .internal (.loadByte .c) := by
  rw [decode_eq]
  rfl

theorem decode_loadE : decode 0x1e = .internal (.loadByte .e) := by
  rw [decode_eq]
  rfl

theorem decode_loadDE : decode 0x11 = .internal (.loadPair .de) := by
  rw [decode_eq]
  rfl

theorem decode_jump : decode 0xc3 = .internal .jump := by
  rw [decode_eq]
  rfl

theorem decode_call : decode 0xcd = .internal .call := by
  rw [decode_eq]
  rfl

theorem decode_ret : decode 0xc9 = .internal .ret := by
  rw [decode_eq]
  rfl

theorem decode_callIf (index : Fin 8) :
    decode (UInt8.ofNat (0xc4 + 8 * index.val)) = .internal (.callIf (.ofField index)) := by
  rw [decode_eq]
  revert index
  decide +kernel

end Instruction

/-! ## Frames -/

namespace Z80

theorem skip_skip (cpu : Z80) (first second : UInt16) :
    (cpu.skip first).skip second = cpu.skip (first + second) := by
  unfold skip
  rw [UInt16.add_assoc]

theorem pair_skip (cpu : Z80) (count : UInt16) (pair : RegisterPair) :
    (cpu.skip count).pair pair = cpu.pair pair := by
  cases pair <;> rfl

theorem top_skip (cpu : Z80) (count : UInt16) : (cpu.skip count).top = cpu.top :=
  rfl

/-- The operand word of an instruction whose opcode has been fetched. -/
theorem nextWord_skip_one (cpu : Z80) :
    (cpu.skip 1).nextWord = Word.join (cpu.load (cpu.pc + 2)) (cpu.load (cpu.pc + 1)) := by
  have following : cpu.pc + 1 + 1 = cpu.pc + 2 := by grind
  show Word.join (cpu.load (cpu.pc + 1 + 1)) (cpu.load (cpu.pc + 1)) = _
  rw [following]

section Operands

variable (cpu : Z80) (target : Operand) {value : UInt8}

theorem pc_setOperand : (cpu.setOperand target value).pc = cpu.pc := by
  cases target <;> rfl

theorem sp_setOperand : (cpu.setOperand target value).sp = cpu.sp := by
  cases target <;> rfl

theorem memory_setOperand {target : Operand} (register : target ≠ .atHL) :
    (cpu.setOperand target value).memory = cpu.memory := by
  cases target
  case atHL => exact absurd rfl register
  all_goals rfl

end Operands

section Pairs

variable (cpu : Z80) (target : RegisterPair) {value : UInt16}

theorem pc_setPair : (cpu.setPair target value).pc = cpu.pc := by
  cases target <;> rfl

theorem sp_setPair {target : RegisterPair} (general : target ≠ .sp) :
    (cpu.setPair target value).sp = cpu.sp := by
  cases target
  case sp => exact absurd rfl general
  all_goals rfl

theorem memory_setPair : (cpu.setPair target value).memory = cpu.memory := by
  cases target <;> rfl

end Pairs

/-! ## Sessions -/

variable {cpu : Z80}

theorem session_internal {operation : Operation}
    (decoded : Instruction.decode cpu.nextByte = .internal operation) :
    Processor.step cpu = .finished ((cpu.skip 1).execute operation) none := by
  show cpu.step = _
  unfold step
  rw [decoded]

theorem session_portRead (decoded : Instruction.decode cpu.nextByte = .portRead) :
    Processor.step cpu =
      .portRead cpu.port (cpu.skip 2) fun reply =>
        .finished { cpu.skip 2 with a := reply } none := by
  show cpu.step = _
  unfold step
  rw [decoded]

theorem session_portWrite (decoded : Instruction.decode cpu.nextByte = .portWrite) :
    Processor.step cpu = .portWrite cpu.port cpu.a (.finished (cpu.skip 2) none) := by
  show cpu.step = _
  unfold step
  rw [decoded]

theorem session_unimplemented (decoded : Instruction.decode cpu.nextByte = .unimplemented) :
    Processor.step cpu = .finished (cpu.skip 1) (some ⟨cpu.nextByte, cpu.pc⟩) := by
  show cpu.step = _
  unfold step
  rw [decoded]

/-- A Z80 that meets an opcode it cannot carry out has not turned to its ports. -/
theorem state_of_fault {State : Type} {ports : Ports Z80 State} {state : State}
    {fault : ExecutionFault}
    (faults : ((Processor.step cpu).run ports state).fault = some fault) :
    ((Processor.step cpu).run ports state).state = state := by
  cases decoded : Instruction.decode cpu.nextByte with
  | internal operation => rw [session_internal decoded]; rfl
  | portRead =>
    rw [session_portRead decoded] at faults
    contradiction
  | portWrite =>
    rw [session_portWrite decoded] at faults
    contradiction
  | unimplemented => rw [session_unimplemented decoded]; rfl

end Z80

/-! ## Steps -/

namespace Machine

/-- A machine that has not ended and keeps no failure of its console, which never
fails. -/
structure Ready {Cpu Device : Type} [Console Device] (machine : Machine Cpu Device) :
    Prop where
  running : machine.host.halted = false
  clear : machine.host.fault = none
  reliable : Console.Reliable machine.host.console

variable {Device : Type} [Console Device] {machine : Machine Z80 Device}

theorem step_internal {operation : Operation}
    (decoded : Instruction.decode machine.cpu.nextByte = .internal operation)
    (running : machine.host.halted = false) (clear : machine.host.fault = none) :
    machine.step = (none,
      { cpu := (machine.cpu.skip 1).execute operation
        host := machine.host
        instructions := machine.instructions + 1 }) := by
  obtain ⟨cpu, ⟨console, halted, fault⟩, instructions⟩ := machine
  subst clear
  rw [step_running running, Z80.session_internal decoded]
  rfl

/-- A port read on any console: what this failed at is told of and forgotten in the same
step. -/
theorem next_portRead (decoded : Instruction.decode machine.cpu.nextByte = .portRead)
    (running : machine.host.halted = false) :
    machine.next =
      { cpu := { machine.cpu.skip 2 with a := 0 }
        host := { (Host.answer (machine.cpu.skip 2) machine.host).2 with fault := none }
        instructions := machine.instructions + 1 } := by
  rw [next, step_running running, Z80.session_portRead decoded]
  rfl

theorem step_portRead
    (decoded : Instruction.decode machine.cpu.nextByte = .portRead) (ready : machine.Ready) :
    machine.step = (none,
      { cpu := { machine.cpu.skip 2 with a := 0 }
        host :=
          { machine.host with
            console := Console.printAll machine.host.console machine.cpu.systemOutput }
        instructions := machine.instructions + 1 }) := by
  obtain ⟨cpu, ⟨console, halted, fault⟩, instructions⟩ := machine
  obtain ⟨running, clear, reliable⟩ := ready
  subst clear
  rw [step_running running, Z80.session_portRead decoded]
  simp only [Session.run, Host.ports, Host.answer, Host.foldl_emit_reliable _ _ reliable,
    Z80.map_shown_requested, Option.map_none]
  rfl

theorem step_portWrite
    (decoded : Instruction.decode machine.cpu.nextByte = .portWrite)
    (running : machine.host.halted = false) (clear : machine.host.fault = none) :
    machine.step = (none,
      { cpu := machine.cpu.skip 2
        host := machine.host.halt
        instructions := machine.instructions + 1 }) := by
  obtain ⟨cpu, ⟨console, halted, fault⟩, instructions⟩ := machine
  subst clear
  rw [step_running running, Z80.session_portWrite decoded]
  rfl

theorem step_unimplemented
    (decoded : Instruction.decode machine.cpu.nextByte = .unimplemented)
    (running : machine.host.halted = false) :
    machine.step =
      (some (.execution ⟨machine.cpu.nextByte, machine.cpu.pc⟩),
        { machine with cpu := machine.cpu.skip 1 }) := by
  rw [step_running running, Z80.session_unimplemented decoded]
  rfl

end Machine

end Cpm80
