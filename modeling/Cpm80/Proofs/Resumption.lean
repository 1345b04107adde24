import Cpm80.Proofs.ControlFlow
import Cpm80.Proofs.Refinement

/-!
Contract: steps that meet an instruction that is not implemented, and machines that go on
behind one.

Owns:
- how often a step turns to its ports;
- what such a step tells, and all that it leaves as it was;
- a machine that goes on behind the opcode, as one that was sent there.

The machine need not be free of console failures: one that waits to be told of goes on
waiting.

Does not own: whether a program is right to go on.
-/

namespace Cpm80

/-! ## Calls of ports -/

/-- How many calls a session makes to its ports. -/
def Session.portCalls {Cpu State : Type} (ports : Ports Cpu State) :
    Session Cpu → State → Nat
  | .finished _ _, _ => 0
  | .portRead port seen resume, state =>
    let (reply, next) := ports.read port seen state
    (resume reply).portCalls ports next + 1
  | .portWrite port value rest, state =>
    rest.portCalls ports (ports.write port value state) + 1

namespace Z80

/-! ## Steps that fail -/

section Steps

variable {cpu : Z80} {State : Type} {ports : Ports Z80 State} {state : State}
  {fault : ExecutionFault}

theorem isSome_fault_iff_opensGroup :
    ((Processor.step cpu).run ports state).fault.isSome = true ↔
      Instruction.OpensGroup cpu.nextByte := by
  rw [isSome_fault_run_step, Instruction.decode_eq_unimplemented_iff]
  rfl

/-- The session of such a step is over before it has begun. -/
theorem session_opensGroup (group : Instruction.OpensGroup cpu.nextByte) :
    Processor.step cpu =
      .finished { cpu with pc := cpu.pc + 1 } (some ⟨cpu.nextByte, cpu.pc⟩) :=
  session_unimplemented ((Instruction.decode_eq_unimplemented_iff _).mpr group)

/-- A step that fails has told of the opcode and its address, has called no port, and has
changed nothing but the program counter. -/
theorem ending_of_fault
    (fails : ((Processor.step cpu).run ports state).fault = some fault) :
    (Processor.step cpu).run ports state =
        ⟨{ cpu with pc := cpu.pc + 1 }, some ⟨cpu.nextByte, cpu.pc⟩, state⟩ ∧
      (Processor.step cpu).portCalls ports state = 0 := by
  have some : ((Processor.step cpu).run ports state).fault.isSome = true := by
    rw [fails]
    rfl
  have group := isSome_fault_iff_opensGroup.1 some
  rw [session_opensGroup group]
  exact ⟨rfl, rfl⟩

end Steps

end Z80

/-! ## Machines that go on -/

namespace Machine

variable {Device : Type}

/-- A machine whose processor has been sent to the next address. -/
def sentOnward (machine : Machine Z80 Device) : Machine Z80 Device :=
  { machine with cpu := Processor.setCounter machine.cpu (machine.cpu.pc + 1) }

variable [Console Device] {machine : Machine Z80 Device}

theorem step_opensGroup (running : machine.host.halted = false)
    (group : Instruction.OpensGroup machine.cpu.nextByte) :
    machine.step =
      (some (.execution ⟨machine.cpu.nextByte, machine.cpu.pc⟩), machine.sentOnward) :=
  step_unimplemented ((Instruction.decode_eq_unimplemented_iff _).mpr group) running

/-- No other step of a machine ends in an execution fault. -/
theorem told_execution_iff (running : machine.host.halted = false) :
    (∃ fault, machine.step.1 = some (.execution fault)) ↔
      Instruction.OpensGroup machine.cpu.nextByte := by
  constructor
  · rintro ⟨fault, told⟩
    cases ends : (Processor.step machine.cpu).run Host.ports machine.host with
    | mk cpu ending host =>
      cases ending with
      | some ending =>
        have some : ((Processor.step machine.cpu).run Host.ports machine.host).fault.isSome =
            true := by
          rw [ends]
          rfl
        exact Z80.isSome_fault_iff_opensGroup.1 some
      | none =>
        -- A completed step tells of console failures alone.
        rw [step_of_completed running ends] at told
        simp at told
  · intro group
    exact ⟨_, congrArg Prod.fst (step_opensGroup running group)⟩

/-- What a machine comes to behind its first step, it comes to from where that step leads. -/
theorem course_of_next {next : Machine Z80 Device} (leads : machine.next = next) (count : Nat) :
    machine.after (count + 1) = next.after count ∧
      machine.outcome (count + 1) = next.outcome count := by
  have first : machine.after 1 = next := leads
  rw [Nat.add_comm, after_add, outcome_add, first]
  exact ⟨rfl, rfl⟩

/-- An instruction that is not implemented leaves the processor intact. Whoever answers the
ports, a step fails just at the four bytes that open a group. It then tells of that byte
and its address, has called no port, and leaves all registers, flags and memory as they
were, with the program counter one further on.

A machine that has not ended tells of that fault, of an execution fault in no other step,
and is as before but for the program counter. Whether it is stepped or run on, it does
what the machine does that was sent to the next address. -/
theorem unimplemented_leaves_intact :
    (∀ (cpu : Z80) (State : Type) (ports : Ports Z80 State) (state : State),
      (((Processor.step cpu).run ports state).fault.isSome = true ↔
          cpu.nextByte ∈ [0xcb, 0xdd, 0xed, 0xfd]) ∧
        ∀ fault, ((Processor.step cpu).run ports state).fault = some fault →
          (Processor.step cpu).run ports state =
              ⟨{ cpu with pc := cpu.pc + 1 }, some ⟨cpu.nextByte, cpu.pc⟩, state⟩ ∧
            (Processor.step cpu).portCalls ports state = 0) ∧
      ∀ (Device : Type) [Console Device] (machine : Machine Z80 Device),
        machine.host.halted = false →
          ((∃ fault, machine.step.1 = some (.execution fault)) ↔
              machine.cpu.nextByte ∈ [0xcb, 0xdd, 0xed, 0xfd]) ∧
            (machine.cpu.nextByte ∈ [0xcb, 0xdd, 0xed, 0xfd] →
              machine.step =
                  (some (.execution ⟨machine.cpu.nextByte, machine.cpu.pc⟩),
                    machine.sentOnward) ∧
                (∀ count, machine.after (count + 1) = machine.sentOnward.after count ∧
                  machine.outcome (count + 1) = machine.sentOnward.outcome count) ∧
                ∀ limit, machine.step.2.run limit = machine.sentOnward.run limit) := by
  have listed (byte : UInt8) :
      byte ∈ [0xcb, 0xdd, 0xed, 0xfd] ↔ Instruction.OpensGroup byte := by
    simp [Instruction.OpensGroup]
  simp only [listed]
  constructor
  · intro cpu State ports state
    exact ⟨Z80.isSome_fault_iff_opensGroup, fun _ fails => Z80.ending_of_fault fails⟩
  · intro Device _ machine running
    refine ⟨told_execution_iff running, fun group => ?_⟩
    have step := step_opensGroup running group
    refine ⟨step, course_of_next (congrArg Prod.snd step), fun limit => ?_⟩
    rw [step]

/-- A machine at the last address, at the first byte of a group. The end of the program is
behind it, at the first address. -/
def edgeGroup : Machine Z80 Transcript where
  cpu := { Z80.fresh with pc := 0xffff, memory := Memory.zeroed.storeAll 0xffff [0xed, 0xd3, 0x00] }
  host := Host.ofConsole Transcript.empty
  instructions := 6

theorem unimplemented_leaves_intact_edgeGroup :
    (Processor.step edgeGroup.cpu).portCalls Host.ports edgeGroup.host = 0 ∧
      edgeGroup.step.1 = some (.execution ⟨0xed, 0xffff⟩) ∧
      edgeGroup.next.cpu.pc = 0x0000 ∧ edgeGroup.next.instructions = 6 ∧
      (edgeGroup.next.run 1).1 = .halted 7 := by
  have code : edgeGroup.cpu.memory.read 0xffff 3 = [0xed, 0xd3, 0x00] :=
    Memory.read_storeAll _ 0xffff [0xed, 0xd3, 0x00] (by decide)
  obtain ⟨here, behind⟩ := Memory.read_succ_eq_cons.mp code
  obtain ⟨ends, -⟩ := Memory.read_succ_eq_cons.mp behind
  have byte : edgeGroup.cpu.nextByte = 0xed := here
  have group : edgeGroup.cpu.nextByte ∈ [0xcb, 0xdd, 0xed, 0xfd] := by
    rw [byte]
    decide
  obtain ⟨onProcessors, onMachines⟩ := unimplemented_leaves_intact
  obtain ⟨fails, silent⟩ := onProcessors edgeGroup.cpu _ Host.ports edgeGroup.host
  obtain ⟨fault, failed⟩ := Option.isSome_iff_exists.1 (fails.2 group)
  obtain ⟨-, intact⟩ := onMachines Transcript edgeGroup rfl
  obtain ⟨step, -, runsOn⟩ := intact group
  have next : edgeGroup.next = edgeGroup.sentOnward := by rw [Machine.next, step]
  have last : edgeGroup.sentOnward.step =
      (none, { cpu := edgeGroup.sentOnward.cpu.skip 2, host := edgeGroup.host.halt,
               instructions := 7 }) :=
    step_portWrite ((Instruction.decode_eq_portWrite_iff _).mpr ends) rfl rfl
  refine ⟨(silent fault failed).2, ?_, ?_, ?_, ?_⟩
  · rw [step, byte]
    rfl
  · rw [next]
    rfl
  · rw [next]
    rfl
  · rw [next, run_succ_halted last rfl]

end Machine

end Cpm80
