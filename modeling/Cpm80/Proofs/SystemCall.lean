import Cpm80.Proofs.Stepping

/-!
Contract: a call of the system from a program, from the call instruction to the
instruction behind it.

Owns:
- where a system call stands at the program counter;
- memory while the call is under way;
- the three steps of a call, and what they leave unchanged.

The trap is hit only while it is whole: a stack pointer just above it would have
the return address pushed into its code.

Does not own: what a string request prints; how a program comes to call.
-/

namespace Cpm80

/-- Memories that agree on the addresses of the trap read alike there. -/
theorem Memory.read_systemTrap_congr {left right : Memory}
    (agree : ∀ address ∈ [5, 6, 7], left.load address = right.load address) :
    left.read Image.systemTrap 3 = right.read Image.systemTrap 3 := by
  apply read_congr
  intro offset below
  have small : offset = 0 ∨ offset = 1 ∨ offset = 2 := by omega
  apply agree
  rcases small with rfl | rfl | rfl <;> decide

namespace Z80

/-- At the program counter stands CALL 0005, or CALL cc,0005 under a condition that
holds. -/
def CallsSystem (cpu : Z80) : Prop :=
  (cpu.nextByte = 0xcd ∨
    ∃ index : Fin 8, cpu.nextByte = UInt8.ofNat (0xc4 + 8 * index.val) ∧
      (Condition.ofField index).holds cpu.f = true) ∧
  cpu.load (cpu.pc + 1) = 0x05 ∧ cpu.load (cpu.pc + 2) = 0x00

/-- Memory with the return address of a call at the program counter pushed. -/
def calledMemory (cpu : Z80) : Memory :=
  cpu.memory.storeWord (cpu.sp - 2) (cpu.pc + 3)

theorem load_calledMemory_high (cpu : Z80) :
    cpu.calledMemory.load (cpu.sp - 1) = Word.high (cpu.pc + 3) := by
  have last : cpu.sp - 1 = cpu.sp - 2 + 1 := by grind
  rw [last]
  exact Memory.load_store_same _ _ _

theorem load_calledMemory_low (cpu : Z80) :
    cpu.calledMemory.load (cpu.sp - 2) = Word.low (cpu.pc + 3) := by
  have apart : cpu.sp - 2 ≠ cpu.sp - 2 + 1 := by grind
  rw [calledMemory, Memory.storeWord, Memory.load_store_other _ _ apart]
  exact Memory.load_store_same _ _ _

theorem load_calledMemory_other (cpu : Z80) {address : UInt16} (notHigh : address ≠ cpu.sp - 1)
    (notLow : address ≠ cpu.sp - 2) :
    cpu.calledMemory.load address = cpu.memory.load address := by
  have notNext : address ≠ cpu.sp - 2 + 1 := by grind
  rw [calledMemory, Memory.storeWord, Memory.load_store_other _ _ notNext,
    Memory.load_store_other _ _ notLow]

/-- The return address misses the trap, unless the stack pointer stands just above
some byte of it. -/
theorem read_calledMemory_systemTrap {cpu : Z80}
    (stub : cpu.memory.read Image.systemTrap 3 = Image.systemTrapCode)
    (apart : cpu.sp ∉ [6, 7, 8, 9]) :
    cpu.calledMemory.read Image.systemTrap 3 = Image.systemTrapCode := by
  rw [← stub]
  apply Memory.read_systemTrap_congr
  intro address member
  simp only [List.mem_cons, List.not_mem_nil, or_false, not_or] at member apart
  obtain ⟨notSix, notSeven, notEight, notNine⟩ := apart
  apply load_calledMemory_other <;> rcases member with rfl | rfl | rfl <;> grind

/-- The processor at the system trap, with the return address on the stack. -/
def called (cpu : Z80) : Z80 :=
  { cpu with sp := cpu.sp - 2, pc := Image.systemTrap, memory := cpu.calledMemory }

/-- The processor behind the port read of the trap. -/
def answered (cpu : Z80) : Z80 :=
  { cpu.called.skip 2 with a := 0 }

/-- The processor behind a system call. -/
def returned (cpu : Z80) : Z80 :=
  { cpu with a := 0, pc := cpu.pc + 3, memory := cpu.calledMemory }

theorem execute_ret_answered (cpu : Z80) : (cpu.answered.skip 1).execute .ret = cpu.returned := by
  have popped : cpu.calledMemory.loadWord (cpu.sp - 2) = cpu.pc + 3 :=
    Memory.loadWord_storeWord _ _ _
  have restored : cpu.sp - 2 + 2 = cpu.sp := by grind
  show { cpu.answered with
    sp := cpu.sp - 2 + 2
    pc := cpu.calledMemory.loadWord (cpu.sp - 2) } = _
  rw [popped, restored]
  rfl

/-- Either form of the call leads to the trap. -/
theorem CallsSystem.execute {cpu : Z80} (calls : cpu.CallsSystem) :
    ∃ operation, Instruction.decode cpu.nextByte = .internal operation ∧
      (cpu.skip 1).execute operation = cpu.called := by
  obtain ⟨opcode, lowByte, highByte⟩ := calls
  have target : (cpu.skip 1).nextWord = Image.systemTrap := by
    rw [nextWord_skip_one, lowByte, highByte]
    rfl
  have behind : cpu.pc + 1 + 2 = cpu.pc + 3 := by grind
  have taken : (cpu.skip 1).branchCall true = cpu.called := by
    unfold branchCall called calledMemory
    rw [target, if_pos rfl]
    show { cpu with
      sp := cpu.sp - 2
      pc := Image.systemTrap
      memory := cpu.memory.storeWord (cpu.sp - 2) (cpu.pc + 1 + 2) } = _
    rw [behind]
  rcases opcode with always | ⟨index, opcode, holds⟩
  · refine ⟨.call, ?_, taken⟩
    rw [always]
    exact Instruction.decode_call
  · refine ⟨.callIf (.ofField index), ?_, ?_⟩
    · rw [opcode]
      exact Instruction.decode_callIf index
    · show (cpu.skip 1).branchCall ((Condition.ofField index).holds cpu.f) = _
      rw [holds]
      exact taken

end Z80

namespace Machine

variable {Device : Type} [Console Device]

/-- The machine behind a system call. -/
def returned (machine : Machine Z80 Device) : Machine Z80 Device where
  cpu := machine.cpu.returned
  host :=
    { machine.host with
      console := Console.printAll machine.host.console machine.cpu.called.systemOutput }
  instructions := machine.instructions + 3

/-- The call, the port read of the trap, and its return lead behind the call. -/
theorem reaches_returned {machine : Machine Z80 Device} (ready : machine.Ready)
    (calls : machine.cpu.CallsSystem)
    (stub : machine.cpu.memory.read Image.systemTrap 3 = Image.systemTrapCode)
    (apart : machine.cpu.sp ∉ [6, 7, 8, 9]) :
    Reaches 3 machine machine.returned := by
  obtain ⟨operation, decoded, executed⟩ := calls.execute
  have stands := Z80.read_calledMemory_systemTrap stub apart
  obtain ⟨readOpcode, rest⟩ := Memory.read_succ_eq_cons.mp stands
  obtain ⟨-, rest⟩ := Memory.read_succ_eq_cons.mp rest
  obtain ⟨retOpcode, -⟩ := Memory.read_succ_eq_cons.mp rest
  let trapped : Machine Z80 Device :=
    { cpu := machine.cpu.called, host := machine.host, instructions := machine.instructions + 1 }
  let answered : Machine Z80 Device :=
    { cpu := machine.cpu.answered
      host := machine.returned.host
      instructions := machine.instructions + 2 }
  have call : machine.step = (none, trapped) := by
    rw [step_internal decoded ready.running ready.clear, executed]
  have portRead : trapped.step = (none, answered) := by
    have isRead : Instruction.decode trapped.cpu.nextByte = .portRead :=
      (Instruction.decode_eq_portRead_iff _).mpr readOpcode
    rw [step_portRead isRead ⟨ready.running, ready.clear, ready.reliable⟩]
    rfl
  have ret : answered.step = (none, machine.returned) := by
    have isRet : Instruction.decode answered.cpu.nextByte = .internal .ret := by
      show Instruction.decode (machine.cpu.calledMemory.load (Image.systemTrap + 1 + 1)) = _
      rw [retOpcode]
      exact Instruction.decode_ret
    rw [step_internal isRet ready.running ready.clear, Z80.execute_ret_answered]
    rfl
  exact ((Reaches.single call).trans (Reaches.single portRead)).trans (Reaches.single ret)

/-- A system call is transparent to the program that makes it: three steps, none of
which fails, lead behind the call, with zero in A, the return address left below
the stack pointer, every other register and byte as it was, and on the console
what the call asks for, as memory reads once the return address is pushed. -/
theorem systemCall_transparent {machine : Machine Z80 Device} (ready : machine.Ready)
    (calls : machine.cpu.CallsSystem)
    (stub : machine.cpu.memory.read 0x0005 3 = [0xdb, 0x00, 0xc9])
    (apart : machine.cpu.sp ∉ [6, 7, 8, 9]) :
    ∃ memory finish, Reaches 3 machine finish ∧
      finish.cpu = { machine.cpu with a := 0, pc := machine.cpu.pc + 3, memory := memory } ∧
      memory.load (machine.cpu.sp - 1) = Word.high (machine.cpu.pc + 3) ∧
      memory.load (machine.cpu.sp - 2) = Word.low (machine.cpu.pc + 3) ∧
      (∀ address, address ≠ machine.cpu.sp - 1 → address ≠ machine.cpu.sp - 2 →
        memory.load address = machine.cpu.memory.load address) ∧
      finish.host.console = Console.printAll machine.host.console
        { machine.cpu with memory := memory }.systemOutput ∧
      finish.host.halted = false ∧ finish.host.fault = none ∧
      finish.instructions = machine.instructions + 3 := by
  refine ⟨machine.cpu.calledMemory, machine.returned, ?_, rfl, ?_, ?_, ?_, rfl, ready.running,
    ready.clear, rfl⟩
  · exact reaches_returned ready calls stub apart
  · exact machine.cpu.load_calledMemory_high
  · exact machine.cpu.load_calledMemory_low
  · intro address notHigh notLow
    exact machine.cpu.load_calledMemory_other notHigh notLow

/-- A machine at CALL Z,0005 across the end of memory, about to print a character,
with its stack right below the trap. -/
def edgeCaller : Machine Z80 Transcript where
  cpu :=
    { Z80.fresh with
      c := 2
      e := 0x41
      sp := 0x0005
      pc := 0xfffe
      memory :=
        (Memory.zeroed.storeAll 0x0005 [0xdb, 0x00, 0xc9]).storeAll 0xfffe [0xcc, 0x05, 0x00] }
  host := Host.ofConsole Transcript.empty
  instructions := 0

theorem systemCall_transparent_edgeCaller :
    ∃ finish, Reaches 3 edgeCaller finish ∧ finish.cpu.pc = 0x0001 ∧ finish.cpu.sp = 0x0005 ∧
      finish.cpu.memory.read 0x0003 2 = [0x01, 0x00] ∧
      finish.host.console.bytes.toList = [0x41] := by
  have ready : edgeCaller.Ready := ⟨rfl, rfl, Transcript.reliable Transcript.empty⟩
  have call : edgeCaller.cpu.memory.read 0xfffe 3 = [0xcc, 0x05, 0x00] :=
    Memory.read_storeAll _ 0xfffe [0xcc, 0x05, 0x00] (by decide)
  have calls : edgeCaller.cpu.CallsSystem := by
    obtain ⟨opcode, operand⟩ := Memory.read_succ_eq_cons.mp call
    obtain ⟨lowByte, operand⟩ := Memory.read_succ_eq_cons.mp operand
    obtain ⟨highByte, -⟩ := Memory.read_succ_eq_cons.mp operand
    exact ⟨.inr ⟨1, opcode, rfl⟩, lowByte, highByte⟩
  have stub : edgeCaller.cpu.memory.read 0x0005 3 = [0xdb, 0x00, 0xc9] := by
    have apart : ∀ offset < 3,
        [0xcc, 0x05, 0x00].length ≤ (0x0005 + UInt16.ofNat offset - 0xfffe).toNat := by
      decide
    exact (Memory.read_storeAll_outside _ 0xfffe 0x0005 _ 3 (by decide) apart).trans
      (Memory.read_storeAll _ 0x0005 [0xdb, 0x00, 0xc9] (by decide))
  obtain ⟨memory, finish, reaches, cpu, high, low, -, console, -⟩ :=
    systemCall_transparent ready calls stub (by decide)
  refine ⟨finish, reaches, ?_, ?_, ?_, ?_⟩
  · rw [cpu]
    rfl
  · rw [cpu]
    rfl
  · rw [cpu, Memory.read_succ, Memory.read_succ]
    exact congrArg₂ (fun first second => [first, second]) low high
  · rw [console, Transcript.toList_printAll]
    rfl

end Machine

end Cpm80
