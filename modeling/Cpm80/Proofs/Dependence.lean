import Cpm80.Proofs.Footprint

/-!
Contract: a run depends on no byte of memory but those that it reads.

Owns:
- the addresses that a machine writes within so many steps, and those that it reads before
  it has written them;
- two machines with the same registers, whose memories agree on what the first one reads
  before writing it: they have the same course, also where the program changes itself.

Does not own: what a single instruction reads and writes.
-/

namespace Cpm80.Machine

/-! ## Footprints of courses -/

section Footprints

variable {Device : Type} [Console Device] (machine : Machine Z80 Device)

/-- Whether one of the next so many steps writes an address. -/
def WritesWithin (count : Nat) (address : UInt16) : Prop :=
  ∃ index < count, (machine.after index).host.halted = false ∧
    (machine.after index).cpu.Writes address

/-- Whether one of the next so many steps reads an address that none before it has written. -/
def ReadsFirst (count : Nat) (address : UInt16) : Prop :=
  ∃ index < count, (machine.after index).host.halted = false ∧
    (machine.after index).cpu.Reads address ∧ ¬ machine.WritesWithin index address

theorem writesWithin_succ {count : Nat} {address : UInt16} :
    machine.WritesWithin (count + 1) address ↔
      machine.WritesWithin count address ∨
        (machine.after count).host.halted = false ∧ (machine.after count).cpu.Writes address := by
  unfold WritesWithin
  rw [Nat.exists_lt_succ_right]

end Footprints

/-! ## Two machines -/

variable {First Second : Type} [Console First]

/-- What two processors have in common when two machines have come to them in so many steps:
the registers, and the bytes that were the same at the start or that the first machine has
written since. -/
structure SameSince (left : Machine Z80 First) (right : Machine Z80 Second) (count : Nat)
    (leftNow rightNow : Z80) : Prop where
  registers : Z80.SameRegisters leftNow rightNow
  bytes : ∀ address, Z80.SameByte left.cpu right.cpu address ∨ left.WritesWithin count address →
    Z80.SameByte leftNow rightNow address

namespace SameSince

variable {left : Machine Z80 First} {right : Machine Z80 Second} {count index : Nat}
  {rightNow : Z80}

theorem start (registers : Z80.SameRegisters left.cpu right.cpu) :
    SameSince left right 0 left.cpu right.cpu where
  registers := registers
  bytes := by
    rintro address (same | ⟨index, below, -⟩)
    · exact same
    · exact absurd below (Nat.not_lt_zero index)

/-- A step reads what has been written before, or what is read first. -/
theorem reads (since : SameSince left right index (left.after index).cpu rightNow)
    (agree : ∀ address, left.ReadsFirst count address → Z80.SameByte left.cpu right.cpu address)
    (below : index < count) (running : (left.after index).host.halted = false)
    {address : UInt16} (read : (left.after index).cpu.Reads address) :
    Z80.SameByte (left.after index).cpu rightNow address := by
  apply since.bytes
  by_cases written : left.WritesWithin index address
  · exact .inr written
  · exact .inl (agree address ⟨index, below, running, read, written⟩)

theorem step (since : SameSince left right index (left.after index).cpu rightNow)
    {leftNext rightNext : Z80}
    (effect : Z80.SameEffect (left.after index).cpu rightNow leftNext rightNext) :
    SameSince left right (index + 1) leftNext rightNext where
  registers := effect.registers
  bytes := by
    intro address known
    apply effect.bytes
    rw [writesWithin_succ] at known
    rcases known with same | earlier | ⟨-, here⟩
    · exact .inl (since.bytes address (.inl same))
    · exact .inl (since.bytes address (.inr earlier))
    · exact .inr here

/-- Machines that have ended write nothing. -/
theorem rest (since : SameSince left right index (left.after index).cpu rightNow)
    (halted : (left.after index).host.halted = true) :
    SameSince left right (index + 1) (left.after index).cpu rightNow where
  registers := since.registers
  bytes := by
    intro address known
    apply since.bytes
    rw [writesWithin_succ] at known
    rcases known with same | earlier | ⟨running, -⟩
    · exact .inl same
    · exact .inr earlier
    · rw [halted] at running
      contradiction

end SameSince

variable [Console Second]

/-- Two machines with the same registers, on consoles that never fail. If the same bytes are
where the first reads in its next step, the step has the same effect on both. If the same
bytes are where it reads within so many steps before having written there, those steps have. -/
theorem course_determined_by_reads {left : Machine Z80 First} {right : Machine Z80 Second}
    (leftReliable : Console.Reliable left.host.console)
    (rightReliable : Console.Reliable right.host.console)
    (registers : Z80.SameRegisters left.cpu right.cpu)
    (leftRuns : left.host.halted = false) (rightRuns : right.host.halted = false)
    (fault : left.host.fault = right.host.fault) :
    ((∀ address, left.cpu.Reads address → Z80.SameByte left.cpu right.cpu address) →
      SameCourse 1 left right ∧
        Z80.SameEffect left.cpu right.cpu (left.after 1).cpu (right.after 1).cpu) ∧
    ∀ count,
      (∀ address, left.ReadsFirst count address → Z80.SameByte left.cpu right.cpu address) →
        SameCourse count left right ∧
          SameSince left right count (left.after count).cpu (right.after count).cpu := by
  have halted : left.host.halted = right.host.halted := leftRuns.trans rightRuns.symm
  constructor
  case left =>
    intro agree
    have begins : Abreast Z80.SameRegisters left right left right := .start registers halted fault
    obtain ⟨result, abreast⟩ := begins.step_running leftReliable rightReliable leftRuns
      (registers.step agree)
    refine ⟨.of_abreast ?_ abreast, abreast.cpu⟩
    intro index below
    rw [Nat.lt_one_iff.1 below]
    exact result
  case right =>
    intro count agree
    have begins : Abreast (SameSince left right 0) left right left right :=
      .start (.start registers) halted fault
    -- What a step reads is the same on both sides, having been so at the start or been written.
    have steps : ∀ index < count, (left.after index).host.halted = false →
        ∀ rightNow, SameSince left right index (left.after index).cpu rightNow →
          Session.Corresponds (SameSince left right (index + 1))
            (Processor.step (left.after index).cpu) (Processor.step rightNow) := by
      intro index below running rightNow since
      have corresponds := since.registers.step fun _ => since.reads agree below running
      exact corresponds.imp fun _ _ => since.step
    obtain ⟨results, abreast⟩ := after_abreast (SameSince left right) leftReliable rightReliable
      begins steps fun _ _ ended _ since => since.rest ended
    exact ⟨.of_abreast results abreast, abreast.cpu⟩

/-- A machine about to store its accumulator over the byte behind the store, which is as
given, and then to carry out what it has put there. -/
def patcher (behind : UInt8) : Machine Z80 Transcript where
  cpu :=
    { Z80.fresh with
      a := 0x3c
      memory := Memory.zeroed.storeAll 0x0000 [0x32, 0x03, 0x00, behind] }
  host := Host.ofConsole Transcript.empty
  instructions := 0

/-- Whatever byte is patched, the patch is carried out. -/
theorem course_determined_by_reads_patcher :
    Z80.SameEffect (patcher 0x00).cpu (patcher 0xff).cpu ((patcher 0x00).after 1).cpu
        ((patcher 0xff).after 1).cpu ∧
      SameCourse 2 (patcher 0x00) (patcher 0xff) ∧
      SameSince (patcher 0x00) (patcher 0xff) 2 ((patcher 0x00).after 2).cpu
        ((patcher 0xff).after 2).cpu := by
  have elsewhere : ∀ address, address ≠ 3 →
      Z80.SameByte (patcher 0x00).cpu (patcher 0xff).cpu address := by
    intro address other
    have known (behind : UInt8) : (patcher behind).cpu.memory =
        (Memory.zeroed.storeAll 0x0000 [0x32, 0x03, 0x00]).store 3 behind := rfl
    rw [Z80.SameByte, known, known, Memory.load_store_other _ _ other,
      Memory.load_store_other _ _ other]
  have code : (patcher 0x00).cpu.memory.read 0x0000 4 = [0x32, 0x03, 0x00, 0x00] :=
    Memory.read_storeAll _ 0x0000 [0x32, 0x03, 0x00, 0x00] (by decide)
  simp only [Memory.read_succ_eq_cons] at code
  obtain ⟨opcode, low, high, -⟩ := code
  have patches : Instruction.decode (patcher 0x00).cpu.nextByte =
      .internal (.storeA .immediate) := by
    rw [show (patcher 0x00).cpu.nextByte = 0x32 from opcode, Instruction.decode_eq]
    rfl
  have target : ((patcher 0x00).cpu.skip 1).nextWord = 3 := by
    rw [Z80.nextWord_skip_one]
    exact congrArg₂ Word.join high low
  have patched : (patcher 0x00).WritesWithin 1 3 := by
    refine ⟨0, Nat.one_pos, rfl, 0x3c, ?_⟩
    show (3, 0x3c) ∈ (patcher 0x00).cpu.nextStores
    unfold Z80.nextStores
    rw [patches]
    show (3, 0x3c) ∈ [(((patcher 0x00).cpu.skip 1).nextWord, (0x3c : UInt8))]
    rw [target]
    exact List.mem_singleton_self _
  have firstReads : ∀ address, (patcher 0x00).cpu.Reads address → address ≠ 3 := by
    intro address read
    rw [Z80.Reads, patches] at read
    have inCode : address ∈ [0, 1, 2] := List.mem_cons.2 read
    rintro rfl
    revert inCode
    decide
  have agree : ∀ address, (patcher 0x00).ReadsFirst 2 address → address ≠ 3 := by
    rintro address ⟨index, below, running, read, unwritten⟩ rfl
    have small : index = 0 ∨ index = 1 := by omega
    rcases small with rfl | rfl
    · exact firstReads 3 read rfl
    · exact unwritten patched
  have registers : Z80.SameRegisters (patcher 0x00).cpu (patcher 0xff).cpu :=
    .withMemory (patcher 0x00).cpu (patcher 0xff).cpu.memory
  obtain ⟨step, course⟩ := course_determined_by_reads
    (Transcript.reliable (patcher 0x00).host.console)
    (Transcript.reliable (patcher 0xff).host.console) registers rfl rfl rfl
  obtain ⟨same, since⟩ := course 2 fun address first => elsewhere address (agree address first)
  exact ⟨(step fun address read => elsewhere address (firstReads address read)).2, same, since⟩

end Cpm80.Machine
