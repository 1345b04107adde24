import Cpm80.Proofs.MultiByte
import Cpm80.Proofs.Stepping

/-!
Contract: machine code that combines two runs of bytes in memory, pair by pair.

The code goes through the bytes at DE and those at HL, B of them, from the lowest
address upwards. What it makes of each pair is put in the place of the byte at DE.

Owns:
- steps of a processor that turn to no port and meet no fault;
- the opcodes that such loops consist of;
- one pass of a loop, and the whole loop as a chain of byte operations.

Does not own: what a chain of byte operations gives.
-/

namespace Cpm80

/-! ## Steps without ports -/

/-- So many steps lead from one processor to another. None of them turns to a port, and
none fails. -/
inductive Processor.Runs {Cpu : Type} [Processor Cpu] : Nat → Cpu → Cpu → Prop where
  | done (cpu : Cpu) : Runs 0 cpu cpu
  | step {count : Nat} {cpu next finish : Cpu} (first : Processor.step cpu = .finished next none)
      (rest : Runs count next finish) : Runs (count + 1) cpu finish

theorem Processor.Runs.trans {Cpu : Type} [Processor Cpu] {first second : Nat}
    {start middle finish : Cpu} (before : Runs first start middle)
    (behind : Runs second middle finish) : Runs (first + second) start finish := by
  induction before with
  | done cpu => rwa [Nat.zero_add]
  | step taken _ inductionHypothesis =>
    rw [Nat.add_right_comm]
    exact .step taken (inductionHypothesis behind)

/-! ## Opcodes -/

namespace Instruction

theorem decode_loadAFromDE : decode 0x1a = .internal (.loadA .de) := by
  rw [decode_eq]
  rfl

theorem decode_storeAToDE : decode 0x12 = .internal (.storeA .de) := by
  rw [decode_eq]
  rfl

theorem decode_incrementHL : decode 0x23 = .internal (.incrementPair .hl) := by
  rw [decode_eq]
  rfl

theorem decode_incrementDE : decode 0x13 = .internal (.incrementPair .de) := by
  rw [decode_eq]
  rfl

theorem decode_decrementJump : decode 0x10 = .internal .decrementJump := by
  rw [decode_eq]
  rfl

end Instruction

namespace Chained

/-- The operations that take the carry into account, as the accumulator knows them. -/
def accumulator : Chained → AccumulatorOperation
  | .addition => .adc
  | .subtraction => .sbc

/-- The opcode with the byte at HL for its operand. -/
def opcode : Chained → UInt8
  | .addition => 0x8e
  | .subtraction => 0x9e

theorem decode_opcode (operation : Chained) :
    Instruction.decode operation.opcode =
      .internal (.accumulate operation.accumulator .atHL) := by
  rw [Instruction.decode_eq]
  cases operation <;> rfl

theorem accumulate_accumulator (operation : Chained) :
    Arithmetic.accumulate operation.accumulator = operation.combine := by
  cases operation <;> rfl

end Chained

/-! ## One pass -/

namespace Z80

open Processor (Runs)

theorem Runs.internal {cpu finish : Z80} {opcode : UInt8} {operation : Operation} {count : Nat}
    (here : cpu.nextByte = opcode) (decoded : Instruction.decode opcode = .internal operation)
    (rest : Runs count ((cpu.skip 1).execute operation) finish) :
    Runs (count + 1) cpu finish := by
  rw [← here] at decoded
  exact .step (session_internal decoded) rest

/-- The processor with both pointers one further on and the accumulator stored at DE. -/
def stored (cpu : Z80) (target : UInt16) : Z80 :=
  { cpu with
    d := Word.high (cpu.pair .de + 1)
    e := Word.low (cpu.pair .de + 1)
    h := Word.high (cpu.pair .hl + 1)
    l := Word.low (cpu.pair .hl + 1)
    pc := target
    memory := cpu.memory.store (cpu.pair .de) cpu.a }

theorem runs_stored {cpu : Z80} (code : cpu.memory.read cpu.pc 3 = [0x12, 0x23, 0x13])
    (clear : Memory.Apart (cpu.pair .de) 1 cpu.pc 3) :
    Runs 3 cpu (cpu.stored (cpu.pc + 3)) := by
  have kept := clear.read_store cpu.memory cpu.a
  rw [code] at kept
  simp only [Memory.read_succ_eq_cons] at code kept
  -- The first opcode is read before the accumulator is stored, the others behind it.
  obtain ⟨first, -⟩ := code
  obtain ⟨-, second, third, -⟩ := kept
  have behind : cpu.pc + 3 = cpu.pc + 1 + 1 + 1 := by grind
  refine Runs.internal first Instruction.decode_storeAToDE ?_
  refine Runs.internal second Instruction.decode_incrementHL ?_
  refine Runs.internal third Instruction.decode_incrementDE ?_
  rw [behind]
  simp only [stored, execute, storeA, store, skip, setPair, pair]
  exact Processor.Runs.done _

/-- While B is not used up a loop starts again. -/
theorem runs_decrementJump_again {cpu : Z80} {displacement : UInt8}
    (code : cpu.memory.read cpu.pc 2 = [0x10, displacement]) (more : cpu.b - 1 ≠ 0) :
    Runs 1 cpu { cpu with
      b := cpu.b - 1
      pc := Word.displace (cpu.pc + 2) displacement } := by
  simp only [Memory.read_succ_eq_cons] at code
  obtain ⟨first, distance, -⟩ := code
  have behind : cpu.pc + 2 = cpu.pc + 1 + 1 := by grind
  refine Runs.internal first Instruction.decode_decrementJump ?_
  rw [behind, ← distance]
  show Runs 0 ({ cpu with b := cpu.b - 1, pc := cpu.pc + 1 }.branchRelative (cpu.b - 1 != 0)) _
  rw [bne_iff_ne.2 more]
  exact Processor.Runs.done _

theorem runs_decrementJump_last {cpu : Z80} {displacement : UInt8}
    (code : cpu.memory.read cpu.pc 2 = [0x10, displacement]) (last : cpu.b - 1 = 0) :
    Runs 1 cpu { cpu with b := 0, pc := cpu.pc + 2 } := by
  simp only [Memory.read_succ_eq_cons] at code
  obtain ⟨first, -⟩ := code
  have behind : cpu.pc + 2 = cpu.pc + 1 + 1 := by grind
  refine Runs.internal first Instruction.decode_decrementJump ?_
  rw [behind]
  show Runs 0 ({ cpu with b := cpu.b - 1, pc := cpu.pc + 1 }.branchRelative (cpu.b - 1 != 0)) _
  rw [last]
  exact Processor.Runs.done _

/-- The processor with the bytes at both pointers combined in the accumulator. -/
def combined (cpu : Z80) (combine : UInt8 → UInt8 → Flags → UInt8 × Flags) : Z80 :=
  cpu.setAccumulator (combine (cpu.load (cpu.pair .de)) (cpu.load (cpu.pair .hl)) cpu.f)

/-- The processor behind one pass, which goes on at a target. -/
def passed (cpu : Z80) (combine : UInt8 → UInt8 → Flags → UInt8 × Flags) (target : UInt16) :
    Z80 :=
  { (cpu.combined combine).stored target with b := cpu.b - 1 }

/-- Code that combines the bytes at both pointers in so many steps. -/
def Combines (code : List UInt8) (steps : Nat)
    (combine : UInt8 → UInt8 → Flags → UInt8 × Flags) : Prop :=
  ∀ cpu : Z80, cpu.memory.read cpu.pc code.length = code →
    Runs steps cpu ((cpu.combined combine).goTo (cpu.pc + UInt16.ofNat code.length))

/-- The code of a loop: what it does to each pair of bytes, and the way back. -/
def loopCode (code : List UInt8) (displacement : UInt8) : List UInt8 :=
  code ++ [0x12, 0x23, 0x13, 0x10, displacement]

section Passes

variable {code : List UInt8} {steps : Nat} {combine : UInt8 → UInt8 → Flags → UInt8 × Flags}
  {displacement : UInt8} {cpu : Z80}

theorem length_loopCode (code : List UInt8) (displacement : UInt8) :
    (loopCode code displacement).length = code.length + 5 := by
  rw [loopCode, List.length_append]
  rfl

/-- One pass up to the jump at its end. -/
theorem Combines.runs_jump (combines : Combines code steps combine)
    (holds : cpu.memory.read cpu.pc (loopCode code displacement).length =
      loopCode code displacement)
    (clear : Memory.Apart (cpu.pair .de) 1 cpu.pc (code.length + 5)) :
    Runs (steps + 3) cpu
        ((cpu.combined combine).stored (cpu.pc + UInt16.ofNat (code.length + 3))) ∧
      ((cpu.combined combine).stored (cpu.pc + UInt16.ofNat (code.length + 3))).memory.read
        (cpu.pc + UInt16.ofNat (code.length + 3)) 2 = [0x10, displacement] := by
  have whole : cpu.memory.read cpu.pc (code ++ [0x12, 0x23, 0x13, 0x10, displacement]).length =
      code ++ [0x12, 0x23, 0x13, 0x10, displacement] := holds
  obtain ⟨front, back⟩ := Memory.read_eq_append whole
  have rest : cpu.memory.read (cpu.pc + UInt16.ofNat code.length)
      ([0x12, 0x23, 0x13] ++ [0x10, displacement]).length =
        [0x12, 0x23, 0x13] ++ [0x10, displacement] := back
  obtain ⟨middle, jump⟩ := Memory.read_eq_append rest
  rw [add_ofNat_add] at jump
  constructor
  · let arrived := (cpu.combined combine).goTo (cpu.pc + UInt16.ofNat code.length)
    have stores : Runs 3 arrived (arrived.stored (arrived.pc + 3)) :=
      runs_stored middle (clear.part_right (by omega))
    rw [← add_ofNat_add]
    exact (combines cpu front).trans stores
  · rw [← jump]
    exact (clear.part_right (by omega)).read_store _ _

theorem Combines.runs_again (combines : Combines code steps combine)
    (holds : cpu.memory.read cpu.pc (loopCode code displacement).length =
      loopCode code displacement)
    (clear : Memory.Apart (cpu.pair .de) 1 cpu.pc (code.length + 5))
    (back : Word.displace (cpu.pc + UInt16.ofNat (code.length + 5)) displacement = cpu.pc)
    (more : cpu.b - 1 ≠ 0) : Runs (steps + 4) cpu (cpu.passed combine cpu.pc) := by
  obtain ⟨runs, jump⟩ := combines.runs_jump holds clear
  have jumps := runs_decrementJump_again jump more
  have exit : ((cpu.combined combine).stored (cpu.pc + UInt16.ofNat (code.length + 3))).pc + 2 =
      cpu.pc + UInt16.ofNat (code.length + 5) := add_ofNat_add cpu.pc (code.length + 3) 2
  rw [exit, back] at jumps
  exact runs.trans jumps

theorem Combines.runs_last (combines : Combines code steps combine)
    (holds : cpu.memory.read cpu.pc (loopCode code displacement).length =
      loopCode code displacement)
    (clear : Memory.Apart (cpu.pair .de) 1 cpu.pc (code.length + 5))
    (last : cpu.b - 1 = 0) :
    Runs (steps + 4) cpu
      (cpu.passed combine (cpu.pc + UInt16.ofNat (code.length + 5))) := by
  obtain ⟨runs, jump⟩ := combines.runs_jump holds clear
  have jumps := runs_decrementJump_last jump last
  have exit : ((cpu.combined combine).stored (cpu.pc + UInt16.ofNat (code.length + 3))).pc + 2 =
      cpu.pc + UInt16.ofNat (code.length + 5) := add_ofNat_add cpu.pc (code.length + 3) 2
  rw [exit, ← last] at jumps
  exact runs.trans jumps

end Passes

/-! ## Loops -/

/-- The processor behind a loop over so many pairs of bytes. -/
def looped (cpu : Z80) (combine : UInt8 → UInt8 → Flags → UInt8 × Flags) (count : Nat)
    (exit : UInt16) : Z80 :=
  let chained := Arithmetic.chain combine (cpu.memory.read (cpu.pair .de) count)
    (cpu.memory.read (cpu.pair .hl) count) cpu.f
  { cpu with
    a := chained.1.getLastD cpu.a
    f := chained.2
    b := 0
    d := Word.high (cpu.pair .de + UInt16.ofNat count)
    e := Word.low (cpu.pair .de + UInt16.ofNat count)
    h := Word.high (cpu.pair .hl + UInt16.ofNat count)
    l := Word.low (cpu.pair .hl + UInt16.ofNat count)
    pc := exit
    memory := cpu.memory.storeAll (cpu.pair .de) chained.1 }

section Loops

variable {code : List UInt8} {steps : Nat} {combine : UInt8 → UInt8 → Flags → UInt8 × Flags}
  {displacement : UInt8} {cpu : Z80}

theorem pair_de_passed (target : UInt16) :
    (cpu.passed combine target).pair .de = cpu.pair .de + 1 :=
  Word.join_high_low _

theorem pair_hl_passed (target : UInt16) :
    (cpu.passed combine target).pair .hl = cpu.pair .hl + 1 :=
  Word.join_high_low _

theorem looped_zero (used : cpu.b = 0) : cpu.looped combine 0 cpu.pc = cpu := by
  obtain ⟨a, f, b, c, d, e, h, l, altA, altF, altBC, altDE, altHL, sp, pc, interrupts,
    memory⟩ := cpu
  subst used
  have still (address : UInt16) : address + UInt16.ofNat 0 = address := UInt16.add_zero address
  simp only [looped, still, pair, Word.high_join, Word.low_join, Memory.read_zero,
    Arithmetic.chain, Memory.storeAll, List.getLastD_nil]

/-- A pass and a loop over the other pairs make up a loop over all of them. -/
theorem looped_passed {count : Nat} (fits : count < addressSpace)
    (apart : Memory.Apart (cpu.pair .de) 1 (cpu.pair .hl + 1) count) (target exit : UInt16) :
    (cpu.passed combine target).looped combine count exit =
      cpu.looped combine (count + 1) exit := by
  have lefts : (cpu.passed combine target).memory.read (cpu.pair .de + 1) count =
      cpu.memory.read (cpu.pair .de + 1) count :=
    (Memory.Apart.behind (cpu.pair .de) fits).read_store _ _
  have rights : (cpu.passed combine target).memory.read (cpu.pair .hl + 1) count =
      cpu.memory.read (cpu.pair .hl + 1) count := apart.read_store _ _
  simp only [looped, pair_de_passed, pair_hl_passed, lefts, rights, Memory.read_succ,
    Arithmetic.chain_cons, List.getLastD_cons, Memory.storeAll, add_ofNat_succ]
  rfl

/-- The beginning of a pass, with so many pairs of bytes to go. The bytes at DE, which
change, are apart from those at HL and from the code. -/
structure AtLoop (code : List UInt8) (displacement : UInt8) (count : Nat) (cpu : Z80) :
    Prop where
  counted : cpu.b = UInt8.ofNat count
  holds : cpu.memory.read cpu.pc (loopCode code displacement).length =
    loopCode code displacement
  back : Word.displace (cpu.pc + UInt16.ofNat (code.length + 5)) displacement = cpu.pc
  clear : Memory.Apart (cpu.pair .de) count cpu.pc (code.length + 5)
  apart : Memory.Apart (cpu.pair .de) count (cpu.pair .hl) count

namespace AtLoop

variable {count : Nat}

theorem fewer (atLoop : AtLoop code displacement (count + 1) cpu) :
    cpu.b - 1 = UInt8.ofNat count := by
  rw [atLoop.counted, UInt8.ofNat_add]
  exact UInt8.add_sub_cancel _ _

/-- A pass that goes back leads to the next one. -/
theorem passed (atLoop : AtLoop code displacement (count + 1) cpu)
    (combine : UInt8 → UInt8 → Flags → UInt8 × Flags) :
    AtLoop code displacement count (cpu.passed combine cpu.pc) where
  counted := atLoop.fewer
  holds := by
    have clear := atLoop.clear.head
    rw [← length_loopCode code displacement] at clear
    have kept := clear.read_store cpu.memory (cpu.combined combine).a
    rwa [atLoop.holds] at kept
  back := atLoop.back
  clear := by
    rw [pair_de_passed]
    exact atLoop.clear.tail_left
  apart := by
    rw [pair_de_passed, pair_hl_passed]
    exact atLoop.apart.tail_left.tail_right

/-- The loop goes over all pairs of bytes and is left behind its code. -/
theorem runs_loop (atLoop : AtLoop code displacement count cpu)
    (combines : Combines code steps combine) (positive : 0 < count) (most : count ≤ 256) :
    Runs ((steps + 4) * count) cpu
      (cpu.looped combine count (cpu.pc + UInt16.ofNat (code.length + 5))) := by
  induction count generalizing cpu with
  | zero => exact absurd positive (Nat.lt_irrefl 0)
  | succ count inductionHypothesis =>
    have fits : count < addressSpace := Nat.lt_trans most (by decide)
    have apartRest := atLoop.apart.head.tail_right
    -- Only the last pass leaves the loop, so it is told apart from the others.
    cases count with
    | zero =>
      let exit := cpu.pc + UInt16.ofNat (code.length + 5)
      have finished : (cpu.passed combine exit).looped combine 0 exit = cpu.passed combine exit :=
        looped_zero atLoop.fewer
      rw [← looped_passed fits apartRest exit, finished, Nat.zero_add, Nat.mul_one]
      exact combines.runs_last atLoop.holds atLoop.clear.head atLoop.fewer
    | succ count =>
      have more : cpu.b - 1 ≠ 0 := by
        rw [atLoop.fewer]
        intro used
        have wraps := congrArg UInt8.toNat used
        rw [UInt8.toNat_ofNat_of_lt' most] at wraps
        contradiction
      have pass := combines.runs_again atLoop.holds atLoop.clear.head atLoop.back more
      have rest := inductionHypothesis (atLoop.passed combine) (Nat.succ_pos count) (by omega)
      rw [← looped_passed fits apartRest cpu.pc, Nat.mul_succ, Nat.add_comm]
      exact pass.trans rest

/-- Behind the loop the chain of all results stands at DE, its flags are those of the
last pass, and no other byte of memory has changed. -/
theorem exists_finish (atLoop : AtLoop code displacement count cpu)
    (combines : Combines code steps combine) (positive : 0 < count) (most : count ≤ 256) :
    ∃ a memory,
      Runs ((steps + 4) * count) cpu
        { cpu with
          a := a
          f := (Arithmetic.chain combine (cpu.memory.read (cpu.pair .de) count)
            (cpu.memory.read (cpu.pair .hl) count) cpu.f).2
          b := 0
          d := Word.high (cpu.pair .de + UInt16.ofNat count)
          e := Word.low (cpu.pair .de + UInt16.ofNat count)
          h := Word.high (cpu.pair .hl + UInt16.ofNat count)
          l := Word.low (cpu.pair .hl + UInt16.ofNat count)
          pc := cpu.pc + UInt16.ofNat (code.length + 5)
          memory := memory } ∧
      memory.read (cpu.pair .de) count =
        (Arithmetic.chain combine (cpu.memory.read (cpu.pair .de) count)
          (cpu.memory.read (cpu.pair .hl) count) cpu.f).1 ∧
      ∀ address, (∀ offset < count, address ≠ cpu.pair .de + UInt16.ofNat offset) →
        memory.load address = cpu.memory.load address := by
  have runs := atLoop.runs_loop combines positive most
  have length := Arithmetic.length_chain combine
    ((cpu.memory.length_read (cpu.pair .de) count).trans
      (cpu.memory.length_read (cpu.pair .hl) count).symm) cpu.f
  rw [Memory.length_read] at length
  have fits : count ≤ addressSpace := Nat.le_trans most (by decide)
  refine ⟨_, _, runs, ?results, ?others⟩
  case results =>
    have held := cpu.memory.read_storeAll (cpu.pair .de) _ (length.trans_le fits)
    rwa [length] at held
  case others =>
    intro address outside
    apply Memory.load_storeAll_outside _ _ _ _ (length.trans_le fits)
    rw [length]
    by_contra inside
    apply outside _ (Nat.lt_of_not_le inside)
    rw [UInt16.ofNat_toNat]
    grind

/-- A loop over digits leaves those of the total at DE, and what goes out of them in the
carry flag. -/
theorem exists_total {operation : Chained} {base : Nat} {digit : UInt8 → Nat}
    {valid : UInt8 → Prop} {lefts rights : List UInt8}
    (atLoop : AtLoop code displacement count cpu) (combines : Combines code steps combine)
    (each : Digitwise operation base digit valid combine) (positive : 0 < count)
    (most : count ≤ 256) (atDE : cpu.memory.read (cpu.pair .de) count = lefts)
    (atHL : cpu.memory.read (cpu.pair .hl) count = rights)
    (validLefts : ∀ byte ∈ lefts, valid byte) (validRights : ∀ byte ∈ rights, valid byte) :
    ∃ a memory,
      Runs ((steps + 4) * count) cpu
        { cpu with
          a := a
          f := (Arithmetic.chain combine lefts rights cpu.f).2
          b := 0
          d := Word.high (cpu.pair .de + UInt16.ofNat count)
          e := Word.low (cpu.pair .de + UInt16.ofNat count)
          h := Word.high (cpu.pair .hl + UInt16.ofNat count)
          l := Word.low (cpu.pair .hl + UInt16.ofNat count)
          pc := cpu.pc + UInt16.ofNat (code.length + 5)
          memory := memory } ∧
      (∀ byte ∈ memory.read (cpu.pair .de) count, valid byte) ∧
      (spelled base digit (memory.read (cpu.pair .de) count) : Int) =
        operation.total (spelled base digit lefts) (spelled base digit rights)
          cpu.f.carry.toNat % (base ^ count : Nat) ∧
      ((Arithmetic.chain combine lefts rights cpu.f).2.carry = true ↔
        operation.Carries (base ^ count) (spelled base digit lefts) (spelled base digit rights)
          cpu.f.carry.toNat) ∧
      ∀ address, (∀ offset < count, address ≠ cpu.pair .de + UInt16.ofNat offset) →
        memory.load address = cpu.memory.load address := by
  obtain ⟨a, memory, runs, results, others⟩ := atLoop.exists_finish combines positive most
  have lengthDE := cpu.memory.length_read (cpu.pair .de) count
  have lengthHL := cpu.memory.length_read (cpu.pair .hl) count
  rw [atDE] at lengthDE
  rw [atHL] at lengthHL
  rw [atDE, atHL] at runs results
  have same : lefts.length = rights.length := lengthDE.trans lengthHL.symm
  refine ⟨a, memory, runs, ?valid, ?value, ?carry, others⟩
  case valid =>
    rw [results]
    exact each.valid_chain validLefts validRights cpu.f
  case value =>
    rw [results, ← lengthDE]
    exact each.spelled_chain same validLefts validRights cpu.f
  case carry =>
    rw [← lengthDE]
    exact each.carry_chain same validLefts validRights cpu.f

end AtLoop

end Loops

/-- How many pairs a loop goes over: B, or 256 if B is zero. -/
theorem eq_ofNat_loopCount {value : UInt8} {count : Nat}
    (counted : count = if value = 0 then 256 else value.toNat) :
    value = UInt8.ofNat count ∧ 0 < count ∧ count ≤ 256 := by
  by_cases around : value = 0
  · rw [if_pos around] at counted
    subst counted around
    decide
  · rw [if_neg around] at counted
    subst counted
    refine ⟨UInt8.ofNat_toNat.symm, Nat.pos_of_ne_zero fun zero => ?_, Nat.le_of_lt value.toNat_lt⟩
    exact around (UInt8.toNat_inj.1 zero)

end Z80

end Cpm80
