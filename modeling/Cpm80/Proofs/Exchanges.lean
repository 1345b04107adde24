import Mathlib.Algebra.Ring.Parity
import Cpm80.Proofs.ByteLoop

/-!
Contract: instructions that exchange registers, with their alternates, with each other, or
with the top of the stack.

Owns:
- the opcodes of the four exchanges;
- pairs with their alternates, and how often a piece of code exchanges them;
- code of any length that consists of such exchanges alone;
- an exchange of DE and HL, and one of HL and the top of the stack, done twice.

Does not own: alternate registers as anything but what is exchanged.
-/

namespace Cpm80

/-! ## Opcodes -/

namespace Instruction

theorem decode_exchangeAF : decode 0x08 = .internal .exchangeAF := by
  rw [decode_eq]
  rfl

theorem decode_exchangeAll : decode 0xd9 = .internal .exchangeAll := by
  rw [decode_eq]
  rfl

theorem decode_exchangeDEHL : decode 0xeb = .internal .exchangeDEHL := by
  rw [decode_eq]
  rfl

theorem decode_exchangeTop : decode 0xe3 = .internal .exchangeTop := by
  rw [decode_eq]
  rfl

end Instruction

/-! ## Pairs with their alternates -/

/-- How many opcodes of a piece of code exchange a pair with its alternate. -/
def RegisterPair.exchanges (codes : List UInt8) : RegisterPair → Nat
  | .af => codes.count 0x08
  | .bc | .de | .hl => codes.count 0xd9
  | .sp => 0

theorem RegisterPair.exchanges_append (first second : List UInt8) (pair : RegisterPair) :
    pair.exchanges (first ++ second) = pair.exchanges first + pair.exchanges second := by
  cases pair with
  | sp => rfl
  | af | bc | de | hl => exact List.count_append

namespace Z80

open Processor (Runs)

/-- What a pair is exchanged with. The stack pointer has no alternate but itself. -/
def alternate (cpu : Z80) : RegisterPair → UInt16
  | .af => Word.join cpu.altA cpu.altF.toByte
  | .bc => cpu.altBC
  | .de => cpu.altDE
  | .hl => cpu.altHL
  | .sp => cpu.sp

/-- A processor differs from another at most in its program counter, and in that each pair
has been exchanged with its alternate so many times. -/
structure Exchanged (times : RegisterPair → Nat) (start finish : Z80) : Prop where
  pairs : ∀ pair, (finish.pair pair, finish.alternate pair) =
    Prod.swap^[times pair] (start.pair pair, start.alternate pair)
  interrupts : finish.interrupts = start.interrupts
  memory : finish.memory = start.memory

theorem involutive_swap : Function.Involutive (Prod.swap : UInt16 × UInt16 → UInt16 × UInt16) :=
  Prod.swap_swap

namespace Exchanged

variable {start middle finish : Z80} {first second times : RegisterPair → Nat}

theorem trans (before : Exchanged first start middle) (behind : Exchanged second middle finish) :
    Exchanged (fun pair => first pair + second pair) start finish where
  pairs pair := by
    rw [behind.pairs, before.pairs, ← Function.iterate_add_apply, Nat.add_comm]
  interrupts := behind.interrupts.trans before.interrupts
  memory := behind.memory.trans before.memory

/-- Only whether the number is odd matters. -/
theorem pairs_eq (exchanged : Exchanged times start finish) (pair : RegisterPair) :
    (finish.pair pair, finish.alternate pair) =
      if Odd (times pair) then (start.alternate pair, start.pair pair)
        else (start.pair pair, start.alternate pair) := by
  rw [exchanged.pairs]
  split
  · next odd =>
    rw [involutive_swap.iterate_odd odd]
    rfl
  · next even =>
    rw [involutive_swap.iterate_even (Nat.not_odd_iff_even.1 even)]
    rfl

end Exchanged

/-! ## Code of exchanges -/

theorem exchanged_exchangeAF (cpu : Z80) :
    Exchanged (RegisterPair.exchanges [0x08]) cpu (cpu.skip 1).exchangeAF where
  pairs pair := by cases pair <;> rfl
  interrupts := rfl
  memory := rfl

theorem exchanged_exchangeAll (cpu : Z80) :
    Exchanged (RegisterPair.exchanges [0xd9]) cpu (cpu.skip 1).exchangeAll where
  pairs pair := by
    cases pair with
    | af | sp => rfl
    | bc => exact congrArg (·, cpu.pair .bc) (Word.join_high_low cpu.altBC)
    | de => exact congrArg (·, cpu.pair .de) (Word.join_high_low cpu.altDE)
    | hl => exact congrArg (·, cpu.pair .hl) (Word.join_high_low cpu.altHL)
  interrupts := rfl
  memory := rfl

variable {cpu : Z80}

theorem step_exchange {code : UInt8} (here : cpu.nextByte = code)
    (exchanges : code = 0x08 ∨ code = 0xd9) :
    ∃ next, Processor.step cpu = .finished next none ∧
      Exchanged (RegisterPair.exchanges [code]) cpu next ∧ next.pc = cpu.pc + 1 := by
  rcases exchanges with rfl | rfl
  · have decoded : Instruction.decode cpu.nextByte = .internal .exchangeAF := by
      rw [here, Instruction.decode_exchangeAF]
    exact ⟨_, session_internal decoded, cpu.exchanged_exchangeAF, rfl⟩
  · have decoded : Instruction.decode cpu.nextByte = .internal .exchangeAll := by
      rw [here, Instruction.decode_exchangeAll]
    exact ⟨_, session_internal decoded, cpu.exchanged_exchangeAll, rfl⟩

/-- Each step exchanges what its opcode says, and leaves the rest of the code in place. -/
theorem runs_exchanges {codes : List UInt8}
    (exchanges : ∀ code ∈ codes, code = 0x08 ∨ code = 0xd9)
    (placed : cpu.memory.read cpu.pc codes.length = codes) :
    ∃ finish, Runs codes.length cpu finish ∧
      Exchanged (RegisterPair.exchanges codes) cpu finish ∧
      finish.pc = cpu.pc + UInt16.ofNat codes.length := by
  induction codes generalizing cpu with
  | nil =>
    refine ⟨cpu, .done cpu, ⟨fun pair => ?_, rfl, rfl⟩, (UInt16.add_zero cpu.pc).symm⟩
    cases pair <;> rfl
  | cons code codes inductionHypothesis =>
    rw [List.forall_mem_cons] at exchanges
    obtain ⟨here, behind⟩ := Memory.read_succ_eq_cons.1 placed
    obtain ⟨next, step, exchanged, pc⟩ := step_exchange here exchanges.1
    have placedBehind : next.memory.read next.pc codes.length = codes := by
      rw [exchanged.memory, pc, behind]
    obtain ⟨finish, runs, exchangedBehind, pcBehind⟩ :=
      inductionHypothesis exchanges.2 placedBehind
    refine ⟨finish, .step step runs, ?_, ?_⟩
    · have both := exchanged.trans exchangedBehind
      simp only [← RegisterPair.exchanges_append] at both
      exact both
    · rw [pcBehind, pc, List.length_cons, add_ofNat_succ]

/-! ## Exchanges that undo themselves -/

theorem runs_exchangeDEHL_twice (code : cpu.memory.read cpu.pc 2 = [0xeb, 0xeb]) :
    ∃ middle, Runs 1 cpu middle ∧
      middle.pair .de = cpu.pair .hl ∧ middle.pair .hl = cpu.pair .de ∧
      Runs 1 middle { cpu with pc := cpu.pc + 2 } := by
  simp only [Memory.read_succ_eq_cons] at code
  obtain ⟨first, second, -⟩ := code
  have behind : cpu.pc + 2 = cpu.pc + 1 + 1 := by grind
  rw [behind]
  exact ⟨_, Runs.internal first Instruction.decode_exchangeDEHL (.done _), rfl, rfl,
    Runs.internal second Instruction.decode_exchangeDEHL (.done _)⟩

theorem exchangeTop_eq (cpu : Z80) :
    cpu.exchangeTop =
      { cpu with
        h := Word.high cpu.top
        l := Word.low cpu.top
        memory := cpu.memory.storeWord cpu.sp (cpu.pair .hl) } :=
  rfl

theorem top_exchangeTop : (cpu.skip 1).exchangeTop.top = cpu.pair .hl :=
  cpu.memory.loadWord_storeWord cpu.sp (cpu.pair .hl)

theorem pair_exchangeTop : (cpu.skip 1).exchangeTop.pair .hl = cpu.top :=
  Word.join_high_low cpu.top

theorem exchangeTop_twice :
    ((cpu.skip 1).exchangeTop.skip 1).exchangeTop = { cpu with pc := cpu.pc + 2 } := by
  have further : cpu.pc + 1 + 1 = cpu.pc + 2 := by grind
  rw [exchangeTop_eq ((cpu.skip 1).exchangeTop.skip 1)]
  simp only [pair_skip, top_skip, top_exchangeTop, pair_exchangeTop]
  simp only [exchangeTop_eq, skip, top, pair, further, Word.high_join, Word.low_join,
    Memory.storeWord_storeWord_loadWord]

theorem runs_exchangeTop_twice (here : cpu.nextByte = 0xe3)
    (behind : (cpu.memory.storeWord cpu.sp (cpu.pair .hl)).load (cpu.pc + 1) = 0xe3) :
    ∃ middle, Runs 1 cpu middle ∧
      middle.top = cpu.pair .hl ∧ middle.pair .hl = cpu.top ∧
      Runs 1 middle { cpu with pc := cpu.pc + 2 } := by
  rw [← exchangeTop_twice]
  exact ⟨_, Runs.internal here Instruction.decode_exchangeTop (.done _), top_exchangeTop,
    pair_exchangeTop, Runs.internal behind Instruction.decode_exchangeTop (.done _)⟩

/-- Exchanges are exact. Code of any length that consists of exchanges with the alternates,
in any order, leaves AF with its alternate exchanged just if there is an odd number of the
one kind in it, and each of BC, DE and HL with its own just if there is an odd number of the
other. Nothing else changes but the program counter.

Two exchanges of DE with HL undo each other, and so do two of HL with the top of the stack,
wherever this is, if what the first one stores leaves the second its opcode. -/
theorem exchanges_exact (cpu : Z80) :
    (∀ codes : List UInt8, (∀ code ∈ codes, code = 0x08 ∨ code = 0xd9) →
      cpu.memory.read cpu.pc codes.length = codes →
      ∃ finish, Runs codes.length cpu finish ∧
        (finish.pair .af, finish.alternate .af) =
          (if Odd (codes.count 0x08) then (cpu.alternate .af, cpu.pair .af)
            else (cpu.pair .af, cpu.alternate .af)) ∧
        (∀ pair ∈ [RegisterPair.bc, .de, .hl],
          (finish.pair pair, finish.alternate pair) =
            (if Odd (codes.count 0xd9) then (cpu.alternate pair, cpu.pair pair)
              else (cpu.pair pair, cpu.alternate pair))) ∧
        finish.sp = cpu.sp ∧ finish.pc = cpu.pc + UInt16.ofNat codes.length ∧
        finish.interrupts = cpu.interrupts ∧ finish.memory = cpu.memory) ∧
      (cpu.memory.read cpu.pc 2 = [0xeb, 0xeb] →
        ∃ middle, Runs 1 cpu middle ∧
          middle.pair .de = cpu.pair .hl ∧ middle.pair .hl = cpu.pair .de ∧
          Runs 1 middle { cpu with pc := cpu.pc + 2 }) ∧
      (cpu.nextByte = 0xe3 →
        (cpu.memory.storeWord cpu.sp (cpu.pair .hl)).load (cpu.pc + 1) = 0xe3 →
        ∃ middle, Runs 1 cpu middle ∧
          middle.top = cpu.pair .hl ∧ middle.pair .hl = cpu.top ∧
          Runs 1 middle { cpu with pc := cpu.pc + 2 }) := by
  refine ⟨?codes, runs_exchangeDEHL_twice, runs_exchangeTop_twice⟩
  intro codes exchanges placed
  obtain ⟨finish, runs, exchanged, pc⟩ := runs_exchanges exchanges placed
  refine ⟨finish, runs, exchanged.pairs_eq .af, ?_, ?_, pc, exchanged.interrupts,
    exchanged.memory⟩
  · intro pair listed
    have same : pair.exchanges codes = codes.count 0xd9 := by
      cases pair with
      | bc | de | hl => rfl
      | af | sp => simp at listed
    rw [← same]
    exact exchanged.pairs_eq pair
  · exact congrArg Prod.fst (exchanged.pairs .sp)

/-- A processor at the last address, before code that goes on at the first one. No two of
its pairs and alternates hold the same, and the top of its stack is across the end too. -/
def atEnd (code : List UInt8) : Z80 :=
  { fresh with
    a := 0x0a, b := 0x0b, d := 0x0d, h := 0x0e
    altA := 0xfa, altBC := 0xfb00, altDE := 0xfd00, altHL := 0xfe00
    sp := 0xffff, pc := 0xffff
    memory := Memory.zeroed.storeAll 0xffff code }

/-- The same at other code, so that the word across the end is not part of it. -/
def elsewhere (code : List UInt8) : Z80 :=
  { atEnd [0x34, 0x12] with
    pc := 0x1000
    memory := (atEnd [0x34, 0x12]).memory.storeAll 0x1000 code }

theorem exchanges_exact_atEnd :
    -- three exchanges of all, two of AF
    (∃ finish, Runs 5 (atEnd [0xd9, 0x08, 0xd9, 0xd9, 0x08]) finish ∧
        (finish.pair .af, finish.alternate .af) = (0x0aff, 0xfa00) ∧
        (finish.pair .de, finish.alternate .de) = (0xfd00, 0x0d00) ∧ finish.pc = 0x0004) ∧
      (∃ middle, Runs 1 (atEnd [0xeb, 0xeb]) middle ∧ middle.pair .de = 0x0e00 ∧
        Runs 1 middle ((atEnd [0xeb, 0xeb]).skip 2)) ∧
      ∃ middle, Runs 1 (elsewhere [0xe3, 0xe3]) middle ∧ middle.pair .hl = 0x1234 ∧
        middle.top = 0x0e00 ∧ Runs 1 middle ((elsewhere [0xe3, 0xe3]).skip 2) := by
  refine ⟨?codes, ?pairs, ?tops⟩
  case codes =>
    obtain ⟨codes, -⟩ := exchanges_exact (atEnd [0xd9, 0x08, 0xd9, 0xd9, 0x08])
    obtain ⟨finish, runs, af, others, -, pc, -⟩ :=
      codes [0xd9, 0x08, 0xd9, 0xd9, 0x08] (by simp)
        (Memory.read_storeAll _ _ _ (by decide))
    exact ⟨finish, runs, af.trans (by decide), (others .de (by decide)).trans (by decide),
      pc.trans (by decide)⟩
  case pairs =>
    obtain ⟨-, pairs, -⟩ := exchanges_exact (atEnd [0xeb, 0xeb])
    obtain ⟨middle, first, de, -, second⟩ :=
      pairs (Memory.read_storeAll _ 0xffff [0xeb, 0xeb] (by decide))
    exact ⟨middle, first, de.trans (by decide), second⟩
  case tops =>
    obtain ⟨-, -, tops⟩ := exchanges_exact (elsewhere [0xe3, 0xe3])
    have kept : ((elsewhere [0xe3, 0xe3]).memory.storeWord 0xffff 0x0e00).load 0x1001 = 0xe3 :=
      (Memory.load_storeWord_of_ne _ (by decide) (by decide)).trans
        (Memory.load_storeAll _ _ _ _ (by decide))
    obtain ⟨middle, first, onTop, inHL, second⟩ :=
      tops (Memory.load_storeAll _ _ _ _ (by decide)) kept
    have low : (elsewhere [0xe3, 0xe3]).memory.load 0xffff = 0x34 :=
      (Memory.load_storeAll_outside _ _ _ _ (by decide) (by decide)).trans
        (Memory.load_storeAll _ _ _ _ (by decide))
    have high : (elsewhere [0xe3, 0xe3]).memory.load 0x0000 = 0x12 :=
      (Memory.load_storeAll_outside _ _ _ _ (by decide) (by decide)).trans
        (Memory.load_storeAll _ _ _ _ (by decide))
    refine ⟨middle, first, inHL.trans (congrArg₂ Word.join high low), onTop.trans ?_, second⟩
    decide

end Z80

end Cpm80
