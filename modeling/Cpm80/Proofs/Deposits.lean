import Cpm80.Proofs.ControlFlow

/-!
Contract: what each instruction puts into memory.

Owns:
- lists of stores that go to different addresses;
- the ways in which an instruction can change memory, and the bytes that it stores, each
  with its address;
- the way of every opcode, as a table of bytes;
- memory behind a step: those bytes at their addresses, and every other byte as it was.

All addresses and values are those of a processor that is still at the opcode.

Does not own: which addresses an instruction reads.
-/

namespace Cpm80

/-! ## Stores at different addresses -/

namespace Memory

variable (memory : Memory) {stores : List (UInt16 × UInt8)}

/-- Of bytes stored at different addresses none replaces another. -/
theorem load_storeEach_of_mem (different : stores.Pairwise fun entry other => entry.1 ≠ other.1)
    {entry : UInt16 × UInt8} (member : entry ∈ stores) :
    (memory.storeEach stores).load entry.1 = entry.2 := by
  induction stores generalizing memory with
  | nil => contradiction
  | cons first stores inductionHypothesis =>
    rw [List.pairwise_cons] at different
    show ((memory.store first.1 first.2).storeEach stores).load entry.1 = _
    rcases List.mem_cons.1 member with rfl | later
    · rw [load_storeEach_of_ne _ different.1, load_store_same]
    · exact inductionHypothesis _ different.2 later

end Memory

/-! ## What is put into memory -/

/-- What an instruction puts into memory. -/
inductive Deposit where
  | nothing
  /-- A, where a pair or the operand word points. -/
  | accumulator (target : Pointer)
  /-- HL, where the operand word points. -/
  | wordHL
  /-- The operand byte, at HL. -/
  | operandByte
  /-- A register, at HL. -/
  | operand (source : Operand)
  /-- One more than is at HL, in its place. -/
  | oneMore
  | oneLess
  /-- HL, in the place of the word on top of the stack. -/
  | exchangeTop
  /-- A pair, on top of the stack. -/
  | push (source : RegisterPair)
  /-- The address behind an instruction of so many bytes, on top of the stack. Where there
  is a condition and it does not hold, nothing. -/
  | returnAddress (length : UInt16) (condition : Option Condition)
deriving DecidableEq, Repr

/-- What the instruction of an opcode puts into memory. -/
def Deposit.ofOpcode : UInt8 → Deposit
  | 0x02 => .accumulator .bc
  | 0x12 => .accumulator .de
  | 0x32 => .accumulator .immediate
  | 0x22 => .wordHL
  | 0x36 => .operandByte
  | 0x70 => .operand .b
  | 0x71 => .operand .c
  | 0x72 => .operand .d
  | 0x73 => .operand .e
  | 0x74 => .operand .h
  | 0x75 => .operand .l
  | 0x77 => .operand .a
  | 0x34 => .oneMore
  | 0x35 => .oneLess
  | 0xe3 => .exchangeTop
  | 0xc5 => .push .bc
  | 0xd5 => .push .de
  | 0xe5 => .push .hl
  | 0xf5 => .push .af
  | 0xcd => .returnAddress 3 none
  | 0xc4 => .returnAddress 3 (some .nonZero)
  | 0xcc => .returnAddress 3 (some .zero)
  | 0xd4 => .returnAddress 3 (some .noCarry)
  | 0xdc => .returnAddress 3 (some .carry)
  | 0xe4 => .returnAddress 3 (some .parityOdd)
  | 0xec => .returnAddress 3 (some .parityEven)
  | 0xf4 => .returnAddress 3 (some .plus)
  | 0xfc => .returnAddress 3 (some .minus)
  | 0xc7 | 0xcf | 0xd7 | 0xdf | 0xe7 | 0xef | 0xf7 | 0xff => .returnAddress 1 none
  | _ => .nothing

namespace Z80

/-- The word behind the opcode. -/
def operandWord (cpu : Z80) : UInt16 :=
  Word.join (cpu.load (cpu.pc + 2)) (cpu.load (cpu.pc + 1))

/-- A word as it comes to lie on top of the stack. -/
def onStack (cpu : Z80) (word : UInt16) : List (UInt16 × UInt8) :=
  [(cpu.sp - 2, Word.low word), (cpu.sp - 1, Word.high word)]

/-- The bytes that are put into memory, each with its address. -/
def deposited (cpu : Z80) : Deposit → List (UInt16 × UInt8)
  | .nothing => []
  | .accumulator .bc => [(Word.join cpu.b cpu.c, cpu.a)]
  | .accumulator .de => [(Word.join cpu.d cpu.e, cpu.a)]
  | .accumulator .immediate => [(cpu.operandWord, cpu.a)]
  | .wordHL => [(cpu.operandWord, cpu.l), (cpu.operandWord + 1, cpu.h)]
  | .operandByte => [(Word.join cpu.h cpu.l, cpu.load (cpu.pc + 1))]
  | .operand source => [(Word.join cpu.h cpu.l, cpu.operand source)]
  | .oneMore => [(Word.join cpu.h cpu.l, cpu.load (Word.join cpu.h cpu.l) + 1)]
  | .oneLess => [(Word.join cpu.h cpu.l, cpu.load (Word.join cpu.h cpu.l) - 1)]
  | .exchangeTop => [(cpu.sp, cpu.l), (cpu.sp + 1, cpu.h)]
  | .push source => cpu.onStack (cpu.pair source)
  | .returnAddress length condition =>
    if cpu.takes condition then cpu.onStack (cpu.pc + length) else []

/-- No two bytes of a deposit go to the same address. -/
theorem deposited_different (cpu : Z80) (deposit : Deposit) :
    (cpu.deposited deposit).Pairwise fun entry other => entry.1 ≠ other.1 := by
  have next (address : UInt16) : address ≠ address + 1 := by grind
  have below : cpu.sp - 2 ≠ cpu.sp - 1 := by grind
  cases deposit with
  | nothing | operandByte | operand | oneMore | oneLess => simp [deposited]
  | accumulator target => cases target <;> simp [deposited]
  | wordHL => simp [deposited, next]
  | exchangeTop => simp [deposited, next]
  | push => simp [deposited, onStack, below]
  | returnAddress length condition =>
    show List.Pairwise _ (if cpu.takes condition then cpu.onStack (cpu.pc + length) else [])
    split <;> simp [onStack, below]

end Z80

/-! ## Decoded instructions -/

def Operation.deposit : Operation → Deposit
  | .move .atHL source => .operand source
  | .loadByte .atHL => .operandByte
  | .increment .atHL => .oneMore
  | .decrement .atHL => .oneLess
  | .storeA target => .accumulator target
  | .storeHL => .wordHL
  | .exchangeTop => .exchangeTop
  | .push source => .push source
  | .call => .returnAddress 3 none
  | .callIf condition => .returnAddress 3 (some condition)
  | .restart _ => .returnAddress 1 none
  | _ => .nothing

def Instruction.deposit : Instruction → Deposit
  | .internal operation => operation.deposit
  | .portRead | .portWrite | .unimplemented => .nothing

/-- Decoding by fields gives every opcode the deposit that the table has for it. -/
theorem Instruction.deposit_decode (opcode : UInt8) :
    (decode opcode).deposit = .ofOpcode opcode := by
  rw [decode_eq]
  revert opcode
  apply forall_byte
  decide +kernel

namespace Z80

section Stores

variable (cpu : Z80)

/-- A word is put on the stack by storing its low byte and then its high byte. -/
theorem wordStores_onStack (word : UInt16) :
    wordStores (cpu.sp - 2) word = cpu.onStack word := by
  have above : cpu.sp - 2 + 1 = cpu.sp - 1 := by grind
  rw [wordStores, above]
  rfl

theorem wordStores_hl (address : UInt16) :
    wordStores address (cpu.pair .hl) = [(address, cpu.l), (address + 1, cpu.h)] := by
  simp only [wordStores, pair, Word.low_join, Word.high_join]

theorem stores_callIf (condition : Option Condition) :
    (if cpu.takes condition then wordStores (cpu.sp - 2) ((cpu.skip 1).pc + 2) else []) =
      cpu.deposited (.returnAddress 3 condition) := by
  have behind : (cpu.skip 1).pc + 2 = cpu.pc + 3 := cpu.pc_skip_word
  rw [behind, wordStores_onStack]
  rfl

/-- An operation whose opcode has been fetched stores what its deposit says. -/
theorem stores_skip (operation : Operation) :
    (cpu.skip 1).stores operation = cpu.deposited operation.deposit := by
  cases operation with
  | move target source =>
    have same : (cpu.skip 1).operand source = cpu.operand source := by cases source <;> rfl
    show (cpu.skip 1).storesTo target ((cpu.skip 1).operand source) = _
    rw [same]
    cases target <;> rfl
  | loadByte target | increment target | decrement target => cases target <;> rfl
  | storeA target =>
    cases target with
    | bc | de => rfl
    | immediate =>
      show [((cpu.skip 1).nextWord, cpu.a)] = _
      rw [nextWord_skip_one]
      rfl
  | storeHL =>
    show wordStores (cpu.skip 1).nextWord (cpu.pair .hl) = _
    rw [nextWord_skip_one, wordStores_hl]
    rfl
  | exchangeTop => exact cpu.wordStores_hl cpu.sp
  | push source =>
    show wordStores (cpu.sp - 2) ((cpu.skip 1).pair source) = _
    rw [pair_skip, wordStores_onStack]
    rfl
  | call => exact cpu.stores_callIf none
  | callIf condition =>
    show (if condition.holds cpu.f then _ else _) = _
    rw [Condition.holds_eq]
    exact cpu.stores_callIf (some condition)
  | restart => exact cpu.wordStores_onStack (cpu.pc + 1)
  | _ => rfl

end Stores

variable {State : Type} (cpu : Z80) (ports : Ports Z80 State) (state : State)

/-! ## Memory behind a step -/

theorem nextStores_eq :
    cpu.nextStores = cpu.deposited (Instruction.decode cpu.nextByte).deposit := by
  unfold nextStores
  cases Instruction.decode cpu.nextByte with
  | internal operation => exact cpu.stores_skip operation
  | portRead | portWrite | unimplemented => rfl

theorem memory_run_step :
    ((Processor.step cpu).run ports state).cpu.memory =
      cpu.memory.storeEach cpu.nextStores := by
  unfold nextStores
  cases decoded : Instruction.decode cpu.nextByte with
  | internal operation =>
    rw [session_internal decoded]
    exact (cpu.skip 1).memory_execute operation
  | portRead =>
    rw [session_portRead decoded]
    rfl
  | portWrite =>
    rw [session_portWrite decoded]
    rfl
  | unimplemented =>
    rw [session_unimplemented decoded]
    rfl

/-- Whatever the ports reply, one step puts into memory what the table says for the opcode at
the program counter, with the addresses and values of before the step. Every other byte is
as it was. -/
theorem memory_after_step :
    (∀ entry ∈ cpu.deposited (.ofOpcode cpu.nextByte),
        ((Processor.step cpu).run ports state).cpu.load entry.1 = entry.2) ∧
      ∀ address, (∀ entry ∈ cpu.deposited (.ofOpcode cpu.nextByte), address ≠ entry.1) →
        ((Processor.step cpu).run ports state).cpu.load address = cpu.load address := by
  unfold load
  rw [memory_run_step, nextStores_eq, Instruction.deposit_decode]
  constructor
  · intro entry member
    exact cpu.memory.load_storeEach_of_mem (cpu.deposited_different _) member
  · intro address elsewhere
    exact cpu.memory.load_storeEach_of_ne elsewhere

end Z80

end Cpm80
