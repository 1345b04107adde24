import Cpm80.Proofs.ByteLoop
import Cpm80.Proofs.RegisterFrame

/-!
Contract: the stack of a Z80, which wraps around the address space and may fill it.

Owns:
- lists of words that are pushed and taken off again, in memory and on the processor;
- a pair that is pushed for another one;
- calls and restarts with the returns that meet them.

The second instruction of two is the one that is at its address when the first is done. A
push may have put it there.

Does not own: memory that a program shares with its stack.
-/

namespace Cpm80

/-! ## Words below an address -/

/-- An address so far below another is not the same, unless that is once around. -/
theorem ne_sub_ofNat (address : UInt16) {distance : Nat} (positive : 0 < distance)
    (within : distance < addressSpace) : address ≠ address - UInt16.ofNat distance := by
  intro same
  have none : UInt16.ofNat distance = UInt16.ofNat 0 := by grind
  have wraps := congrArg UInt16.toNat none
  rw [UInt16.toNat_ofNat_of_lt' within, UInt16.toNat_ofNat_of_lt' (by decide)] at wraps
  omega

theorem sub_ofNat_sub (address : UInt16) (first second : Nat) :
    address - UInt16.ofNat first - UInt16.ofNat second =
      address - UInt16.ofNat (first + second) := by
  rw [UInt16.ofNat_add]
  grind

/-- One word more, counted from below it. -/
theorem sub_two_sub_ofNat (address : UInt16) (count : Nat) :
    address - 2 - UInt16.ofNat (2 * count) = address - UInt16.ofNat (2 * (count + 1)) := by
  rw [Nat.mul_succ, Nat.add_comm]
  exact sub_ofNat_sub address 2 (2 * count)

theorem add_two_add_ofNat (address : UInt16) (count : Nat) :
    address + 2 + UInt16.ofNat (2 * count) = address + UInt16.ofNat (2 * (count + 1)) := by
  rw [Nat.mul_succ, Nat.add_comm (2 * count)]
  exact add_ofNat_add address 2 (2 * count)

namespace Memory

/-- Memory behind words that were put below an address, each below the one before. -/
def pushAll (memory : Memory) (top : UInt16) : List UInt16 → Memory
  | [] => memory
  | word :: words => (memory.storeWord (top - 2) word).pushAll (top - 2) words

/-- So many words from an address upwards. -/
def stackWords (memory : Memory) (top : UInt16) : Nat → List UInt16
  | 0 => []
  | count + 1 => memory.loadWord top :: memory.stackWords (top + 2) count

variable (memory : Memory)

theorem stackWords_add (top : UInt16) (first second : Nat) :
    memory.stackWords top (first + second) =
      memory.stackWords top first ++
        memory.stackWords (top + UInt16.ofNat (2 * first)) second := by
  induction first generalizing top with
  | zero =>
    rw [Nat.zero_add]
    exact congrArg (memory.stackWords · second) (UInt16.add_zero top).symm
  | succ first inductionHypothesis =>
    rw [Nat.add_right_comm, stackWords, stackWords, inductionHypothesis, add_two_add_ofNat,
      List.cons_append]

theorem length_stackWords (top : UInt16) (count : Nat) :
    (memory.stackWords top count).length = count := by
  induction count generalizing top with
  | zero => rfl
  | succ count inductionHypothesis => rw [stackWords, List.length_cons, inductionHypothesis]

theorem take_stackWords (top : UInt16) {count whole : Nat} (within : count ≤ whole) :
    (memory.stackWords top whole).take count = memory.stackWords top count := by
  obtain ⟨rest, rfl⟩ := Nat.exists_eq_add_of_le within
  rw [stackWords_add]
  exact List.take_left' (memory.length_stackWords top count)

theorem load_pushAll_of_ne {top address : UInt16} {words : List UInt16}
    (outside : ∀ distance, 1 ≤ distance → distance ≤ 2 * words.length →
      address ≠ top - UInt16.ofNat distance) :
    (memory.pushAll top words).load address = memory.load address := by
  induction words generalizing memory top with
  | nil => rfl
  | cons word words inductionHypothesis =>
    rw [List.length_cons] at outside
    have low : address ≠ top - 2 := outside 2 (by decide) (by omega)
    have high : address ≠ top - 2 + 1 := by
      have above : top - 2 + 1 = top - UInt16.ofNat 1 := by grind
      rw [above]
      exact outside 1 (by decide) (by omega)
    rw [pushAll, inductionHypothesis, load_storeWord_of_ne _ low high]
    intro distance positive within
    have further : top - 2 - UInt16.ofNat distance = top - UInt16.ofNat (2 + distance) :=
      sub_ofNat_sub top 2 distance
    rw [further]
    exact outside _ (by omega) (by omega)

/-- The word that was put there first lies highest. As long as no more words follow than
there is room for, none of them comes back to it. -/
theorem loadWord_pushAll {top : UInt16} {words : List UInt16}
    (fits : words.length < 32768) :
    (memory.pushAll top words).loadWord top = memory.loadWord top := by
  have room : 2 * words.length < addressSpace - 1 := by
    unfold addressSpace
    omega
  have low : (memory.pushAll top words).load top = memory.load top := by
    apply load_pushAll_of_ne
    intro distance positive within
    exact ne_sub_ofNat top positive (by omega)
  have high : (memory.pushAll top words).load (top + 1) = memory.load (top + 1) := by
    apply load_pushAll_of_ne
    intro distance positive within
    have further : top - UInt16.ofNat distance = top + 1 - UInt16.ofNat (1 + distance) := by
      rw [← sub_ofNat_sub]
      grind
    rw [further]
    exact ne_sub_ofNat _ (by omega) (by omega)
  rw [loadWord, loadWord, low, high]

/-- Read upwards, the words are there in reverse. -/
theorem stackWords_pushAll (top : UInt16) {words : List UInt16}
    (fits : words.length ≤ 32768) :
    (memory.pushAll top words).stackWords (top - UInt16.ofNat (2 * words.length))
        words.length = words.reverse := by
  induction words generalizing memory top with
  | nil => rfl
  | cons word words inductionHypothesis =>
    rw [List.length_cons] at fits
    -- The words that come later lie below the first one.
    have below := inductionHypothesis (memory.storeWord (top - 2) word) (top - 2) (by omega)
    have first : (memory.pushAll top (word :: words)).loadWord (top - 2) = word := by
      rw [pushAll, loadWord_pushAll _ (by omega), loadWord_storeWord]
    have above : top - UInt16.ofNat (2 * (words.length + 1)) +
        UInt16.ofNat (2 * words.length) = top - 2 := by
      rw [← sub_two_sub_ofNat]
      grind
    rw [List.length_cons, stackWords_add, above, ← sub_two_sub_ofNat, List.reverse_cons]
    exact congrArg₂ (· ++ ·) below (congrArg (fun word => [word]) first)

end Memory

/-! ## Words on the stack of a processor -/

namespace Z80

/-- Pushes words one after the other. -/
def pushAll (cpu : Z80) (words : List UInt16) : Z80 :=
  words.foldl push cpu

/-- Takes so many words off the stack, in the order in which they come off. -/
def popAll (cpu : Z80) : Nat → List UInt16 × Z80
  | 0 => ([], cpu)
  | count + 1 =>
    let (words, rest) := cpu.drop.popAll count
    (cpu.top :: words, rest)

variable (cpu : Z80)

theorem pushAll_eq (words : List UInt16) :
    cpu.pushAll words =
      { cpu with
        sp := cpu.sp - UInt16.ofNat (2 * words.length)
        memory := cpu.memory.pushAll cpu.sp words } := by
  induction words generalizing cpu with
  | nil =>
    have stays : cpu.sp - UInt16.ofNat (2 * 0) = cpu.sp := UInt16.sub_zero cpu.sp
    rw [List.length_nil, stays]
    rfl
  | cons word words inductionHypothesis =>
    show (cpu.push word).pushAll words = _
    rw [inductionHypothesis, List.length_cons, ← sub_two_sub_ofNat]
    rfl

theorem popAll_eq (count : Nat) :
    cpu.popAll count =
      (cpu.memory.stackWords cpu.sp count,
        { cpu with sp := cpu.sp + UInt16.ofNat (2 * count) }) := by
  induction count generalizing cpu with
  | zero =>
    have stays : cpu.sp + UInt16.ofNat (2 * 0) = cpu.sp := UInt16.add_zero cpu.sp
    rw [stays]
    rfl
  | succ count inductionHypothesis =>
    rw [popAll, inductionHypothesis, ← add_two_add_ofNat]
    rfl

/-- As many words come off a stack as were put on it, the last one first, and fewer come off
in the same order. -/
theorem popAll_pushAll {words : List UInt16} (fits : words.length ≤ 32768) {count : Nat}
    (within : count ≤ words.length) :
    (cpu.pushAll words).popAll count =
      (words.reverse.take count,
        { cpu with
          sp := cpu.sp - UInt16.ofNat (2 * (words.length - count))
          memory := cpu.memory.pushAll cpu.sp words }) := by
  obtain ⟨rest, counted⟩ := Nat.exists_eq_add_of_le within
  have left : words.length - count = rest := by omega
  have raised : cpu.sp - UInt16.ofNat (2 * words.length) + UInt16.ofNat (2 * count) =
      cpu.sp - UInt16.ofNat (2 * rest) := by
    rw [counted, Nat.mul_add, UInt16.ofNat_add]
    grind
  rw [popAll_eq, pushAll_eq, raised, left, ← cpu.memory.stackWords_pushAll cpu.sp fits,
    Memory.take_stackWords _ _ within]

end Z80

/-! ## Opcodes -/

namespace Instruction

theorem decode_push (index : Fin 4) :
    decode (UInt8.ofNat (0xc5 + 16 * index.val)) = .internal (.push (.ofStackField index)) := by
  rw [decode_eq]
  revert index
  decide +kernel

theorem decode_pop (index : Fin 4) :
    decode (UInt8.ofNat (0xc1 + 16 * index.val)) = .internal (.pop (.ofStackField index)) := by
  rw [decode_eq]
  revert index
  decide +kernel

theorem decode_retIf (index : Fin 8) :
    decode (UInt8.ofNat (0xc0 + 8 * index.val)) = .internal (.retIf (.ofField index)) := by
  rw [decode_eq]
  revert index
  decide +kernel

theorem decode_restart (index : Fin 8) :
    decode (UInt8.ofNat (0xc7 + 8 * index.val)) = .internal (.restart index) := by
  rw [decode_eq]
  revert index
  decide +kernel

end Instruction

theorem RegisterPair.ofStackField_ne_sp (index : Fin 4) : ofStackField index ≠ .sp := by
  revert index
  decide

/-! ## Pairs through the stack -/

namespace Z80

open Processor (Runs)

variable {cpu : Z80}

/-- A word put on the stack is on top of it. -/
theorem top_push (word : UInt16) : (cpu.push word).top = word :=
  cpu.memory.loadWord_storeWord (cpu.sp - 2) word

/-- Taken off again it is left in memory, and the processor is as before. -/
theorem drop_push (word : UInt16) :
    (cpu.push word).drop = { cpu with memory := cpu.memory.storeWord (cpu.sp - 2) word } := by
  have back : cpu.sp - 2 + 2 = cpu.sp := UInt16.sub_add_cancel cpu.sp 2
  simp only [drop, push, storeWord, back]

theorem runs_push_pop {source target : RegisterPair}
    (first : Instruction.decode cpu.nextByte = .internal (.push source))
    (second : Instruction.decode
        ((cpu.memory.storeWord (cpu.sp - 2) (cpu.pair source)).load (cpu.pc + 1)) =
      .internal (.pop target)) :
    Runs 2 cpu
      ({ cpu with
        pc := cpu.pc + 2
        memory := cpu.memory.storeWord (cpu.sp - 2) (cpu.pair source) }.setPair target
          (cpu.pair source)) := by
  have behind : cpu.pc + 1 + 1 = cpu.pc + 2 := by grind
  refine Runs.internal rfl first ?_
  rw [execute, pair_skip]
  refine Runs.internal rfl second ?_
  show Runs 0 ((((cpu.skip 1).push (cpu.pair source)).skip 1).drop.setPair target
    ((cpu.skip 1).push (cpu.pair source)).top) _
  rw [top_push]
  have dropped : (((cpu.skip 1).push (cpu.pair source)).skip 1).drop =
      { cpu with
        pc := cpu.pc + 2
        memory := cpu.memory.storeWord (cpu.sp - 2) (cpu.pair source) } := by
    show { ((cpu.skip 1).push (cpu.pair source)).drop with pc := cpu.pc + 1 + 1 } = _
    rw [drop_push, behind]
    rfl
  rw [dropped]
  exact .done _

/-! ## Calls and returns -/

/-- Whether the instruction at the program counter calls: to which target, and from before
which address. -/
inductive CallsTo (cpu : Z80) : UInt16 → UInt16 → Prop where
  | call (opcode : cpu.nextByte = 0xcd) : CallsTo cpu cpu.operandWord (cpu.pc + 3)
  | callIf (index : Fin 8) (opcode : cpu.nextByte = UInt8.ofNat (0xc4 + 8 * index.val))
      (holds : (Condition.ofField index).holds cpu.f = true) :
      CallsTo cpu cpu.operandWord (cpu.pc + 3)
  | restart (index : Fin 8) (opcode : cpu.nextByte = UInt8.ofNat (0xc7 + 8 * index.val)) :
      CallsTo cpu (UInt16.ofNat (8 * index.val)) (cpu.pc + 1)

/-- Whether an opcode returns, with these flags. -/
inductive Returns (flags : Flags) : UInt8 → Prop where
  | ret : Returns flags 0xc9
  | retIf (index : Fin 8) (holds : (Condition.ofField index).holds flags = true) :
      Returns flags (UInt8.ofNat (0xc0 + 8 * index.val))

theorem branchCall_skip_one :
    (cpu.skip 1).branchCall true = (cpu.push (cpu.pc + 3)).goTo cpu.operandWord := by
  have behind : (cpu.skip 1).pc + 2 = cpu.pc + 3 := cpu.pc_skip_word
  show ((cpu.skip 1).push ((cpu.skip 1).pc + 2)).goTo (cpu.skip 1).nextWord = _
  rw [behind, nextWord_skip_one]
  rfl

theorem CallsTo.step {target behind : UInt16} (calls : cpu.CallsTo target behind) :
    Processor.step cpu = .finished ((cpu.push behind).goTo target) none := by
  cases calls with
  | call opcode =>
    have decoded : Instruction.decode cpu.nextByte = .internal .call := by
      rw [opcode, Instruction.decode_call]
    rw [session_internal decoded, execute, branchCall_skip_one]
  | callIf index opcode holds =>
    have decoded : Instruction.decode cpu.nextByte = .internal (.callIf (.ofField index)) := by
      rw [opcode, Instruction.decode_callIf]
    rw [session_internal decoded, execute]
    have taken : (Condition.ofField index).holds (cpu.skip 1).f = true := holds
    rw [taken, branchCall_skip_one]
  | restart index opcode =>
    have decoded : Instruction.decode cpu.nextByte = .internal (.restart index) := by
      rw [opcode, Instruction.decode_restart]
    rw [session_internal decoded]
    rfl

theorem Returns.step (returns : Returns cpu.f cpu.nextByte) :
    Processor.step cpu = .finished (cpu.drop.goTo cpu.top) none := by
  generalize byte : cpu.nextByte = opcode at returns
  cases returns with
  | ret =>
    have decoded : Instruction.decode cpu.nextByte = .internal .ret := by
      rw [byte, Instruction.decode_ret]
    rw [session_internal decoded]
    rfl
  | retIf index holds =>
    have decoded : Instruction.decode cpu.nextByte = .internal (.retIf (.ofField index)) := by
      rw [byte, Instruction.decode_retIf]
    rw [session_internal decoded, execute]
    have taken : (Condition.ofField index).holds (cpu.skip 1).f = true := holds
    rw [taken]
    rfl

theorem CallsTo.runs_returns {target behind : UInt16} (calls : cpu.CallsTo target behind)
    (returns : Returns cpu.f ((cpu.memory.storeWord (cpu.sp - 2) behind).load target)) :
    Runs 2 cpu
      { cpu with
        pc := behind
        memory := cpu.memory.storeWord (cpu.sp - 2) behind } := by
  have back : Processor.step ((cpu.push behind).goTo target) =
      .finished
        ((((cpu.push behind).goTo target).drop).goTo ((cpu.push behind).goTo target).top) none :=
    Returns.step returns
  have on : ((cpu.push behind).goTo target).top = behind := top_push behind
  have dropped : (((cpu.push behind).goTo target).drop).goTo behind =
      { cpu with
        pc := behind
        memory := cpu.memory.storeWord (cpu.sp - 2) behind } := by
    show ((cpu.push behind).drop).goTo behind = _
    rw [drop_push]
    rfl
  rw [on, dropped] at back
  exact .step calls.step (.step back (.done _))

/-! ## Last in, first out -/

/-- The stack gives back what was put on it last, up to the 32768 words that there is room
for, wherever it starts. Nothing but the stack pointer and the bytes just below it changes.

A pair that is pushed for another one gets there whole. A call or restart that meets a
return goes on behind the calling instruction. Both leave the stack pointer and all other
registers as before. -/
theorem stack_discipline (cpu : Z80) :
    (∀ words : List UInt16, words.length ≤ 32768 →
      ∃ memory : Memory,
        cpu.pushAll words =
            { cpu with
              sp := cpu.sp - UInt16.ofNat (2 * words.length)
              memory := memory } ∧
          (cpu.pushAll words).popAll words.length =
            (words.reverse, { cpu with memory := memory }) ∧
          (∀ count ≤ words.length,
            (cpu.pushAll words).popAll count =
              (words.reverse.take count,
                { cpu with
                  sp := cpu.sp - UInt16.ofNat (2 * (words.length - count))
                  memory := memory })) ∧
          ∀ address, (∀ distance, 1 ≤ distance → distance ≤ 2 * words.length →
              address ≠ cpu.sp - UInt16.ofNat distance) →
            memory.load address = cpu.memory.load address) ∧
      (∀ source target : Fin 4,
        cpu.nextByte = UInt8.ofNat (0xc5 + 16 * source.val) →
        (cpu.memory.storeWord (cpu.sp - 2) (cpu.pair (.ofStackField source))).load (cpu.pc + 1) =
            UInt8.ofNat (0xc1 + 16 * target.val) →
        ∃ finish : Z80,
          Runs 2 cpu finish ∧
            finish.pair (.ofStackField target) = cpu.pair (.ofStackField source) ∧
            finish.sp = cpu.sp ∧ finish.pc = cpu.pc + 2 ∧
            finish.memory =
              cpu.memory.storeWord (cpu.sp - 2) (cpu.pair (.ofStackField source)) ∧
            ∀ component ∉ (RegisterPair.ofStackField target).components,
              finish.component component = cpu.component component) ∧
      ∀ target behind : UInt16, cpu.CallsTo target behind →
        Returns cpu.f ((cpu.memory.storeWord (cpu.sp - 2) behind).load target) →
        Runs 2 cpu
          { cpu with
            pc := behind
            memory := cpu.memory.storeWord (cpu.sp - 2) behind } := by
  refine ⟨?words, ?pairs, fun _ _ calls returns => calls.runs_returns returns⟩
  case words =>
    intro words fits
    refine ⟨_, cpu.pushAll_eq words, ?_, fun count within => cpu.popAll_pushAll fits within,
      fun address outside => cpu.memory.load_pushAll_of_ne outside⟩
    have whole := cpu.popAll_pushAll fits (Nat.le_refl words.length)
    have stays : cpu.sp - UInt16.ofNat (2 * 0) = cpu.sp := UInt16.sub_zero cpu.sp
    rwa [List.take_of_length_le (by rw [List.length_reverse]), Nat.sub_self, stays] at whole
  case pairs =>
    intro source target first second
    refine ⟨_, runs_push_pop ?_ ?_, pair_setPair _ _ _,
      sp_setPair _ (RegisterPair.ofStackField_ne_sp target), pc_setPair _ _,
      memory_setPair _ _, ?_⟩
    · rw [first, Instruction.decode_push]
    · rw [second, Instruction.decode_pop]
    · intro component kept
      rw [component_setPair _ _ kept]
      cases component <;> rfl

/-- A processor whose stack lies across the end of the address space, at a piece of code. -/
def acrossEnd (code : List UInt8) : Z80 :=
  { fresh with sp := 0x0001, pc := 0x1000, memory := Memory.zeroed.storeAll 0x1000 code }

theorem stack_discipline_acrossEnd :
    (((acrossEnd []).pushAll ((List.range 32768).map UInt16.ofNat)).popAll 32768).1 =
        ((List.range 32768).map UInt16.ofNat).reverse ∧
      -- PUSH AF and POP BC
      (∃ finish, Runs 2 (acrossEnd [0xf5, 0xc1]) finish ∧ finish.pair .bc = 0xffff ∧
        finish.sp = 0x0001 ∧ finish.component .a = 0xff) ∧
      -- CALL Z and RET C, one byte behind it
      ∃ finish, Runs 2 (acrossEnd [0xcc, 0x04, 0x10, 0x00, 0xd8]) finish ∧
        finish.pc = 0x1003 ∧ finish.sp = 0x0001 := by
  have pushed (code : List UInt8) (word address : UInt16) (low : address ≠ 0xffff)
      (high : address ≠ 0x0000) :
      ((acrossEnd code).memory.storeWord ((acrossEnd code).sp - 2) word).load address =
        (acrossEnd code).memory.load address := by
    have around : (0x0001 : UInt16) - 2 = 0xffff ∧ (0xffff : UInt16) + 1 = 0x0000 := by decide
    show ((acrossEnd code).memory.storeWord (0x0001 - 2) word).load address = _
    rw [around.1]
    exact Memory.load_storeWord_of_ne _ low (around.2 ▸ high)
  refine ⟨?words, ?pairs, ?calls⟩
  case words =>
    obtain ⟨words, -⟩ := stack_discipline (acrossEnd [])
    have length : ((List.range 32768).map UInt16.ofNat).length = 32768 := by
      rw [List.length_map, List.length_range]
    obtain ⟨memory, -, back, -⟩ := words ((List.range 32768).map UInt16.ofNat) length.le
    rw [length] at back
    rw [back]
  case pairs =>
    obtain ⟨-, pairs, -⟩ := stack_discipline (acrossEnd [0xf5, 0xc1])
    obtain ⟨finish, runs, moved, sp, -, -, kept⟩ := pairs 3 0
      (Memory.load_storeAll _ _ _ _ (by decide))
      ((pushed _ _ _ (by decide) (by decide)).trans (Memory.load_storeAll _ _ _ _ (by decide)))
    exact ⟨finish, runs, moved.trans (by decide), sp, (kept .a (by decide)).trans rfl⟩
  case calls =>
    obtain ⟨-, -, calls⟩ := stack_discipline (acrossEnd [0xcc, 0x04, 0x10, 0x00, 0xd8])
    have target : (acrossEnd [0xcc, 0x04, 0x10, 0x00, 0xd8]).operandWord = 0x1004 :=
      congrArg₂ Word.join (Memory.load_storeAll _ _ _ _ (by decide))
        (Memory.load_storeAll _ _ _ _ (by decide))
    have back := calls _ _
      (.callIf 1 (Memory.load_storeAll _ _ _ _ (by decide)) (by decide))
    rw [target, pushed _ _ _ (by decide) (by decide)] at back
    have opcode : (acrossEnd [0xcc, 0x04, 0x10, 0x00, 0xd8]).memory.load 0x1004 = 0xd8 :=
      Memory.load_storeAll _ _ _ _ (by decide)
    rw [opcode] at back
    exact ⟨_, back (.retIf 3 (by decide)), rfl, rfl⟩

end Z80

end Cpm80
