import Cpm80.Proofs.Correspondence
import Cpm80.Proofs.Stepping

/-!
Contract: which bytes of memory an instruction reads, and which it writes.

Owns:
- the addresses that an operation loads from, operand bytes first, and the bytes that it
  stores, each with its address and in the order of storing;
- a processor with another memory: an operation does the same with it as long as the two
  memories agree on what is read;
- the same for whole steps, system calls included.

Both lists are for a processor that has fetched the opcode, as the effect of an operation
is. The opcode itself is read by the step.

Does not own: steps that follow each other.
-/

namespace Cpm80

/-! ## Stores one after the other -/

namespace Memory

/-- Memory with single bytes stored, the first of a list first. -/
def storeEach (memory : Memory) (stores : List (UInt16 × UInt8)) : Memory :=
  stores.foldl (fun memory entry => memory.store entry.1 entry.2) memory

/-- The same stores make two memories agree wherever they go, and leave alone the addresses
where the two agreed before. -/
theorem load_storeEach_congr {left right : Memory} {stores : List (UInt16 × UInt8)}
    {address : UInt16}
    (agree : left.load address = right.load address ∨ ∃ value, (address, value) ∈ stores) :
    (left.storeEach stores).load address = (right.storeEach stores).load address := by
  induction stores generalizing left right with
  | nil =>
    obtain same | ⟨_, member⟩ := agree
    · exact same
    · contradiction
  | cons entry stores inductionHypothesis =>
    apply inductionHypothesis
    rw [load_store, load_store]
    by_cases here : address = entry.1
    · exact .inl (by rw [if_pos here, if_pos here])
    · rw [if_neg here, if_neg here]
      obtain same | ⟨value, member⟩ := agree
      · exact .inl same
      · rcases List.mem_cons.1 member with rfl | later
        · exact absurd rfl here
        · exact .inr ⟨value, later⟩

theorem load_storeEach_of_ne (memory : Memory) {stores : List (UInt16 × UInt8)}
    {address : UInt16} (elsewhere : ∀ entry ∈ stores, address ≠ entry.1) :
    (memory.storeEach stores).load address = memory.load address := by
  induction stores generalizing memory with
  | nil => rfl
  | cons entry stores inductionHypothesis =>
    rw [List.forall_mem_cons] at elsewhere
    show ((memory.store entry.1 entry.2).storeEach stores).load address = _
    rw [inductionHypothesis _ elsewhere.2, load_store_other _ _ elsewhere.1]

/-- The addresses of a word. -/
def wordAt (address : UInt16) : List UInt16 :=
  [address, address + 1]

theorem loadWord_congr {left right : Memory} {address : UInt16}
    (agree : ∀ part ∈ wordAt address, left.load part = right.load part) :
    left.loadWord address = right.loadWord address := by
  rw [loadWord, loadWord, agree address (by simp [wordAt]), agree (address + 1) (by simp [wordAt])]

end Memory

/-! ## Footprints of operations -/

/-- How many operand bytes stand behind the opcode of an operation. A branch reads them
whether it is taken or not. -/
def Operation.operandBytes : Operation → Nat
  | .loadByte _ | .accumulateByte _ | .jumpRelative | .jumpRelativeIf _ | .decrementJump => 1
  | .loadPair _ | .loadA .immediate | .storeA .immediate | .loadHL | .storeHL | .jump
  | .jumpIf _ | .call | .callIf _ => 2
  | _ => 0

namespace Z80

def loadsFrom (cpu : Z80) : Operand → List UInt16
  | .atHL => [cpu.pair .hl]
  | _ => []

/-- The addresses that the addressing mode of an operation loads from. -/
def loads (cpu : Z80) : Operation → List UInt16
  | .move _ source | .accumulate _ source => cpu.loadsFrom source
  | .increment target | .decrement target => cpu.loadsFrom target
  | .loadA .bc => [cpu.pair .bc]
  | .loadA .de => [cpu.pair .de]
  | .loadA .immediate => [cpu.nextWord]
  | .loadHL => Memory.wordAt cpu.nextWord
  | .pop _ | .ret | .exchangeTop => Memory.wordAt cpu.sp
  | .retIf condition => if condition.holds cpu.f then Memory.wordAt cpu.sp else []
  | _ => []

/-- The addresses that an operation reads. -/
def reads (cpu : Z80) (operation : Operation) : List UInt16 :=
  (List.range operation.operandBytes).map (cpu.pc + UInt16.ofNat ·) ++ cpu.loads operation

def storesTo (cpu : Z80) (target : Operand) (value : UInt8) : List (UInt16 × UInt8) :=
  match target with
  | .atHL => [(cpu.pair .hl, value)]
  | _ => []

/-- The stores of a word, its low byte first. -/
def wordStores (address value : UInt16) : List (UInt16 × UInt8) :=
  [(address, Word.low value), (address + 1, Word.high value)]

/-- The bytes that an operation stores. -/
def stores (cpu : Z80) : Operation → List (UInt16 × UInt8)
  | .move target source => cpu.storesTo target (cpu.operand source)
  | .loadByte target => cpu.storesTo target cpu.nextByte
  | .increment target => cpu.storesTo target (cpu.operand target + 1)
  | .decrement target => cpu.storesTo target (cpu.operand target - 1)
  | .storeA .bc => [(cpu.pair .bc, cpu.a)]
  | .storeA .de => [(cpu.pair .de, cpu.a)]
  | .storeA .immediate => [(cpu.nextWord, cpu.a)]
  | .storeHL => wordStores cpu.nextWord (cpu.pair .hl)
  | .exchangeTop => wordStores cpu.sp (cpu.pair .hl)
  | .push source => wordStores (cpu.sp - 2) (cpu.pair source)
  | .call => wordStores (cpu.sp - 2) (cpu.pc + 2)
  | .callIf condition =>
    if condition.holds cpu.f then wordStores (cpu.sp - 2) (cpu.pc + 2) else []
  | .restart _ => wordStores (cpu.sp - 2) cpu.pc
  | _ => []

/-! ## Another memory -/

/-- A processor with another memory in place of its own. -/
def withMemory (cpu : Z80) (memory : Memory) : Z80 :=
  { cpu with memory := memory }

@[simp]
theorem memory_withMemory (cpu : Z80) (memory : Memory) : (cpu.withMemory memory).memory = memory :=
  rfl

section Views

variable {cpu : Z80} {memory : Memory}

theorem operand_withMemory {source : Operand}
    (agree : ∀ address ∈ cpu.loadsFrom source, memory.load address = cpu.memory.load address) :
    (cpu.withMemory memory).operand source = cpu.operand source := by
  cases source
  case atHL => exact agree _ (List.mem_singleton_self _)
  all_goals rfl

theorem top_withMemory
    (agree : ∀ address ∈ Memory.wordAt cpu.sp, memory.load address = cpu.memory.load address) :
    (cpu.withMemory memory).top = cpu.top :=
  Memory.loadWord_congr agree

theorem setOperand_withMemory (target : Operand) (value : UInt8) :
    (cpu.withMemory memory).setOperand target value =
      (cpu.setOperand target value).withMemory (memory.storeEach (cpu.storesTo target value)) := by
  cases target <;> rfl

theorem setPair_withMemory (target : RegisterPair) (value : UInt16) :
    (cpu.withMemory memory).setPair target value =
      (cpu.setPair target value).withMemory memory := by
  cases target <;> rfl

theorem update_withMemory (target : Operand) (result : UInt8 × Flags) :
    (cpu.withMemory memory).update target result =
      (cpu.update target result).withMemory (memory.storeEach (cpu.storesTo target result.1)) := by
  cases target <;> rfl

theorem loadA_withMemory {source : Pointer}
    (word : source = .immediate → (cpu.withMemory memory).nextWord = cpu.nextWord)
    (agree : ∀ address ∈ cpu.loads (.loadA source),
      memory.load address = cpu.memory.load address) :
    (cpu.withMemory memory).loadA source = (cpu.loadA source).withMemory memory := by
  cases source with
  | bc =>
    show { cpu.withMemory memory with a := memory.load (cpu.pair .bc) } = _
    rw [agree _ (List.mem_singleton_self _)]
    rfl
  | de =>
    show { cpu.withMemory memory with a := memory.load (cpu.pair .de) } = _
    rw [agree _ (List.mem_singleton_self _)]
    rfl
  | immediate =>
    show { (cpu.skip 2).withMemory memory with
      a := memory.load (cpu.withMemory memory).nextWord } = _
    rw [word rfl, agree _ (List.mem_singleton_self _)]
    rfl

theorem storeA_withMemory {target : Pointer}
    (word : target = .immediate → (cpu.withMemory memory).nextWord = cpu.nextWord) :
    (cpu.withMemory memory).storeA target =
      (cpu.storeA target).withMemory (memory.storeEach (cpu.stores (.storeA target))) := by
  cases target with
  | bc | de => rfl
  | immediate =>
    show ((cpu.skip 2).withMemory memory).store (cpu.withMemory memory).nextWord cpu.a = _
    rw [word rfl]
    rfl

theorem branchRelative_withMemory (byte : (cpu.withMemory memory).nextByte = cpu.nextByte)
    (taken : Bool) :
    (cpu.withMemory memory).branchRelative taken =
      (cpu.branchRelative taken).withMemory memory := by
  unfold branchRelative
  rw [byte]
  cases taken <;> rfl

theorem branch_withMemory (word : (cpu.withMemory memory).nextWord = cpu.nextWord)
    (taken : Bool) :
    (cpu.withMemory memory).branch taken = (cpu.branch taken).withMemory memory := by
  unfold branch
  rw [word]
  cases taken <;> rfl

theorem branchCall_withMemory (word : (cpu.withMemory memory).nextWord = cpu.nextWord)
    (taken : Bool) :
    (cpu.withMemory memory).branchCall taken =
      (cpu.branchCall taken).withMemory
        (memory.storeEach (if taken then wordStores (cpu.sp - 2) (cpu.pc + 2) else [])) := by
  unfold branchCall
  rw [word]
  cases taken <;> rfl

theorem branchReturn_withMemory {taken : Bool}
    (agree : ∀ address ∈ if taken then Memory.wordAt cpu.sp else [],
      memory.load address = cpu.memory.load address) :
    (cpu.withMemory memory).branchReturn taken = (cpu.branchReturn taken).withMemory memory := by
  cases taken with
  | false => rfl
  | true =>
    show (cpu.withMemory memory).drop.goTo (cpu.withMemory memory).top = _
    rw [top_withMemory agree]
    rfl

end Views

/-- What an operation makes of a processor, it makes of one with another memory, as long as
the two memories agree on what is read. The stores are the same. -/
theorem execute_withMemory (cpu : Z80) (memory : Memory) {operation : Operation}
    (agree : ∀ address ∈ cpu.reads operation, memory.load address = cpu.memory.load address) :
    (cpu.withMemory memory).execute operation =
      (cpu.execute operation).withMemory (memory.storeEach (cpu.stores operation)) := by
  have loaded : ∀ address ∈ cpu.loads operation,
      memory.load address = cpu.memory.load address :=
    fun address member => agree address (List.mem_append_right _ member)
  have operandByte {offset : Nat} (inside : offset < operation.operandBytes) :
      memory.load (cpu.pc + UInt16.ofNat offset) = cpu.memory.load (cpu.pc + UInt16.ofNat offset) :=
    agree _ (List.mem_append_left _ (List.mem_map_of_mem (List.mem_range.2 inside)))
  have byte (one : 0 < operation.operandBytes) :
      (cpu.withMemory memory).nextByte = cpu.nextByte := by
    show memory.load cpu.pc = cpu.memory.load cpu.pc
    simpa using operandByte one
  have word (two : 1 < operation.operandBytes) :
      (cpu.withMemory memory).nextWord = cpu.nextWord := by
    apply Memory.loadWord_congr
    intro part member
    simp only [Memory.wordAt, List.mem_cons, List.not_mem_nil, or_false] at member
    rcases member with rfl | rfl
    · exact byte (Nat.zero_lt_of_lt two)
    · exact operandByte two
  cases operation with
  | nop | halt | disableInterrupts | enableInterrupts | exchangeAF | exchangeAll
  | exchangeDEHL | loadStackPointer | jumpHL | restart | adjust => rfl
  | incrementPair target | decrementPair target => exact setPair_withMemory target _
  | addHL source | push source => cases source <;> rfl
  | exchangeTop =>
    show (((cpu.withMemory memory).storeWord cpu.sp (cpu.pair .hl)).setPair .hl
      (cpu.withMemory memory).top) = _
    rw [top_withMemory loaded]
    rfl
  | move target source =>
    show (cpu.withMemory memory).setOperand target ((cpu.withMemory memory).operand source) = _
    rw [operand_withMemory loaded]
    exact setOperand_withMemory target _
  | loadByte target =>
    show ((cpu.skip 1).withMemory memory).setOperand target (cpu.withMemory memory).nextByte = _
    rw [byte Nat.one_pos]
    exact setOperand_withMemory target _
  | loadPair target =>
    show ((cpu.skip 2).withMemory memory).setPair target (cpu.withMemory memory).nextWord = _
    rw [word Nat.one_lt_two]
    exact setPair_withMemory target _
  | loadA source =>
    refine loadA_withMemory ?_ loaded
    rintro rfl
    exact word Nat.one_lt_two
  | storeA target =>
    apply storeA_withMemory
    rintro rfl
    exact word Nat.one_lt_two
  | loadHL =>
    have loadedWord : memory.loadWord cpu.nextWord = cpu.memory.loadWord cpu.nextWord :=
      Memory.loadWord_congr loaded
    show ((cpu.skip 2).withMemory memory).setPair .hl
      (memory.loadWord (cpu.withMemory memory).nextWord) = _
    rw [word Nat.one_lt_two, loadedWord]
    rfl
  | storeHL =>
    show ((cpu.skip 2).withMemory memory).storeWord (cpu.withMemory memory).nextWord
      (cpu.pair .hl) = _
    rw [word Nat.one_lt_two]
    rfl
  | increment target =>
    show (cpu.withMemory memory).update target
      (Arithmetic.increment ((cpu.withMemory memory).operand target) cpu.f) = _
    rw [operand_withMemory loaded]
    exact update_withMemory target _
  | decrement target =>
    show (cpu.withMemory memory).update target
      (Arithmetic.decrement ((cpu.withMemory memory).operand target) cpu.f) = _
    rw [operand_withMemory loaded]
    exact update_withMemory target _
  | accumulate accumulation source =>
    show (cpu.withMemory memory).setAccumulator (Arithmetic.accumulate accumulation cpu.a
      ((cpu.withMemory memory).operand source) cpu.f) = _
    rw [operand_withMemory loaded]
    rfl
  | accumulateByte accumulation =>
    show ((cpu.withMemory memory).skip 1).setAccumulator (Arithmetic.accumulate accumulation cpu.a
      (cpu.withMemory memory).nextByte cpu.f) = _
    rw [byte Nat.one_pos]
    rfl
  | pop target =>
    show (cpu.drop.withMemory memory).setPair target (cpu.withMemory memory).top = _
    rw [top_withMemory loaded]
    exact setPair_withMemory target _
  | jumpRelative => exact branchRelative_withMemory (byte Nat.one_pos) true
  | jumpRelativeIf condition => exact branchRelative_withMemory (byte Nat.one_pos) _
  | decrementJump =>
    have oneLess : ({ cpu with b := cpu.b - 1 }.withMemory memory).nextByte =
        { cpu with b := cpu.b - 1 }.nextByte := byte Nat.one_pos
    exact branchRelative_withMemory oneLess _
  | jump => exact branch_withMemory (word Nat.one_lt_two) true
  | jumpIf condition => exact branch_withMemory (word Nat.one_lt_two) _
  | call => exact branchCall_withMemory (word Nat.one_lt_two) true
  | callIf condition => exact branchCall_withMemory (word Nat.one_lt_two) _
  | ret => exact branchReturn_withMemory loaded
  | retIf condition => exact branchReturn_withMemory loaded

/-- Memory after an operation is memory with the stores of the operation. -/
theorem memory_execute (cpu : Z80) (operation : Operation) :
    (cpu.execute operation).memory = cpu.memory.storeEach (cpu.stores operation) :=
  congrArg Z80.memory (cpu.execute_withMemory cpu.memory fun _ _ => rfl)

/-! ## Footprints of steps -/

/-- Whether an instruction reads an address behind its opcode, at which the processor still
is. The system call that prints a string reads the string too, up to the terminator. -/
def ReadsBehind (cpu : Z80) (address : UInt16) : Instruction → Prop
  | .internal operation => address ∈ (cpu.skip 1).reads operation
  | .portRead => address = cpu.pc + 1 ∨ cpu.c = 9 ∧ cpu.memory.Scans (cpu.pair .de) 100 address
  | .portWrite => address = cpu.pc + 1
  | .unimplemented => False

/-- Whether the next step reads an address: the opcode, or what the instruction reads. -/
def Reads (cpu : Z80) (address : UInt16) : Prop :=
  address = cpu.pc ∨ cpu.ReadsBehind address (Instruction.decode cpu.nextByte)

/-- The bytes that the next step stores. -/
def nextStores (cpu : Z80) : List (UInt16 × UInt8) :=
  match Instruction.decode cpu.nextByte with
  | .internal operation => (cpu.skip 1).stores operation
  | .portRead | .portWrite | .unimplemented => []

def Writes (cpu : Z80) (address : UInt16) : Prop :=
  ∃ value, (address, value) ∈ cpu.nextStores

/-- Whether two processors differ in nothing but their memories. -/
def SameRegisters (left right : Z80) : Prop :=
  right = left.withMemory right.memory

theorem SameRegisters.withMemory (cpu : Z80) (memory : Memory) :
    SameRegisters cpu (cpu.withMemory memory) :=
  rfl

/-- Whether two processors have the same byte at an address. -/
def SameByte (left right : Z80) (address : UInt16) : Prop :=
  left.memory.load address = right.memory.load address

/-- What a step makes of two processors that had the same registers: they still have, and
the same bytes are wherever they were, and wherever the first has written. -/
structure SameEffect (left right leftNow rightNow : Z80) : Prop where
  registers : SameRegisters leftNow rightNow
  bytes : ∀ address, SameByte left right address ∨ left.Writes address →
    SameByte leftNow rightNow address

theorem SameEffect.of_stores {left leftNow rightNow : Z80} {memory : Memory}
    (stored : leftNow.memory = left.memory.storeEach left.nextStores)
    (alike : rightNow = leftNow.withMemory (memory.storeEach left.nextStores)) :
    SameEffect left (left.withMemory memory) leftNow rightNow := by
  subst alike
  constructor
  case registers => exact .withMemory leftNow _
  case bytes =>
    intro address agree
    rw [SameByte, stored, memory_withMemory]
    exact Memory.load_storeEach_congr agree

theorem SameEffect.of_unstored {left leftNow : Z80} {memory : Memory}
    (unstored : left.nextStores = []) (kept : leftNow.memory = left.memory) :
    SameEffect left (left.withMemory memory) leftNow (leftNow.withMemory memory) := by
  apply SameEffect.of_stores <;> rw [unstored]
  case stored => exact kept
  case alike => rfl

/-- A system call asks for the same, as long as the two memories agree on the string that it
is to print. -/
theorem requested_withMemory {cpu : Z80} {memory : Memory}
    (agree : cpu.c = 9 → ∀ address, cpu.memory.Scans (cpu.pair .de) 100 address →
      cpu.memory.load address = memory.load address) :
    requested cpu = requested (cpu.withMemory memory) := by
  rw [requested_eq, requested_eq]
  show (if cpu.c = 2 then [cpu.e]
      else if cpu.c = 9 then cpu.memory.string (cpu.pair .de) else []) =
    if cpu.c = 2 then [cpu.e] else if cpu.c = 9 then memory.string (cpu.pair .de) else []
  by_cases function : cpu.c = 9
  · have string : cpu.memory.string (cpu.pair .de) = memory.string (cpu.pair .de) :=
      Memory.takeWhile_read_congr (agree function)
    rw [string]
  · rw [if_neg function, if_neg function]

/-- Processors with the same registers ask the same of their hosts and store the same bytes,
as long as the same bytes are where the first reads. -/
theorem SameRegisters.step {left right : Z80} (same : SameRegisters left right)
    (agree : ∀ address, left.Reads address → SameByte left right address) :
    Session.Corresponds (SameEffect left right) (Processor.step left) (Processor.step right) := by
  obtain ⟨memory, rfl⟩ : ∃ memory, right = left.withMemory memory := ⟨right.memory, same⟩
  have opcode : left.nextByte = (left.withMemory memory).nextByte := agree left.pc (.inl rfl)
  have behind {instruction : Instruction} {address : UInt16}
      (decoded : Instruction.decode left.nextByte = instruction)
      (read : left.ReadsBehind address instruction) :
      left.memory.load address = memory.load address := by
    apply agree
    rw [Reads, decoded]
    exact .inr read
  cases decoded : Instruction.decode left.nextByte with
  | internal operation =>
    have stores : left.nextStores = (left.skip 1).stores operation := by
      unfold nextStores
      rw [decoded]
    rw [session_internal decoded, session_internal (opcode ▸ decoded)]
    refine .finished none (.of_stores ?stored ?alike) <;> rw [stores]
    case stored => exact memory_execute (left.skip 1) operation
    case alike =>
      exact execute_withMemory (left.skip 1) memory fun address read => (behind decoded read).symm
  | portRead =>
    have unstored : left.nextStores = [] := by
      unfold nextStores
      rw [decoded]
    have port : left.port = (left.withMemory memory).port :=
      congrArg (Word.join left.a) (behind decoded (.inl rfl))
    have asks : requested (left.skip 2) = requested ((left.skip 2).withMemory memory) :=
      requested_withMemory fun function address scans => behind decoded (.inr ⟨function, scans⟩)
    rw [session_portRead decoded, session_portRead (opcode ▸ decoded), port]
    exact .portRead _ asks fun reply => .finished none (.of_unstored unstored rfl)
  | portWrite =>
    have unstored : left.nextStores = [] := by
      unfold nextStores
      rw [decoded]
    have port : left.port = (left.withMemory memory).port :=
      congrArg (Word.join left.a) (behind decoded rfl)
    rw [session_portWrite decoded, session_portWrite (opcode ▸ decoded), port]
    exact .portWrite _ _ (.finished none (.of_unstored unstored rfl))
  | unimplemented =>
    have unstored : left.nextStores = [] := by
      unfold nextStores
      rw [decoded]
    rw [session_unimplemented decoded, session_unimplemented (opcode ▸ decoded), opcode]
    exact .finished _ (.of_unstored unstored rfl)

end Z80

end Cpm80
