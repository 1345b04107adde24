import Cpm80.Proofs.Loading
import Cpm80.Proofs.SystemCall

/-!
Contract: programs that do nothing but print, from their source to the console.

Owns:
- print requests, their machine code, and the text that each one asks for;
- a machine at some code that neither the stack nor the trap gets into;
- the run of a printing program, instruction count and console included.

The stack of such a program never holds more than one return address, in the two
bytes below the top of memory. Code may not reach that far, and no string may be
looked for there.

Does not own: programs that compute what they print.
-/

namespace Cpm80

/-! ## Requests -/

/-- One thing to print: a character, or the string at an address. -/
inductive PrintRequest where
  | character (byte : UInt8)
  | string (address : UInt16)
deriving DecidableEq, Repr

namespace PrintRequest

/-- LD C,2 and LD E,byte, or LD C,9 and LD DE,address; then CALL 5. -/
def code : PrintRequest → List UInt8
  | .character byte => [0x0e, 0x02, 0x1e, byte, 0xcd, 0x05, 0x00]
  | .string address =>
    [0x0e, 0x09, 0x11, Word.low address, Word.high address, 0xcd, 0x05, 0x00]

/-- The bytes that a request asks for, with strings read from a memory. -/
def text (memory : Memory) : PrintRequest → List UInt8
  | .character byte => [byte]
  | .string address => memory.string address

/-- Whether the search of a request for the end of its string leaves the two bytes
of the return address alone. -/
def MissesStack (memory : Memory) : PrintRequest → Prop
  | .character _ => True
  | .string address =>
    ¬memory.Scans address 100 0xfffd ∧ ¬memory.Scans address 100 0xfffe

end PrintRequest

/-- The program that makes requests in order and jumps to address zero. Strings can
be kept in the data behind it. -/
def printProgram (requests : List PrintRequest) (data : List UInt8) : Image :=
  requests.flatMap PrintRequest.code ++ [0xc3, 0x00, 0x00] ++ data

namespace Machine

variable {Device : Type} [Console Device]

/-! ## At some code -/

/-- A machine with some code at its program counter, in a memory that only a return
address may have changed, and with an empty stack above the code. -/
structure AtCode (memory : Memory) (code : List UInt8) (machine : Machine Z80 Device) :
    Prop where
  ready : machine.Ready
  stack : machine.cpu.sp = 0xffff
  kept : ∀ address, address ≠ 0xfffd → address ≠ 0xfffe →
    machine.cpu.memory.load address = memory.load address
  below : machine.cpu.pc.toNat + code.length ≤ 0xfffd
  ahead : memory.read machine.cpu.pc code.length = code

namespace AtCode

variable {memory : Memory} {code first rest : List UInt8} {machine finish : Machine Z80 Device}

/-- A machine behind the first part of the code is at the second one. -/
theorem advance (atCode : AtCode memory (first ++ rest) machine) (ready : finish.Ready)
    (stack : finish.cpu.sp = 0xffff)
    (kept : ∀ address, address ≠ 0xfffd → address ≠ 0xfffe →
      finish.cpu.memory.load address = memory.load address)
    (moved : finish.cpu.pc = machine.cpu.pc + UInt16.ofNat first.length) :
    AtCode memory rest finish where
  ready := ready
  stack := stack
  kept := kept
  below := by
    have below := atCode.below
    rw [List.length_append] at below
    rw [moved, toNat_add_ofNat (by unfold addressSpace; omega)]
    omega
  ahead := by
    rw [moved]
    exact (Memory.read_eq_append atCode.ahead).2

/-- The code stands in the memory of the machine itself. -/
theorem load (atCode : AtCode memory code machine) {offset : Nat}
    (inside : offset < code.length) :
    machine.cpu.load (machine.cpu.pc + UInt16.ofNat offset) = code[offset] := by
  have below := atCode.below
  have place : (machine.cpu.pc + UInt16.ofNat offset).toNat = machine.cpu.pc.toNat + offset :=
    toNat_add_ofNat (by unfold addressSpace; omega)
  have missesStack : ∀ address : UInt16, 0xfffd ≤ address.toNat →
      machine.cpu.pc + UInt16.ofNat offset ≠ address := by
    intro address high same
    rw [← same, place] at high
    omega
  have misses := atCode.kept _ (missesStack 0xfffd (by decide)) (missesStack 0xfffe (by decide))
  rw [Z80.load, misses]
  exact Memory.load_of_read atCode.ahead inside

theorem nextByte {byte : UInt8} (atCode : AtCode memory (byte :: rest) machine) :
    machine.cpu.nextByte = byte := by
  have here := atCode.load (show 0 < (byte :: rest).length by simp)
  simpa [Z80.nextByte, Z80.load] using here

theorem nextWord {opcode : UInt8} {value : UInt16}
    (atCode : AtCode memory ([opcode, Word.low value, Word.high value] ++ rest) machine) :
    (machine.cpu.skip 1).nextWord = value := by
  have low : machine.cpu.load (machine.cpu.pc + 1) = Word.low value :=
    atCode.load (show 1 < ([opcode, Word.low value, Word.high value] ++ rest).length by simp)
  have high : machine.cpu.load (machine.cpu.pc + 2) = Word.high value :=
    atCode.load (show 2 < ([opcode, Word.low value, Word.high value] ++ rest).length by simp)
  rw [Z80.nextWord_skip_one, low, high, Word.join_high_low]

end AtCode

/-! ## Single instructions -/

/-- The machine behind an instruction that stays inside the processor. -/
def passed (machine : Machine Z80 Device) (cpu : Z80) : Machine Z80 Device where
  cpu := cpu
  host := machine.host
  instructions := machine.instructions + 1

namespace AtCode

variable {memory : Memory} {first rest : List UInt8} {machine : Machine Z80 Device}

/-- An instruction that leaves memory and stack alone leads to the code behind it. -/
theorem reaches_passed {operation : Operation} {cpu : Z80}
    (atCode : AtCode memory (first ++ rest) machine)
    (decoded : Instruction.decode machine.cpu.nextByte = .internal operation)
    (effect : (machine.cpu.skip 1).execute operation = cpu)
    (moved : cpu.pc = machine.cpu.pc + UInt16.ofNat first.length)
    (sameStack : cpu.sp = machine.cpu.sp) (sameMemory : cpu.memory = machine.cpu.memory) :
    Reaches 1 machine (machine.passed cpu) ∧ AtCode memory rest (machine.passed cpu) := by
  have ready := atCode.ready
  constructor
  · apply Reaches.single
    rw [step_internal decoded ready.running ready.clear, effect]
    rfl
  · refine atCode.advance ⟨ready.running, ready.clear, ready.reliable⟩ ?_ ?_ moved
    · exact sameStack.trans atCode.stack
    · intro address notLow notHigh
      show cpu.memory.load address = memory.load address
      rw [sameMemory]
      exact atCode.kept address notLow notHigh

/-- LD r,n. -/
theorem reaches_loadByte {opcode value : UInt8} {target : Operand}
    (atCode : AtCode memory ([opcode, value] ++ rest) machine)
    (isLoad : Instruction.decode opcode = .internal (.loadByte target))
    (register : target ≠ .atHL) :
    Reaches 1 machine (machine.passed ((machine.cpu.skip 2).setOperand target value)) ∧
      AtCode memory rest (machine.passed ((machine.cpu.skip 2).setOperand target value)) := by
  have decoded : Instruction.decode machine.cpu.nextByte = .internal (.loadByte target) := by
    rw [atCode.nextByte, isLoad]
  have operand : machine.cpu.load (machine.cpu.pc + 1) = value :=
    atCode.load (show 1 < ([opcode, value] ++ rest).length by simp)
  have behind : (machine.cpu.skip 1).skip 1 = machine.cpu.skip 2 := machine.cpu.skip_skip 1 1
  have effect : (machine.cpu.skip 1).execute (.loadByte target) =
      (machine.cpu.skip 2).setOperand target value := by
    rw [← operand, ← behind]
    rfl
  apply atCode.reaches_passed decoded effect
  · exact Z80.pc_setOperand _ _
  · exact Z80.sp_setOperand _ _
  · exact Z80.memory_setOperand _ register

/-- LD rr,nn. -/
theorem reaches_loadPair {opcode : UInt8} {value : UInt16} {target : RegisterPair}
    (atCode : AtCode memory ([opcode, Word.low value, Word.high value] ++ rest) machine)
    (isLoad : Instruction.decode opcode = .internal (.loadPair target))
    (general : target ≠ .sp) :
    Reaches 1 machine (machine.passed ((machine.cpu.skip 3).setPair target value)) ∧
      AtCode memory rest (machine.passed ((machine.cpu.skip 3).setPair target value)) := by
  have decoded : Instruction.decode machine.cpu.nextByte = .internal (.loadPair target) := by
    rw [atCode.nextByte, isLoad]
  have operand : (machine.cpu.skip 1).nextWord = value :=
    atCode.nextWord
  have behind : (machine.cpu.skip 1).skip 2 = machine.cpu.skip 3 := machine.cpu.skip_skip 1 2
  have effect : (machine.cpu.skip 1).execute (.loadPair target) =
      (machine.cpu.skip 3).setPair target value := by
    rw [← operand, ← behind]
    rfl
  apply atCode.reaches_passed decoded effect
  · exact Z80.pc_setPair _ _
  · exact Z80.sp_setPair _ general
  · exact Z80.memory_setPair _ _

/-- CALL 5, with all that it leads to, is one more part of the code that is passed. -/
theorem reaches_systemCall (atCode : AtCode memory ([0xcd, 0x05, 0x00] ++ rest) machine)
    (trap : memory.read Image.systemTrap 3 = Image.systemTrapCode) :
    Reaches 3 machine machine.returned ∧ AtCode memory rest machine.returned := by
  have ready := atCode.ready
  have lower : machine.cpu.sp - 1 = 0xfffe := by
    rw [atCode.stack]
    rfl
  have lowest : machine.cpu.sp - 2 = 0xfffd := by
    rw [atCode.stack]
    rfl
  constructor
  · apply reaches_returned ready
    · refine ⟨.inl atCode.nextByte, ?_, ?_⟩
      · exact atCode.load (show 1 < ([0xcd, 0x05, 0x00] ++ rest).length by simp)
      · exact atCode.load (show 2 < ([0xcd, 0x05, 0x00] ++ rest).length by simp)
    · rw [← trap]
      apply Memory.read_systemTrap_congr
      intro address member
      apply atCode.kept <;> rintro rfl <;> revert member <;> decide
    · rw [atCode.stack]
      decide
  · refine atCode.advance ⟨ready.running, ready.clear, ready.reliable.printAll _⟩ atCode.stack
      ?_ rfl
    intro address notLow notHigh
    show machine.cpu.calledMemory.load address = memory.load address
    rw [machine.cpu.load_calledMemory_other (by rwa [lower]) (by rwa [lowest])]
    exact atCode.kept address notLow notHigh

/-- JP 0 leads to the halt trap, which is code like any other. -/
theorem reaches_haltTrap (atCode : AtCode memory ([0xc3, 0x00, 0x00] ++ rest) machine)
    (trap : memory.read Image.haltTrap 2 = Image.haltTrapCode) :
    ∃ finish, Reaches 1 machine finish ∧ AtCode memory Image.haltTrapCode finish ∧
      finish = machine.passed (machine.cpu.goTo Image.haltTrap) := by
  have ready := atCode.ready
  have decoded : Instruction.decode machine.cpu.nextByte = .internal .jump := by
    rw [atCode.nextByte]
    exact Instruction.decode_jump
  have atJump : AtCode memory
      ([0xc3, Word.low Image.haltTrap, Word.high Image.haltTrap] ++ rest) machine := atCode
  have target := atJump.nextWord
  have effect : (machine.cpu.skip 1).execute .jump = machine.cpu.goTo Image.haltTrap := by
    rw [← target]
    rfl
  refine ⟨_, .single ?_, ?_, rfl⟩
  · rw [step_internal decoded ready.running ready.clear, effect]
    rfl
  · have low : Image.haltTrap.toNat + Image.haltTrapCode.length ≤ 0xfffd := by decide
    exact ⟨⟨ready.running, ready.clear, ready.reliable⟩, atCode.stack, atCode.kept, low, trap⟩

/-- A string that is not looked for on the stack reads as it did before the program
began. -/
theorem string_eq {code : List UInt8} {address : UInt16} (atCode : AtCode memory code machine)
    (misses : (PrintRequest.string address).MissesStack memory) :
    machine.cpu.memory.string address = memory.string address := by
  symm
  apply Memory.takeWhile_read_congr
  intro target scans
  symm
  apply atCode.kept
  · rintro rfl
    exact misses.1 scans
  · rintro rfl
    exact misses.2 scans

end AtCode

/-! ## Requests one after another -/

theorem console_returned_character {machine : Machine Z80 Device} (function : machine.cpu.c = 2) :
    machine.returned.host.console =
      Console.printAll machine.host.console (Ascii.spaced [machine.cpu.e]) := by
  have asked : machine.cpu.called.systemOutput = Ascii.spaced [machine.cpu.e] :=
    Z80.systemOutput_character function
  rw [← asked]
  rfl

theorem console_returned_string {machine : Machine Z80 Device} {address : UInt16}
    (function : machine.cpu.c = 9) (parameter : machine.cpu.pair .de = address) :
    machine.returned.host.console =
      Console.printAll machine.host.console
        (Ascii.spaced (machine.returned.cpu.memory.string address)) := by
  have asked : machine.cpu.called.systemOutput =
      Ascii.spaced (machine.returned.cpu.memory.string (machine.cpu.pair .de)) :=
    Z80.systemOutput_string function
  rw [← parameter, ← asked]
  rfl

namespace AtCode

variable {memory : Memory} {rest : List UInt8} {machine : Machine Z80 Device}

/-- The code of a request prints its text, and leads to the code behind it. -/
theorem reaches_request {request : PrintRequest}
    (atCode : AtCode memory (request.code ++ rest) machine)
    (trap : memory.read Image.systemTrap 3 = Image.systemTrapCode)
    (misses : request.MissesStack memory) :
    ∃ finish, Reaches 5 machine finish ∧ AtCode memory rest finish ∧
      finish.host.console =
        Console.printAll machine.host.console (Ascii.spaced (request.text memory)) ∧
      finish.instructions = machine.instructions + 5 := by
  cases request with
  | character byte =>
    have atFirst : AtCode memory
        ([0x0e, 0x02] ++ ([0x1e, byte] ++ ([0xcd, 0x05, 0x00] ++ rest))) machine := atCode
    obtain ⟨first, atSecond⟩ := atFirst.reaches_loadByte Instruction.decode_loadC (by decide)
    obtain ⟨second, atCall⟩ := atSecond.reaches_loadByte Instruction.decode_loadE (by decide)
    obtain ⟨call, atRest⟩ := atCall.reaches_systemCall trap
    refine ⟨_, (first.trans second).trans call, atRest, ?_, rfl⟩
    exact console_returned_character rfl
  | string address =>
    have atFirst : AtCode memory
        ([0x0e, 0x09] ++ ([0x11, Word.low address, Word.high address] ++
          ([0xcd, 0x05, 0x00] ++ rest))) machine := atCode
    obtain ⟨first, atSecond⟩ := atFirst.reaches_loadByte Instruction.decode_loadC (by decide)
    obtain ⟨second, atCall⟩ := atSecond.reaches_loadPair Instruction.decode_loadDE (by decide)
    obtain ⟨call, atRest⟩ := atCall.reaches_systemCall trap
    refine ⟨_, (first.trans second).trans call, atRest, ?_, rfl⟩
    rw [PrintRequest.text, ← atRest.string_eq misses]
    exact console_returned_string rfl (Z80.pair_setPair _ .de address)

/-- The code of requests in order prints their texts in order. -/
theorem reaches_requests {requests : List PrintRequest}
    (atCode : AtCode memory (requests.flatMap PrintRequest.code ++ rest) machine)
    (trap : memory.read Image.systemTrap 3 = Image.systemTrapCode)
    (misses : ∀ request ∈ requests, request.MissesStack memory) :
    ∃ finish, Reaches (5 * requests.length) machine finish ∧ AtCode memory rest finish ∧
      finish.host.console = Console.printAll machine.host.console
        (Ascii.spaced (requests.flatMap (PrintRequest.text memory))) ∧
      finish.instructions = machine.instructions + 5 * requests.length := by
  induction requests generalizing machine with
  | nil => exact ⟨machine, .refl machine, atCode, rfl, rfl⟩
  | cons request requests inductionHypothesis =>
    rw [List.flatMap_cons, List.append_assoc] at atCode
    obtain ⟨middle, first, atMiddle, middleConsole, middleCount⟩ :=
      atCode.reaches_request trap (misses request (by simp))
    obtain ⟨finish, others, atFinish, finishConsole, finishCount⟩ :=
      inductionHypothesis atMiddle fun request member => misses request (by simp [member])
    refine ⟨finish, ?_, atFinish, ?_, ?_⟩
    · rw [List.length_cons, Nat.mul_succ, Nat.add_comm]
      exact first.trans others
    · rw [finishConsole, middleConsole, List.flatMap_cons, Ascii.spaced_append,
        Console.printAll_append]
    · rw [finishCount, middleCount, List.length_cons]
      omega

end AtCode

/-! ## Programs -/

/-- At a printing program, the run goes through all requests and the jump to its end
behind the halt trap. -/
theorem AtCode.run_eq {memory : Memory} {machine : Machine Z80 Device}
    {requests : List PrintRequest} {data : List UInt8}
    (atCode : AtCode memory (printProgram requests data) machine)
    (systemTrap : memory.read Image.systemTrap 3 = Image.systemTrapCode)
    (haltTrap : memory.read Image.haltTrap 2 = Image.haltTrapCode)
    (misses : ∀ request ∈ requests, request.MissesStack memory)
    {limit : Nat} (enough : 5 * requests.length + 2 ≤ limit) :
    ∃ finish, machine.run limit =
        (.halted (machine.instructions + (5 * requests.length + 2)), finish) ∧
      finish.host.console = Console.printAll machine.host.console
        (Ascii.spaced (requests.flatMap (PrintRequest.text memory))) ∧
      finish.cpu.pc = 2 := by
  unfold printProgram at atCode
  rw [List.append_assoc] at atCode
  obtain ⟨middle, printed, atJump, console, count⟩ := atCode.reaches_requests systemTrap misses
  obtain ⟨trapped, jumped, atTrap, rfl⟩ := atJump.reaches_haltTrap haltTrap
  have decoded := (Instruction.decode_eq_portWrite_iff _).mpr atTrap.nextByte
  have last := step_portWrite decoded atTrap.ready.running atTrap.ready.clear
  obtain ⟨further, rfl⟩ : ∃ further, limit = 5 * requests.length + 1 + (further + 1) :=
    ⟨limit - (5 * requests.length + 2), by omega⟩
  have total : middle.instructions + 1 + 1 =
      machine.instructions + (5 * requests.length + 2) := by
    omega
  rw [(printed.trans jumped).run_add atTrap.ready.running, run_succ_halted last rfl, ← total]
  exact ⟨_, rfl, console, rfl⟩

/-- A program that fits is where the machine loaded with it begins. -/
theorem atCode_loaded {image : Image} {console : Device} (fits : image.length ≤ 0xfefd)
    (reliable : Console.Reliable console) :
    AtCode (loaded Z80.fresh image console).cpu.memory image
      (loaded Z80.fresh image console) := by
  have fitsMemory : image.length ≤ Image.capacity := Nat.le_trans fits (by decide)
  have ready := Ready.loaded reliable image
  have stands := Memory.zeroed.read_withImage_origin image fitsMemory
  have below : Image.origin.toNat + image.length ≤ 0xfffd := by
    have origin : Image.origin.toNat = 0x100 := rfl
    omega
  rw [loaded_fresh fitsMemory] at ready ⊢
  exact ⟨ready, rfl, fun _ _ _ => rfl, below, stands⟩

/-- A printing program whose image and whose strings stay clear of the two bytes
below the top of memory runs to its end in five instructions for each request and
two more, and the console shows the texts of the requests in order, with spaces for
the bytes outside ASCII. -/
theorem printProgram_prints {requests : List PrintRequest} {data : List UInt8}
    {console : Device} (fits : (printProgram requests data).length ≤ 0xfefd)
    (reliable : Console.Reliable console)
    (misses : ∀ request ∈ requests, request.MissesStack
      (loaded Z80.fresh (printProgram requests data) console).cpu.memory)
    {limit : Nat} (enough : 5 * requests.length + 2 ≤ limit) (name : String) (clockHz : Nat) :
    Run.ofImage limit name (printProgram requests data) console clockHz =
        (.halted ⟨name, 5 * requests.length + 2, clockHz, .zero⟩,
          Console.printAll console (Ascii.spaced (requests.flatMap (PrintRequest.text
            (loaded Z80.fresh (printProgram requests data) console).cpu.memory)))) ∧
      ((loaded Z80.fresh (printProgram requests data) console).run limit).2.cpu.pc = 2 := by
  have fitsMemory : (printProgram requests data).length ≤ Image.capacity :=
    Nat.le_trans fits (by decide)
  have beginning := loaded_fresh fitsMemory console
  have start := atCode_loaded fits reliable
  have systemTrap := Memory.zeroed.read_withImage_systemTrap (printProgram requests data)
  have haltTrap := Memory.zeroed.read_withImage_haltTrap (printProgram requests data)
  rw [Run.ofImage_eq fitsMemory]
  rw [beginning] at start misses ⊢
  obtain ⟨finish, runs, console, counter⟩ := start.run_eq systemTrap haltTrap misses enough
  rw [runs, console, Nat.zero_add]
  exact ⟨rfl, counter⟩

/-- A character, a string out of the data, and a character outside ASCII. -/
theorem printProgram_prints_greeting :
    ∃ transcript,
      Run.ofImage 17 "HI.COM"
          (printProgram [.character 0x41, .string 0x0119, .character 0x80] [0x48, 0x49, 0x24])
          Transcript.empty 4000000 =
        (.halted ⟨"HI.COM", 17, 4000000, .zero⟩, transcript) ∧
      transcript.bytes.toList = [0x41, 0x48, 0x49, 0x20] := by
  let requests : List PrintRequest := [.character 0x41, .string 0x0119, .character 0x80]
  let image := printProgram requests [0x48, 0x49, 0x24]
  have fits : image.length ≤ 0xfefd := by decide
  have far : ∀ offset < 100, 0xfffd ≠ 0x0119 + UInt16.ofNat offset ∧
      0xfffe ≠ 0x0119 + UInt16.ofNat offset := by
    decide +kernel
  have misses : ∀ request ∈ requests,
      request.MissesStack (loaded Z80.fresh image Transcript.empty).cpu.memory := by
    intro request member
    cases request with
    | character byte => trivial
    | string address =>
      have here : address = 0x0119 := by simpa [requests] using member
      subst here
      constructor <;> rintro ⟨offset, below, same, -⟩
      · exact (far offset below).1 same
      · exact (far offset below).2 same
  have placed := Memory.zeroed.read_withImage_origin image (by decide)
  have data : (Memory.zeroed.withImage image).read 0x0119 3 = [0x48, 0x49, 0x24] :=
    (Memory.read_eq_append placed).2
  have string : (Memory.zeroed.withImage image).string 0x0119 = [0x48, 0x49] :=
    Memory.string_eq_of_read data (by decide) (by decide)
  obtain ⟨runs, -⟩ := printProgram_prints fits (Transcript.reliable Transcript.empty) misses
    (Nat.le_refl 17) "HI.COM" 4000000
  refine ⟨_, runs, ?_⟩
  rw [Transcript.toList_printAll, loaded_fresh (Nat.le_trans fits (by decide))]
  show _ ++ Ascii.spaced ([0x41] ++ ((Memory.zeroed.withImage image).string 0x0119 ++ [0x80])) = _
  rw [string]
  decide

end Machine

end Cpm80
