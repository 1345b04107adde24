import Cpm80.Processor
import Cpm80.Z80.State

/-!
Contract: the effect of every unprefixed Z80 instruction.

Owns:
- when a branch condition holds;
- the effect of the instructions that stay inside the processor;
- one step: fetch, decode, and either that effect, a port access or a fault.

Does not own: interrupts and instruction timing, which nothing here depends on.
-/

namespace Cpm80

def Condition.holds (flags : Flags) : Condition → Bool
  | .nonZero => !flags.zero
  | .zero => flags.zero
  | .noCarry => !flags.carry
  | .carry => flags.carry
  | .parityOdd => !flags.parity
  | .parityEven => flags.parity
  | .plus => !flags.sign
  | .minus => flags.sign

namespace Z80

/-! ## Branches

Each of these starts with the program counter at the operand bytes. -/

/-- Jumps by the displacement byte if the branch is taken, else skips it. -/
def branchRelative (cpu : Z80) (taken : Bool) : Z80 :=
  if taken then cpu.goTo (Word.displace (cpu.pc + 1) cpu.nextByte) else cpu.skip 1

/-- Jumps to the operand word if the branch is taken, else skips it. -/
def branch (cpu : Z80) (taken : Bool) : Z80 :=
  if taken then cpu.goTo cpu.nextWord else cpu.skip 2

/-- Calls the operand word if the branch is taken, else skips it. The return
address is that of the instruction after the call. -/
def branchCall (cpu : Z80) (taken : Bool) : Z80 :=
  let target := cpu.nextWord
  if taken then (cpu.push (cpu.pc + 2)).goTo target else cpu.skip 2

def branchReturn (cpu : Z80) (taken : Bool) : Z80 :=
  if taken then cpu.drop.goTo cpu.top else cpu

/-! ## Exchanges -/

def exchangeAF (cpu : Z80) : Z80 :=
  { cpu with a := cpu.altA, f := cpu.altF, altA := cpu.a, altF := cpu.f }

def exchangeAll (cpu : Z80) : Z80 :=
  { cpu with
    b := Word.high cpu.altBC
    c := Word.low cpu.altBC
    d := Word.high cpu.altDE
    e := Word.low cpu.altDE
    h := Word.high cpu.altHL
    l := Word.low cpu.altHL
    altBC := cpu.pair .bc
    altDE := cpu.pair .de
    altHL := cpu.pair .hl }

def exchangeDEHL (cpu : Z80) : Z80 :=
  { cpu with d := cpu.h, e := cpu.l, h := cpu.d, l := cpu.e }

def exchangeTop (cpu : Z80) : Z80 :=
  let top := cpu.top
  (cpu.storeWord cpu.sp (cpu.pair .hl)).setPair .hl top

/-! ## Byte and word transfers -/

def loadA (cpu : Z80) : Pointer → Z80
  | .bc => { cpu with a := cpu.load (cpu.pair .bc) }
  | .de => { cpu with a := cpu.load (cpu.pair .de) }
  | .immediate => { cpu.skip 2 with a := cpu.load cpu.nextWord }

def storeA (cpu : Z80) : Pointer → Z80
  | .bc => cpu.store (cpu.pair .bc) cpu.a
  | .de => cpu.store (cpu.pair .de) cpu.a
  | .immediate => (cpu.skip 2).store cpu.nextWord cpu.a

/-! ## Arithmetic in place -/

/-- Replaces a byte operand by a result and the flags by those of the result. -/
def update (cpu : Z80) (target : Operand) (result : UInt8 × Flags) : Z80 :=
  { cpu.setOperand target result.1 with f := result.2 }

def addHL (cpu : Z80) (value : UInt16) : Z80 :=
  let result := Arithmetic.addWord (cpu.pair .hl) value cpu.f
  { cpu.setPair .hl result.1 with f := result.2 }

/-- One less in B, and a jump by the displacement byte unless that is zero. -/
def decrementJump (cpu : Z80) : Z80 :=
  { cpu with b := cpu.b - 1 }.branchRelative (cpu.b - 1 != 0)

/-! ## Instructions -/

/-- The effect of an instruction that stays inside the processor, whose opcode has
been fetched. HALT goes back to its own opcode: nothing here could wake it. -/
def execute (cpu : Z80) : Operation → Z80
  | .nop => cpu
  | .halt => cpu.goTo (cpu.pc - 1)
  | .disableInterrupts => { cpu with interrupts := false }
  | .enableInterrupts => { cpu with interrupts := true }
  | .exchangeAF => cpu.exchangeAF
  | .exchangeAll => cpu.exchangeAll
  | .exchangeDEHL => cpu.exchangeDEHL
  | .exchangeTop => cpu.exchangeTop
  | .loadStackPointer => { cpu with sp := cpu.pair .hl }
  | .move target source => cpu.setOperand target (cpu.operand source)
  | .loadByte target => (cpu.skip 1).setOperand target cpu.nextByte
  | .loadPair target => (cpu.skip 2).setPair target cpu.nextWord
  | .loadA source => cpu.loadA source
  | .storeA target => cpu.storeA target
  | .loadHL => (cpu.skip 2).setPair .hl (cpu.memory.loadWord cpu.nextWord)
  | .storeHL => (cpu.skip 2).storeWord cpu.nextWord (cpu.pair .hl)
  | .increment target => cpu.update target (Arithmetic.increment (cpu.operand target) cpu.f)
  | .decrement target => cpu.update target (Arithmetic.decrement (cpu.operand target) cpu.f)
  | .incrementPair target => cpu.setPair target (cpu.pair target + 1)
  | .decrementPair target => cpu.setPair target (cpu.pair target - 1)
  | .addHL source => cpu.addHL (cpu.pair source)
  | .adjust adjustment => cpu.setAccumulator (Arithmetic.adjust adjustment cpu.a cpu.f)
  | .accumulate operation source =>
    cpu.setAccumulator (Arithmetic.accumulate operation cpu.a (cpu.operand source) cpu.f)
  | .accumulateByte operation =>
    (cpu.skip 1).setAccumulator (Arithmetic.accumulate operation cpu.a cpu.nextByte cpu.f)
  | .push source => cpu.push (cpu.pair source)
  | .pop target => cpu.drop.setPair target cpu.top
  | .jumpRelative => cpu.branchRelative true
  | .jumpRelativeIf condition => cpu.branchRelative (condition.holds cpu.f)
  | .decrementJump => cpu.decrementJump
  | .jump => cpu.branch true
  | .jumpIf condition => cpu.branch (condition.holds cpu.f)
  | .jumpHL => cpu.goTo (cpu.pair .hl)
  | .call => cpu.branchCall true
  | .callIf condition => cpu.branchCall (condition.holds cpu.f)
  | .ret => cpu.branchReturn true
  | .retIf condition => cpu.branchReturn (condition.holds cpu.f)
  | .restart vector => (cpu.push cpu.pc).goTo (UInt16.ofNat (8 * vector.val))

/-- The port that an access addresses: A above the operand byte. -/
def port (cpu : Z80) : UInt16 :=
  Word.join cpu.a (cpu.load (cpu.pc + 1))

/-- One instruction. A port read shows the processor behind the instruction and
leaves the reply in A; an unimplemented opcode is passed over and changes nothing
else. -/
def step (cpu : Z80) : Session Z80 :=
  match Instruction.decode cpu.nextByte with
  | .internal operation => .finished ((cpu.skip 1).execute operation) none
  | .portRead =>
    .portRead cpu.port (cpu.skip 2) fun reply => .finished { cpu.skip 2 with a := reply } none
  | .portWrite => .portWrite cpu.port cpu.a (.finished (cpu.skip 2) none)
  | .unimplemented => .finished (cpu.skip 1) (some ⟨cpu.nextByte, cpu.pc⟩)

instance : Processor Z80 where
  step := step
  counter cpu := cpu.pc
  setCounter := goTo
  register := register
  pair := pair
  load := load
  store := store

end Z80

end Cpm80
