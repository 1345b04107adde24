import Cpm80.Arithmetic
import Cpm80.Memory

/-!
Contract: the registers and the memory of a Z80.

Owns:
- the state of the processor and its power-on values;
- reading and writing of registers, pairs and instruction operands;
- the words on the stack.

Does not own: the effect of any instruction.
-/

namespace Cpm80

/-- A Z80 with its memory. The alternate registers are reached by exchanges only. -/
structure Z80 where
  a : UInt8
  f : Flags
  b : UInt8
  c : UInt8
  d : UInt8
  e : UInt8
  h : UInt8
  l : UInt8
  altA : UInt8
  altF : Flags
  altBC : UInt16
  altDE : UInt16
  altHL : UInt16
  sp : UInt16
  pc : UInt16
  interrupts : Bool
  memory : Memory

namespace Z80

/-- The state after power-on: AF and SP hold ones, everything else zeros. -/
def powerOn (memory : Memory) : Z80 where
  a := 0xff
  f := Flags.ofByte 0xff
  b := 0
  c := 0
  d := 0
  e := 0
  h := 0
  l := 0
  altA := 0
  altF := Flags.ofByte 0
  altBC := 0
  altDE := 0
  altHL := 0
  sp := 0xffff
  pc := 0
  interrupts := false
  memory := memory

/-- A processor just powered on, with memory that holds zeros. -/
def fresh : Z80 :=
  powerOn .zeroed

/-! ## Registers -/

def register (cpu : Z80) : Register → UInt8
  | .a => cpu.a
  | .f => cpu.f.toByte
  | .b => cpu.b
  | .c => cpu.c
  | .d => cpu.d
  | .e => cpu.e
  | .h => cpu.h
  | .l => cpu.l

def setRegister (cpu : Z80) (register : Register) (value : UInt8) : Z80 :=
  match register with
  | .a => { cpu with a := value }
  | .f => { cpu with f := Flags.ofByte value }
  | .b => { cpu with b := value }
  | .c => { cpu with c := value }
  | .d => { cpu with d := value }
  | .e => { cpu with e := value }
  | .h => { cpu with h := value }
  | .l => { cpu with l := value }

def pair (cpu : Z80) : RegisterPair → UInt16
  | .af => Word.join cpu.a cpu.f.toByte
  | .bc => Word.join cpu.b cpu.c
  | .de => Word.join cpu.d cpu.e
  | .hl => Word.join cpu.h cpu.l
  | .sp => cpu.sp

def setPair (cpu : Z80) (pair : RegisterPair) (value : UInt16) : Z80 :=
  match pair with
  | .af => { cpu with a := Word.high value, f := Flags.ofByte (Word.low value) }
  | .bc => { cpu with b := Word.high value, c := Word.low value }
  | .de => { cpu with d := Word.high value, e := Word.low value }
  | .hl => { cpu with h := Word.high value, l := Word.low value }
  | .sp => { cpu with sp := value }

@[simp]
theorem register_setRegister (cpu : Z80) (register : Register) (value : UInt8) :
    (cpu.setRegister register value).register register = value := by
  cases register <;> simp [setRegister, Z80.register]

@[simp]
theorem pair_setPair (cpu : Z80) (pair : RegisterPair) (value : UInt16) :
    (cpu.setPair pair value).pair pair = value := by
  cases pair <;> simp [setPair, Z80.pair]

/-! ## Memory and instruction operands -/

def load (cpu : Z80) (address : UInt16) : UInt8 :=
  cpu.memory.load address

def store (cpu : Z80) (address : UInt16) (value : UInt8) : Z80 :=
  { cpu with memory := cpu.memory.store address value }

def storeWord (cpu : Z80) (address value : UInt16) : Z80 :=
  { cpu with memory := cpu.memory.storeWord address value }

def nextByte (cpu : Z80) : UInt8 :=
  cpu.memory.load cpu.pc

def nextWord (cpu : Z80) : UInt16 :=
  cpu.memory.loadWord cpu.pc

def skip (cpu : Z80) (count : UInt16) : Z80 :=
  { cpu with pc := cpu.pc + count }

def goTo (cpu : Z80) (target : UInt16) : Z80 :=
  { cpu with pc := target }

def operand (cpu : Z80) : Operand → UInt8
  | .b => cpu.b
  | .c => cpu.c
  | .d => cpu.d
  | .e => cpu.e
  | .h => cpu.h
  | .l => cpu.l
  | .atHL => cpu.memory.load (cpu.pair .hl)
  | .a => cpu.a

def setOperand (cpu : Z80) (operand : Operand) (value : UInt8) : Z80 :=
  match operand with
  | .b => { cpu with b := value }
  | .c => { cpu with c := value }
  | .d => { cpu with d := value }
  | .e => { cpu with e := value }
  | .h => { cpu with h := value }
  | .l => { cpu with l := value }
  | .atHL => cpu.store (cpu.pair .hl) value
  | .a => { cpu with a := value }

/-! ## The stack -/

/-- Puts a word below the top of the stack, which grows downwards. -/
def push (cpu : Z80) (value : UInt16) : Z80 :=
  { cpu with sp := cpu.sp - 2 }.storeWord (cpu.sp - 2) value

def top (cpu : Z80) : UInt16 :=
  cpu.memory.loadWord cpu.sp

/-- Takes the top word off the stack. It stays in memory. -/
def drop (cpu : Z80) : Z80 :=
  { cpu with sp := cpu.sp + 2 }

def setAccumulator (cpu : Z80) (result : UInt8 × Flags) : Z80 :=
  { cpu with a := result.1, f := result.2 }

end Z80

end Cpm80
