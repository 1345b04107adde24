import Cpm80.Ascii
import Cpm80.Console
import Cpm80.Processor

/-!
Contract: the host of a CP/M program, which answers its system calls.

A program calls the system by reading a port, with a function number in C and a
parameter in E or DE. It ends by writing a port. The host knows two functions:
one prints the character in E, the other the string at DE.

Owns:
- the characters that a system call asks for;
- printing with the first console failure kept until it is taken;
- the halt flag.

Does not own: the instructions in memory that lead here.
-/

namespace Cpm80

/-! ## Requests -/

def consoleOutput : UInt8 := 2

def printString : UInt8 := 9

/-- The dollar sign, which ends a string and is not part of it. -/
def stringTerminator : UInt8 := 0x24

def maxStringLength : Nat := 100

/-- The bytes from an address up to the terminator, at most `limit` of them. -/
def stringAt (load : UInt16 → UInt8) (address : UInt16) : Nat → List UInt8
  | 0 => []
  | limit + 1 =>
    let byte := load address
    if byte = stringTerminator then [] else byte :: stringAt load (address + 1) limit

/-- The bytes that the system call of a processor asks to print. -/
def requested {Cpu : Type} [Processor Cpu] (cpu : Cpu) : List UInt8 :=
  let function := Processor.register cpu .c
  if function = consoleOutput then [Processor.register cpu .e]
  else if function = printString then
    stringAt (Processor.load cpu) (Processor.pair cpu .de) maxStringLength
  else []

/-! ## The host -/

/-- The console of a program, whether the program has ended, and the first console
failure that nobody has taken yet. -/
structure Host (Device : Type) where
  console : Device
  halted : Bool
  fault : Option ConsoleFault

namespace Host

variable {Device : Type} [Console Device]

def ofConsole (console : Device) : Host Device where
  console := console
  halted := false
  fault := none

/-- Prints one byte. A failure is kept unless an earlier one is still there. -/
def emit : Host Device → UInt8 → Host Device
  | ⟨console, halted, fault⟩, byte =>
    let (failure, console) := Console.print console (Ascii.shown byte)
    ⟨console, halted, fault.or failure⟩

/-- Answers a system call. The reply is zero whatever was asked. -/
def answer {Cpu : Type} [Processor Cpu] (cpu : Cpu) (host : Host Device) :
    UInt8 × Host Device :=
  (0, (requested cpu).foldl emit host)

def halt (host : Host Device) : Host Device :=
  { host with halted := true }

/-- Hands over the first failure since the last time, and forgets it. -/
def takeFault (host : Host Device) : Option ConsoleFault × Host Device :=
  (host.fault, { host with fault := none })

/-- The ports behind which the host stands: every read is a system call, every
write ends the program, whatever the port. -/
def ports {Cpu : Type} [Processor Cpu] : Ports Cpu (Host Device) where
  read _ cpu host := answer cpu host
  write _ _ host := halt host

end Host

end Cpm80
