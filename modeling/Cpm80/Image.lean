import Cpm80.Files
import Cpm80.Processor

/-!
Contract: placing a program image in memory, with the traps that lead to the host.

The image goes to the address where CP/M starts programs. The traps come after
it: a port write at the address that a program jumps to when it ends, and a port
read with a return at the address that it calls for the system.

Owns:
- the capacity of memory for an image;
- the addresses and the code of both traps;
- the ways in which an image can fail to be there.

Does not own: what happens when a trap is reached.
-/

namespace Cpm80

abbrev Image : Type := List UInt8

namespace Image

/-! ## Layout -/

def origin : UInt16 := 0x0100

/-- The most bytes that fit between the origin and the end of memory. -/
def capacity : Nat := 65536 - origin.toNat

/-- Where a program jumps to end. -/
def haltTrap : UInt16 := 0x0000

/-- OUT (0),A. -/
def haltTrapCode : List UInt8 := [0xd3, 0x00]

/-- Where a program calls the system. -/
def systemTrap : UInt16 := 0x0005

/-- IN A,(0) and RET. -/
def systemTrapCode : List UInt8 := [0xdb, 0x00, 0xc9]

/-! ## Loading -/

inductive LoadFault where
  | unreadable (path : Path) (cause : ReadFault)
  | tooLarge (length : Nat)
deriving DecidableEq, Repr

def LoadFault.message : LoadFault → String
  | .unreadable path _ => "couldn't read " ++ path.display
  | .tooLarge length =>
    "image is " ++ toString length ++ " bytes, at most " ++ toString capacity ++
      " fit above 0x" ++ Hex.ofWord origin

def LoadFault.causes : LoadFault → List String
  | .unreadable _ cause => [cause.message]
  | .tooLarge _ => []

variable {Cpu : Type} [Processor Cpu]

def patch (cpu : Cpu) : Cpu :=
  Processor.storeAll (Processor.storeAll cpu haltTrap haltTrapCode) systemTrap systemTrapCode

/-- Places an image that fits, writes the traps over it, and goes to its first
byte. An image that does not fit changes nothing. -/
def load (image : Image) (cpu : Cpu) : Except LoadFault Cpu :=
  if capacity < image.length then .error (.tooLarge image.length)
  else .ok (Processor.setCounter (patch (Processor.storeAll cpu origin image)) origin)

def read (files : Files) (path : Path) : Except LoadFault Image :=
  match files.read path with
  | .ok bytes => .ok bytes
  | .error cause => .error (.unreadable path cause)

end Image

end Cpm80
