import Cpm80.Opcode
import Cpm80.Session

/-!
Contract: what a processor must offer to be loaded, driven and inspected.

Owns:
- the interface of a processor;
- reading runs of bytes and storing them through that interface.

Does not own: any processor.
-/

namespace Cpm80

/-- A processor with sixteen-bit addresses and a memory of its own. -/
class Processor (Cpu : Type) where
  /-- One instruction, as a conversation with the ports. -/
  step : Cpu → Session Cpu
  counter : Cpu → UInt16
  setCounter : Cpu → UInt16 → Cpu
  register : Cpu → Register → UInt8
  pair : Cpu → RegisterPair → UInt16
  load : Cpu → UInt16 → UInt8
  store : Cpu → UInt16 → UInt8 → Cpu

namespace Processor

variable {Cpu : Type} [Processor Cpu]

/-- Stores bytes at consecutive addresses, in order, wrapping around. -/
def storeAll (cpu : Cpu) (address : UInt16) : List UInt8 → Cpu
  | [] => cpu
  | byte :: bytes => storeAll (store cpu address byte) (address + 1) bytes

end Processor

end Cpm80
