import Cpm80.Hex

/-!
Contract: what one step of a processor asks of the ports around it.

A step is a conversation: the processor reads ports and writes ports in some
order, and ends in its next state, with or without a fault. Each read shows the
processor as it stands in the middle of the instruction.

Owns:
- the conversation of a step, and the fault that can end it;
- handlers of port accesses, and the run of a step against a handler.

Does not own: any processor, or any particular handler.
-/

namespace Cpm80

/-- A step that met an opcode it cannot carry out. -/
structure ExecutionFault where
  opcode : UInt8
  address : UInt16
deriving DecidableEq, Repr

def ExecutionFault.message (fault : ExecutionFault) : String :=
  "encountered unimplemented opcode 0x" ++ Hex.ofByte fault.opcode ++
    " at 0x" ++ Hex.ofWord fault.address

/-- The port accesses of one step, in order, and the state in which it ends. -/
inductive Session (Cpu : Type) where
  | finished (cpu : Cpu) (fault : Option ExecutionFault)
  | portRead (port : UInt16) (seen : Cpu) (resume : UInt8 → Session Cpu)
  | portWrite (port : UInt16) (value : UInt8) (rest : Session Cpu)

/-- Handlers of port accesses over a state of their own. A read is shown the
processor and gives the byte that the processor receives. -/
structure Ports (Cpu State : Type) where
  read : UInt16 → Cpu → State → UInt8 × State
  write : UInt16 → UInt8 → State → State

/-- How a step ended: the processor, its fault, and the state of the ports. -/
structure Session.Ending (Cpu State : Type) where
  cpu : Cpu
  fault : Option ExecutionFault
  state : State

def Session.run {Cpu State : Type} (ports : Ports Cpu State) :
    Session Cpu → State → Session.Ending Cpu State
  | .finished cpu fault, state => ⟨cpu, fault, state⟩
  | .portRead port seen resume, state =>
    let (reply, next) := ports.read port seen state
    (resume reply).run ports next
  | .portWrite port value rest, state => rest.run ports (ports.write port value state)

end Cpm80
