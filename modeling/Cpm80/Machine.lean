import Cpm80.Host
import Cpm80.Image

/-!
Contract: a processor wired to a host, driven one instruction at a time.

Owns:
- the count of completed instructions;
- the faults that end a run, and their texts;
- one step, and the run up to the end of the program.

A run that has not ended after a given number of steps is reported as still
going: a program need not end. The count has no largest value; one of sixty-four bits
counts the same for as long as fewer than 2^64 instructions have been completed.

Does not own: what any processor or console does.
-/

namespace Cpm80

inductive RunFault where
  | load (fault : Image.LoadFault)
  | execution (fault : ExecutionFault)
  | console (fault : ConsoleFault)
deriving DecidableEq, Repr

namespace RunFault

def message : RunFault → String
  | .load fault => fault.message
  | .execution fault => fault.message
  | .console _ => "couldn't write to the console"

/-- The texts of the causes behind a fault, the nearest one first. -/
def causes : RunFault → List String
  | .load fault => fault.causes
  | .execution _ => []
  | .console fault => [fault.message]

def chain (fault : RunFault) : String :=
  ": ".intercalate (fault.message :: fault.causes)

end RunFault

/-- A processor, the host behind its ports, and the number of steps that the
processor has completed without a fault. -/
structure Machine (Cpu Device : Type) where
  cpu : Cpu
  host : Host Device
  instructions : Nat

/-- How a run stands: ended by the program, with what is known of it then, ended by
a fault, or still going. -/
inductive RunState (Result : Type) where
  | halted (result : Result)
  | failed (fault : RunFault)
  | running
deriving Repr

namespace RunState

def map {Result Other : Type} (change : Result → Other) : RunState Result → RunState Other
  | .halted result => .halted (change result)
  | .failed fault => .failed fault
  | .running => .running

end RunState

namespace Machine

variable {Cpu Device : Type} [Processor Cpu] [Console Device]

/-- A machine that has not done anything yet. -/
def assemble (cpu : Cpu) (console : Device) : Machine Cpu Device where
  cpu := cpu
  host := Host.ofConsole console
  instructions := 0

/-- Loads an image. A machine that refuses it stays as it was. -/
def load (machine : Machine Cpu Device) (image : Image) :
    Option Image.LoadFault × Machine Cpu Device :=
  match image.load machine.cpu with
  | .ok cpu => (none, { machine with cpu := cpu })
  | .error fault => (some fault, machine)

/-- One instruction, unless the program has ended. An instruction that completes is
counted, and then the first console failure ends the step, if there was one. -/
def step : Machine Cpu Device → Option RunFault × Machine Cpu Device
  | ⟨cpu, host, instructions⟩ =>
    if host.halted then (none, ⟨cpu, host, instructions⟩)
    else
      match (Processor.step cpu).run Host.ports host with
      | ⟨cpu, some fault, host⟩ => (some (.execution fault), ⟨cpu, host, instructions⟩)
      | ⟨cpu, none, host⟩ =>
        let (failure, host) := host.takeFault
        (failure.map .console, ⟨cpu, host, instructions + 1⟩)

/-- Steps until the program or a fault ends the run, at most `limit` times. The
result is the number of instructions. -/
def run : Nat → Machine Cpu Device → RunState Nat × Machine Cpu Device
  | 0, machine => (.running, machine)
  | limit + 1, machine =>
    match machine.step with
    | (some fault, machine) => (.failed fault, machine)
    | (none, machine) =>
      if machine.host.halted then (.halted machine.instructions, machine)
      else run limit machine

end Machine

end Cpm80
