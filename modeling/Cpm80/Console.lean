/-!
Contract: consoles, which take one byte at a time and may refuse it.

To write a byte is to try until it is taken or refused. An attempt that is interrupted is
made again, and is neither.

Owns:
- the interface of a console and the ways in which it can fail;
- a transcript, which never fails;
- a console whose failures are planned call by call.

Does not own: which bytes are written.
-/

namespace Cpm80

/-- Why a console did not take a byte or did not pass it on. Calls are numbered
from one, refused calls included; a device may have words of its own. -/
inductive ConsoleFault where
  | writeRefused (call : Nat)
  | flushRefused (call : Nat)
  | noSpace
  | device (text : String)
deriving DecidableEq, Repr

def ConsoleFault.message : ConsoleFault → String
  | .writeRefused call => "write " ++ toString call ++ " refused"
  | .flushRefused call => "flush " ++ toString call ++ " refused"
  | .noSpace => "No space left on device (os error 28)"
  | .device text => text

/-- A device that takes bytes, and passes on what it has taken when it is flushed. -/
class Console (Device : Type) where
  write : Device → UInt8 → Option ConsoleFault × Device
  flush : Device → Option ConsoleFault × Device

/-- Writes a byte and, only if it was taken, flushes. -/
def Console.print {Device : Type} [Console Device] (device : Device) (byte : UInt8) :
    Option ConsoleFault × Device :=
  match Console.write device byte with
  | (some fault, device) => (some fault, device)
  | (none, device) => Console.flush device

/-! ## Transcripts -/

/-- A console that keeps every byte. -/
structure Transcript where
  bytes : Array UInt8
deriving DecidableEq, Repr

def Transcript.empty : Transcript := ⟨#[]⟩

instance : Console Transcript where
  write transcript byte := (none, ⟨transcript.bytes.push byte⟩)
  flush transcript := (none, transcript)

/-! ## Planned failures -/

/-- The numbers of the calls that a console refuses. -/
structure FaultPlan where
  refusesWrite : Nat → Bool
  refusesFlush : Nat → Bool

def FaultPlan.none : FaultPlan where
  refusesWrite _ := false
  refusesFlush _ := false

/-- A console that fails by plan and counts the calls made to it. -/
structure PlannedConsole where
  plan : FaultPlan
  text : Array UInt8
  writes : Nat
  flushes : Nat

namespace PlannedConsole

def ofPlan (plan : FaultPlan) : PlannedConsole where
  plan := plan
  text := #[]
  writes := 0
  flushes := 0

def write : PlannedConsole → UInt8 → Option ConsoleFault × PlannedConsole
  | ⟨plan, text, writes, flushes⟩, byte =>
    if plan.refusesWrite (writes + 1) then
      (some (.writeRefused (writes + 1)), ⟨plan, text, writes + 1, flushes⟩)
    else (none, ⟨plan, text.push byte, writes + 1, flushes⟩)

/-- What was written stays written when a flush is refused. -/
def flush : PlannedConsole → Option ConsoleFault × PlannedConsole
  | ⟨plan, text, writes, flushes⟩ =>
    if plan.refusesFlush (flushes + 1) then
      (some (.flushRefused (flushes + 1)), ⟨plan, text, writes, flushes + 1⟩)
    else (none, ⟨plan, text, writes, flushes + 1⟩)

instance : Console PlannedConsole where
  write := write
  flush := flush

end PlannedConsole

end Cpm80
