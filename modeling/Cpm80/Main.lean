import Cpm80.Program
import Cpm80.Run

/-!
Contract: the program on a computer.

Owns:
- the terminal that standard output, standard error and the files of the computer
  offer, with time measured by the clock of the computer;
- the entry point.

Arguments come as text, and a file is opened by the text of its path. The bytes of a path
that are not text are lost on the way, so that such a path leads to another file or to none.

Does not own: any decision about what is run, printed or logged.
-/

namespace Cpm80.Computer

/-! ## Faults -/

/-- The number of a system error, which may arrive with its sign changed. -/
def errorNumber (code : UInt32) : UInt32 :=
  if code < 0x80000000 then code else 0 - code

def errorText (details : String) (code : UInt32) : String :=
  details ++ " (os error " ++ toString (errorNumber code) ++ ")"

def consoleFault : IO.Error → ConsoleFault
  | .resourceExhausted _ code details =>
    if errorNumber code = 28 then .noSpace else .device (errorText details code)
  | .resourceVanished code details => .device (errorText details code)
  | .hardwareFault code details => .device (errorText details code)
  | fault => .device (toString fault)

def readFault : IO.Error → ReadFault
  | .noFileOrDirectory _ _ _ => .notFound
  | .inappropriateType _ code details =>
    match errorNumber code with
    | 20 => .notADirectory
    | 21 => .isADirectory
    | _ => .other (errorText details code)
  | .invalidArgument _ code details =>
    if errorNumber code = 36 then .nameTooLong else .other (errorText details code)
  | .permissionDenied _ code details => .other (errorText details code)
  | fault => .other (toString fault)

/-! ## Standard output and files -/

/-- Actions on a computer, with the bytes that standard output has not taken yet. -/
abbrev Action : Type → Type :=
  StateT (List UInt8) IO

/-- Writes to standard output and flushes it. Bytes that are not taken are held back
and written before the next ones. -/
def print (bytes : List UInt8) : Action (Option ConsoleFault) := fun held => do
  let pending := held ++ bytes
  if pending.isEmpty then
    return (none, pending)
  else
    try
      let stdout ← IO.getStdout
      stdout.write pending.toByteArray
      stdout.flush
      return (none, [])
    catch fault =>
      return (some (consoleFault fault), pending)

/-- Prints what a transcript holds and empties it. -/
def pour (transcript : Transcript) : Action (Option ConsoleFault × Transcript) := do
  if transcript.bytes.isEmpty then
    return (none, transcript)
  else
    return (← print transcript.bytes.toList, .empty)

def keep (transcript : Transcript) : Action (Option ConsoleFault × Transcript) :=
  return (none, transcript)

def readImage (path : Path) : IO (Except Image.LoadFault Image) := do
  try
    return .ok (← IO.FS.readBinFile path.display).toList
  catch fault =>
    return .error (.unreadable path (readFault fault))

/-! ## Runs -/

/-- How many steps are taken between two looks at the console text. -/
def burst : Nat := 4096

/-- Steps a machine to the end of its program, and hands over its console text on
the way. Text that nobody takes ends the run. -/
partial def finish (handOver : Transcript → Action (Option ConsoleFault × Transcript))
    (machine : Machine Z80 Transcript) : Action (Transcript × Except RunFault Nat) := do
  let (state, ⟨cpu, host, instructions⟩) := machine.run burst
  let (fault, console) ← handOver host.console
  match fault, state with
  | some fault, _ => return (console, .error (.console fault))
  | none, .failed fault => return (console, .error fault)
  | none, .halted instructions => return (console, .ok instructions)
  | none, .running =>
    finish handOver ⟨cpu, { host with console := console }, instructions⟩

/-- Runs the image at a path on a fresh machine, and measures how long it takes. -/
def runImage (handOver : Transcript → Action (Option ConsoleFault × Transcript)) (path : Path)
    (clockHz : Nat) : Action (Transcript × Except RunFault Report) := do
  match ← readImage path with
  | .error fault => return (.empty, .error (.load fault))
  | .ok image =>
    match (Machine.assemble Z80.fresh Transcript.empty).load image with
    | (some fault, _) => return (.empty, .error (.load fault))
    | (none, machine) =>
      let started ← IO.monoNanosNow
      let (transcript, outcome) ← finish handOver machine
      let wallTime := Duration.ofParts 0 ((← IO.monoNanosNow) - started)
      return (transcript,
        outcome.map fun instructions => ⟨path.displayName, instructions, clockHz, wallTime⟩)

instance : Terminal Action where
  print := print
  log record := IO.eprintln record.text
  refuse fault := IO.eprintln fault.message
  run path clockHz := return (← runImage pour path clockHz).2
  start path clockHz := do
    let task ← IO.asTask ((runImage keep path clockHz).run' [])
    return do IO.ofExcept (← IO.wait task)

end Cpm80.Computer

def main (arguments : List String) : IO UInt32 := do
  let exitCode ← (Cpm80.Program.execute arguments : Cpm80.Computer.Action Nat).run' []
  return exitCode.toUInt32
