import Cpm80.CommandLine
import Cpm80.Escape
import Cpm80.Machine

/-!
Contract: what running images needs from its surroundings.

Owns:
- the lines of the log that tell of something that went wrong;
- the actions that a terminal offers.

Does not own: any surroundings; lines about the course of a run, and the time and the
place that a log puts before its lines.
-/

namespace Cpm80

inductive LogLevel where
  | warn
  | error
deriving DecidableEq, Repr

def LogLevel.text : LogLevel → String
  | .warn => "WARN"
  | .error => "ERROR"

/-- A line of the log: its message, the image that it is about and, for a warning, the
failure that it warns of. -/
structure LogRecord where
  level : LogLevel
  message : String
  image : Path
  error : Option ConsoleFault
deriving DecidableEq, Repr

namespace LogRecord

/-- The message as the log shows it. What it quotes cannot command the terminal. -/
def shown (record : LogRecord) : String :=
  Escape.ofText record.message

/-- What stands behind the message. -/
def fields (record : LogRecord) : String :=
  let image := " image=" ++ record.image.display
  match record.error with
  | some fault => image ++ " error=" ++ fault.message
  | none => image

def text (record : LogRecord) : String :=
  record.level.text ++ " " ++ record.shown ++ Escape.ofText record.fields

end LogRecord

/-- Where images are run: a standard output, a log, files, and somebody who asks. -/
class Terminal (m : Type → Type) where
  /-- Writes to standard output and flushes it; gives the failure, if there was one. -/
  print : List UInt8 → m (Option ConsoleFault)
  log : LogRecord → m Unit
  /-- Tells what is wrong with a request. -/
  refuse : CommandLine.UsageFault → m Unit
  /-- Runs the image at a path with standard output for its console. -/
  run : Path → Nat → m (Except RunFault Report)
  /-- Starts the image at a path with a transcript for its console. The action that
  is returned waits for the end. -/
  start : Path → Nat → m (m (Transcript × Except RunFault Report))

end Cpm80
