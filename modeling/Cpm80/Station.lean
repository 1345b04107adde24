import Cpm80.FileTree
import Cpm80.Output
import Cpm80.Program
import Cpm80.Run

/-!
Contract: surroundings in which images can be run without a computer around them.

A station has files, which may be those of a tree, a standard output and a log, and
patience for so many steps of each run. Time does not pass in it, and its files stay as
they are. Nothing comes of a request if one of its runs is still going when patience ends.

Owns:
- the terminal that a station offers;
- the whole program: what a list of arguments leads to.

Does not own: how runs and reports are told, which is the same everywhere.
-/

namespace Cpm80

structure Station where
  files : Files
  output : Output
  log : Array LogRecord
  patience : Nat

namespace Station

abbrev Action : Type → Type :=
  StateT Station Option

/-- The end of a run, if it has ended. -/
def ended? : RunState Report → Option (Except RunFault Report)
  | .halted report => some (.ok report)
  | .failed fault => some (.error fault)
  | .running => none

def print (bytes : List UInt8) : Action (Option ConsoleFault) := fun station =>
  let (fault, output) := station.output.print bytes
  some (fault, { station with output := output })

def note (record : LogRecord) : Action Unit := fun station =>
  some ((), { station with log := station.log.push record })

def run (path : Path) (clockHz : Nat) : Action (Except RunFault Report) := fun station =>
  let (state, output) :=
    Run.ofFile station.patience station.files path station.output clockHz
  (ended? state).map fun outcome => (outcome, { station with output := output })

/-- The run takes place when it is started; what is left to do is to hand it over. -/
def start (path : Path) (clockHz : Nat) :
    Action (Action (Transcript × Except RunFault Report)) := fun station =>
  let (state, transcript) :=
    Run.ofFile station.patience station.files path Transcript.empty clockHz
  (ended? state).map fun outcome => (pure (transcript, outcome), station)

instance : Terminal Action where
  print := print
  log := note
  refuse _ := pure ()
  run := run
  start := start

/-! ## The program -/

/-- What a program leaves behind: an exit code, its standard output and its log. -/
structure Outcome where
  exitCode : Nat
  output : Output
  log : Array LogRecord
deriving DecidableEq, Repr

def execute (station : Station) (arguments : List String) : Option Outcome :=
  ((Program.execute arguments : Action Nat).run station).map fun (exitCode, station) =>
    ⟨exitCode, station.output, station.log⟩

end Station

end Cpm80
