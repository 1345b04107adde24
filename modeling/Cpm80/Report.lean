import Cpm80.Decimal.Shortest

/-!
Contract: what is told about a run that the program ended.

Owns:
- emulated time from the instruction count and a clock rate, one instruction per
  tick of the clock;
- the text of a report.

Counts and rates are natural numbers of any size.

Does not own: how wall time is measured.
-/

namespace Cpm80

/-- A span of time: whole seconds, and nanoseconds that do not make up another one. -/
structure Duration where
  seconds : Nat
  nanoseconds : Nat
  nanoseconds_lt : nanoseconds < 1000000000
deriving DecidableEq, Repr

namespace Duration

def zero : Duration := ⟨0, 0, by decide⟩

/-- The span of some seconds and some nanoseconds, however many of either. -/
def ofParts (seconds nanoseconds : Nat) : Duration where
  seconds := seconds + nanoseconds / 1000000000
  nanoseconds := nanoseconds % 1000000000
  nanoseconds_lt := Nat.mod_lt _ (by decide)

/-- The span in seconds. Seconds and nanoseconds are rounded before they are added. -/
def toSeconds (duration : Duration) : Float :=
  Float.ofNat duration.seconds + Float.ofNat duration.nanoseconds / 1000000000.0

end Duration

/-- The rate of a Z80A at 3.5 MHz. -/
def defaultClockHz : Nat := 3500000

/-- A completed run: the name of its image, the instructions executed, the one that
ended it included, the clock rate to assume, and the time it took. -/
structure Report where
  name : String
  instructions : Nat
  clockHz : Nat
  wallTime : Duration
deriving DecidableEq, Repr

namespace Report

/-- How long the run would take on a processor at the clock rate. -/
def emulatedSeconds (report : Report) : Float :=
  Float.ofNat report.instructions / Float.ofNat report.clockHz

def emulatedHours (report : Report) : Float :=
  report.emulatedSeconds / 3600.0

def megahertz (report : Report) : Float :=
  Float.ofNat report.clockHz / 1000000.0

/-- The report as three lines, the last one without a line end. -/
def text (report : Report) : String :=
  toString report.instructions ++ " instruction(s) emulated.\n" ++
    "For a Z80 running at " ++ Decimal.shortest report.megahertz ++
    "MHz, that would be " ++ Decimal.fixed 0 report.emulatedSeconds ++
    " seconds or " ++ Decimal.fixed 2 report.emulatedHours ++ " hour(s).\n" ++
    "Emulating " ++ report.name ++ " took a total of " ++
    Decimal.fixed 0 report.wallTime.toSeconds ++ " seconds"

end Report

end Cpm80
