import Cpm80.Machine
import Cpm80.Report
import Cpm80.Z80.Step

/-!
Contract: the run of one image on a fresh Z80, from loading to its report.

Owns:
- runs of an image and of a file, each on a machine of its own.

Does not own: the time a run takes, which reports here leave at zero.
-/

namespace Cpm80.Run

variable {Device : Type} [Console Device]

/-- Runs an image on a fresh Z80 with a console of its own, for at most `limit`
steps. An image that does not load runs no instruction. -/
def ofImage (limit : Nat) (name : String) (image : Image) (console : Device) (clockHz : Nat) :
    RunState Report × Device :=
  match (Machine.assemble Z80.fresh console).load image with
  | (some fault, machine) => (.failed (.load fault), machine.host.console)
  | (none, machine) =>
    let (state, machine) := machine.run limit
    (state.map fun instructions => ⟨name, instructions, clockHz, .zero⟩, machine.host.console)

/-- Runs what was read at a path, under the name of that path. -/
def ofRead (limit : Nat) (path : Path) (image : Except Image.LoadFault Image) (console : Device)
    (clockHz : Nat) : RunState Report × Device :=
  match image with
  | .error fault => (.failed (.load fault), console)
  | .ok image => ofImage limit path.displayName image console clockHz

/-- Runs the image that is read at a path. -/
def ofFile (limit : Nat) (files : Files) (path : Path) (console : Device) (clockHz : Nat) :
    RunState Report × Device :=
  ofRead limit path (Image.read files path) console clockHz

end Cpm80.Run
