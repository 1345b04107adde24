import Cpm80.Terminal

/-!
Contract: running a list of images and telling how each run went.

Every image is announced, its console text follows, and then its report or, in the
log, the reason why there is none. Side by side the runs are started first and told
about in the same order, each with its whole console text at once. Standard output
that fails is noted in the log and stops nothing.

Owns:
- the texts around the console text of an image;
- both ways of running a list.

Does not own: where the images are run.
-/

namespace Cpm80.Batch

/-! ## Texts -/

def bytesOf (text : String) : List UInt8 :=
  text.toUTF8.toList

/-- The line that stands before the console text of an image. -/
def announcement (image : Path) : String :=
  "Testing " ++ image.displayName ++ "...\n"

/-- The report of a run, with a line end before it and an empty line behind it. -/
def reportText (report : Report) : String :=
  "\n" ++ report.text ++ "\n\n"

variable {m : Type → Type} [Monad m] [Terminal m]

/-! ## Telling about one image -/

/-- Prints what belongs to an image, and notes in the log if that failed. -/
def printOrWarn (image : Path) (bytes : List UInt8) (warning : String) : m Unit := do
  match ← Terminal.print bytes with
  | some fault => Terminal.log ⟨.warn, warning, image, some fault⟩
  | none => pure ()

def announce (image : Path) : m Unit :=
  printOrWarn image (bytesOf (announcement image)) "couldn't write to stdout"

/-- Prints the report of a run or logs why there is none. The verdict is whether the
run was completed, whether or not its report could be printed. -/
def conclude (image : Path) (outcome : Except RunFault Report) : m Bool :=
  match outcome with
  | .ok report => do
    printOrWarn image (bytesOf (reportText report)) "couldn't write the report"
    pure true
  | .error fault => do
    Terminal.log ⟨.error, fault.chain, image, none⟩
    pure false

/-! ## Lists of images -/

/-- Runs an image with standard output for its console, and tells about it. -/
def runNext (clockHz : Nat) (image : Path) : m Bool := do
  announce image
  let outcome ← Terminal.run image clockHz
  conclude image outcome

/-- Waits for the run of an image, and tells about it. -/
def tell (image : Path) (finish : m (Transcript × Except RunFault Report)) : m Bool := do
  let (transcript, outcome) ← finish
  announce image
  printOrWarn image transcript.bytes.toList "couldn't write the console transcript"
  conclude image outcome

def runInTurn (images : List Path) (clockHz : Nat) : m (List Bool) :=
  images.mapM (runNext clockHz)

/-- Starts all images, then tells about them in order. -/
def runSideBySide (images : List Path) (clockHz : Nat) : m (List Bool) := do
  let started ← images.mapM fun image => Terminal.start image clockHz
  (images.zip started).mapM fun (image, finish) => tell image finish

def run (options : CommandLine.Options) : m (List Bool) :=
  if options.parallel then runSideBySide options.images options.clockHz
  else runInTurn options.images options.clockHz

end Cpm80.Batch
