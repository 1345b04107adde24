import Cpm80.Batch

/-!
Contract: the program, from its arguments to its exit code.

Owns:
- the carrying out of every kind of request;
- the exit codes.

Does not own: the terminal at which the request was made.
-/

namespace Cpm80.Program

/-- The exit code of runs: zero if every one was completed. -/
def exitCode (verdicts : List Bool) : Nat :=
  if verdicts.all id then 0 else 1

variable {m : Type → Type} [Monad m] [Terminal m]

/-- Prints a text that somebody has asked for, whether or not it can be printed. -/
def present (text : String) : m Nat := do
  let _ ← Terminal.print (Batch.bytesOf text)
  pure 0

/-- Carries out what the arguments of the program ask for, and gives the exit code. A
request that is refused ends in two. -/
def execute (arguments : List String) : m Nat :=
  match CommandLine.parse arguments with
  | .run options => do
    let verdicts ← Batch.run options
    pure (exitCode verdicts)
  | .version => present CommandLine.versionText
  | .help => present CommandLine.helpText
  | .refused fault => do
    Terminal.refuse fault
    pure 2

end Cpm80.Program
