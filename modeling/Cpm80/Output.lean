import Cpm80.Console

/-!
Contract: standard output, which passes on whole lines.

Bytes are held back until their line is complete or the output is flushed. A line
that was complete before is passed on before more bytes are taken. What cannot be
passed on stays held, so that every later line or flush fails again.

Owns:
- the two kinds of standard output, one that takes everything and one that refuses
  everything, for a reason of its own;
- writing, flushing, and the two together.

Does not own: what is written; attempts that are only interrupted, which are made
again until something comes of them.
-/

namespace Cpm80

/-- Standard output: why it refuses what is passed on to it, if it does so, what it
has taken, and what is held back. -/
structure Output where
  refusal : Option ConsoleFault
  delivered : Array UInt8
  held : Array UInt8
deriving DecidableEq, Repr

namespace Output

/-- Standard output before anything is written to it. -/
def fresh (refusal : Option ConsoleFault) : Output where
  refusal := refusal
  delivered := #[]
  held := #[]

/-- Standard output that leads to a device with space for everything, or for nothing. -/
def empty (accepts : Bool) : Output :=
  fresh (if accepts then none else some .noSpace)

def newline : UInt8 := 0x0a

/-- Passes on everything that is held. -/
def flush : Output → Option ConsoleFault × Output
  | ⟨refusal, delivered, held⟩ =>
    if held.isEmpty then (none, ⟨refusal, delivered, held⟩)
    else
      match refusal with
      | none => (none, ⟨none, delivered ++ held, #[]⟩)
      | some fault => (some fault, ⟨some fault, delivered, held⟩)

def hold : Output → List UInt8 → Output
  | ⟨refusal, delivered, held⟩, bytes => ⟨refusal, delivered, held ++ bytes⟩

/-- The bytes up to and including the last line end, and the bytes behind it. -/
def splitLines : List UInt8 → List UInt8 × List UInt8
  | [] => ([], [])
  | byte :: bytes =>
    let (lines, tail) := splitLines bytes
    if lines.isEmpty && byte != newline then ([], byte :: tail) else (byte :: lines, tail)

theorem splitLines_append (bytes : List UInt8) :
    (splitLines bytes).1 ++ (splitLines bytes).2 = bytes := by
  induction bytes with
  | nil => rfl
  | cons byte bytes inductionHypothesis =>
    obtain ⟨lines, tail, found⟩ : ∃ lines tail, splitLines bytes = (lines, tail) := ⟨_, _, rfl⟩
    rw [found] at inductionHypothesis
    simp only [splitLines, found]
    split
    · next noLines =>
      rw [Bool.and_eq_true, List.isEmpty_iff] at noLines
      rw [noLines.1] at inductionHypothesis
      exact congrArg (byte :: ·) inductionHypothesis
    · exact congrArg (byte :: ·) inductionHypothesis

/-- Writes bytes. Complete lines are passed on at once; the bytes behind them are
taken only if that worked. -/
def write (output : Output) (bytes : List UInt8) : Option ConsoleFault × Output :=
  let (lines, tail) := splitLines bytes
  if lines.isEmpty then
    if output.held.back? == some newline then
      match output.flush with
      | (some fault, output) => (some fault, output)
      | (none, output) => (none, output.hold tail)
    else (none, output.hold tail)
  else
    match (output.hold lines).flush with
    | (some fault, output) => (some fault, output)
    | (none, output) => (none, output.hold tail)

/-- Writes bytes and, if they were taken, flushes. -/
def print (output : Output) (bytes : List UInt8) : Option ConsoleFault × Output :=
  match output.write bytes with
  | (some fault, output) => (some fault, output)
  | (none, output) => output.flush

instance : Console Output where
  write output byte := output.write [byte]
  flush := flush

end Output

end Cpm80
