import Cpm80.Output
import Cpm80.Proofs.Likeness
import Cpm80.Run

/-!
Contract: standard output that takes everything, beside a transcript.

Owns:
- what printing does to such an output, whole texts and single bytes alike;
- the run of an image that loads and of one that does not, and on consoles that fail alike;
- a run on standard output as the same run on a transcript, whose bytes come behind
  all that was written before.

Does not own: an output that refuses anything; what is printed around a run.
-/

namespace Cpm80

/-! ## Printing -/

namespace Output

/-- Standard output that takes everything, has taken some bytes and holds none back. -/
def passedOn (written : List UInt8) : Output where
  refusal := none
  delivered := written.toArray
  held := #[]

theorem flush_accepting (delivered held : Array UInt8) :
    flush ⟨none, delivered, held⟩ = (none, ⟨none, delivered ++ held, #[]⟩) := by
  by_cases empty : held = #[]
  · simp [flush, empty]
  · simp [flush, empty]

/-- Nothing is lost on the way: what is not passed on at once is held. -/
theorem write_passedOn (written bytes : List UInt8) :
    ∃ delivered held, (passedOn written).write bytes = (none, ⟨none, delivered, held⟩) ∧
      (delivered ++ held).toList = written ++ bytes := by
  have whole := splitLines_append bytes
  unfold write
  cases split : splitLines bytes with
  | mk lines tail =>
    rw [split] at whole
    dsimp only at whole ⊢
    subst whole
    cases lines with
    | nil => exact ⟨written.toArray, #[] ++ tail, rfl, by simp⟩
    | cons byte lines =>
      have flushed : ((passedOn written).hold (byte :: lines)).flush =
          (none, ⟨none, written.toArray ++ (#[] ++ (byte :: lines)), #[]⟩) :=
        flush_accepting _ _
      simp only [List.isEmpty_cons, Bool.false_eq_true, if_false, flushed]
      exact ⟨_, _, rfl, by simp⟩

theorem print_passedOn (written bytes : List UInt8) :
    (passedOn written).print bytes = (none, passedOn (written ++ bytes)) := by
  obtain ⟨delivered, held, wrote, whole⟩ := write_passedOn written bytes
  unfold print
  rw [wrote]
  dsimp only
  rw [flush_accepting, passedOn, ← whole, Array.toArray_toList]

/-- A byte for a program's console is printed as a text of one byte. -/
theorem console_print_eq (output : Output) (byte : UInt8) :
    Console.print output byte = output.print [byte] := by
  have write : Console.write output byte = output.write [byte] := rfl
  unfold Console.print print
  rw [write]
  cases output.write [byte] with
  | mk fault next => cases fault <;> rfl

/-- Whether an output that had taken some bytes before has also taken those of a
transcript. -/
def Carries (before : List UInt8) (output : Output) (transcript : Transcript) : Prop :=
  output = passedOn (before ++ transcript.bytes.toList)

theorem carries_failAlike (before : List UInt8) : Console.FailAlike (Carries before) := by
  have print : ∀ output transcript byte, Carries before output transcript →
      Console.print output byte =
        (none, passedOn (before ++ (transcript.bytes.push byte).toList)) := by
    intro output transcript byte carries
    rw [show output = _ from carries, console_print_eq, print_passedOn, Array.toList_push,
      List.append_assoc]
  constructor
  · intro output transcript byte carries
    rw [print output transcript byte carries]
    rfl
  · intro output transcript byte carries
    rw [print output transcript byte carries]
    rfl

end Output

/-! ## Runs of images -/

section Loads

variable {Device : Type} [Console Device] {image : Image}

/-- An image that does not load is told of, and its console stays as it is. -/
theorem Run.ofImage_of_error {fault : Image.LoadFault} (loads : image.load Z80.fresh = .error fault)
    (limit : Nat) (name : String) (console : Device) (clockHz : Nat) :
    ofImage limit name image console clockHz = (.failed (.load fault), console) := by
  have refused : image.load (Machine.assemble Z80.fresh console).cpu = .error fault := loads
  unfold ofImage Machine.load
  rw [refused]
  rfl

theorem Run.ofImage_of_ok {cpu : Z80} (loads : image.load Z80.fresh = .ok cpu) (limit : Nat)
    (name : String) (console : Device) (clockHz : Nat) :
    ofImage limit name image console clockHz =
      (((Machine.assemble cpu console).run limit).1.map
          fun instructions => ⟨name, instructions, clockHz, .zero⟩,
        ((Machine.assemble cpu console).run limit).2.host.console) := by
  have accepted : image.load (Machine.assemble Z80.fresh console).cpu = .ok cpu := loads
  unfold ofImage Machine.load
  rw [accepted]
  rfl

end Loads

section Runs

variable {First Second : Type} [Console First] [Console Second]
  {related : First → Second → Prop}

theorem Run.ofImage_alike (consoles : Console.FailAlike related) {first : First}
    {second : Second} (tied : related first second) (limit : Nat) (name : String)
    (image : Image) (clockHz : Nat) :
    (ofImage limit name image first clockHz).1 = (ofImage limit name image second clockHz).1 ∧
      related (ofImage limit name image first clockHz).2
        (ofImage limit name image second clockHz).2 := by
  cases loads : image.load Z80.fresh with
  | error fault =>
    rw [ofImage_of_error loads, ofImage_of_error loads]
    exact ⟨rfl, tied⟩
  | ok cpu =>
    obtain ⟨state, finish⟩ := (Machine.Alike.assemble cpu tied).run consoles limit
    rw [ofImage_of_ok loads, ofImage_of_ok loads]
    exact ⟨congrArg (RunState.map _) state, finish.host.console⟩

theorem Run.ofFile_alike (consoles : Console.FailAlike related) {first : First}
    {second : Second} (tied : related first second) (limit : Nat) (files : Files)
    (path : Path) (clockHz : Nat) :
    (ofFile limit files path first clockHz).1 = (ofFile limit files path second clockHz).1 ∧
      related (ofFile limit files path first clockHz).2
        (ofFile limit files path second clockHz).2 := by
  unfold ofFile ofRead
  cases Image.read files path with
  | error fault => exact ⟨rfl, tied⟩
  | ok image => exact ofImage_alike consoles tied limit path.displayName image clockHz

end Runs

/-- On standard output a run goes as it does on a transcript, and the bytes that the
transcript holds come behind those written before. -/
theorem Run.ofFile_passedOn (limit : Nat) (files : Files) (path : Path)
    (written : List UInt8) (clockHz : Nat) :
    ofFile limit files path (Output.passedOn written) clockHz =
      ((ofFile limit files path Transcript.empty clockHz).1,
        Output.passedOn
          (written ++ (ofFile limit files path Transcript.empty clockHz).2.bytes.toList)) := by
  have tied : Output.Carries written (Output.passedOn written) Transcript.empty := by
    simp [Output.Carries, Transcript.empty]
  obtain ⟨state, carries⟩ := ofFile_alike (Output.carries_failAlike written) tied limit files
    path clockHz
  exact Prod.ext state carries

end Cpm80
