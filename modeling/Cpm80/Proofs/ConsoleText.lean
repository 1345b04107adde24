import Cpm80.Proofs.Observation
import Cpm80.Proofs.Stepping

/-!
Contract: the text that a program leaves on its console, byte by byte of its growth.

Owns:
- what one step of a machine with a Z80 prints, on any console;
- the bounds of a request: ASCII only, a hundred bytes at most, one at most for a character;
- the text on a console that fails by plan, after any number of steps.

A console may refuse bytes at any time. What it shows is then less, and nothing else: the
bounds of a request hold of what is left of it too.

Does not own: which of the requested bytes are refused.
-/

namespace Cpm80

/-! ## What a request can be -/

theorem Ascii.spaced_lt {bytes : List UInt8} : ∀ byte ∈ spaced bytes, byte < 0x80 := by
  intro byte member
  obtain ⟨before, -, rfl⟩ := List.mem_map.mp member
  split
  · next small => exact small
  · decide

theorem Memory.length_string_le (memory : Memory) (address : UInt16) :
    (memory.string address).length ≤ 100 := by
  have cut := (List.takeWhile_sublist (p := (· != 0x24)) (l := memory.read address 100)).length_le
  rwa [length_read] at cut

/-- A system call prints at most a string, only for the two functions that print, and for
the function that prints a character no more than that. -/
structure Z80.RequestBounds (cpu : Z80) (text : List UInt8) : Prop where
  ascii : ∀ byte ∈ text, byte < 0x80
  length : text.length ≤ 100
  function : text ≠ [] → cpu.c = 2 ∨ cpu.c = 9
  character : cpu.c = 2 → text.length ≤ 1

namespace Z80.RequestBounds

theorem nil (cpu : Z80) : cpu.RequestBounds [] where
  ascii := by simp
  length := Nat.zero_le _
  function := by simp
  character _ := Nat.zero_le _

theorem systemOutput (cpu : Z80) : cpu.RequestBounds cpu.systemOutput := by
  by_cases character : cpu.c = 2
  · have text := systemOutput_character character
    refine ⟨Ascii.spaced_lt, ?_, fun _ => .inl character, fun _ => ?_⟩ <;>
      simp [text, Ascii.spaced]
  · by_cases string : cpu.c = 9
    · have text := systemOutput_string string
      refine ⟨Ascii.spaced_lt, ?_, fun _ => .inr string, fun other => absurd other character⟩
      rw [text, Ascii.spaced, List.length_map]
      exact cpu.memory.length_string_le _
    · have text : cpu.systemOutput = [] := by
        rw [Z80.systemOutput, if_neg character, if_neg string]
        rfl
      rw [text]
      exact nil cpu

/-- What is left of a request is in the same bounds. -/
theorem of_sublist {cpu : Z80} {text shown : List UInt8} (bounds : cpu.RequestBounds text)
    (sublist : shown.Sublist text) : cpu.RequestBounds shown where
  ascii byte member := bounds.ascii byte (sublist.subset member)
  length := Nat.le_trans sublist.length_le bounds.length
  function some := bounds.function fun none => some (List.sublist_nil.mp (none ▸ sublist))
  character function := Nat.le_trans sublist.length_le (bounds.character function)

end Z80.RequestBounds

/-! ## What a step prints -/

/-- What printing leaves on a console that fails by plan, in order, is some of what was printed. -/
theorem PlannedConsole.text_printAll_sublist (console : PlannedConsole)
    (bytes : List UInt8) :
    ∃ shown, shown.Sublist bytes ∧
      (Console.printAll console bytes).text.toList = console.text.toList ++ shown := by
  induction bytes generalizing console with
  | nil => exact ⟨[], .slnil, (List.append_nil _).symm⟩
  | cons byte bytes inductionHypothesis =>
    obtain ⟨shown, sublist, others⟩ := inductionHypothesis (Console.print console byte).2
    obtain ⟨-, -, first⟩ := PlannedConsole.print_snd console byte
    rw [Console.printAll_cons, others, first, List.append_assoc]
    split
    · exact ⟨shown, sublist.cons byte, rfl⟩
    · exact ⟨byte :: shown, sublist.cons_cons byte, rfl⟩

namespace Machine

section Steps

variable {Device : Type} [Console Device]

/-- Whether the next step carries out a port read. -/
def readsPort (machine : Machine Z80 Device) : Bool :=
  !machine.host.halted && machine.cpu.nextByte == 0xdb

/-- What the next step asks the console to print. -/
def printed (machine : Machine Z80 Device) : List UInt8 :=
  if machine.readsPort then machine.cpu.systemOutput else []

/-- On any console, failing or not, a step prints what it asks for and nothing else. -/
theorem next_console (machine : Machine Z80 Device) :
    machine.next.host.console = Console.printAll machine.host.console machine.printed := by
  cases ended : machine.host.halted with
  | true =>
    rw [next, step_halted ended]
    simp [printed, readsPort, ended]
  | false =>
    by_cases reads : machine.cpu.nextByte = 0xdb
    · have decoded := (Instruction.decode_eq_portRead_iff _).mpr reads
      have printed : machine.printed = machine.cpu.systemOutput := by
        simp [printed, readsPort, ended, reads]
      rw [printed, ← Z80.map_shown_requested, next_portRead decoded ended]
      exact Host.answer_console (machine.cpu.skip 2) machine.host
    · have printed : machine.printed = [] := by
        simp [printed, readsPort, reads]
      rw [printed, next, step_running ended]
      cases decoded : Instruction.decode machine.cpu.nextByte with
      | internal operation => rw [Z80.session_internal decoded]; rfl
      | portRead => exact absurd ((Instruction.decode_eq_portRead_iff _).mp decoded) reads
      | portWrite => rw [Z80.session_portWrite decoded]; rfl
      | unimplemented => rw [Z80.session_unimplemented decoded]; rfl

/-- How many of the first steps carry out a port read. -/
def portReads (start : Machine Z80 Device) (count : Nat) : Nat :=
  (List.range count).countP fun index => (start.after index).readsPort

theorem portReads_succ (start : Machine Z80 Device) (count : Nat) :
    start.portReads (count + 1) =
      start.portReads count + if (start.after count).readsPort then 1 else 0 := by
  rw [portReads, List.range_succ, List.countP_append, List.countP_singleton]
  rfl

end Steps

/-! ## The text on a console that fails by plan -/

def text {Cpu : Type} (machine : Machine Cpu PlannedConsole) : List UInt8 :=
  machine.host.console.text.toList

/-- What one step adds to the text: nothing unless it reads a port, and else a part of what a
system call may print. -/
structure Adds (machine : Machine Z80 PlannedConsole) (added : List UInt8) : Prop where
  text : machine.next.text = machine.text ++ added
  readsPort : added ≠ [] → machine.readsPort = true
  bounds : machine.cpu.RequestBounds added

theorem exists_adds (machine : Machine Z80 PlannedConsole) : ∃ added, machine.Adds added := by
  obtain ⟨added, sublist, text⟩ :=
    machine.host.console.text_printAll_sublist machine.printed
  rw [← next_console] at text
  refine ⟨added, text, ?reads, ?bounds⟩
  case reads =>
    intro some
    by_contra silent
    rw [printed, if_neg silent] at sublist
    exact some (List.sublist_nil.mp sublist)
  case bounds =>
    apply Z80.RequestBounds.of_sublist _ sublist
    unfold printed
    split
    · exact .systemOutput machine.cpu
    · exact .nil machine.cpu

/-- Every byte on the console is ASCII if none was there at first that is not, and there are
at most a hundred more for each port read. -/
theorem text_after (start : Machine Z80 PlannedConsole) (ascii : ∀ byte ∈ start.text, byte < 0x80)
    (count : Nat) :
    (∀ byte ∈ (start.after count).text, byte < 0x80) ∧
      (start.after count).text.length ≤ start.text.length + 100 * start.portReads count := by
  induction count with
  | zero => exact ⟨ascii, Nat.le_add_right _ _⟩
  | succ count inductionHypothesis =>
    obtain ⟨asciiBefore, length⟩ := inductionHypothesis
    obtain ⟨added, adds⟩ := (start.after count).exists_adds
    rw [after_succ, adds.text, portReads_succ]
    constructor
    · intro byte member
      exact (List.mem_append.mp member).elim (asciiBefore byte) (adds.bounds.ascii byte)
    · rw [List.length_append]
      by_cases silent : added = []
      · rw [silent, List.length_nil]
        omega
      · have atMost := adds.bounds.length
        rw [adds.readsPort silent, if_pos rfl]
        omega

/-- The text of a program only grows, by ASCII bytes: by none in a step that does not carry
out a port read with C at 2 or 9, by one at most if C is 2, by a hundred at most if C is
9, and so by no more than a hundred for each port read so far. This holds of every image,
of every pattern of failures, and past the faults of a run. -/
theorem console_text_grows (cpu : Z80) (image : Image) (plan : FaultPlan) (count : Nat) :
    let start := loaded cpu image (PlannedConsole.ofPlan plan)
    (∀ byte ∈ (start.after count).text, byte < 0x80) ∧
      (∃ added, (start.after (count + 1)).text = (start.after count).text ++ added ∧
        added.length ≤ 100 ∧
        (added ≠ [] → (start.after count).host.halted = false ∧
          (start.after count).cpu.nextByte = 0xdb ∧
          ((start.after count).cpu.c = 2 ∨ (start.after count).cpu.c = 9)) ∧
        ((start.after count).cpu.c = 2 → added.length ≤ 1)) ∧
      (start.after count).text.length ≤ 100 * start.portReads count := by
  intro start
  have empty : start.text = [] := by
    show (loaded cpu image (PlannedConsole.ofPlan plan)).text = []
    rw [loaded_eq]
    rfl
  have noneYet : ∀ byte ∈ start.text, byte < 0x80 := by simp [empty]
  obtain ⟨ascii, length⟩ := start.text_after noneYet count
  rw [empty, List.length_nil, Nat.zero_add] at length
  obtain ⟨added, text, reads, bounds⟩ := (start.after count).exists_adds
  refine ⟨ascii, ⟨added, ?_, bounds.length, ?_, bounds.character⟩, length⟩
  · rw [after_succ, text]
  · intro some
    have read := reads some
    simp only [readsPort, Bool.and_eq_true, Bool.not_eq_true', beq_iff_eq] at read
    exact ⟨read.1, read.2, bounds.function some⟩

end Machine

end Cpm80
