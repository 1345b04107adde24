import Cpm80.Proofs.ConsoleText
import Cpm80.Proofs.StandardOutput

/-!
Contract: runs on a console that refuses every byte, beside the same runs on a transcript.

Owns:
- consoles that refuse everything, and hosts that were asked to print on them;
- a run on such a console, which goes as on a transcript until something is printed, and
  ends there;
- standard output that refuses everything, as such a console.

Does not own: what is printed around a run.
-/

namespace Cpm80

/-! ## Consoles that refuse everything -/

/-- A transcript is only as it was if nothing has been printed on it. -/
theorem Transcript.eq_nil_of_printAll {transcript : Transcript} {text : List UInt8}
    (same : Console.printAll transcript text = transcript) : text = [] := by
  have bytes := transcript.toList_printAll text
  rw [same] at bytes
  exact List.self_eq_append_right.1 bytes

/-- Whatever has been printed, the next byte is refused too, always for the same reason. -/
def Console.Refuses {Device : Type} [Console Device] (fault : ConsoleFault) (device : Device) :
    Prop :=
  ∀ bytes byte, (print (printAll device bytes) byte).1 = some fault

section Hosts

variable {Device : Type} [Console Device] {fault : ConsoleFault} {transcript : Transcript}
  {device : Device} {text : List UInt8} {left : Host Transcript} {right : Host Device}

/-- Hosts that differ in nothing but their consoles, behind a text that the one console has
taken and the other one refused. -/
structure Host.Refused (fault : ConsoleFault) (transcript : Transcript) (device : Device)
    (text : List UInt8) (left : Host Transcript) (right : Host Device) : Prop where
  taken : left.console = Console.printAll transcript text
  refused : right.console = Console.printAll device text
  halted : left.halted = right.halted
  clear : left.fault = none
  kept : right.fault = if text = [] then none else some fault

namespace Host.Refused

theorem emit (refuses : Console.Refuses fault device)
    (behind : Host.Refused fault transcript device text left right) (byte : UInt8) :
    Host.Refused fault transcript device (text ++ [Ascii.shown byte]) (left.emit byte)
      (right.emit byte) where
  taken := by
    rw [emit_console, behind.taken, Console.printAll_append]
    rfl
  refused := by
    rw [emit_console, behind.refused, Console.printAll_append]
    rfl
  halted := behind.halted
  clear := by
    rw [emit_fault, behind.clear]
    rfl
  kept := by
    have some : text ++ [Ascii.shown byte] ≠ [] := by simp
    rw [emit_fault, behind.kept, behind.refused, refuses text, if_neg some]
    -- A failure that was kept before is the same one.
    split <;> rfl

theorem foldl_emit (refuses : Console.Refuses fault device)
    (behind : Host.Refused fault transcript device text left right) (bytes : List UInt8) :
    ∃ further, Host.Refused fault transcript device further (bytes.foldl Host.emit left)
      (bytes.foldl Host.emit right) := by
  induction bytes generalizing left right text with
  | nil => exact ⟨text, behind⟩
  | cons byte bytes inductionHypothesis => exact inductionHypothesis (behind.emit refuses byte)

theorem keeps {Cpu : Type} [Processor Cpu] (refuses : Console.Refuses fault device) :
    Host.Keeps Cpu fun left right =>
      ∃ text, Host.Refused fault transcript device text left right where
  answer cpu _ _ := fun ⟨_, behind⟩ => behind.foldl_emit refuses (requested cpu)
  halt _ _ := fun ⟨text, behind⟩ =>
    ⟨text, behind.taken, behind.refused, rfl, behind.clear, behind.kept⟩

end Host.Refused

end Hosts

/-! ## Machines -/

namespace Machine

theorem step_of_told {Device : Type} [Console Device] {machine : Machine Z80 Device}
    {told : Option RunFault} (result : machine.step.1 = told) :
    machine.step = (told, machine.next) :=
  Prod.ext result rfl

/-- Behind its first step a run changes a console by printing alone. -/
theorem exists_text_run_succ (machine : Machine Z80 Transcript) (limit : Nat) :
    ∃ text, (machine.run (limit + 1)).2.host.console =
      Console.printAll machine.next.host.console text := by
  induction limit generalizing machine with
  | zero =>
    refine ⟨[], ?_⟩
    rw [Machine.run]
    unfold next
    cases machine.step with
    | mk told next =>
      cases told with
      | some fault => rfl
      | none =>
        dsimp only
        split <;> rfl
  | succ limit inductionHypothesis =>
    cases told : machine.step.1 with
    | some fault =>
      rw [run_succ_failed (step_of_told told)]
      exact ⟨[], rfl⟩
    | none =>
      have step := step_of_told told
      cases halted : machine.next.host.halted with
      | true =>
        rw [run_succ_halted step halted]
        exact ⟨[], rfl⟩
      | false =>
        obtain ⟨text, further⟩ := inductionHypothesis machine.next
        rw [run_succ_running step halted, further, next_console, ← Console.printAll_append]
        exact ⟨_, rfl⟩

/-- Machines that differ in nothing but their consoles, and keep no failure of them. -/
structure Beside {Device : Type} (left : Machine Z80 Transcript) (right : Machine Z80 Device) :
    Prop where
  cpu : left.cpu = right.cpu
  halted : left.host.halted = right.host.halted
  leftClear : left.host.fault = none
  rightClear : right.host.fault = none
  instructions : left.instructions = right.instructions

namespace Beside

variable {Device : Type} [Console Device] {left : Machine Z80 Transcript}
  {right : Machine Z80 Device} {fault : ConsoleFault}

/-- A step that prints nothing is the same on both sides. One that prints fails where the
text is refused. -/
theorem step (beside : Beside left right)
    (refuses : Console.Refuses fault right.host.console) :
    ∃ text, left.next.host.console = Console.printAll left.host.console text ∧
      right.next.host.console = Console.printAll right.host.console text ∧
      (text = [] → left.step.1 = right.step.1 ∧ Beside left.next right.next) ∧
      (text ≠ [] → right.step.1 = some (.console fault)) := by
  unfold next
  cases ended : right.host.halted with
  | true =>
    rw [step_halted (beside.halted.trans ended), step_halted ended]
    exact ⟨[], rfl, rfl, fun _ => ⟨rfl, beside⟩, fun some => absurd rfl some⟩
  | false =>
    have leftRuns : left.host.halted = false := beside.halted.trans ended
    have start : Host.Refused fault left.host.console right.host.console [] left.host right.host :=
      ⟨rfl, rfl, beside.halted, beside.leftClear, beside.rightClear⟩
    have sessions := Session.run_related (Host.Refused.keeps refuses)
      (Processor.step right.cpu) ⟨[], start⟩
    cases onRight : (Processor.step right.cpu).run Host.ports right.host with
    | mk cpu ending host =>
      cases onLeft : (Processor.step right.cpu).run Host.ports left.host with
      | mk leftCpu leftEnding leftHost =>
        rw [onLeft, onRight] at sessions
        obtain ⟨sameCpu, sameEnding, text, hosts⟩ := sessions
        dsimp only at sameCpu sameEnding hosts
        subst sameCpu sameEnding
        rw [← beside.cpu] at onLeft
        cases leftEnding with
        | some execution =>
          rw [step_of_failed leftRuns onLeft, step_of_failed ended onRight]
          -- A step that fails has not turned to its ports, so it has printed nothing.
          have untouched := Z80.state_of_fault (congrArg Session.Ending.fault onLeft)
          rw [onLeft] at untouched
          have silent : text = [] := by
            apply Transcript.eq_nil_of_printAll
            rw [← hosts.taken]
            exact congrArg Host.console untouched
          refine ⟨text, hosts.taken, hosts.refused, fun _ => ⟨rfl, ?_⟩,
            fun some => absurd silent some⟩
          have clear : host.fault = none := by rw [hosts.kept, if_pos silent]
          exact ⟨rfl, hosts.halted, hosts.clear, clear, beside.instructions⟩
        | none =>
          rw [step_of_completed leftRuns onLeft, step_of_completed ended onRight, hosts.clear,
            hosts.kept]
          refine ⟨text, hosts.taken, hosts.refused, fun none => ?_, fun some => ?_⟩
          · rw [if_pos none]
            exact ⟨rfl, rfl, hosts.halted, rfl, rfl, congrArg (· + 1) beside.instructions⟩
          · rw [if_neg some]
            rfl

/-- A run that prints nothing is the same on both sides. One that prints ends with the
failure where the text is refused, however it goes on where it is taken. -/
theorem run (beside : Beside left right) (refuses : Console.Refuses fault right.host.console)
    {limit : Nat} (ended : (left.run limit).1 ≠ .running) :
    ∃ text printed,
      (left.run limit).2.host.console = Console.printAll left.host.console text ∧
      (right.run limit).2.host.console = Console.printAll right.host.console printed ∧
      (right.run limit).1 = if text = [] then (left.run limit).1 else .failed (.console fault) := by
  induction limit generalizing left right with
  | zero => exact absurd rfl ended
  | succ limit inductionHypothesis =>
    obtain ⟨text, taken, refused, silent, told⟩ := beside.step refuses
    by_cases none : text = []
    · subst none
      obtain ⟨same, beside⟩ := silent rfl
      cases result : right.step.1 with
      | some ending =>
        rw [run_succ_failed (step_of_told (same.trans result)),
          run_succ_failed (step_of_told result)]
        exact ⟨[], [], taken, refused, rfl⟩
      | none =>
        have onLeft := step_of_told (same.trans result)
        have onRight := step_of_told result
        cases halted : right.next.host.halted with
        | true =>
          rw [run_succ_halted onLeft (beside.halted.trans halted),
            run_succ_halted onRight halted, beside.instructions]
          exact ⟨[], [], taken, refused, rfl⟩
        | false =>
          have leftRuns := beside.halted.trans halted
          rw [run_succ_running onLeft leftRuns] at ended ⊢
          rw [run_succ_running onRight halted]
          rw [Console.printAll_nil] at taken refused
          rw [← taken, ← refused]
          exact inductionHypothesis beside (refused ▸ refuses) ended
    · have fails := told none
      obtain ⟨further, rest⟩ := left.exists_text_run_succ limit
      rw [taken, ← Console.printAll_append] at rest
      rw [run_succ_failed (step_of_told fails)]
      have some : text ++ further ≠ [] := fun all => none (List.append_eq_nil_iff.1 all).1
      exact ⟨text ++ further, text, rest, refused, (if_neg some).symm⟩

end Beside

end Machine

/-! ## Runs of images -/

namespace Run

variable {Device : Type} [Console Device] {fault : ConsoleFault} {device : Device}
  {limit clockHz : Nat} {state : RunState Report} {transcript : Transcript}

theorem ofImage_refused (refuses : Console.Refuses fault device) {name : String} {image : Image}
    (ends : ofImage limit name image Transcript.empty clockHz = (state, transcript))
    (ended : state ≠ .running) :
    ∃ printed, ofImage limit name image device clockHz =
      (if transcript = .empty then state else .failed (.console fault),
        Console.printAll device printed) := by
  cases loads : image.load Z80.fresh with
  | error refusal =>
    rw [ofImage_of_error loads] at ends ⊢
    obtain ⟨rfl, rfl⟩ := Prod.mk.inj ends
    exact ⟨[], rfl⟩
  | ok cpu =>
    rw [ofImage_of_ok loads] at ends ⊢
    obtain ⟨rfl, rfl⟩ := Prod.mk.inj ends
    have start : Machine.Beside (Machine.assemble cpu Transcript.empty)
        (Machine.assemble cpu device) :=
      ⟨rfl, rfl, rfl, rfl, rfl⟩
    obtain ⟨text, printed, taken, refused, result⟩ :=
      start.run refuses fun same => ended (congrArg (RunState.map _) same)
    have console : ((Machine.assemble cpu Transcript.empty).run limit).2.host.console =
        Console.printAll Transcript.empty text := taken
    refine ⟨printed, Prod.ext ?_ refused⟩
    rw [result, console]
    by_cases silent : text = []
    · subst silent
      rfl
    · have another : Console.printAll Transcript.empty text ≠ Transcript.empty :=
        fun same => silent (Transcript.eq_nil_of_printAll same)
      rw [if_neg silent]
      exact (if_neg another).symm

theorem ofFile_refused (refuses : Console.Refuses fault device) {files : Files} {path : Path}
    (ends : ofFile limit files path Transcript.empty clockHz = (state, transcript))
    (ended : state ≠ .running) :
    ∃ printed, ofFile limit files path device clockHz =
      (if transcript = .empty then state else .failed (.console fault),
        Console.printAll device printed) := by
  unfold ofFile ofRead at ends ⊢
  cases found : Image.read files path with
  | error refusal =>
    rw [found] at ends
    obtain ⟨rfl, rfl⟩ := Prod.mk.inj ends
    exact ⟨[], rfl⟩
  | ok image =>
    rw [found] at ends
    exact ofImage_refused refuses ends ended

end Run

/-! ## Standard output that refuses everything -/

namespace Output

/-- Standard output that refuses everything for one reason, and has passed on nothing. -/
def Refusing (cause : ConsoleFault) (output : Output) : Prop :=
  output.refusal = some cause ∧ output.delivered = #[]

/-- The same with something that it holds back, and tries in vain to pass on. -/
def Stuck (cause : ConsoleFault) (output : Output) : Prop :=
  output.Refusing cause ∧ output.held ≠ #[]

variable {cause : ConsoleFault} {output : Output}

theorem refusing_fresh (cause : ConsoleFault) : (fresh (some cause)).Refusing cause :=
  ⟨rfl, rfl⟩

theorem flush_stuck (stuck : output.Stuck cause) : output.flush = (some cause, output) := by
  obtain ⟨refusal, delivered, held⟩ := output
  obtain ⟨⟨refuses, -⟩, holds⟩ := stuck
  dsimp only at refuses holds
  simp [flush, refuses, holds]

theorem stuck_hold (refusing : output.Refusing cause) {bytes : List UInt8}
    (anything : bytes ≠ [] ∨ output.held ≠ #[]) : (output.hold bytes).Stuck cause := by
  refine ⟨refusing, fun nothing => ?_⟩
  have both : output.held.toList ++ bytes = [] := by
    rw [← Array.toList_appendList]
    exact congrArg Array.toList nothing
  rw [List.append_eq_nil_iff, Array.toList_eq_nil_iff] at both
  exact anything.elim (absurd both.2) (absurd both.1)

/-- Printing fails if there is anything to pass on, new or held before, and the output is stuck
from then on. -/
theorem print_refusing (refusing : output.Refusing cause) {bytes : List UInt8}
    (anything : bytes ≠ [] ∨ output.held ≠ #[]) :
    ∃ stuck : Output, stuck.Stuck cause ∧ output.print bytes = (some cause, stuck) := by
  have whole := splitLines_append bytes
  unfold print write
  cases split : splitLines bytes with
  | mk lines tail =>
    rw [split] at whole
    dsimp only at whole ⊢
    subst whole
    cases lines with
    | nil =>
      have held : (output.hold tail).Stuck cause := stuck_hold refusing anything
      simp only [List.isEmpty_nil, if_true]
      by_cases line : output.held.back? == some newline
      · -- A complete line is waiting already, so that nothing more is taken.
        have stuck : output.Stuck cause := by
          refine ⟨refusing, fun none => ?_⟩
          rw [none] at line
          contradiction
        rw [if_pos line, flush_stuck stuck]
        exact ⟨output, stuck, rfl⟩
      · rw [if_neg line]
        dsimp only
        rw [flush_stuck held]
        exact ⟨_, held, rfl⟩
    | cons byte lines =>
      have stuck : (output.hold (byte :: lines)).Stuck cause :=
        stuck_hold refusing (.inl (List.cons_ne_nil byte lines))
      simp only [List.isEmpty_cons, Bool.false_eq_true, if_false, flush_stuck stuck]
      exact ⟨_, stuck, rfl⟩

/-- However much is printed on an output that is stuck, it stays so. -/
theorem stuck_printAll (stuck : output.Stuck cause) (bytes : List UInt8) :
    (Console.printAll output bytes).Stuck cause := by
  induction bytes generalizing output with
  | nil => exact stuck
  | cons byte bytes inductionHypothesis =>
    obtain ⟨next, stuckNext, printed⟩ :=
      print_refusing stuck.1 (.inl (List.cons_ne_nil byte []))
    rw [Console.printAll_cons, console_print_eq, printed]
    exact inductionHypothesis stuckNext

theorem refuses_of_stuck (stuck : output.Stuck cause) : Console.Refuses cause output := by
  intro bytes byte
  obtain ⟨_, -, printed⟩ :=
    print_refusing (stuck_printAll stuck bytes).1 (.inl (List.cons_ne_nil byte []))
  rw [console_print_eq, printed]

end Output

end Cpm80
