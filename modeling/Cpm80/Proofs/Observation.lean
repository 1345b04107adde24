import Cpm80.Proofs.Course
import Cpm80.Proofs.Printing

/-!
Contract: what a processor and its machine can learn of the console, which is
nothing.

Owns:
- two machines in step with each other, on consoles that need not behave alike;
- the bytes that are left of a text where some of its writes are refused.

The two machines start with the same processor. Their consoles are tied together by
a relation that printing keeps. The relation that always holds says that a machine
does not observe its console; a finer one says what the consoles show.

Does not own: how a failure of the console ends a run.
-/

namespace Cpm80

section Lockstep

variable {Cpu First Second : Type} [Processor Cpu] {related : First → Second → Prop}

/-! ## Hosts and machines in step -/

/-- Hosts that have both ended or both not, on consoles that are tied together. -/
structure Host.InStep (related : First → Second → Prop) (left : Host First)
    (right : Host Second) : Prop where
  halted : left.halted = right.halted
  console : related left.console right.console

/-- Machines that differ in nothing but their consoles, which are tied together, and
in the failures that these have left behind. -/
structure Machine.InStep (related : First → Second → Prop) (left : Machine Cpu First)
    (right : Machine Cpu Second) : Prop where
  cpu : left.cpu = right.cpu
  host : Host.InStep related left.host right.host
  instructions : left.instructions = right.instructions

theorem Machine.InStep.loaded (cpu : Cpu) (image : Image) {first : First} {second : Second}
    (tied : related first second) :
    InStep related (Machine.loaded cpu image first) (Machine.loaded cpu image second) := by
  rw [loaded_eq, loaded_eq]
  exact ⟨rfl, ⟨rfl, tied⟩, rfl⟩

/-! ## Printing on both sides -/

variable [Console First] [Console Second]

/-- Whether a relation outlasts the printing of one byte on both sides. -/
def Console.Keeps (related : First → Second → Prop) : Prop :=
  ∀ first second byte, related first second →
    related (Console.print first byte).2 (Console.print second byte).2

theorem Console.Keeps.printAll (keeps : Console.Keeps related) {first : First} {second : Second}
    (tied : related first second) (bytes : List UInt8) :
    related (Console.printAll first bytes) (Console.printAll second bytes) := by
  induction bytes generalizing first second with
  | nil => exact tied
  | cons byte bytes inductionHypothesis =>
    exact inductionHypothesis (keeps first second byte tied)

theorem Host.InStep.answer (keeps : Console.Keeps related) {left : Host First}
    {right : Host Second} (inStep : Host.InStep related left right) (cpu : Cpu) :
    Host.InStep related (Host.answer cpu left).2 (Host.answer cpu right).2 where
  halted := by rw [Host.answer_halted, Host.answer_halted, inStep.halted]
  console := by
    rw [Host.answer_console, Host.answer_console]
    exact keeps.printAll inStep.console _

/-! ## Steps on both sides -/

/-- Whether a relation between hosts outlasts the system calls of a kind of processor,
and the end of the program. -/
structure Host.Keeps (Cpu : Type) [Processor Cpu]
    (related : Host First → Host Second → Prop) : Prop where
  answer : ∀ (cpu : Cpu) left right, related left right →
    related (Host.answer cpu left).2 (Host.answer cpu right).2
  halt : ∀ left right, related left right → related left.halt right.halt

/-- Every reply is zero, so that both sessions take the same way and end alike. -/
theorem Session.run_related {related : Host First → Host Second → Prop}
    (keeps : Host.Keeps Cpu related) (session : Session Cpu) {left : Host First}
    {right : Host Second} (tied : related left right) :
    (session.run Host.ports left).cpu = (session.run Host.ports right).cpu ∧
      (session.run Host.ports left).fault = (session.run Host.ports right).fault ∧
      related (session.run Host.ports left).state (session.run Host.ports right).state := by
  induction session generalizing left right with
  | finished cpu fault => exact ⟨rfl, rfl, tied⟩
  | portRead port seen resume inductionHypothesis =>
    exact inductionHypothesis 0 (keeps.answer seen left right tied)
  | portWrite port value rest inductionHypothesis =>
    exact inductionHypothesis (keeps.halt left right tied)

theorem Session.run_inStep (keeps : Console.Keeps related) (session : Session Cpu)
    {left : Host First} {right : Host Second} (inStep : Host.InStep related left right) :
    (session.run Host.ports left).cpu = (session.run Host.ports right).cpu ∧
      (session.run Host.ports left).fault = (session.run Host.ports right).fault ∧
      Host.InStep related (session.run Host.ports left).state
        (session.run Host.ports right).state := by
  have hosts : Host.Keeps Cpu (Host.InStep related) := by
    constructor
    · exact fun cpu _ _ tied => tied.answer keeps cpu
    · exact fun _ _ tied => ⟨rfl, tied.console⟩
  exact Session.run_related hosts session inStep

namespace Machine.InStep

variable {left : Machine Cpu First} {right : Machine Cpu Second}

/-- One step keeps machines in step, and an execution fault ends it on both sides
or on neither. -/
theorem step (keeps : Console.Keeps related) (inStep : InStep related left right) :
    InStep related left.next right.next ∧
      ∀ fault, left.step.1 = some (.execution fault) ↔
        right.step.1 = some (.execution fault) := by
  unfold next
  cases ended : right.host.halted with
  | true =>
    have leftEnded : left.host.halted = true := inStep.host.halted.trans ended
    rw [step_halted leftEnded, step_halted ended]
    exact ⟨inStep, fun _ => Iff.rfl⟩
  | false =>
    have leftRuns : left.host.halted = false := inStep.host.halted.trans ended
    have alike := Session.run_inStep keeps (Processor.step right.cpu) inStep.host
    rw [step_running leftRuns, step_running ended, inStep.cpu]
    cases onLeft : (Processor.step right.cpu).run Host.ports left.host with
    | mk leftCpu leftFault leftHost =>
      cases onRight : (Processor.step right.cpu).run Host.ports right.host with
      | mk rightCpu rightFault rightHost =>
        rw [onLeft, onRight] at alike
        obtain ⟨sameCpu, sameFault, hosts⟩ := alike
        subst sameCpu sameFault
        cases leftFault with
        | some fault => exact ⟨⟨rfl, hosts, inStep.instructions⟩, fun _ => Iff.rfl⟩
        | none =>
          refine ⟨⟨rfl, ⟨hosts.halted, hosts.console⟩, ?_⟩, ?_⟩
          · exact congrArg (· + 1) inStep.instructions
          · -- What such a step ends with comes from the console, on either side.
            intro fault
            simp

theorem after (keeps : Console.Keeps related) (inStep : InStep related left right)
    (count : Nat) : InStep related (left.after count) (right.after count) := by
  induction count with
  | zero => exact inStep
  | succ count inductionHypothesis =>
    rw [after_succ, after_succ]
    exact (inductionHypothesis.step keeps).1

end Machine.InStep

end Lockstep

/-! ## Refused writes -/

/-- What is left of a text of which each byte is written by a call of its own, the
first one by call one, where the plan refuses some of the calls. -/
def FaultPlan.accepted (plan : FaultPlan) (text : List UInt8) : List UInt8 :=
  ((text.zipIdx 1).filter fun entry => !plan.refusesWrite entry.2).map Prod.fst

theorem FaultPlan.accepted_append_singleton (plan : FaultPlan) (text : List UInt8)
    (byte : UInt8) :
    plan.accepted (text ++ [byte]) =
      plan.accepted text ++ if plan.refusesWrite (text.length + 1) then [] else [byte] := by
  unfold accepted
  rw [List.zipIdx_append, List.filter_append, List.map_append, Nat.add_comm 1]
  by_cases refused : plan.refusesWrite (text.length + 1) = true
  · simp [refused]
  · simp [refused]

namespace PlannedConsole

/-- Printing makes one write call, refused or not, and leaves the plan alone. A flush
that is refused takes nothing back. -/
theorem print_snd (console : PlannedConsole) (byte : UInt8) :
    (Console.print console byte).2.plan = console.plan ∧
      (Console.print console byte).2.writes = console.writes + 1 ∧
      (Console.print console byte).2.text.toList =
        console.text.toList ++
          if console.plan.refusesWrite (console.writes + 1) then [] else [byte] := by
  obtain ⟨plan, text, writes, flushes⟩ := console
  by_cases refused : plan.refusesWrite (writes + 1) = true
  · have write : Console.write (⟨plan, text, writes, flushes⟩ : PlannedConsole) byte =
        (some (.writeRefused (writes + 1)), ⟨plan, text, writes + 1, flushes⟩) := if_pos refused
    rw [Console.print, write]
    simp [refused]
  · have write : Console.write (⟨plan, text, writes, flushes⟩ : PlannedConsole) byte =
        (none, ⟨plan, text.push byte, writes + 1, flushes⟩) := if_neg refused
    rw [Console.print, write]
    show (PlannedConsole.flush _).2.plan = _ ∧ (PlannedConsole.flush _).2.writes = _ ∧
      (PlannedConsole.flush _).2.text.toList = _
    unfold PlannedConsole.flush
    by_cases refusedFlush : plan.refusesFlush (flushes + 1) = true <;>
      simp [refused, refusedFlush]

/-- A console that fails by plan, beside a transcript of all that was printed on it. -/
structure Beside (plan : FaultPlan) (planned : PlannedConsole) (full : Transcript) :
    Prop where
  plan_eq : planned.plan = plan
  writes_eq : planned.writes = full.bytes.size
  text_eq : planned.text.toList = plan.accepted full.bytes.toList

theorem Beside.keeps (plan : FaultPlan) : Console.Keeps (Beside plan) := by
  intro planned full byte beside
  obtain ⟨samePlan, oneMore, text⟩ := print_snd planned byte
  rw [Transcript.print_eq]
  constructor
  · rw [samePlan, beside.plan_eq]
  · rw [oneMore, beside.writes_eq, Array.size_push]
  · rw [text, beside.plan_eq, beside.writes_eq, beside.text_eq, Array.toList_push,
      FaultPlan.accepted_append_singleton, Array.length_toList]

end PlannedConsole

/-! ## The console is not observed -/

/-- A machine does not observe its console. With the same processor and image on any
two consoles, after any number of steps, going on after faults, the processor, the
end of the program and the count are the same, and so is every execution fault.
And where a console fails by plan, its text is the text of a console that never
fails without the bytes whose write was refused, byte by byte and call by call. -/
theorem Machine.console_unobserved {Cpu First Second : Type} [Processor Cpu] [Console First]
    [Console Second] (cpu : Cpu) (image : Image) (first : First) (second : Second)
    (plan : FaultPlan) (count : Nat) :
    ((loaded cpu image first).after count).cpu = ((loaded cpu image second).after count).cpu ∧
      ((loaded cpu image first).after count).host.halted =
        ((loaded cpu image second).after count).host.halted ∧
      ((loaded cpu image first).after count).instructions =
        ((loaded cpu image second).after count).instructions ∧
      (∀ fault, (loaded cpu image first).outcome count = some (.execution fault) ↔
        (loaded cpu image second).outcome count = some (.execution fault)) ∧
      ((loaded cpu image (PlannedConsole.ofPlan plan)).after count).host.console.writes =
        ((loaded cpu image Transcript.empty).after count).host.console.bytes.size ∧
      ((loaded cpu image (PlannedConsole.ofPlan plan)).after count).host.console.text.toList =
        plan.accepted
          ((loaded cpu image Transcript.empty).after count).host.console.bytes.toList := by
  have anyKeeps : Console.Keeps (fun (_ : First) (_ : Second) => True) := fun _ _ _ _ => trivial
  have inStep : InStep (fun _ _ => True) ((loaded cpu image first).after count)
      ((loaded cpu image second).after count) :=
    (InStep.loaded cpu image trivial).after anyKeeps count
  have beside : PlannedConsole.Beside plan (PlannedConsole.ofPlan plan) Transcript.empty :=
    ⟨rfl, rfl, rfl⟩
  have texts := ((InStep.loaded cpu image beside).after (PlannedConsole.Beside.keeps plan)
    count).host.console
  exact ⟨inStep.cpu, inStep.host.halted, inStep.instructions, (inStep.step anyKeeps).2,
    texts.writes_eq, texts.text_eq⟩

end Cpm80
