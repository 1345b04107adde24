import Cpm80.Proofs.Likeness
import Cpm80.Proofs.Stepping
import Cpm80.Scripted

/-!
Contract: when a machine tells of the failures of its console.

Owns:
- a console that keeps a record of its failures, which changes nothing else;
- the failures of each step, and which of them the host keeps;
- the steps that tell of a failure, and the failures that wait for a later step.

A step that the processor completes tells of the first failure that nobody has told
of. A step that ends in an execution fault tells of that fault alone: a failure of
the console in the same step waits, and a later step tells of it as if it were its
own. On a Z80 this does not happen, since an instruction that faults turns to no port.

Does not own: which bytes a console takes, or what is printed.
-/

namespace Cpm80

/-! ## Recorded consoles -/

/-- A console with the failures of its calls so far, in order. -/
structure Recorded (Device : Type) where
  device : Device
  failures : List ConsoleFault

namespace Recorded

variable {Device : Type}

def ofDevice (device : Device) : Recorded Device where
  device := device
  failures := []

/-- Puts down the failure of a call, if it failed. -/
def note (recorded : Recorded Device) :
    Option ConsoleFault × Device → Option ConsoleFault × Recorded Device
  | (failure, device) => (failure, ⟨device, recorded.failures ++ failure.toList⟩)

variable [Console Device]

instance : Console (Recorded Device) where
  write recorded byte := recorded.note (Console.write recorded.device byte)
  flush recorded := recorded.note (Console.flush recorded.device)

/-- Printing fails at most once: a byte that was refused is not flushed. -/
theorem print_eq (recorded : Recorded Device) (byte : UInt8) :
    Console.print recorded byte = recorded.note (Console.print recorded.device byte) := by
  obtain ⟨device, failures⟩ := recorded
  have write : Console.write (⟨device, failures⟩ : Recorded Device) byte =
      note ⟨device, failures⟩ (Console.write device byte) := rfl
  unfold Console.print
  rw [write]
  cases Console.write device byte with
  | mk failure next =>
    cases failure with
    | some failure => rfl
    | none =>
      show note ⟨next, failures ++ []⟩ (Console.flush next) = _
      rw [List.append_nil]
      rfl

/-- Whether a record belongs to a console as it is now. -/
def Records (recorded : Recorded Device) (device : Device) : Prop :=
  recorded.device = device

/-- A recorded console fails just as the console itself. -/
theorem records_failAlike : Console.FailAlike (@Records Device) where
  keeps recorded device byte records := by
    rw [print_eq, show recorded.device = device from records]
    rfl
  same recorded device byte records := by
    rw [print_eq, show recorded.device = device from records]
    rfl

end Recorded

/-! ## Failures that the host keeps -/

namespace Host

variable {Device : Type}

/-- From one host to a later one the console has failed in some ways, and the host
keeps the first of them unless it kept a failure before. -/
structure Gathers (before after : Host (Recorded Device)) (failures : List ConsoleFault) :
    Prop where
  recorded : after.console.failures = before.console.failures ++ failures
  kept : after.fault = before.fault.or failures.head?

namespace Gathers

variable {before middle after : Host (Recorded Device)} {first second : List ConsoleFault}

theorem refl (host : Host (Recorded Device)) : Gathers host host [] where
  recorded := by simp
  kept := by simp

theorem trans (former : Gathers before middle first) (latter : Gathers middle after second) :
    Gathers before after (first ++ second) where
  recorded := by rw [latter.recorded, former.recorded, List.append_assoc]
  kept := by rw [latter.kept, former.kept, List.head?_append, Option.or_assoc]

variable [Console Device]

theorem emit (host : Host (Recorded Device)) (byte : UInt8) :
    Gathers host (host.emit byte)
      (Console.print host.console.device (Ascii.shown byte)).1.toList where
  recorded := by
    rw [emit_console, Recorded.print_eq]
    rfl
  kept := by
    rw [emit_fault, Recorded.print_eq]
    cases Console.print host.console.device (Ascii.shown byte) with
    | mk failure device => cases failure <;> rfl

theorem foldl_emit (host : Host (Recorded Device)) (bytes : List UInt8) :
    ∃ failures, Gathers host (bytes.foldl Host.emit host) failures := by
  induction bytes generalizing host with
  | nil => exact ⟨[], refl host⟩
  | cons byte bytes inductionHypothesis =>
    obtain ⟨failures, others⟩ := inductionHypothesis (host.emit byte)
    exact ⟨_, (emit host byte).trans others⟩

/-- Whatever a step of a processor does to its ports, in whatever order. -/
theorem session {Cpu : Type} [Processor Cpu] (session : Session Cpu)
    (host : Host (Recorded Device)) :
    ∃ failures, Gathers host (session.run Host.ports host).state failures := by
  induction session generalizing host with
  | finished cpu fault => exact ⟨[], refl host⟩
  | portRead port seen resume inductionHypothesis =>
    obtain ⟨first, answered⟩ := foldl_emit host (requested seen)
    obtain ⟨second, others⟩ := inductionHypothesis 0 (answer seen host).2
    exact ⟨first ++ second, answered.trans others⟩
  | portWrite port value rest inductionHypothesis =>
    obtain ⟨failures, others⟩ := inductionHypothesis host.halt
    exact ⟨failures, others.recorded, others.kept⟩

end Gathers

end Host

namespace Machine

variable {Cpu Device : Type} [Processor Cpu] [Console Device]

/-! ## Failures in the course of a machine -/

/-- The failures of the console in the steps from one number on and before another. -/
def failuresBetween (start : Machine Cpu (Recorded Device)) (first last : Nat) :
    List ConsoleFault :=
  (start.after last).host.console.failures.drop
    (start.after first).host.console.failures.length

/-- The ways in which a step can go. It does nothing after the end of the program. It
ends in an execution fault, and what the console failed at is kept. Or it is counted,
tells of the first failure that was kept or has come now, and leaves none. -/
inductive StepCase (machine : Machine Cpu (Recorded Device)) (failures : List ConsoleFault) :
    Prop where
  | ended (told : machine.step.1 = none) (nothing : failures = [])
      (unchanged : machine.next = machine)
  | faulted (fault : ExecutionFault) (told : machine.step.1 = some (.execution fault))
      (counted : machine.next.instructions = machine.instructions)
      (kept : machine.next.host.fault = machine.host.fault.or failures.head?)
  | completed (told : machine.step.1 = (machine.host.fault.or failures.head?).map .console)
      (cleared : machine.next.host.fault = none)

theorem step_cases (machine : Machine Cpu (Recorded Device)) :
    ∃ failures, machine.next.host.console.failures =
        machine.host.console.failures ++ failures ∧
      StepCase machine failures := by
  cases ended : machine.host.halted with
  | true =>
    have step := step_halted ended
    have unchanged : machine.next = machine := congrArg Prod.snd step
    refine ⟨[], ?_, .ended (congrArg Prod.fst step) rfl unchanged⟩
    rw [unchanged, List.append_nil]
  | false =>
    obtain ⟨failures, gathers⟩ :=
      Host.Gathers.session (Processor.step machine.cpu) machine.host
    refine ⟨failures, ?_⟩
    cases ends : (Processor.step machine.cpu).run Host.ports machine.host with
    | mk cpu fault host =>
      rw [ends] at gathers
      cases fault with
      | some fault =>
        have step := step_of_failed ended ends
        have told := congrArg Prod.fst step
        have next : machine.next = _ := congrArg Prod.snd step
        rw [next]
        refine ⟨gathers.recorded, .faulted fault told ?_ ?_⟩
        · rw [next]
        · rw [next]
          exact gathers.kept
      | none =>
        have step := step_of_completed ended ends
        have told := congrArg Prod.fst step
        have next : machine.next = _ := congrArg Prod.snd step
        rw [gathers.kept] at told
        rw [next]
        refine ⟨gathers.recorded, .completed told ?_⟩
        rw [next]

section Courses

variable (start : Machine Cpu (Recorded Device))

theorem stepCase (count : Nat) :
    StepCase (start.after count) (start.failuresBetween count (count + 1)) := by
  obtain ⟨failures, recorded, stepCase⟩ := step_cases (start.after count)
  rw [failuresBetween, after_succ, recorded, List.drop_left]
  exact stepCase

/-- The record only grows. -/
theorem failures_after {first last : Nat} (ordered : first ≤ last) :
    (start.after last).host.console.failures =
      (start.after first).host.console.failures ++ start.failuresBetween first last := by
  have grows : ∃ failures, (start.after last).host.console.failures =
      (start.after first).host.console.failures ++ failures := by
    induction ordered with
    | refl => exact ⟨[], (List.append_nil _).symm⟩
    | @step last _ inductionHypothesis =>
      obtain ⟨former, before⟩ := inductionHypothesis
      obtain ⟨failures, recorded, -⟩ := step_cases (start.after last)
      refine ⟨former ++ failures, ?_⟩
      rw [after_succ, recorded, before, List.append_assoc]
  obtain ⟨failures, recorded⟩ := grows
  rw [failuresBetween, recorded, List.drop_left]

theorem failuresBetween_succ {first last : Nat} (ordered : first ≤ last) :
    start.failuresBetween first (last + 1) =
      start.failuresBetween first last ++ start.failuresBetween last (last + 1) := by
  have whole := start.failures_after (Nat.le_succ_of_le ordered)
  rw [start.failures_after (Nat.le_succ last), start.failures_after ordered,
    List.append_assoc] at whole
  exact (List.append_cancel_left whole).symm

/-- What is kept after some steps is the first failure since some number of steps at
which none was kept. No step has been counted since. -/
def KeepsSince (first last : Nat) : Prop :=
  first ≤ last ∧ (start.after first).host.fault = none ∧
    (start.after first).instructions = (start.after last).instructions ∧
    (start.after last).host.fault = (start.failuresBetween first last).head?

variable {start}

theorem exists_keepsSince (clear : start.host.fault = none) (count : Nat) :
    ∃ first, start.KeepsSince first count := by
  have fresh : ∀ last, (start.after last).host.fault = none → start.KeepsSince last last := by
    intro last none
    refine ⟨Nat.le_refl last, none, rfl, ?_⟩
    rw [none, failuresBetween, List.drop_length]
    rfl
  induction count with
  | zero => exact ⟨0, fresh 0 clear⟩
  | succ count inductionHypothesis =>
    obtain ⟨first, ordered, none, counted, kept⟩ := inductionHypothesis
    have split := start.failuresBetween_succ ordered
    rcases start.stepCase count with ⟨-, nothing, same⟩ | ⟨fault, -, same, keeps⟩ | ⟨-, cleared⟩
    · refine ⟨first, Nat.le_succ_of_le ordered, none, ?_, ?_⟩
      · rw [after_succ, same, counted]
      · rw [after_succ, same, kept, split, nothing, List.append_nil]
    · refine ⟨first, Nat.le_succ_of_le ordered, none, ?_, ?_⟩
      · rw [after_succ, same, counted]
      · rw [after_succ, keeps, kept, split, List.head?_append]
    · refine ⟨count + 1, fresh (count + 1) ?_⟩
      rw [after_succ, cleared]

end Courses

/-! ## Steps that tell of failures -/

/-- The failures of a console in some steps of the machine that begins with it, the
first of these steps by its number and the first one behind them. -/
def failuresIn (cpu : Cpu) (console : Device) (first last : Nat) : List ConsoleFault :=
  (assemble cpu (Recorded.ofDevice console)).failuresBetween first last

/-- The record is beside the machine: nothing else is different with it. -/
theorem alike_recorded (cpu : Cpu) (console : Device) (count : Nat) :
    Alike Recorded.Records ((assemble cpu (Recorded.ofDevice console)).after count)
      ((assemble cpu console).after count) := by
  have begins : Recorded.Records (Recorded.ofDevice console) console := rfl
  exact (Alike.assemble cpu begins).after Recorded.records_failAlike count

section Told

variable {start : Machine Cpu (Recorded Device)}

/-- What a step tells is the first failure since some number of steps at which none
was kept, and no step has been counted since. -/
theorem exists_first_of_told (clear : start.host.fault = none) {count : Nat}
    {fault : ConsoleFault} (told : start.outcome count = some (.console fault)) :
    ∃ first ≤ count, (start.after first).host.fault = none ∧
      (start.after first).instructions = (start.after count).instructions ∧
      (start.failuresBetween first (count + 1)).head? = some fault := by
  obtain ⟨first, ordered, none, counted, kept⟩ := exists_keepsSince clear count
  refine ⟨first, ordered, none, counted, ?_⟩
  rw [start.failuresBetween_succ ordered, List.head?_append, ← kept]
  rw [outcome] at told
  rcases start.stepCase count with ⟨silent, -, -⟩ | ⟨fault, other, -, -⟩ | ⟨now, -⟩
  · rw [silent] at told
    contradiction
  · rw [other] at told
    injection told with same
    contradiction
  · simpa [now] using told

/-- Failures are told of in their own step as long as no step that ends in an execution
fault has any. -/
theorem clear_and_told_of_quiet (clear : start.host.fault = none)
    (quiet : ∀ count fault, start.outcome count = some (.execution fault) →
      start.failuresBetween count (count + 1) = []) (count : Nat) :
    (start.after count).host.fault = none ∧
      ∀ fault, start.outcome count = some (.console fault) →
        (start.failuresBetween count (count + 1)).head? = some fault := by
  have clearAfter : (start.after count).host.fault = none := by
    induction count with
    | zero => exact clear
    | succ count inductionHypothesis =>
      rw [after_succ]
      rcases start.stepCase count with ⟨-, -, same⟩ | ⟨fault, told, -, keeps⟩ | ⟨-, cleared⟩
      · rw [same, inductionHypothesis]
      · rw [keeps, inductionHypothesis, quiet count fault told]
        rfl
      · exact cleared
  refine ⟨clearAfter, ?_⟩
  intro fault told
  rw [outcome] at told
  rcases start.stepCase count with ⟨silent, -, -⟩ | ⟨fault, other, -, -⟩ | ⟨now, -⟩
  · rw [silent] at told
    contradiction
  · rw [other] at told
    injection told with same
    contradiction
  · simpa [now, clearAfter] using told

/-- A step that ends in an execution fault and leaves no failure waiting has had none. -/
theorem quiet_of_clear {count : Nat} {fault : ExecutionFault}
    (told : start.outcome count = some (.execution fault))
    (clear : (start.after (count + 1)).host.fault = none) :
    start.failuresBetween count (count + 1) = [] := by
  rw [outcome] at told
  rw [after_succ] at clear
  rcases start.stepCase count with ⟨silent, -, -⟩ | ⟨fault, -, -, keeps⟩ | ⟨now, -⟩
  · rw [silent] at told
    contradiction
  · rw [keeps, Option.or_eq_none_iff] at clear
    exact List.head?_eq_none_iff.mp clear.2
  · rw [now] at told
    simp at told

end Told

/-- A Z80 is quiet: its faults come before it has turned to any port. -/
theorem quiet_z80 (start : Machine Z80 (Recorded Device)) {count : Nat} {fault : ExecutionFault}
    (told : start.outcome count = some (.execution fault)) :
    start.failuresBetween count (count + 1) = [] := by
  have same : (start.after count).next.host = (start.after count).host := by
    rw [outcome] at told
    cases ended : (start.after count).host.halted with
    | true =>
      rw [step_halted ended] at told
      contradiction
    | false =>
      cases ends : (Processor.step (start.after count).cpu).run Host.ports
          (start.after count).host with
      | mk cpu ending host =>
        cases ending with
        | none =>
          rw [step_of_completed ended ends] at told
          simp at told
        | some ending =>
          have unmoved := Z80.state_of_fault (congrArg Session.Ending.fault ends)
          rw [ends] at unmoved
          rw [next, step_of_failed ended ends]
          exact unmoved
  rw [failuresBetween, after_succ, same, List.drop_length]

/-- A step that tells of a console failure tells of the first one since some number of
steps at which none was waiting, with no step counted since. Every failure is told of
in its own step, and none ever waits for a later one, exactly if no step that ends
in an execution fault has a console failure in it. On a Z80 none has. -/
theorem failures_surface_iff (cpu : Cpu) (console : Device) :
    (∀ count fault, (assemble cpu console).outcome count = some (.console fault) →
        ∃ first ≤ count, ((assemble cpu console).after first).host.fault = none ∧
          ((assemble cpu console).after first).instructions =
            ((assemble cpu console).after count).instructions ∧
          (failuresIn cpu console first (count + 1)).head? = some fault) ∧
      ((∀ count,
          (∀ fault, (assemble cpu console).outcome count = some (.console fault) →
            (failuresIn cpu console count (count + 1)).head? = some fault) ∧
          ((assemble cpu console).after (count + 1)).host.fault = none) ↔
        ∀ count fault, (assemble cpu console).outcome count = some (.execution fault) →
          failuresIn cpu console count (count + 1) = []) ∧
      ∀ (z80 : Z80) count fault,
        (assemble z80 console).outcome count = some (.execution fault) →
          failuresIn z80 console count (count + 1) = [] := by
  have alike := alike_recorded cpu console
  have waiting : ∀ count, ((assemble cpu console).after count).host.fault =
      ((assemble cpu (Recorded.ofDevice console)).after count).host.fault :=
    fun count => (alike count).host.fault.symm
  have counted : ∀ count, ((assemble cpu console).after count).instructions =
      ((assemble cpu (Recorded.ofDevice console)).after count).instructions :=
    fun count => (alike count).instructions.symm
  have told : ∀ count, (assemble cpu console).outcome count =
      (assemble cpu (Recorded.ofDevice console)).outcome count :=
    fun count => ((alike count).step Recorded.records_failAlike).1.symm
  have toldOnZ80 : ∀ (z80 : Z80) count, (assemble z80 console).outcome count =
      (assemble z80 (Recorded.ofDevice console)).outcome count :=
    fun z80 count => ((alike_recorded z80 console count).step Recorded.records_failAlike).1.symm
  simp only [waiting, counted, told, toldOnZ80]
  refine ⟨fun _ _ told => exists_first_of_told rfl told, ⟨?quiet, ?surfaces⟩,
    fun _ _ _ told => quiet_z80 _ told⟩
  case quiet =>
    intro surfaces count fault told
    exact quiet_of_clear told (surfaces count).2
  case surfaces =>
    intro quiet count
    exact ⟨(clear_and_told_of_quiet rfl quiet count).2,
      (clear_and_told_of_quiet rfl quiet (count + 1)).1⟩

/-- A processor that prints and then faults, all in its first step. -/
def faultyPrinter : Scripted :=
  .ofScript [[.setRegister .c 2, .setRegister .e 0x5a, .portRead 0, .fault ⟨0xcb, 0x0102⟩]]

/-- A console that refuses the first byte. -/
def refusesFirst : PlannedConsole :=
  .ofPlan ⟨fun call => call == 1, fun _ => false⟩

/-- The byte is refused in the first step, which tells of its execution fault alone; the
second step, in which the console does not fail, tells of the refused byte. -/
theorem faultyPrinter_tells_late :
    (assemble faultyPrinter refusesFirst).outcome 0 = some (.execution ⟨0xcb, 0x0102⟩) ∧
      ((assemble faultyPrinter refusesFirst).after 1).host.fault = some (.writeRefused 1) ∧
      (assemble faultyPrinter refusesFirst).outcome 1 = some (.console (.writeRefused 1)) ∧
      failuresIn faultyPrinter refusesFirst 1 2 = [] :=
  ⟨rfl, rfl, rfl, rfl⟩

end Machine

end Cpm80
