import Cpm80.Proofs.Observation
import Cpm80.Proofs.Stepping

/-!
Contract: machines that come back to a state of their processor.

Owns:
- the count of a machine, which no step depends on and none takes back;
- the course of a machine from such a state on, as the same round without an end;
- runs of such a machine, none of which ends by the program.

What has been printed, refused or counted between the two visits is not part of the state
that recurs, and need not recur.

Does not own: how a program comes to loop.
-/

namespace Cpm80.Machine

variable {Cpu Device : Type} [Processor Cpu]

/-! ## The count -/

/-- A machine that has counted so many instructions more. -/
def ahead (machine : Machine Cpu Device) (more : Nat) : Machine Cpu Device :=
  { machine with instructions := machine.instructions + more }

variable [Console Device]

theorem next_ahead (machine : Machine Cpu Device) (more : Nat) :
    (machine.ahead more).next = machine.next.ahead more := by
  unfold next
  cases ended : machine.host.halted with
  | true =>
    have aheadEnded : (machine.ahead more).host.halted = true := ended
    rw [step_halted aheadEnded, step_halted ended]
  | false =>
    have aheadRuns : (machine.ahead more).host.halted = false := ended
    cases ends : (Processor.step machine.cpu).run Host.ports machine.host with
    | mk cpu fault host =>
      cases fault with
      | some fault =>
        rw [step_of_failed ended ends, step_of_failed aheadRuns ends]
        rfl
      | none =>
        rw [step_of_completed ended ends, step_of_completed aheadRuns ends]
        show (⟨cpu, _, machine.instructions + more + 1⟩ : Machine Cpu Device) =
          ⟨cpu, _, machine.instructions + 1 + more⟩
        rw [Nat.add_right_comm]

theorem after_ahead (machine : Machine Cpu Device) (more count : Nat) :
    (machine.ahead more).after count = (machine.after count).ahead more := by
  induction count with
  | zero => rfl
  | succ count inductionHypothesis => rw [after_succ, inductionHypothesis, next_ahead, after_succ]

theorem instructions_le_next (machine : Machine Cpu Device) :
    machine.instructions ≤ machine.next.instructions := by
  cases ended : machine.host.halted with
  | true =>
    have same : machine.next = machine := congrArg Prod.snd (step_halted ended)
    exact Nat.le_of_eq (congrArg instructions same.symm)
  | false =>
    rw [next, step_running ended]
    split
    · exact Nat.le_refl _
    · exact Nat.le_succ _

theorem instructions_le_after (machine : Machine Cpu Device) (count : Nat) :
    machine.instructions ≤ (machine.after count).instructions := by
  induction count with
  | zero => exact Nat.le_refl _
  | succ count inductionHypothesis =>
    rw [after_succ]
    exact Nat.le_trans inductionHypothesis (instructions_le_next _)

/-- The instructions that are completed in so many steps. -/
def completedIn (machine : Machine Cpu Device) (count : Nat) : Nat :=
  (machine.after count).instructions - machine.instructions

/-! ## Runs of machines that do not end -/

/-- The end of the program is not undone. -/
theorem running_of_after {machine : Machine Cpu Device} {count : Nat}
    (running : (machine.after count).host.halted = false) : machine.host.halted = false := by
  by_contra ended
  rw [Bool.not_eq_false] at ended
  rw [after_halted ended, ended] at running
  contradiction

/-- A machine that runs after any number of steps has no run that ends by the program. -/
theorem run_ne_halted {machine : Machine Cpu Device}
    (running : ∀ count, (machine.after count).host.halted = false) (limit total : Nat) :
    (machine.run limit).1 ≠ .halted total := by
  induction limit generalizing machine with
  | zero => simp [run]
  | succ limit inductionHypothesis =>
    have nextRuns : machine.next.host.halted = false := running 1
    have others : ∀ count, (machine.next.after count).host.halted = false := by
      intro count
      have later := running (1 + count)
      rwa [after_add] at later
    cases told : machine.step with
    | mk fault finish =>
      have same : machine.next = finish := congrArg Prod.snd told
      subst same
      cases fault with
      | some fault =>
        rw [run_succ_failed told]
        simp
      | none =>
        rw [run_succ_running told nextRuns]
        exact inductionHypothesis others

/-! ## Rounds -/

/-- A machine that so many steps, one at least, lead back to the state of its processor,
without the end of the program. -/
structure Recurs (machine : Machine Cpu Device) (period : Nat) : Prop where
  positive : 1 ≤ period
  running : (machine.after period).host.halted = false
  returns : (machine.after period).cpu = machine.cpu

namespace Recurs

variable {machine : Machine Cpu Device} {period : Nat}

/-- A round later a machine is as it was, but for its console and the instructions of the
round. -/
theorem inStep (recurs : machine.Recurs period) (count : Nat) :
    InStep (fun _ _ => True) (machine.after (period + count))
      ((machine.after count).ahead (machine.completedIn period)) := by
  have anyKeeps : Console.Keeps (fun (_ _ : Device) => True) := fun _ _ _ _ => trivial
  have counted : (machine.after period).instructions =
      machine.instructions + machine.completedIn period :=
    (Nat.add_sub_of_le (machine.instructions_le_after period)).symm
  have begins : InStep (fun _ _ => True) (machine.after period)
      (machine.ahead (machine.completedIn period)) :=
    ⟨recurs.returns, ⟨recurs.running.trans (running_of_after recurs.running).symm, trivial⟩,
      counted⟩
  rw [after_add, ← after_ahead]
  exact begins.after anyKeeps count

theorem after_rounds (recurs : machine.Recurs period) (rounds : Nat) :
    (machine.after (rounds * period)).cpu = machine.cpu ∧
      (machine.after (rounds * period)).host.halted = false ∧
      (machine.after (rounds * period)).instructions =
        machine.instructions + rounds * machine.completedIn period := by
  induction rounds with
  | zero =>
    rw [Nat.zero_mul, Nat.zero_mul]
    exact ⟨rfl, running_of_after recurs.running, rfl⟩
  | succ rounds inductionHypothesis =>
    obtain ⟨cpu, running, instructions⟩ := inductionHypothesis
    have alike := recurs.inStep (rounds * period)
    rw [Nat.succ_mul, Nat.add_comm (rounds * period)]
    refine ⟨alike.cpu.trans cpu, alike.host.halted.trans running, ?_⟩
    rw [alike.instructions]
    show (machine.after (rounds * period)).instructions + _ = _
    rw [instructions, Nat.succ_mul, Nat.add_assoc]

/-- Some whole number of rounds takes longer than any number of steps. -/
theorem running_after (recurs : machine.Recurs period) (count : Nat) :
    (machine.after count).host.halted = false := by
  have enough : count ≤ count * period := Nat.le_mul_of_pos_right count recurs.positive
  have later := (recurs.after_rounds count).2.1
  rw [← Nat.add_sub_of_le enough, after_add] at later
  exact running_of_after later

end Recurs

/-- A machine that comes back to the state of its processor without the end of the program
never ends, on any console. After every round the processor is in that state and as many
instructions have been counted as in the first round, and no run ends by the program. -/
theorem never_ends_of_recurs {machine : Machine Cpu Device} {period : Nat}
    (recurs : machine.Recurs period) :
    (∀ count, (machine.after count).host.halted = false) ∧
      (∀ rounds, (machine.after (rounds * period)).cpu = machine.cpu ∧
        (machine.after (rounds * period)).instructions =
          machine.instructions +
            rounds * ((machine.after period).instructions - machine.instructions)) ∧
      ∀ limit total, (machine.run limit).1 ≠ .halted total := by
  refine ⟨recurs.running_after, ?_, run_ne_halted recurs.running_after⟩
  intro rounds
  obtain ⟨cpu, -, instructions⟩ := recurs.after_rounds rounds
  exact ⟨cpu, instructions⟩

/-- A Z80 in a loop of two instructions, one that prints and a jump back to it, whose console
refuses every second byte and never flushes. -/
def endlessPrinter : Machine Z80 PlannedConsole where
  cpu :=
    { Z80.fresh with
      a := 0
      c := 2
      e := 0x41
      memory := Memory.zeroed.storeAll 0x0000 [0xdb, 0x00, 0x18, 0xfc] }
  host := Host.ofConsole (.ofPlan ⟨fun call => call % 2 == 0, fun _ => true⟩)
  instructions := 0

theorem read_endlessPrinter :
    endlessPrinter.cpu.memory.read 0x0000 4 = [0xdb, 0x00, 0x18, 0xfc] :=
  Memory.read_storeAll _ 0x0000 [0xdb, 0x00, 0x18, 0xfc] (by decide)

theorem next_endlessPrinter :
    endlessPrinter.next =
      { cpu := endlessPrinter.cpu.skip 2
        host :=
          { (Host.answer (endlessPrinter.cpu.skip 2) endlessPrinter.host).2 with fault := none }
        instructions := 1 } := by
  have code := read_endlessPrinter
  simp only [Memory.read_succ_eq_cons] at code
  have reads : Instruction.decode endlessPrinter.cpu.nextByte = .portRead :=
    (Instruction.decode_eq_portRead_iff _).mpr code.1
  rw [next_portRead reads rfl]
  rfl

theorem running_next_endlessPrinter : endlessPrinter.next.host.halted = false := by
  rw [next_endlessPrinter]
  exact Host.answer_halted (endlessPrinter.cpu.skip 2) endlessPrinter.host

/-- The second step goes back to the first, on the console that this has left. -/
theorem after_two_endlessPrinter :
    endlessPrinter.after 2 =
      { endlessPrinter.next with cpu := endlessPrinter.cpu, instructions := 2 } := by
  have code := read_endlessPrinter
  simp only [Memory.read_succ_eq_cons] at code
  obtain ⟨-, -, jumps, back, -⟩ := code
  have cpu : endlessPrinter.next.cpu = endlessPrinter.cpu.skip 2 := by rw [next_endlessPrinter]
  have clear : endlessPrinter.next.host.fault = none := by rw [next_endlessPrinter]
  have counted : endlessPrinter.next.instructions = 1 := by rw [next_endlessPrinter]
  have decoded : Instruction.decode endlessPrinter.next.cpu.nextByte =
      .internal .jumpRelative := by
    rw [cpu, show (endlessPrinter.cpu.skip 2).nextByte = 0x18 from jumps, Instruction.decode_eq]
    rfl
  have target : Word.displace 4 ((endlessPrinter.cpu.skip 2).skip 1).nextByte = 0 := by
    rw [show ((endlessPrinter.cpu.skip 2).skip 1).nextByte = 0xfc from back]
    decide
  have returns : ((endlessPrinter.cpu.skip 2).skip 1).execute .jumpRelative =
      endlessPrinter.cpu := by
    show { endlessPrinter.cpu with
      pc := Word.displace 4 ((endlessPrinter.cpu.skip 2).skip 1).nextByte } = _
    rw [target]
    rfl
  have second := step_internal decoded running_next_endlessPrinter clear
  rw [after_succ, after_succ, after_zero, next, second, cpu, returns, counted]

theorem recurs_endlessPrinter : endlessPrinter.Recurs 2 where
  positive := by decide
  running := by
    rw [after_two_endlessPrinter]
    dsimp only
    exact running_next_endlessPrinter
  returns := by rw [after_two_endlessPrinter]

/-- Every other step ends in a failure of the console, and none ends the program. -/
theorem never_ends_of_recurs_endlessPrinter :
    endlessPrinter.Recurs 2 ∧ (∀ count, (endlessPrinter.after count).host.halted = false) ∧
      (∀ rounds, (endlessPrinter.after (rounds * 2)).cpu = endlessPrinter.cpu ∧
        (endlessPrinter.after (rounds * 2)).instructions =
          endlessPrinter.instructions + rounds * 2) ∧
      ∀ limit total, (endlessPrinter.run limit).1 ≠ .halted total := by
  have growth : (endlessPrinter.after 2).instructions - endlessPrinter.instructions = 2 := by
    rw [after_two_endlessPrinter]
    rfl
  have never := never_ends_of_recurs recurs_endlessPrinter
  rw [growth] at never
  exact ⟨recurs_endlessPrinter, never⟩

end Cpm80.Machine
