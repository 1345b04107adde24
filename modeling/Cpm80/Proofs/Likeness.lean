import Cpm80.Proofs.Observation

/-!
Contract: machines on consoles that fail alike.

Owns:
- consoles that are tied together so that printing fails on both or on neither, in
  the same way;
- two machines on such consoles, which agree in every result, of a step and of a run.

Consoles of two kinds can be exchanged for each other where they are tied in this
way: one that keeps a record for one that does not, or one that passes its bytes on
for one that keeps them.

Does not own: which consoles are tied in this way.
-/

namespace Cpm80

variable {Cpu First Second : Type} [Processor Cpu] [Console First] [Console Second]
  {related : First → Second → Prop}

/-! ## Consoles and hosts -/

/-- Whether a relation outlasts the printing of one byte on both sides, and printing
fails on both in the same way or on neither. -/
structure Console.FailAlike (related : First → Second → Prop) : Prop where
  keeps : Console.Keeps related
  same : ∀ first second byte, related first second →
    (Console.print first byte).1 = (Console.print second byte).1

/-- Hosts that differ in nothing but their consoles, which are tied together. -/
structure Host.Alike (related : First → Second → Prop) (left : Host First)
    (right : Host Second) : Prop where
  console : related left.console right.console
  halted : left.halted = right.halted
  fault : left.fault = right.fault

namespace Host.Alike

variable {left : Host First} {right : Host Second}

theorem foldl_emit (alike : Host.Alike related left right)
    (consoles : Console.FailAlike related) (bytes : List UInt8) :
    Host.Alike related (bytes.foldl Host.emit left) (bytes.foldl Host.emit right) := by
  induction bytes generalizing left right with
  | nil => exact alike
  | cons byte bytes inductionHypothesis =>
    apply inductionHypothesis
    constructor
    · exact consoles.keeps _ _ _ alike.console
    · exact alike.halted
    · rw [Host.emit_fault, Host.emit_fault, alike.fault, consoles.same _ _ _ alike.console]

theorem keeps (consoles : Console.FailAlike related) :
    Host.Keeps Cpu (Host.Alike related) where
  answer cpu _ _ alike := alike.foldl_emit consoles (requested cpu)
  halt _ _ alike := ⟨alike.console, rfl, alike.fault⟩

end Host.Alike

/-! ## Machines -/

namespace Machine

/-- Machines that differ in nothing but their consoles, which are tied together. -/
structure Alike (related : First → Second → Prop) (left : Machine Cpu First)
    (right : Machine Cpu Second) : Prop where
  cpu : left.cpu = right.cpu
  host : Host.Alike related left.host right.host
  instructions : left.instructions = right.instructions

namespace Alike

variable {left : Machine Cpu First} {right : Machine Cpu Second}

omit [Processor Cpu] [Console First] [Console Second] in
theorem assemble (cpu : Cpu) {first : First} {second : Second} (tied : related first second) :
    Alike related (assemble cpu first) (assemble cpu second) :=
  ⟨rfl, ⟨tied, rfl, rfl⟩, rfl⟩

/-- One step has the same result on both sides, and leaves the machines alike. -/
theorem step (alike : Alike related left right) (consoles : Console.FailAlike related) :
    left.step.1 = right.step.1 ∧ Alike related left.next right.next := by
  unfold next
  cases ended : right.host.halted with
  | true =>
    have leftEnded : left.host.halted = true := alike.host.halted.trans ended
    rw [step_halted leftEnded, step_halted ended]
    exact ⟨rfl, alike⟩
  | false =>
    have leftRuns : left.host.halted = false := alike.host.halted.trans ended
    have sessions := Session.run_related (Host.Alike.keeps consoles)
      (Processor.step right.cpu) alike.host
    cases onRight : (Processor.step right.cpu).run Host.ports right.host with
    | mk cpu fault host =>
      cases onLeft : (Processor.step right.cpu).run Host.ports left.host with
      | mk leftCpu leftFault leftHost =>
        rw [onLeft, onRight] at sessions
        obtain ⟨sameCpu, sameFault, hosts⟩ := sessions
        dsimp only at sameCpu sameFault hosts
        subst sameCpu sameFault
        rw [← alike.cpu] at onLeft
        cases leftFault with
        | some fault =>
          rw [step_of_failed leftRuns onLeft, step_of_failed ended onRight]
          exact ⟨rfl, rfl, hosts, alike.instructions⟩
        | none =>
          rw [step_of_completed leftRuns onLeft, step_of_completed ended onRight, hosts.fault]
          exact ⟨rfl, rfl, ⟨hosts.console, hosts.halted, rfl⟩,
            congrArg (· + 1) alike.instructions⟩

theorem after (alike : Alike related left right) (consoles : Console.FailAlike related)
    (count : Nat) : Alike related (left.after count) (right.after count) := by
  induction count with
  | zero => exact alike
  | succ count inductionHypothesis =>
    rw [after_succ, after_succ]
    exact (inductionHypothesis.step consoles).2

/-- A run has the same result on both sides, and leaves the machines alike. -/
theorem run (alike : Alike related left right) (consoles : Console.FailAlike related)
    (limit : Nat) :
    (left.run limit).1 = (right.run limit).1 ∧
      Alike related (left.run limit).2 (right.run limit).2 := by
  induction limit generalizing left right with
  | zero => exact ⟨rfl, alike⟩
  | succ limit inductionHypothesis =>
    obtain ⟨told, further⟩ := alike.step consoles
    have onLeft : left.step = (right.step.1, left.next) := Prod.ext told rfl
    have onRight : right.step = (right.step.1, right.next) := rfl
    cases result : right.step.1 with
    | some fault =>
      rw [result] at onLeft onRight
      rw [run_succ_failed onLeft, run_succ_failed onRight]
      exact ⟨rfl, further⟩
    | none =>
      rw [result] at onLeft onRight
      cases ended : right.next.host.halted with
      | true =>
        have leftEnded := further.host.halted.trans ended
        rw [run_succ_halted onLeft leftEnded, run_succ_halted onRight ended,
          further.instructions]
        exact ⟨rfl, further⟩
      | false =>
        have leftRuns := further.host.halted.trans ended
        rw [run_succ_running onLeft leftRuns, run_succ_running onRight ended]
        exact inductionHypothesis further

end Alike

end Machine

end Cpm80
