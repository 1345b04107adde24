import Cpm80.Machine
import Mathlib.Logic.Function.Iterate

/-!
Contract: the course of a machine over many steps.

Owns:
- the machine with which the run of an image begins;
- the machine after so many steps, and the result of each step;
- courses on which no step fails, and how they follow one another;
- the run of a machine as its course up to the first step that ends it, and no further.

A machine whose program has ended stays as it is, so that its course may be
followed past the end.

Does not own: what the processor does in a step.
-/

namespace Cpm80.Machine

variable {Cpu Device : Type} [Processor Cpu]

/-! ## Beginnings -/

/-- A machine just assembled, with an image loaded. An image that does not fit leaves
the machine as it was assembled. -/
def loaded (cpu : Cpu) (image : Image) (console : Device) : Machine Cpu Device :=
  ((assemble cpu console).load image).2

/-- Loading is between the image and the processor. -/
theorem loaded_eq (cpu : Cpu) (image : Image) (console : Device) :
    loaded cpu image console =
      { cpu := (image.load cpu).toOption.getD cpu
        host := Host.ofConsole console
        instructions := 0 } := by
  unfold loaded load
  cases found : image.load (assemble cpu console).cpu with
  | ok placed =>
    have placedHere : image.load cpu = .ok placed := found
    rw [placedHere]
    rfl
  | error fault =>
    have refusedHere : image.load cpu = .error fault := found
    rw [refusedHere]
    rfl

/-! ## Single steps -/

variable [Console Device]

def next (machine : Machine Cpu Device) : Machine Cpu Device :=
  machine.step.2

theorem step_halted {machine : Machine Cpu Device} (halted : machine.host.halted = true) :
    machine.step = (none, machine) := by
  rw [step, if_pos halted]

/-- A step of a machine whose program has not ended is the step of its processor. A
fault of the processor ends it before anything is counted; else it is counted, and
the console failure that was kept is handed over. -/
theorem step_running {machine : Machine Cpu Device} (running : machine.host.halted = false) :
    machine.step =
      match (Processor.step machine.cpu).run Host.ports machine.host with
      | ⟨cpu, some fault, host⟩ => (some (.execution fault), ⟨cpu, host, machine.instructions⟩)
      | ⟨cpu, none, host⟩ =>
        (host.fault.map .console,
          ⟨cpu, { host with fault := none }, machine.instructions + 1⟩) := by
  rw [step, if_neg (by simp [running])]
  rfl

section Endings

variable {machine : Machine Cpu Device} {cpu : Cpu} {host : Host Device}

theorem step_of_failed {fault : ExecutionFault} (running : machine.host.halted = false)
    (ends : (Processor.step machine.cpu).run Host.ports machine.host =
      ⟨cpu, some fault, host⟩) :
    machine.step = (some (.execution fault), ⟨cpu, host, machine.instructions⟩) := by
  rw [step_running running, ends]

theorem step_of_completed (running : machine.host.halted = false)
    (ends : (Processor.step machine.cpu).run Host.ports machine.host = ⟨cpu, none, host⟩) :
    machine.step =
      (host.fault.map .console,
        ⟨cpu, { host with fault := none }, machine.instructions + 1⟩) := by
  rw [step_running running, ends]

end Endings

/-! ## Courses -/

/-- The machine after so many steps, going on after faults. -/
def after (machine : Machine Cpu Device) (count : Nat) : Machine Cpu Device :=
  next^[count] machine

/-- The result of the step that comes after so many others. -/
def outcome (machine : Machine Cpu Device) (index : Nat) : Option RunFault :=
  (machine.after index).step.1

@[simp]
theorem after_zero (machine : Machine Cpu Device) : machine.after 0 = machine :=
  rfl

theorem after_succ (machine : Machine Cpu Device) (count : Nat) :
    machine.after (count + 1) = (machine.after count).next :=
  Function.iterate_succ_apply' next count machine

theorem after_add (machine : Machine Cpu Device) (first second : Nat) :
    machine.after (first + second) = (machine.after first).after second := by
  rw [Nat.add_comm]
  exact Function.iterate_add_apply next second first machine

theorem after_halted {machine : Machine Cpu Device} (halted : machine.host.halted = true)
    (count : Nat) : machine.after count = machine :=
  Function.iterate_fixed (congrArg Prod.snd (step_halted halted)) count

theorem outcome_add (machine : Machine Cpu Device) (first second : Nat) :
    machine.outcome (first + second) = (machine.after first).outcome second := by
  rw [outcome, outcome, after_add]

/-! ## Courses without a fault -/

/-- So many steps lead from one machine to another, and none of them fails. -/
structure Reaches (count : Nat) (start finish : Machine Cpu Device) : Prop where
  succeeds : ∀ index < count, start.outcome index = none
  arrives : start.after count = finish

namespace Reaches

variable {start middle finish : Machine Cpu Device} {first second count : Nat}

theorem refl (machine : Machine Cpu Device) : Reaches 0 machine machine where
  succeeds _ below := absurd below (Nat.not_lt_zero _)
  arrives := rfl

theorem single (steps : start.step = (none, finish)) : Reaches 1 start finish where
  succeeds index below := by
    rw [Nat.lt_one_iff.mp below]
    exact congrArg Prod.fst steps
  arrives := congrArg Prod.snd steps

theorem trans (before : Reaches first start middle) (behind : Reaches second middle finish) :
    Reaches (first + second) start finish where
  succeeds index below := by
    by_cases early : index < first
    · exact before.succeeds index early
    · have position : index = first + (index - first) := by omega
      rw [position, outcome_add, before.arrives]
      exact behind.succeeds (index - first) (by omega)
  arrives := by rw [after_add, before.arrives, behind.arrives]

/-- A machine that was reached in this way and runs has been running all the time. -/
theorem running_of_finish (reaches : Reaches count start finish)
    (running : finish.host.halted = false) : start.host.halted = false := by
  by_contra ended
  rw [Bool.not_eq_false] at ended
  have same : start = finish := by rw [← reaches.arrives, after_halted ended]
  rw [same, running] at ended
  contradiction

end Reaches

/-! ## Runs -/

section States

variable {Result Other : Type} {change : Result → Other} {state : RunState Result}

theorem map_eq_halted_iff {result : Other} :
    state.map change = .halted result ↔
      ∃ before, state = .halted before ∧ change before = result := by
  cases state <;> simp [RunState.map]

theorem map_eq_failed_iff {fault : RunFault} :
    state.map change = .failed fault ↔ state = .failed fault := by
  cases state <;> simp [RunState.map]

theorem map_eq_running_iff : state.map change = .running ↔ state = .running := by
  cases state <;> simp [RunState.map]

end States

theorem run_succ_failed {machine finish : Machine Cpu Device} {fault : RunFault}
    (steps : machine.step = (some fault, finish)) (limit : Nat) :
    machine.run (limit + 1) = (.failed fault, finish) := by
  rw [run, steps]

theorem run_succ_halted {machine finish : Machine Cpu Device}
    (steps : machine.step = (none, finish)) (halted : finish.host.halted = true) (limit : Nat) :
    machine.run (limit + 1) = (.halted finish.instructions, finish) := by
  rw [run, steps]
  exact if_pos halted

theorem run_succ_running {machine finish : Machine Cpu Device}
    (steps : machine.step = (none, finish)) (running : finish.host.halted = false)
    (limit : Nat) : machine.run (limit + 1) = finish.run limit := by
  rw [run, steps]
  exact if_neg (by simp [running])

/-- A run passes through every machine that is reached without a fault and without
the end of the program. -/
theorem Reaches.run_add {start finish : Machine Cpu Device} {count : Nat}
    (reaches : Reaches count start finish) (running : finish.host.halted = false)
    (limit : Nat) : start.run (count + limit) = finish.run limit := by
  induction count generalizing start with
  | zero =>
    rw [Nat.zero_add, ← reaches.arrives, after_zero]
  | succ count inductionHypothesis =>
    have first : start.step = (none, start.next) := by
      have succeeded : start.step.1 = none := reaches.succeeds 0 (Nat.succ_pos count)
      exact Prod.ext succeeded rfl
    have rest : Reaches count start.next finish := by
      constructor
      · intro index below
        have succeeded := reaches.succeeds (1 + index) (by omega)
        rwa [outcome_add] at succeeded
      · rw [← reaches.arrives, Nat.add_comm, after_add]
        rfl
    rw [Nat.add_right_comm, run_succ_running first (rest.running_of_finish running),
      inductionHypothesis rest]

/-- A run that has ended is the same whatever more it was allowed. -/
theorem run_of_le {machine : Machine Cpu Device} {limit larger : Nat} {state : RunState Nat}
    {finish : Machine Cpu Device} (ends : machine.run limit = (state, finish))
    (ended : state ≠ .running) (allowed : limit ≤ larger) :
    machine.run larger = (state, finish) := by
  induction limit generalizing machine larger with
  | zero => exact absurd (congrArg Prod.fst ends).symm ended
  | succ limit inductionHypothesis =>
    obtain ⟨more, rfl⟩ : ∃ more, larger = more + 1 := Nat.exists_eq_succ_of_ne_zero (by omega)
    rw [run] at ends ⊢
    cases step : machine.step with
    | mk fault next =>
      rw [step] at ends
      cases fault with
      | some fault => exact ends
      | none =>
        dsimp only at ends ⊢
        split at ends
        · next halted => rwa [if_pos halted]
        · next running =>
          rw [if_neg running]
          exact inductionHypothesis ends (by omega)

end Cpm80.Machine
