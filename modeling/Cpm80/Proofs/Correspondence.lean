import Cpm80.Proofs.Likeness

/-!
Contract: two machines whose processors are not the same, but ask the same of their
hosts.

Owns:
- sessions that make the same port accesses, step for step, and end in processors that
  are tied together;
- consoles that never fail and have been given the same bytes to print;
- two machines over many steps, from a tie between their processors that every step
  renews: the same results, the same end of the program, the same text and count.

The tie may be another one behind every step, so that it can say what has come of the
steps so far.

Does not own: why the processors of two machines are tied.
-/

namespace Cpm80

/-! ## Sessions -/

section Sessions

variable {Cpu : Type} [Processor Cpu]

/-- Sessions that turn to the same ports with the same values and requests, whatever is
replied, and end with the same fault in processors that are tied together. -/
inductive Session.Corresponds (tied : Cpu → Cpu → Prop) : Session Cpu → Session Cpu → Prop where
  | finished {left right : Cpu} (fault : Option ExecutionFault) (ends : tied left right) :
    Corresponds tied (.finished left fault) (.finished right fault)
  | portRead {left right : Cpu} {leftResume rightResume : UInt8 → Session Cpu} (port : UInt16)
      (asks : requested left = requested right)
      (resumes : ∀ reply, Corresponds tied (leftResume reply) (rightResume reply)) :
    Corresponds tied (.portRead port left leftResume) (.portRead port right rightResume)
  | portWrite {left right : Session Cpu} (port : UInt16) (value : UInt8)
      (rest : Corresponds tied left right) :
    Corresponds tied (.portWrite port value left) (.portWrite port value right)

variable {First Second : Type} [Console First] [Console Second]
  {related : First → Second → Prop} {tied : Cpu → Cpu → Prop}

theorem Session.Corresponds.imp {next : Cpu → Cpu → Prop} {left right : Session Cpu}
    (corresponds : Corresponds tied left right)
    (implies : ∀ leftEnd rightEnd, tied leftEnd rightEnd → next leftEnd rightEnd) :
    Corresponds next left right := by
  induction corresponds with
  | finished fault ends => exact .finished fault (implies _ _ ends)
  | portRead port asks resumes inductionHypothesis => exact .portRead port asks inductionHypothesis
  | portWrite port value rest inductionHypothesis => exact .portWrite port value inductionHypothesis

theorem Session.Corresponds.run {left right : Session Cpu} {leftHost : Host First}
    {rightHost : Host Second} (corresponds : Corresponds tied left right)
    (consoles : Console.FailAlike related) (alike : Host.Alike related leftHost rightHost) :
    tied (left.run Host.ports leftHost).cpu (right.run Host.ports rightHost).cpu ∧
      (left.run Host.ports leftHost).fault = (right.run Host.ports rightHost).fault ∧
      Host.Alike related (left.run Host.ports leftHost).state
        (right.run Host.ports rightHost).state := by
  induction corresponds generalizing leftHost rightHost with
  | finished fault ends => exact ⟨ends, rfl, alike⟩
  | @portRead leftSeen rightSeen leftResume rightResume port asks resumes inductionHypothesis =>
    have answered := alike.foldl_emit consoles (requested leftSeen)
    apply inductionHypothesis 0
    show Host.Alike related ((requested leftSeen).foldl Host.emit leftHost)
      ((requested rightSeen).foldl Host.emit rightHost)
    rwa [← asks]
  | portWrite port value rest inductionHypothesis =>
    exact inductionHypothesis ⟨alike.console, rfl, alike.fault⟩

end Sessions

/-! ## Consoles -/

namespace Console

variable {First Second : Type} [Console First] [Console Second]

/-- Whether the same bytes have been printed on two consoles since they were as given. -/
def PrintedAlike (first : First) (second : Second) (firstNow : First) (secondNow : Second) :
    Prop :=
  ∃ text, firstNow = printAll first text ∧ secondNow = printAll second text

/-- Two consoles that never fail can be given the same bytes without an end. -/
theorem Reliable.failAlike {first : First} {second : Second} (firstReliable : Reliable first)
    (secondReliable : Reliable second) : FailAlike (PrintedAlike first second) where
  keeps := by
    rintro _ _ byte ⟨text, rfl, rfl⟩
    refine ⟨text ++ [byte], ?_, ?_⟩ <;> rw [printAll_append] <;> rfl
  same := by
    rintro _ _ byte ⟨text, rfl, rfl⟩
    rw [firstReliable text byte, secondReliable text byte]

end Console

/-! ## Machines -/

namespace Machine

variable {Cpu First Second : Type} [Processor Cpu] [Console First] [Console Second]

/-- Over so many steps, going on after faults, two machines have the same results, come to
the same end of the program or to none, complete as many instructions, and print the same
text. -/
structure SameCourse (count : Nat) (left : Machine Cpu First) (right : Machine Cpu Second) :
    Prop where
  results : ∀ index < count, left.outcome index = right.outcome index
  halted : (left.after count).host.halted = (right.after count).host.halted
  counted : ∃ completed, (left.after count).instructions = left.instructions + completed ∧
    (right.after count).instructions = right.instructions + completed
  printed : Console.PrintedAlike left.host.console right.host.console
    (left.after count).host.console (right.after count).host.console

/-- Two machines between steps that both have taken since they were as given. -/
structure Abreast (tied : Cpu → Cpu → Prop) (leftStart : Machine Cpu First)
    (rightStart : Machine Cpu Second) (left : Machine Cpu First) (right : Machine Cpu Second) :
    Prop where
  cpu : tied left.cpu right.cpu
  host : Host.Alike (Console.PrintedAlike leftStart.host.console rightStart.host.console)
    left.host right.host
  counted : ∃ completed, left.instructions = leftStart.instructions + completed ∧
    right.instructions = rightStart.instructions + completed

namespace Abreast

variable {leftStart left : Machine Cpu First} {rightStart right : Machine Cpu Second}
  {tied next : Cpu → Cpu → Prop}

omit [Processor Cpu] in
theorem start (cpu : tied left.cpu right.cpu) (halted : left.host.halted = right.host.halted)
    (fault : left.host.fault = right.host.fault) : Abreast tied left right left right where
  cpu := cpu
  host := ⟨⟨[], rfl, rfl⟩, halted, fault⟩
  counted := ⟨0, rfl, rfl⟩

/-- Machines that have ended stay where they are. -/
theorem step_halted (abreast : Abreast tied leftStart rightStart left right)
    (halted : left.host.halted = true) (rests : next left.cpu right.cpu) :
    left.step.1 = right.step.1 ∧ Abreast next leftStart rightStart left.next right.next := by
  have rightHalted : right.host.halted = true := abreast.host.halted.symm.trans halted
  unfold Machine.next
  rw [Machine.step_halted halted, Machine.step_halted rightHalted]
  exact ⟨rfl, rests, abreast.host, abreast.counted⟩

/-- Processors that ask the same of their hosts take their machines one step further. -/
theorem step_running (abreast : Abreast tied leftStart rightStart left right)
    (leftReliable : Console.Reliable leftStart.host.console)
    (rightReliable : Console.Reliable rightStart.host.console)
    (running : left.host.halted = false)
    (corresponds : Session.Corresponds next (Processor.step left.cpu)
      (Processor.step right.cpu)) :
    left.step.1 = right.step.1 ∧ Abreast next leftStart rightStart left.next right.next := by
  have rightRuns : right.host.halted = false := abreast.host.halted.symm.trans running
  have sessions := corresponds.run (leftReliable.failAlike rightReliable) abreast.host
  obtain ⟨completed, onLeft, onRight⟩ := abreast.counted
  unfold Machine.next
  cases leftEnds : (Processor.step left.cpu).run Host.ports left.host with
  | mk leftCpu leftFault leftHost =>
    cases rightEnds : (Processor.step right.cpu).run Host.ports right.host with
    | mk rightCpu rightFault rightHost =>
      rw [leftEnds, rightEnds] at sessions
      obtain ⟨cpus, sameFault, hosts⟩ := sessions
      dsimp only at cpus sameFault hosts
      subst sameFault
      cases leftFault with
      | some fault =>
        rw [step_of_failed running leftEnds, step_of_failed rightRuns rightEnds]
        exact ⟨rfl, cpus, hosts, completed, onLeft, onRight⟩
      | none =>
        rw [step_of_completed running leftEnds, step_of_completed rightRuns rightEnds,
          hosts.fault]
        exact ⟨rfl, cpus, ⟨hosts.console, hosts.halted, rfl⟩, completed + 1,
          congrArg (· + 1) onLeft, congrArg (· + 1) onRight⟩

end Abreast

/-- What a step makes of one tie between the processors is the next tie. Where the machines
have ended, the next tie has to follow by itself. -/
theorem after_abreast (tied : Nat → Cpu → Cpu → Prop) {left : Machine Cpu First}
    {right : Machine Cpu Second} {count : Nat}
    (leftReliable : Console.Reliable left.host.console)
    (rightReliable : Console.Reliable right.host.console)
    (begins : Abreast (tied 0) left right left right)
    (steps : ∀ index < count, (left.after index).host.halted = false →
      ∀ cpu, tied index (left.after index).cpu cpu →
        Session.Corresponds (tied (index + 1)) (Processor.step (left.after index).cpu)
          (Processor.step cpu))
    (rests : ∀ index < count, (left.after index).host.halted = true →
      ∀ cpu, tied index (left.after index).cpu cpu →
        tied (index + 1) (left.after index).cpu cpu) :
    (∀ index < count, left.outcome index = right.outcome index) ∧
      Abreast (tied count) left right (left.after count) (right.after count) := by
  induction count with
  | zero => exact ⟨fun index below => absurd below (Nat.not_lt_zero index), begins⟩
  | succ count inductionHypothesis =>
    obtain ⟨results, abreast⟩ := inductionHypothesis (fun index below => steps index (by omega))
      (fun index below => rests index (by omega))
    have further : left.outcome count = right.outcome count ∧
        Abreast (tied (count + 1)) left right (left.after (count + 1))
          (right.after (count + 1)) := by
      rw [after_succ, after_succ]
      cases ended : (left.after count).host.halted with
      | true => exact abreast.step_halted ended (rests count (by omega) ended _ abreast.cpu)
      | false =>
        exact abreast.step_running leftReliable rightReliable ended
          (steps count (by omega) ended _ abreast.cpu)
    refine ⟨?_, further.2⟩
    intro index below
    rcases Nat.lt_succ_iff_lt_or_eq.1 below with earlier | rfl
    · exact results index earlier
    · exact further.1

theorem SameCourse.of_abreast {left : Machine Cpu First} {right : Machine Cpu Second}
    {tied : Cpu → Cpu → Prop} {count : Nat}
    (results : ∀ index < count, left.outcome index = right.outcome index)
    (abreast : Abreast tied left right (left.after count) (right.after count)) :
    SameCourse count left right where
  results := results
  halted := abreast.host.halted
  counted := abreast.counted
  printed := abreast.host.console

end Machine

end Cpm80
