import Cpm80.Proofs.Loading

/-!
Contract: the run of a machine as the course of its processor alone.

Owns:
- the processor stepped with nothing behind its ports;
- the bytes at which a run comes to its end;
- how a machine follows its processor up to the first of these bytes, and how its
  run ends there.

The console is one that never fails: what it does otherwise is not the processor's
affair, but it would end the run.

Does not own: what is printed on the way.
-/

namespace Cpm80

/-! ## The processor alone -/

/-- Ports with nothing behind them: every read gives zero. -/
def Ports.unattended {Cpu : Type} : Ports Cpu Unit where
  read _ _ _ := (0, ())
  write _ _ _ := ()

namespace Z80

/-- The processor after one step with nothing behind its ports, whatever came of it. -/
def alone (cpu : Z80) : Z80 :=
  ((Processor.step cpu).run Ports.unattended ()).cpu

/-- The processor after so many such steps. -/
def aloneAfter (cpu : Z80) (count : Nat) : Z80 :=
  alone^[count] cpu

theorem aloneAfter_add (cpu : Z80) (first second : Nat) :
    cpu.aloneAfter (first + second) = (cpu.aloneAfter first).aloneAfter second := by
  rw [Nat.add_comm]
  exact Function.iterate_add_apply alone second first cpu

variable {cpu : Z80}

theorem alone_internal {operation : Operation}
    (decoded : Instruction.decode cpu.nextByte = .internal operation) :
    cpu.alone = (cpu.skip 1).execute operation := by
  rw [alone, session_internal decoded]
  rfl

theorem alone_portRead (decoded : Instruction.decode cpu.nextByte = .portRead) :
    cpu.alone = { cpu.skip 2 with a := 0 } := by
  rw [alone, session_portRead decoded]
  rfl

theorem alone_portWrite (decoded : Instruction.decode cpu.nextByte = .portWrite) :
    cpu.alone = cpu.skip 2 := by
  rw [alone, session_portWrite decoded]
  rfl

end Z80

/-! ## Where a run ends -/

namespace Instruction

/-- The bytes that open a group of longer instructions. -/
def OpensGroup (byte : UInt8) : Prop :=
  byte = 0xcb ∨ byte = 0xdd ∨ byte = 0xed ∨ byte = 0xfd

/-- The bytes at which a run ends: the port write, and those that open a group. -/
def EndsRun (byte : UInt8) : Prop :=
  byte = 0xd3 ∨ OpensGroup byte

instance (byte : UInt8) : Decidable (OpensGroup byte) :=
  inferInstanceAs (Decidable (byte = 0xcb ∨ byte = 0xdd ∨ byte = 0xed ∨ byte = 0xfd))

instance (byte : UInt8) : Decidable (EndsRun byte) :=
  inferInstanceAs (Decidable (byte = 0xd3 ∨ OpensGroup byte))

theorem OpensGroup.ne_portWrite {byte : UInt8} (group : OpensGroup byte) : byte ≠ 0xd3 := by
  rcases group with rfl | rfl | rfl | rfl <;> decide

end Instruction

/-- A processor alone stands at a byte that ends a run after so many steps, and not
before. -/
structure Z80.EndsAt (cpu : Z80) (index : Nat) : Prop where
  here : Instruction.EndsRun (cpu.aloneAfter index).nextByte
  notBefore : ∀ earlier < index, ¬Instruction.EndsRun (cpu.aloneAfter earlier).nextByte

namespace Z80.EndsAt

variable {cpu : Z80} {index : Nat}

/-- A processor that comes to such a byte at all comes to a first one. -/
theorem exists_of_endsRun (ends : Instruction.EndsRun (cpu.aloneAfter index).nextByte) :
    ∃ first ≤ index, cpu.EndsAt first := by
  induction index using Nat.strongRecOn with
  | ind index inductionHypothesis =>
    by_cases before : ∃ earlier < index, Instruction.EndsRun (cpu.aloneAfter earlier).nextByte
    · obtain ⟨earlier, below, endsEarlier⟩ := before
      obtain ⟨first, atMost, endsFirst⟩ := inductionHypothesis earlier below endsEarlier
      exact ⟨first, by omega, endsFirst⟩
    · refine ⟨index, Nat.le_refl index, ends, ?_⟩
      intro earlier below endsEarlier
      exact before ⟨earlier, below, endsEarlier⟩

end Z80.EndsAt

/-! ## A machine and its processor -/

namespace Machine

variable {Device : Type}

/-- A machine that has counted so many more steps than another, with the processor
where the other's would be after as many steps alone. -/
structure Follows (start : Machine Z80 Device) (count : Nat) (finish : Machine Z80 Device) :
    Prop where
  cpu : finish.cpu = start.cpu.aloneAfter count
  instructions : finish.instructions = start.instructions + count

theorem Follows.refl (machine : Machine Z80 Device) : Follows machine 0 machine :=
  ⟨rfl, rfl⟩

theorem Follows.trans {start middle finish : Machine Z80 Device} {first second : Nat}
    (before : Follows start first middle) (behind : Follows middle second finish) :
    Follows start (first + second) finish where
  cpu := by rw [behind.cpu, before.cpu, Z80.aloneAfter_add]
  instructions := by rw [behind.instructions, before.instructions, Nat.add_assoc]

variable [Console Device] {machine : Machine Z80 Device}

/-- At a byte that does not end the run, a machine takes the step of its processor
alone and is as ready as before. -/
theorem step_onward (ready : machine.Ready)
    (onward : ¬Instruction.EndsRun machine.cpu.nextByte) :
    ∃ finish, machine.step = (none, finish) ∧ finish.Ready ∧ Follows machine 1 finish := by
  cases decoded : Instruction.decode machine.cpu.nextByte with
  | internal operation =>
    refine ⟨_, step_internal decoded ready.running ready.clear, ?_, ?_, rfl⟩
    · exact ⟨ready.running, ready.clear, ready.reliable⟩
    · exact (Z80.alone_internal decoded).symm
  | portRead =>
    refine ⟨_, step_portRead decoded ready, ?_, ?_, rfl⟩
    · exact ⟨ready.running, ready.clear, ready.reliable.printAll _⟩
    · exact (Z80.alone_portRead decoded).symm
  | portWrite =>
    rw [Instruction.decode_eq_portWrite_iff] at decoded
    exact absurd (.inl decoded) onward
  | unimplemented =>
    rw [Instruction.decode_eq_unimplemented_iff] at decoded
    exact absurd (.inr decoded) onward

/-- At the port write a machine takes the step of its processor too, and has ended. -/
theorem step_ended (ready : machine.Ready) (ended : machine.cpu.nextByte = 0xd3) :
    ∃ finish, machine.step = (none, finish) ∧ finish.host.halted = true ∧
      Follows machine 1 finish := by
  have decoded := (Instruction.decode_eq_portWrite_iff _).mpr ended
  refine ⟨_, step_portWrite decoded ready.running ready.clear, rfl, ?_, rfl⟩
  exact (Z80.alone_portWrite decoded).symm

/-- A machine follows its processor for as long as no byte ends the run. -/
theorem reaches_onward (ready : machine.Ready) {count : Nat}
    (onward : ∀ index < count, ¬Instruction.EndsRun (machine.cpu.aloneAfter index).nextByte) :
    ∃ finish, Reaches count machine finish ∧ finish.Ready ∧ Follows machine count finish := by
  induction count with
  | zero => exact ⟨machine, .refl machine, ready, .refl machine⟩
  | succ count inductionHypothesis =>
    obtain ⟨middle, reaches, middleReady, follows⟩ :=
      inductionHypothesis fun index below => onward index (by omega)
    have goesOn : ¬Instruction.EndsRun middle.cpu.nextByte := by
      rw [follows.cpu]
      exact onward count (by omega)
    obtain ⟨finish, steps, finishReady, last⟩ := step_onward middleReady goesOn
    exact ⟨finish, reaches.trans (.single steps), finishReady, follows.trans last⟩

/-- As long as no step fails, a machine follows its processor, and is ready unless it
has ended. -/
theorem after_follows (ready : machine.Ready) {steps : Nat}
    (succeeds : ∀ index < steps, machine.outcome index = none) :
    ∃ count, Follows machine count (machine.after steps) ∧
      ((machine.after steps).host.halted = true ∨ (machine.after steps).Ready) := by
  induction steps with
  | zero => exact ⟨0, .refl machine, .inr ready⟩
  | succ steps inductionHypothesis =>
    obtain ⟨count, follows, state⟩ :=
      inductionHypothesis fun index below => succeeds index (by omega)
    have succeeded : (machine.after steps).step.1 = none := succeeds steps (by omega)
    rw [after_succ, next]
    rcases state with halted | stillReady
    · rw [step_halted halted]
      exact ⟨count, follows, .inl halted⟩
    · by_cases ends : Instruction.EndsRun (machine.after steps).cpu.nextByte
      · rcases ends with ended | group
        · obtain ⟨finish, step, halted, last⟩ := step_ended stillReady ended
          rw [step]
          exact ⟨count + 1, follows.trans last, .inl halted⟩
        · -- The one kind of step that fails, which is excluded.
          have decoded := (Instruction.decode_eq_unimplemented_iff _).mpr group
          rw [step_unimplemented decoded stillReady.running] at succeeded
          contradiction
      · obtain ⟨finish, step, finishReady, last⟩ := step_onward stillReady ends
        rw [step]
        exact ⟨count + 1, follows.trans last, .inr finishReady⟩

/-! ## Runs -/

theorem run_onward (ready : machine.Ready) {limit : Nat}
    (onward : ∀ index < limit, ¬Instruction.EndsRun (machine.cpu.aloneAfter index).nextByte) :
    (machine.run limit).1 = .running := by
  obtain ⟨finish, reaches, finishReady, -⟩ := reaches_onward ready onward
  rw [← Nat.add_zero limit, reaches.run_add finishReady.running]
  rfl

/-- At the first byte that ends the run, the run ends: by the program if the byte is
the port write, and by a fault that names the byte and its address if not. -/
theorem run_of_endsAt (ready : machine.Ready) {index limit : Nat}
    (ends : machine.cpu.EndsAt index) (enough : index < limit) :
    (machine.run limit).1 =
      if (machine.cpu.aloneAfter index).nextByte = 0xd3
      then .halted (machine.instructions + index + 1)
      else .failed (.execution
        ⟨(machine.cpu.aloneAfter index).nextByte, (machine.cpu.aloneAfter index).pc⟩) := by
  obtain ⟨finish, reaches, finishReady, follows⟩ := reaches_onward ready ends.notBefore
  obtain ⟨further, rfl⟩ : ∃ further, limit = index + (further + 1) :=
    ⟨limit - index - 1, by omega⟩
  have here := ends.here
  rw [← follows.cpu] at here
  rw [reaches.run_add finishReady.running, ← follows.cpu, ← follows.instructions]
  split
  · next ended =>
    obtain ⟨last, steps, halted, lastFollows⟩ := step_ended finishReady ended
    rw [run_succ_halted steps halted, lastFollows.instructions]
  · next goesOn =>
    have group : Instruction.decode finish.cpu.nextByte = .unimplemented :=
      (Instruction.decode_eq_unimplemented_iff _).mpr (here.resolve_left goesOn)
    rw [run_succ_failed (step_unimplemented group finishReady.running)]

/-- A run is still going, or it has come to the first byte that ends it. -/
theorem run_cases (ready : machine.Ready) (limit : Nat) :
    (machine.run limit).1 = .running ∨ ∃ index < limit, machine.cpu.EndsAt index := by
  by_cases finished : ∃ index < limit, Instruction.EndsRun (machine.cpu.aloneAfter index).nextByte
  · obtain ⟨index, below, ends⟩ := finished
    obtain ⟨first, atMost, endsFirst⟩ := Z80.EndsAt.exists_of_endsRun ends
    exact .inr ⟨first, by omega, endsFirst⟩
  · refine .inl (run_onward ready ?_)
    intro index below ends
    exact finished ⟨index, below, ends⟩

theorem exists_run_eq_halted_iff (ready : machine.Ready) (total : Nat) :
    (∃ limit, (machine.run limit).1 = .halted total) ↔
      ∃ index, total = machine.instructions + index + 1 ∧ machine.cpu.EndsAt index ∧
        (machine.cpu.aloneAfter index).nextByte = 0xd3 := by
  constructor
  · rintro ⟨limit, halted⟩
    rcases run_cases ready limit with running | ⟨index, below, ends⟩
    · rw [running] at halted
      contradiction
    · rw [run_of_endsAt ready ends below] at halted
      split at halted
      · next ended =>
        injection halted with same
        exact ⟨index, same.symm, ends, ended⟩
      · contradiction
  · rintro ⟨index, rfl, ends, ended⟩
    refine ⟨index + 1, ?_⟩
    rw [run_of_endsAt ready ends (Nat.lt_succ_self index), if_pos ended]

theorem exists_run_eq_failed_iff (ready : machine.Ready) (fault : RunFault) :
    (∃ limit, (machine.run limit).1 = .failed fault) ↔
      ∃ index, machine.cpu.EndsAt index ∧ (machine.cpu.aloneAfter index).nextByte ≠ 0xd3 ∧
        fault = .execution
          ⟨(machine.cpu.aloneAfter index).nextByte, (machine.cpu.aloneAfter index).pc⟩ := by
  constructor
  · rintro ⟨limit, failed⟩
    rcases run_cases ready limit with running | ⟨index, below, ends⟩
    · rw [running] at failed
      contradiction
    · rw [run_of_endsAt ready ends below] at failed
      split at failed
      · contradiction
      · next goesOn =>
        injection failed with same
        exact ⟨index, ends, goesOn, same.symm⟩
  · rintro ⟨index, ends, goesOn, rfl⟩
    refine ⟨index + 1, ?_⟩
    rw [run_of_endsAt ready ends (Nat.lt_succ_self index), if_neg goesOn]

theorem forall_run_eq_running_iff (ready : machine.Ready) :
    (∀ limit, (machine.run limit).1 = .running) ↔
      ∀ index, ¬Instruction.EndsRun (machine.cpu.aloneAfter index).nextByte := by
  constructor
  · intro running index ends
    obtain ⟨first, -, endsFirst⟩ := Z80.EndsAt.exists_of_endsRun ends
    have finished := running (first + 1)
    rw [run_of_endsAt ready endsFirst (Nat.lt_succ_self first)] at finished
    split at finished <;> contradiction
  · intro onward limit
    exact run_onward ready fun index _ => onward index

/-- The run of an image on a console that never fails is the course of a bare Z80
with the image loaded, up to the first byte that ends it: a port write halts the
run, the first byte of a group fails it, and without either it never ends. Until
then the processor of the machine is the bare one after as many steps as counted. -/
theorem run_refines_bare {image : Image} {console : Device}
    (fits : image.length ≤ Image.capacity) (reliable : Console.Reliable console)
    (name : String) (clockHz : Nat) :
    ∃ start : Z80, image.load Z80.fresh = .ok start ∧
      (∀ report,
        (∃ limit, (Run.ofImage limit name image console clockHz).1 = .halted report) ↔
          ∃ count, report = ⟨name, count, clockHz, .zero⟩ ∧ 1 ≤ count ∧
            (start.aloneAfter (count - 1)).nextByte = 0xd3 ∧
            ∀ index < count - 1, ¬Instruction.EndsRun (start.aloneAfter index).nextByte) ∧
      (∀ fault,
        (∃ limit, (Run.ofImage limit name image console clockHz).1 = .failed fault) ↔
          ∃ index, Instruction.OpensGroup (start.aloneAfter index).nextByte ∧
            (∀ earlier < index, ¬Instruction.EndsRun (start.aloneAfter earlier).nextByte) ∧
            fault = .execution
              ⟨(start.aloneAfter index).nextByte, (start.aloneAfter index).pc⟩) ∧
      ((∀ limit, (Run.ofImage limit name image console clockHz).1 = .running) ↔
        ∀ index, ¬Instruction.EndsRun (start.aloneAfter index).nextByte) ∧
      ∀ steps,
        (∀ index < steps, (loaded Z80.fresh image console).outcome index = none) →
          ((loaded Z80.fresh image console).after steps).cpu =
            start.aloneAfter ((loaded Z80.fresh image console).after steps).instructions := by
  have ready : (loaded Z80.fresh image console).Ready := .loaded reliable image
  have beginning : (loaded Z80.fresh image console).instructions = 0 := by
    rw [loaded_eq]
  have loads : image.load Z80.fresh = .ok (loaded Z80.fresh image console).cpu := by
    rw [loaded_eq, Image.load_of_fits fits]
    rfl
  simp only [Run.ofImage_eq fits, map_eq_halted_iff, map_eq_failed_iff, map_eq_running_iff]
  refine ⟨_, loads, ?halts, ?fails, forall_run_eq_running_iff ready, ?follows⟩
  case halts =>
    intro report
    constructor
    · rintro ⟨limit, total, halted, rfl⟩
      obtain ⟨index, rfl, ends, ended⟩ :=
        (exists_run_eq_halted_iff ready total).mp ⟨limit, halted⟩
      rw [beginning, Nat.zero_add]
      exact ⟨index + 1, rfl, by omega, ended, ends.notBefore⟩
    · rintro ⟨count, rfl, positive, ended, notBefore⟩
      obtain ⟨limit, halted⟩ := (exists_run_eq_halted_iff ready count).mpr
        ⟨count - 1, by omega, ⟨.inl ended, notBefore⟩, ended⟩
      exact ⟨limit, count, halted, rfl⟩
  case fails =>
    intro fault
    rw [exists_run_eq_failed_iff ready]
    constructor
    · rintro ⟨index, ends, goesOn, rfl⟩
      exact ⟨index, ends.here.resolve_left goesOn, ends.notBefore, rfl⟩
    · rintro ⟨index, group, notBefore, rfl⟩
      refine ⟨index, ⟨.inr group, notBefore⟩, ?_, rfl⟩
      exact group.ne_portWrite
  case follows =>
    intro steps succeeds
    obtain ⟨count, follows, -⟩ := after_follows ready succeeds
    rw [follows.instructions, beginning, Nat.zero_add]
    exact follows.cpu

/-- A program that prints a letter by a port read and ends by a port write. -/
def haltingPrinter : Image :=
  [0x0e, 0x02, 0x1e, 0x41, 0xdb, 0x00, 0xd3, 0x00]

/-- The same with a byte that opens a group in place of the port write. -/
def failingPrinter : Image :=
  [0x0e, 0x02, 0x1e, 0x41, 0xdb, 0x00, 0xcb]

/-- Both programs go on for three steps, and the fourth one ends their runs. Before it the
processor stands behind the port read, which gave it a zero. -/
theorem run_refines_bare_printers :
    (∃ limit, (Run.ofImage limit "HALTS.COM" haltingPrinter Transcript.empty 4000000).1 =
        .halted ⟨"HALTS.COM", 4, 4000000, .zero⟩) ∧
      (∃ limit, (Run.ofImage limit "FAILS.COM" failingPrinter Transcript.empty 4000000).1 =
        .failed (.execution ⟨0xcb, 0x0106⟩)) ∧
      ((loaded Z80.fresh haltingPrinter Transcript.empty).after 3).cpu.a = 0 ∧
      ((loaded Z80.fresh haltingPrinter Transcript.empty).after 3).cpu.pc = 0x0106 := by
  have fits : haltingPrinter.length ≤ Image.capacity := by decide
  have fitsToo : failingPrinter.length ≤ Image.capacity := by decide
  have reliable := Transcript.reliable Transcript.empty
  obtain ⟨start, loads, halts, -, -, follows⟩ :=
    run_refines_bare fits reliable "HALTS.COM" 4000000
  obtain ⟨other, loadsToo, -, fails, -, -⟩ :=
    run_refines_bare fitsToo reliable "FAILS.COM" 4000000
  rw [Image.load_of_fits fits] at loads
  rw [Image.load_of_fits fitsToo] at loadsToo
  injection loads with placed
  injection loadsToo with placedToo
  -- The courses of both processors alone, and the first three steps of a machine.
  obtain ⟨ends, goesOn, reply, counter⟩ :
      (start.aloneAfter 3).nextByte = 0xd3 ∧
        (∀ index < 3, ¬Instruction.EndsRun (start.aloneAfter index).nextByte) ∧
        (start.aloneAfter 3).a = 0 ∧ (start.aloneAfter 3).pc = 0x0106 := by
    subst placed
    decide +kernel
  obtain ⟨group, goesOnToo, counterToo⟩ :
      (other.aloneAfter 3).nextByte = 0xcb ∧
        (∀ index < 3, ¬Instruction.EndsRun (other.aloneAfter index).nextByte) ∧
        (other.aloneAfter 3).pc = 0x0106 := by
    subst placedToo
    decide +kernel
  obtain ⟨succeeds, counted⟩ :
      (∀ index < 3, (loaded Z80.fresh haltingPrinter Transcript.empty).outcome index = none) ∧
        ((loaded Z80.fresh haltingPrinter Transcript.empty).after 3).instructions = 3 := by
    decide +kernel
  rw [follows 3 succeeds, counted]
  refine ⟨(halts _).2 ⟨4, rfl, by decide, ends, goesOn⟩, (fails _).2 ⟨3, ?_, goesOnToo, ?_⟩,
    reply, counter⟩
  · exact .inl group
  · rw [group, counterToo]

end Machine

end Cpm80
