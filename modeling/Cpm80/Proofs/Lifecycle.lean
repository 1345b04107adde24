import Cpm80.Proofs.Course
import Cpm80.Proofs.Printing

/-!
Contract: the life of a machine in the hands of an owner who loads, steps and runs
it in any order.

Owns:
- the calls of an owner, and the machine after any number of them;
- a processor that keeps a record of its own steps, which changes nothing else;
- what the count and the end of the program say about the steps so far;
- machines whose program has ended, and runs that begin with single steps.

The processor is any: it may use several ports in one step, fail after it has used
them, and be stepped again after that.

Does not own: what a console shows, or when a console failure is told.
-/

namespace Cpm80

/-! ## Watched processors -/

/-- What came of one step of a processor: the fault that ended it, if one did, and
whether it wrote a port on the way. -/
structure StepRecord where
  fault : Option ExecutionFault
  wrotePort : Bool
deriving DecidableEq, Repr

def StepRecord.completed (record : StepRecord) : Bool :=
  record.fault.isNone

/-- A processor with the records of its steps so far, in order. -/
structure Watched (Cpu : Type) where
  cpu : Cpu
  records : List StepRecord

namespace Watched

variable {Cpu : Type}

def ofCpu (cpu : Cpu) : Watched Cpu where
  cpu := cpu
  records := []

/-- The step of a watched processor, in which a port has been written or not so far.
It turns to the ports as the processor does, and puts down its record at the end. -/
def session (records : List StepRecord) : Bool → Session Cpu → Session (Watched Cpu)
  | wrote, .finished cpu fault => .finished ⟨cpu, records ++ [⟨fault, wrote⟩]⟩ fault
  | wrote, .portRead port seen resume =>
    .portRead port ⟨seen, records⟩ fun reply => session records wrote (resume reply)
  | _, .portWrite port value rest => .portWrite port value (session records true rest)

variable [Processor Cpu]

instance : Processor (Watched Cpu) where
  step watched := session watched.records false (Processor.step watched.cpu)
  counter watched := Processor.counter watched.cpu
  setCounter watched address :=
    { watched with cpu := Processor.setCounter watched.cpu address }
  register watched := Processor.register watched.cpu
  pair watched := Processor.pair watched.cpu
  load watched := Processor.load watched.cpu
  store watched address value :=
    { watched with cpu := Processor.store watched.cpu address value }

/-- Before a host, a watched step ends as the step does. A host that has ended just
if a port was written so far goes on to do so. -/
theorem run_session {Device : Type} [Console Device] (records : List StepRecord)
    (session : Session Cpu) {host : Host Device} {wrote : Bool}
    (begins : host.halted = wrote) :
    (Watched.session records wrote session).run Host.ports host =
      { cpu :=
          { cpu := (session.run Host.ports host).cpu
            records := records ++
              [⟨(session.run Host.ports host).fault,
                (session.run Host.ports host).state.halted⟩] }
        fault := (session.run Host.ports host).fault
        state := (session.run Host.ports host).state } := by
  induction session generalizing host wrote with
  | finished cpu fault =>
    subst begins
    rfl
  | portRead port seen resume inductionHypothesis =>
    apply inductionHypothesis
    rw [← begins]
    exact Host.answer_halted seen host
  | portWrite port value rest inductionHypothesis =>
    apply inductionHypothesis
    rfl

theorem storeAll_eq (watched : Watched Cpu) (address : UInt16) (bytes : List UInt8) :
    Processor.storeAll watched address bytes =
      { watched with cpu := Processor.storeAll watched.cpu address bytes } := by
  induction bytes generalizing watched address with
  | nil => rfl
  | cons byte bytes inductionHypothesis =>
    exact inductionHypothesis (Processor.store watched address byte) (address + 1)

/-- Loading goes to the processor, and is no step of it. -/
theorem load_eq (watched : Watched Cpu) (image : Image) :
    image.load watched =
      (image.load watched.cpu).map fun cpu => { watched with cpu := cpu } := by
  unfold Image.load Image.patch
  simp only [storeAll_eq]
  split <;> rfl

end Watched

namespace Machine

variable {Cpu Device : Type} [Processor Cpu]

/-! ## Loading -/

/-- A machine without the records of its processor. -/
def unwatched (machine : Machine (Watched Cpu) Device) : Machine Cpu Device where
  cpu := machine.cpu.cpu
  host := machine.host
  instructions := machine.instructions

/-- Loading is between the image and the processor: it neither steps anything nor turns
to the host. -/
theorem load_watched (machine : Machine (Watched Cpu) Device) (image : Image) :
    (machine.load image).2.unwatched = (machine.unwatched.load image).2 ∧
      (machine.load image).2.cpu.records = machine.cpu.records ∧
      (machine.load image).2.host = machine.host ∧
      (machine.load image).2.instructions = machine.instructions := by
  have loads : image.load machine.cpu =
      (image.load machine.unwatched.cpu).map fun cpu => { machine.cpu with cpu := cpu } :=
    machine.cpu.load_eq image
  unfold load
  rw [loads]
  cases image.load machine.unwatched.cpu <;> exact ⟨rfl, rfl, rfl, rfl⟩

/-! ## Calls -/

/-- What an owner can ask of a machine. A run is followed for so many steps: if it
has not ended by then, it is still under way. -/
inductive Call where
  | load (image : Image)
  | step
  | run (limit : Nat)
deriving DecidableEq, Repr

variable [Console Device]

def perform (machine : Machine Cpu Device) : Call → Machine Cpu Device
  | .load image => (machine.load image).2
  | .step => machine.next
  | .run limit => (machine.run limit).2

def performAll (machine : Machine Cpu Device) (calls : List Call) : Machine Cpu Device :=
  calls.foldl perform machine

theorem performAll_append (machine : Machine Cpu Device) (first second : List Call) :
    machine.performAll (first ++ second) = (machine.performAll first).performAll second :=
  List.foldl_append

/-- What every step keeps, a run keeps, whether or not it ends. -/
theorem run_induction {property : Machine Cpu Device → Prop}
    (step : ∀ machine, property machine → property machine.next)
    {machine : Machine Cpu Device} (begins : property machine) (limit : Nat) :
    property (machine.run limit).2 := by
  induction limit generalizing machine with
  | zero => exact begins
  | succ limit inductionHypothesis =>
    have stepped : property machine.next := step machine begins
    cases taken : machine.step with
    | mk fault finish =>
      have same : machine.next = finish := congrArg Prod.snd taken
      rw [same] at stepped
      cases fault with
      | some fault =>
        rw [run_succ_failed taken]
        exact stepped
      | none =>
        cases ended : finish.host.halted with
        | true =>
          rw [run_succ_halted taken ended]
          exact stepped
        | false =>
          rw [run_succ_running taken ended]
          exact inductionHypothesis stepped

/-- What every step and every loading keeps, all calls keep. -/
theorem performAll_induction {property : Machine Cpu Device → Prop}
    (load : ∀ machine image, property machine → property (machine.load image).2)
    (step : ∀ machine, property machine → property machine.next)
    {machine : Machine Cpu Device} (begins : property machine) (calls : List Call) :
    property (machine.performAll calls) := by
  induction calls generalizing machine with
  | nil => exact begins
  | cons call calls inductionHypothesis =>
    apply inductionHypothesis
    cases call with
    | load image => exact load machine image begins
    | step => exact step machine begins
    | run limit => exact run_induction step begins limit

/-- The machine that an owner has after some calls, from its assembly on. -/
def owned (cpu : Cpu) (console : Device) (calls : List Call) : Machine Cpu Device :=
  (assemble cpu console).performAll calls

/-! ## Watched machines -/

section Watching

variable (machine : Machine (Watched Cpu) Device)

/-- The step of a watched machine that has not ended: the fault of its processor
decides what is counted, and is put down beside the end of the program. -/
theorem step_watched {machine : Machine (Watched Cpu) Device}
    (running : machine.host.halted = false) :
    ∃ fault, machine.unwatched.step = (machine.step.1, machine.next.unwatched) ∧
      machine.next.cpu.records =
        machine.cpu.records ++ [⟨fault, machine.next.host.halted⟩] ∧
      machine.next.instructions = machine.instructions + if fault.isNone then 1 else 0 := by
  have session := Watched.run_session machine.cpu.records (Processor.step machine.cpu.cpu) running
  unfold next
  cases ends : (Processor.step machine.cpu.cpu).run Host.ports machine.host with
  | mk cpu fault host =>
    rw [ends] at session
    refine ⟨fault, ?_⟩
    have stillRunning : machine.unwatched.host.halted = false := running
    cases fault with
    | some fault =>
      have watched := step_of_failed running session
      have plain := step_of_failed stillRunning ends
      rw [watched, plain]
      exact ⟨rfl, rfl, rfl⟩
    | none =>
      have watched := step_of_completed running session
      have plain := step_of_completed stillRunning ends
      rw [watched, plain]
      exact ⟨rfl, rfl, rfl⟩

theorem unwatched_step :
    machine.unwatched.step = (machine.step.1, machine.next.unwatched) := by
  cases ended : machine.host.halted with
  | true =>
    have plain : machine.unwatched.step = (none, machine.unwatched) := step_halted ended
    rw [plain, next, step_halted ended]
  | false =>
    obtain ⟨_, plain, _, _⟩ := step_watched ended
    exact plain

theorem unwatched_run (limit : Nat) :
    machine.unwatched.run limit =
      ((machine.run limit).1, (machine.run limit).2.unwatched) := by
  induction limit generalizing machine with
  | zero => rfl
  | succ limit inductionHypothesis =>
    have plain := machine.unwatched_step
    cases taken : machine.step with
    | mk fault finish =>
      rw [next, taken] at plain
      cases fault with
      | some fault => rw [run_succ_failed plain, run_succ_failed taken]
      | none =>
        cases ended : finish.host.halted with
        | true =>
          rw [run_succ_halted plain ended, run_succ_halted taken ended]
          rfl
        | false =>
          rw [run_succ_running plain ended, run_succ_running taken ended, inductionHypothesis]

theorem unwatched_performAll (calls : List Call) :
    (machine.performAll calls).unwatched = machine.unwatched.performAll calls := by
  induction calls generalizing machine with
  | nil => rfl
  | cons call calls inductionHypothesis =>
    have first : (machine.perform call).unwatched = machine.unwatched.perform call := by
      cases call with
      | load image => exact (machine.load_watched image).1
      | step => exact (congrArg Prod.snd machine.unwatched_step).symm
      | run limit => exact (congrArg Prod.snd (machine.unwatched_run limit)).symm
    show ((machine.perform call).performAll calls).unwatched = _
    rw [inductionHypothesis, first]
    rfl

/-- The count and the end of the program tell of the steps what the records do. -/
structure Faithful (machine : Machine (Watched Cpu) Device) : Prop where
  instructions : machine.instructions = machine.cpu.records.countP StepRecord.completed
  halted : machine.host.halted = machine.cpu.records.any StepRecord.wrotePort

namespace Faithful

variable {machine : Machine (Watched Cpu) Device}

theorem next (faithful : machine.Faithful) : machine.next.Faithful := by
  cases ended : machine.host.halted with
  | true =>
    rw [Machine.next, step_halted ended]
    exact faithful
  | false =>
    obtain ⟨fault, -, records, instructions⟩ := step_watched ended
    have noneBefore : machine.cpu.records.any StepRecord.wrotePort = false := by
      rw [← faithful.halted, ended]
    constructor
    · rw [instructions, records, faithful.instructions, List.countP_append, List.countP_singleton]
      rfl
    · rw [records, List.any_append, noneBefore]
      simp

omit [Console Device] in
theorem load (faithful : machine.Faithful) (image : Image) : (machine.load image).2.Faithful := by
  obtain ⟨-, records, host, instructions⟩ := machine.load_watched image
  constructor
  · rw [instructions, records, faithful.instructions]
  · rw [host, records, faithful.halted]

theorem owned (cpu : Cpu) (console : Device) (calls : List Call) :
    (owned (Watched.ofCpu cpu) console calls).Faithful :=
  performAll_induction (fun _ image faithful => faithful.load image)
    (fun _ faithful => faithful.next) ⟨rfl, rfl⟩ calls

end Faithful

/-- Whether one machine has done what another has and nothing else, except that images
may have been loaded. -/
structure Rests (machine later : Machine (Watched Cpu) Device) : Prop where
  records : later.cpu.records = machine.cpu.records
  host : later.host = machine.host
  instructions : later.instructions = machine.instructions

/-- After the end of the program, calls reach neither the host nor the step of the
processor. -/
theorem performAll_of_halted {machine : Machine (Watched Cpu) Device}
    (halted : machine.host.halted = true) (calls : List Call) :
    machine.Rests (machine.performAll calls) := by
  refine performAll_induction ?load ?step ⟨rfl, rfl, rfl⟩ calls
  case load =>
    intro later image rests
    obtain ⟨-, records, host, instructions⟩ := later.load_watched image
    exact ⟨records.trans rests.records, host.trans rests.host,
      instructions.trans rests.instructions⟩
  case step =>
    intro later rests
    have ended : later.host.halted = true := by rw [rests.host, halted]
    rwa [next, step_halted ended]

end Watching

/-! ## Ends of runs -/

/-- The run of a machine ends, in this state and with this machine, however many
steps it takes. -/
def EndsWith (machine : Machine Cpu Device) (state : RunState Nat)
    (finish : Machine Cpu Device) : Prop :=
  state ≠ .running ∧ ∃ limit, machine.run limit = (state, finish)

section Ends

variable {machine finish : Machine Cpu Device} {state : RunState Nat}

/-- A run that has ended has taken a step. -/
theorem EndsWith.exists_succ (ends : machine.EndsWith state finish) :
    ∃ limit, machine.run (limit + 1) = (state, finish) := by
  obtain ⟨ended, limit, run⟩ := ends
  cases limit with
  | zero => exact absurd (congrArg Prod.fst run).symm ended
  | succ limit => exact ⟨limit, run⟩

/-- A step that succeeds may be taken before the run, also if it ends the program. -/
theorem endsWith_next_iff (succeeds : machine.step.1 = none) :
    machine.next.EndsWith state finish ↔ machine.EndsWith state finish := by
  have taken : machine.step = (none, machine.next) := Prod.ext succeeds rfl
  cases ended : machine.next.host.halted with
  | true =>
    have same : ∀ limit, machine.run (limit + 1) = machine.next.run (limit + 1) := by
      intro limit
      rw [run_succ_halted taken ended, run_succ_halted (step_halted ended) ended]
    constructor
    · intro ends
      obtain ⟨limit, run⟩ := ends.exists_succ
      exact ⟨ends.1, limit + 1, (same limit).trans run⟩
    · intro ends
      obtain ⟨limit, run⟩ := ends.exists_succ
      exact ⟨ends.1, limit + 1, (same limit).symm.trans run⟩
  | false =>
    constructor
    · rintro ⟨stopped, limit, run⟩
      exact ⟨stopped, limit + 1, (run_succ_running taken ended limit).trans run⟩
    · intro ends
      obtain ⟨limit, run⟩ := ends.exists_succ
      exact ⟨ends.1, limit, (run_succ_running taken ended limit).symm.trans run⟩

theorem endsWith_after_iff {count : Nat}
    (succeeds : ∀ index < count, machine.outcome index = none) :
    (machine.after count).EndsWith state finish ↔ machine.EndsWith state finish := by
  induction count with
  | zero => exact Iff.rfl
  | succ count inductionHypothesis =>
    rw [after_succ, endsWith_next_iff (succeeds count (Nat.lt_succ_self count))]
    exact inductionHypothesis fun index below => succeeds index (Nat.lt_succ_of_lt below)

end Ends

/-! ## The life of a machine -/

/-- Whatever its owner has asked of a machine so far, a watched processor tells of it:
the count is the number of steps that the processor completed, console failures or
not, and the program has ended just if some step wrote a port, failed or not. Once
it has ended, no call steps the processor, reaches the console or changes the count,
every step is fine and every run ends with that count. And from any such machine,
steps that all succeed may be taken before a run without changing how it ends. -/
theorem lifecycle (cpu : Cpu) (console : Device) (calls : List Call) :
    (owned (Watched.ofCpu cpu) console calls).unwatched = owned cpu console calls ∧
      (owned cpu console calls).instructions =
        (owned (Watched.ofCpu cpu) console calls).cpu.records.countP StepRecord.completed ∧
      ((owned cpu console calls).host.halted = true ↔
        ∃ record ∈ (owned (Watched.ofCpu cpu) console calls).cpu.records,
          record.wrotePort = true) ∧
      ((owned cpu console calls).host.halted = true → ∀ later,
        (owned (Watched.ofCpu cpu) console (calls ++ later)).cpu.records =
            (owned (Watched.ofCpu cpu) console calls).cpu.records ∧
          (owned cpu console (calls ++ later)).host = (owned cpu console calls).host ∧
          (owned cpu console (calls ++ later)).instructions =
            (owned cpu console calls).instructions ∧
          (owned cpu console (calls ++ later)).step =
            (none, owned cpu console (calls ++ later)) ∧
          ∀ limit, (owned cpu console (calls ++ later)).run (limit + 1) =
            (.halted (owned cpu console calls).instructions,
              owned cpu console (calls ++ later))) ∧
      ∀ count, (∀ index < count, (owned cpu console calls).outcome index = none) →
        ∀ state finish, ((owned cpu console calls).after count).EndsWith state finish ↔
          (owned cpu console calls).EndsWith state finish := by
  have plain : ∀ calls, (owned (Watched.ofCpu cpu) console calls).unwatched =
      owned cpu console calls :=
    fun calls => unwatched_performAll _ calls
  have faithful := Faithful.owned cpu console calls
  refine ⟨plain calls, ?counts, ?ends, ?rests, fun _ succeeds _ _ => endsWith_after_iff succeeds⟩
  case counts =>
    rw [← plain calls]
    exact faithful.instructions
  case ends =>
    rw [← plain calls, ← List.any_eq_true, ← faithful.halted]
    rfl
  case rests =>
    intro halted later
    have watchedEnded : (owned (Watched.ofCpu cpu) console calls).host.halted = true := by
      rw [← halted, ← plain calls]
      rfl
    have rest := performAll_of_halted watchedEnded later
    rw [owned, ← performAll_append] at rest
    obtain ⟨records, watchedHost, watchedCount⟩ := rest
    have host : (owned cpu console (calls ++ later)).host = (owned cpu console calls).host := by
      rw [← plain, ← plain]
      exact watchedHost
    have count : (owned cpu console (calls ++ later)).instructions =
        (owned cpu console calls).instructions := by
      rw [← plain, ← plain]
      exact watchedCount
    have stillEnded : (owned cpu console (calls ++ later)).host.halted = true := by
      rw [host, halted]
    refine ⟨records, host, count, step_halted stillEnded, ?_⟩
    intro limit
    rw [run_succ_halted (step_halted stillEnded) stillEnded, count]

end Machine

end Cpm80
