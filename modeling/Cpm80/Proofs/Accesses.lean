import Cpm80.Proofs.Surfacing

/-!
Contract: a host under any sequence of port accesses, and the calls that its console gets.

Owns:
- what can be asked of a host, and the host after any number of such accesses;
- a console that keeps a log of the calls made to it, which changes nothing else;
- how the calls print a text, each byte written once and flushed if it was taken;
- the failure that is handed over, as the first one since the last time.

The processor behind an access is any, and need not be the same twice: a port may be
read at any time and in any state.

Does not own: which processor makes which accesses, and what a machine tells of failures.
-/

namespace Cpm80

/-! ## Calls to a console -/

/-- A call to a console, with the failure that it ended in, if it failed. -/
inductive ConsoleCall where
  | write (byte : UInt8) (failure : Option ConsoleFault)
  | flush (failure : Option ConsoleFault)
deriving DecidableEq, Repr

namespace ConsoleCall

def failure : ConsoleCall → Option ConsoleFault
  | .write _ failure | .flush failure => failure

/-- The byte that a call offers to the console, taken or not. -/
def offered : ConsoleCall → Option UInt8
  | .write byte _ => some byte
  | .flush _ => none

/-- Whether calls print a text: every byte is offered by one write, in order, and the
console is flushed once right behind each write that it took, and at no other time. -/
inductive Print : List UInt8 → List ConsoleCall → Prop where
  | nil : Print [] []
  | refused {text : List UInt8} {calls : List ConsoleCall} (byte : UInt8)
      (fault : ConsoleFault) (rest : Print text calls) :
    Print (byte :: text) (.write byte (some fault) :: calls)
  | taken {text : List UInt8} {calls : List ConsoleCall} (byte : UInt8)
      (failure : Option ConsoleFault) (rest : Print text calls) :
    Print (byte :: text) (.write byte none :: .flush failure :: calls)

/-- The write calls carry the text, one byte each, and there are no more of them. -/
theorem Print.offered_eq {text : List UInt8} {calls : List ConsoleCall}
    (prints : Print text calls) : calls.filterMap offered = text := by
  induction prints with
  | nil => rfl
  | refused byte fault rest inductionHypothesis =>
    exact congrArg (byte :: ·) inductionHypothesis
  | taken byte failure rest inductionHypothesis =>
    exact congrArg (byte :: ·) inductionHypothesis

theorem Print.append {first second : List UInt8} {firstCalls secondCalls : List ConsoleCall}
    (before : Print first firstCalls) (behind : Print second secondCalls) :
    Print (first ++ second) (firstCalls ++ secondCalls) := by
  induction before with
  | nil => exact behind
  | refused byte fault rest inductionHypothesis => exact .refused byte fault inductionHypothesis
  | taken byte failure rest inductionHypothesis => exact .taken byte failure inductionHypothesis

end ConsoleCall

/-! ## Logged consoles -/

/-- A console with the calls made to it so far, in order. -/
structure Logged (Device : Type) where
  device : Device
  calls : List ConsoleCall

namespace Logged

variable {Device : Type}

def ofDevice (device : Device) : Logged Device where
  device := device
  calls := []

/-- Puts down a call, which is made out of its failure. -/
def enter (logged : Logged Device) (call : Option ConsoleFault → ConsoleCall) :
    Option ConsoleFault × Device → Option ConsoleFault × Logged Device
  | (failure, device) => (failure, ⟨device, logged.calls ++ [call failure]⟩)

variable [Console Device]

instance : Console (Logged Device) where
  write logged byte := logged.enter (.write byte) (Console.write logged.device byte)
  flush logged := logged.enter .flush (Console.flush logged.device)

/-- Printing a byte fails on both or on neither, and makes the calls that print it. They
fail as the printing does. -/
theorem print_spec (logged : Logged Device) (byte : UInt8) :
    ∃ calls, Console.print logged byte =
        ((Console.print logged.device byte).1,
          ⟨(Console.print logged.device byte).2, logged.calls ++ calls⟩) ∧
      ConsoleCall.Print [byte] calls ∧
      calls.filterMap ConsoleCall.failure = (Console.print logged.device byte).1.toList := by
  obtain ⟨device, calls⟩ := logged
  have write : Console.write (⟨device, calls⟩ : Logged Device) byte =
      enter ⟨device, calls⟩ (.write byte) (Console.write device byte) := rfl
  unfold Console.print
  rw [write]
  cases Console.write device byte with
  | mk failure next =>
    cases failure with
    | some fault => exact ⟨[.write byte (some fault)], rfl, .refused byte fault .nil, rfl⟩
    | none =>
      have flush : Console.flush (⟨next, calls ++ [.write byte none]⟩ : Logged Device) =
          enter ⟨next, calls ++ [.write byte none]⟩ .flush (Console.flush next) := rfl
      refine ⟨[.write byte none, .flush (Console.flush next).1], ?_, .taken byte _ .nil, ?_⟩
      · show Console.flush (⟨next, calls ++ [.write byte none]⟩ : Logged Device) = _
        rw [flush, enter, List.append_assoc]
        rfl
      · cases (Console.flush next).1 <;> rfl

/-- The log of a printed text comes behind what was there. -/
theorem printAll_spec (logged : Logged Device) (text : List UInt8) :
    ∃ calls, (Console.printAll logged text).calls = logged.calls ++ calls ∧
      ConsoleCall.Print text calls := by
  induction text generalizing logged with
  | nil => exact ⟨[], (List.append_nil _).symm, .nil⟩
  | cons byte text inductionHypothesis =>
    obtain ⟨first, printed, prints, -⟩ := logged.print_spec byte
    obtain ⟨others, logs, printsOthers⟩ := inductionHypothesis (Console.print logged byte).2
    refine ⟨first ++ others, ?_, prints.append printsOthers⟩
    rw [Console.printAll_cons, logs, printed, List.append_assoc]

/-- Whether a log and a record of failures belong to the same console, and the calls of the
one have failed as the other says. -/
structure Tells (logged : Logged Device) (recorded : Recorded Device) : Prop where
  device : logged.device = recorded.device
  failures : logged.calls.filterMap ConsoleCall.failure = recorded.failures

theorem tells_failAlike : Console.FailAlike (@Tells Device) where
  keeps := by
    rintro logged ⟨_, _⟩ byte ⟨rfl, rfl⟩
    obtain ⟨calls, printed, -, failures⟩ := logged.print_spec byte
    rw [printed, Recorded.print_eq]
    exact ⟨rfl, by rw [List.filterMap_append, failures]; rfl⟩
  same := by
    rintro logged ⟨_, _⟩ byte ⟨rfl, rfl⟩
    obtain ⟨calls, printed, -, -⟩ := logged.print_spec byte
    rw [printed, Recorded.print_eq]
    rfl

end Logged

/-! ## Accesses -/

namespace Host

/-- What can be asked of a host: to answer the read of a port, to take the write of one, and
to hand over the failure that it keeps. -/
inductive Access (Cpu : Type) where
  | read (port : UInt16) (cpu : Cpu)
  | write (port : UInt16) (value : UInt8)
  | takeFault

variable {Cpu Device : Type} [Processor Cpu]

/-- What the console is to show for an access: for a port read the character in E if C is
2, and if C is 9 the bytes from DE on, before the first dollar sign and a hundred at most. -/
def Access.text : Access Cpu → List UInt8
  | .read _ cpu =>
    Ascii.spaced
      (if Processor.register cpu .c = 2 then [Processor.register cpu .e]
      else if Processor.register cpu .c = 9 then
        ((List.range 100).map fun offset =>
          Processor.load cpu (Processor.pair cpu .de + UInt16.ofNat offset)).takeWhile (· != 0x24)
      else [])
  | .write _ _ | .takeFault => []

theorem Access.text_read (port : UInt16) (cpu : Cpu) :
    (Access.read port cpu).text = (requested cpu).map Ascii.shown := by
  rw [Ascii.map_shown, requested, stringAt_eq_takeWhile]
  rfl

variable [Console Device]

def perform (host : Host Device) : Access Cpu → Host Device
  | .read port cpu => (ports.read port cpu host).2
  | .write port value => (ports : Ports Cpu (Host Device)).write port value host
  | .takeFault => host.takeFault.2

def performAll (host : Host Device) (accesses : List (Access Cpu)) : Host Device :=
  accesses.foldl perform host

theorem performAll_append (host : Host Device) (first second : List (Access Cpu)) :
    host.performAll (first ++ second) = (host.performAll first).performAll second :=
  List.foldl_append

theorem perform_console (host : Host Device) (access : Access Cpu) :
    (host.perform access).console = Console.printAll host.console access.text := by
  cases access with
  | read port cpu =>
    rw [Access.text_read]
    exact answer_console cpu host
  | write port value => rfl
  | takeFault => rfl

theorem performAll_console (host : Host Device) (accesses : List (Access Cpu)) :
    (host.performAll accesses).console =
      Console.printAll host.console (accesses.flatMap Access.text) := by
  induction accesses generalizing host with
  | nil => rfl
  | cons access accesses inductionHypothesis =>
    show ((host.perform access).performAll accesses).console = _
    rw [inductionHypothesis, perform_console, List.flatMap_cons, Console.printAll_append]

/-- A port write sets the halt flag, and no access clears it. -/
theorem performAll_halted_iff (host : Host Device) (accesses : List (Access Cpu)) :
    (host.performAll accesses).halted = true ↔
      host.halted = true ∨ ∃ port value, .write port value ∈ accesses := by
  induction accesses generalizing host with
  | nil => simp [performAll]
  | cons access accesses inductionHypothesis =>
    show ((host.perform access).performAll accesses).halted = true ↔ _
    rw [inductionHypothesis]
    cases access with
    | read port cpu =>
      have same : (host.perform (.read port cpu)).halted = host.halted := answer_halted cpu host
      simp [same]
    | write port value =>
      have ended : (host.perform (.write port value : Access Cpu)).halted = true := rfl
      simp only [ended, true_or, true_iff]
      exact .inr ⟨port, value, List.mem_cons_self⟩
    | takeFault =>
      have same : (host.perform (.takeFault : Access Cpu)).halted = host.halted := rfl
      simp [same]

/-- Hosts that differ in consoles that fail alike answer every access alike. -/
theorem Alike.performAll {First Second : Type} [Console First] [Console Second]
    {related : First → Second → Prop} {left : Host First} {right : Host Second}
    (alike : Alike related left right) (consoles : Console.FailAlike related)
    (accesses : List (Access Cpu)) :
    Alike related (left.performAll accesses) (right.performAll accesses) := by
  induction accesses generalizing left right with
  | nil => exact alike
  | cons access accesses inductionHypothesis =>
    apply inductionHypothesis
    cases access with
    | read port cpu => exact alike.foldl_emit consoles (requested cpu)
    | write port value => exact ⟨alike.console, rfl, alike.fault⟩
    | takeFault => exact ⟨alike.console, alike.halted, rfl⟩

/-- As long as nobody takes it, a host keeps the first failure. -/
theorem Gathers.performAll (host : Host (Recorded Device)) {accesses : List (Access Cpu)}
    (untaken : .takeFault ∉ accesses) :
    ∃ failures, Gathers host (host.performAll accesses) failures := by
  induction accesses generalizing host with
  | nil => exact ⟨[], refl host⟩
  | cons access accesses inductionHypothesis =>
    rw [List.mem_cons, not_or] at untaken
    obtain ⟨others, gathersOthers⟩ := inductionHypothesis (host.perform access) untaken.2
    cases access with
    | read port cpu =>
      obtain ⟨failures, gathers⟩ := foldl_emit host (requested cpu)
      exact ⟨failures ++ others, gathers.trans gathersOthers⟩
    | write port value => exact ⟨others, gathersOthers.recorded, gathersOthers.kept⟩
    | takeFault => exact absurd rfl untaken.1

/-! ## A host from its beginning -/

/-- The host that a console has after some accesses. -/
def served (console : Device) (accesses : List (Access Cpu)) : Host Device :=
  (ofConsole console).performAll accesses

theorem served_append (console : Device) (before since : List (Access Cpu)) :
    served console (before ++ since) = (served console before).performAll since :=
  performAll_append _ before since

/-- The calls that a console has got in some accesses. -/
def log (console : Device) (accesses : List (Access Cpu)) : List ConsoleCall :=
  (served (Logged.ofDevice console) accesses).console.calls

theorem log_append (console : Device) (before since : List (Access Cpu)) :
    ∃ calls, log console (before ++ since) = log console before ++ calls := by
  obtain ⟨calls, logs, -⟩ := Logged.printAll_spec
    (served (Logged.ofDevice console) before).console (since.flatMap Access.text)
  refine ⟨calls, ?_⟩
  unfold log
  rw [served_append, performAll_console, logs]

theorem print_log (console : Device) (accesses : List (Access Cpu)) :
    ConsoleCall.Print (accesses.flatMap Access.text) (log console accesses) := by
  obtain ⟨calls, logs, prints⟩ :=
    Logged.printAll_spec (Logged.ofDevice console) (accesses.flatMap Access.text)
  unfold log served
  rw [performAll_console]
  show ConsoleCall.Print _ (Console.printAll (Logged.ofDevice console) _).calls
  rw [logs]
  exact prints

theorem alike_recorded (console : Device) (accesses : List (Access Cpu)) :
    Alike Recorded.Records (served (Recorded.ofDevice console) accesses)
      (served console accesses) := by
  have begins : Alike Recorded.Records (ofConsole (Recorded.ofDevice console))
      (ofConsole console) := ⟨rfl, rfl, rfl⟩
  exact begins.performAll Recorded.records_failAlike accesses

theorem alike_logged (console : Device) (accesses : List (Access Cpu)) :
    Alike Logged.Tells (served (Logged.ofDevice console) accesses)
      (served (Recorded.ofDevice console) accesses) := by
  have begins : Alike Logged.Tells (ofConsole (Logged.ofDevice console))
      (ofConsole (Recorded.ofDevice console)) := ⟨⟨rfl, rfl⟩, rfl, rfl⟩
  exact begins.performAll Logged.tells_failAlike accesses

/-- A host at its beginning, or from which the failure has just been taken, keeps none. -/
theorem served_clear (console : Device) {accesses : List (Access Cpu)}
    (begins : accesses = [] ∨ ∃ earlier, accesses = earlier ++ [.takeFault]) :
    (served console accesses).fault = none := by
  obtain rfl | ⟨earlier, rfl⟩ := begins
  · rfl
  · rw [served_append]
    rfl

/-- The calls since a failure was last taken, in which the first failure is the one that is
kept. -/
theorem served_fault (console : Device) {before since : List (Access Cpu)}
    (begins : before = [] ∨ ∃ earlier, before = earlier ++ [.takeFault])
    (untaken : .takeFault ∉ since) :
    ∃ calls, log console (before ++ since) = log console before ++ calls ∧
      (served console (before ++ since)).fault = calls.findSome? ConsoleCall.failure := by
  obtain ⟨calls, grows⟩ := log_append console before since
  obtain ⟨failures, gathers⟩ :=
    Gathers.performAll (served (Recorded.ofDevice console) before) untaken
  have logged : ∀ accesses : List (Access Cpu),
      (log console accesses).filterMap ConsoleCall.failure =
        (served (Recorded.ofDevice console) accesses).console.failures :=
    fun accesses => (alike_logged console accesses).console.failures
  have same : calls.filterMap ConsoleCall.failure = failures := by
    have whole := logged (before ++ since)
    rw [grows, List.filterMap_append, logged before, served_append,
      gathers.recorded] at whole
    exact List.append_cancel_left whole
  refine ⟨calls, grows, ?_⟩
  rw [← List.head?_filterMap, same, ← (alike_recorded console (before ++ since)).fault,
    served_append, gathers.kept, served_clear _ begins]
  rfl

end Host

/-- A console that fails by plan shows a text without the bytes whose write was refused. -/
theorem PlannedConsole.text_printAll (plan : FaultPlan) (text : List UInt8) :
    (Console.printAll (ofPlan plan) text).text.toList = plan.accepted text := by
  have beside : Beside plan (ofPlan plan) Transcript.empty := ⟨rfl, rfl, rfl⟩
  have texts := ((Beside.keeps plan).printAll beside text).text_eq
  rwa [Transcript.toList_printAll] at texts

/-- Whatever is asked of a host from its beginning on, and however its console fails: the
console gets one write for each byte of the texts that were requested, in order, and is
flushed once behind each write that it took; what it shows is those texts without the
bytes whose write it refused. The reply to a port read is zero and the halt flag stays,
which is set just if a port was written. And the failure that is handed over is the first
one since the last time, or since the beginning. The log of the calls changes nothing. -/
theorem Host.serves_every_access {Cpu Device : Type} [Processor Cpu] [Console Device]
    (console : Device) (plan : FaultPlan) (accesses : List (Access Cpu)) :
    ConsoleCall.Print (accesses.flatMap Access.text) (log console accesses) ∧
      (log console accesses).filterMap ConsoleCall.offered = accesses.flatMap Access.text ∧
      (served (Logged.ofDevice console) accesses).console.device =
        (served console accesses).console ∧
      (served (PlannedConsole.ofPlan plan) accesses).console.text.toList =
        plan.accepted (accesses.flatMap Access.text) ∧
      (∀ port (cpu : Cpu),
        (ports.read port cpu (served console accesses)).1 = 0 ∧
          (ports.read port cpu (served console accesses)).2.halted =
            (served console accesses).halted) ∧
      ((served console accesses).halted = true ↔
        ∃ port value, .write port value ∈ accesses) ∧
      ∀ before since, accesses = before ++ since →
        (before = [] ∨ ∃ earlier, before = earlier ++ [.takeFault]) →
        .takeFault ∉ since →
          ∃ calls, log console accesses = log console before ++ calls ∧
            (served console accesses).takeFault.1 =
              calls.findSome? ConsoleCall.failure := by
  have prints := print_log console accesses
  refine ⟨prints, prints.offered_eq, ?logged, ?shown, ?replies, ?halted, ?taken⟩
  case logged =>
    have logged : (served (Logged.ofDevice console) accesses).console.device =
        (served (Recorded.ofDevice console) accesses).console.device :=
      (alike_logged console accesses).console.device
    rw [logged]
    exact (alike_recorded console accesses).console
  case shown =>
    rw [served, performAll_console]
    exact PlannedConsole.text_printAll plan _
  case replies => exact fun port cpu => ⟨rfl, answer_halted cpu _⟩
  case halted =>
    rw [served, performAll_halted_iff]
    simp [ofConsole]
  case taken =>
    rintro before since rfl begins untaken
    exact served_fault console begins untaken

end Cpm80
