import Cpm80.Proofs.Blocks
import Cpm80.Proofs.Decoding
import Cpm80.Proofs.Refusal

/-!
Contract: what is told about a list of images on a standard output that refuses everything.

Images that are run in turn have standard output for their console, so that a program fails
that prints anything. Side by side each image has a transcript, and only what is told of it
is lost. The reason for which the output refuses what it does is told with it.

Owns:
- the end of a run whose console refuses everything;
- the records of an image in the log, run in turn and side by side;
- actions that leave a result and some records, whatever was in the log before;
- both ways of running a list on such an output.

Does not own: an output that takes some bytes and refuses others.
-/

namespace Cpm80

/-! ## Texts -/

theorem Batch.bytesOf_ne_nil {text : String} (anything : 0 < text.utf8ByteSize) :
    bytesOf text ≠ [] := by
  have inside : 0 < text.toUTF8.data.toList.length := anything
  rw [bytesOf, Utf8.toList_eq_data]
  exact List.ne_nil_of_length_pos inside

theorem Batch.announcement_ne_nil (image : Path) : bytesOf (announcement image) ≠ [] := by
  apply bytesOf_ne_nil
  have first : "Testing ".utf8ByteSize = 8 := by decide
  rw [announcement, String.utf8ByteSize_append, String.utf8ByteSize_append, first]
  omega

/-! ## Records -/

theorem RunFault.chain_console (cause : ConsoleFault) :
    (RunFault.console cause).chain = "couldn't write to the console: " ++ cause.message := by
  have apart : "couldn't write to the console: " = "couldn't write to the console" ++ ": " := by
    decide
  rw [apart]
  rfl

namespace Run.Ending

/-- Whether the program printed nothing. -/
def silent (ending : Ending) : Bool :=
  ending.transcript == .empty

/-- How the same run ends if its console refuses everything. -/
def refused (cause : ConsoleFault) (ending : Ending) : Ending :=
  { ending with
    outcome := if ending.silent then ending.outcome else .error (.console cause) }

/-- What the log holds about the end of the run of an image if no report can be printed. -/
def concluded (cause : ConsoleFault) (ending : Ending) (image : Path) : List LogRecord :=
  match ending.outcome with
  | .ok _ => [⟨.warn, "couldn't write the report", image, some cause⟩]
  | .error _ => ending.records image

/-- What the log holds about an image that was run in turn: that its name was not printed, and
how its run ended on a console that refuses everything. -/
def inTurn (cause : ConsoleFault) (ending : Ending) (image : Path) : List LogRecord :=
  ⟨.warn, "couldn't write to stdout", image, some cause⟩ ::
    (ending.refused cause).concluded cause image

/-- What the log holds about an image that was run side by side with others. -/
def sideBySide (cause : ConsoleFault) (ending : Ending) (image : Path) : List LogRecord :=
  [⟨.warn, "couldn't write to stdout", image, some cause⟩,
    ⟨.warn, "couldn't write the console transcript", image, some cause⟩] ++
    ending.concluded cause image

variable (ending : Ending) (cause : ConsoleFault) (image : Path)

theorem passed_refused : (ending.refused cause).passed = (ending.passed && ending.silent) := by
  unfold passed refused
  cases ending.silent with
  | true => exact (Bool.and_true _).symm
  | false => exact (Bool.and_false _).symm

theorem records_refused :
    (ending.refused cause).records image =
      if ending.silent then ending.records image
      else [⟨.error, "couldn't write to the console: " ++ cause.message, image, none⟩] := by
  unfold records refused
  cases ending.silent with
  | true => rfl
  | false =>
    have told := (RunFault.chain_eq (.console cause)).symm.trans (RunFault.chain_console cause)
    exact congrArg (fun text => [(⟨.error, text, image, none⟩ : LogRecord)]) told

end Run.Ending

/-- Those of some records that tell of an error. -/
def LogRecord.errors (records : List LogRecord) : List LogRecord :=
  records.filter (·.level == .error)

namespace Run.Ending

variable (ending : Ending) (cause : ConsoleFault) (image : Path)

theorem errors_records : LogRecord.errors (ending.records image) = ending.records image := by
  unfold records
  cases ending.outcome <;> rfl

theorem errors_concluded :
    LogRecord.errors (ending.concluded cause image) = ending.records image := by
  unfold concluded records
  cases ending.outcome <;> rfl

theorem errors_sideBySide :
    LogRecord.errors (ending.sideBySide cause image) = ending.records image :=
  ending.errors_concluded cause image

theorem errors_inTurn :
    LogRecord.errors (ending.inTurn cause image) =
      if ending.silent then ending.records image
      else [⟨.error, "couldn't write to the console: " ++ cause.message, image, none⟩] :=
  ((ending.refused cause).errors_concluded cause image).trans (ending.records_refused cause image)

end Run.Ending

/-! ## Actions that leave records -/

namespace Station

/-- A station at any standard output, with some records in its log. -/
def holding (files : Files) (patience : Nat) (output : Output) (log : List LogRecord) :
    Station where
  files := files
  output := output
  log := log.toArray
  patience := patience

variable {files : Files} {patience : Nat} {Result Other Item : Type} {cause : ConsoleFault}
  {before between after : Output → Prop}

/-- Whether an action leads from outputs of one kind to outputs of another kind and, whatever
was told before, notes some records and gives a result. -/
def Notes (files : Files) (patience : Nat) (before : Output → Prop) (action : Action Result)
    (result : Result) (records : List LogRecord) (after : Output → Prop) : Prop :=
  ∀ output log, before output →
    ∃ next, after next ∧ action (holding files patience output log) =
      some (result, holding files patience next (log ++ records))

namespace Notes

theorem silent (result : Result) :
    Notes files patience before (pure result) result [] before := by
  intro output log holds
  refine ⟨output, holds, ?_⟩
  rw [List.append_nil]
  rfl

theorem bind {action : Action Result} {further : Result → Action Other} {result : Result}
    {other : Other} {records moreRecords : List LogRecord}
    (first : Notes files patience before action result records between)
    (second : Notes files patience between (further result) other moreRecords after) :
    Notes files patience before (action >>= further) other (records ++ moreRecords) after := by
  intro output log holds
  obtain ⟨next, nextHolds, steps⟩ := first output log holds
  obtain ⟨last, lastHolds, moreSteps⟩ := second next (log ++ records) nextHolds
  refine ⟨last, lastHolds, ?_⟩
  have both : (action >>= further) (holding files patience output log) =
      (action (holding files patience output log)).bind fun told => further told.1 told.2 := rfl
  rw [both, steps, ← List.append_assoc]
  exact moreSteps

theorem imp {action : Action Result} {result : Result} {records : List LogRecord}
    {laxer : Output → Prop} (notes : Notes files patience before action result records after)
    (implies : ∀ output, after output → laxer output) :
    Notes files patience before action result records laxer := by
  intro output log holds
  obtain ⟨next, nextHolds, steps⟩ := notes output log holds
  exact ⟨next, implies next nextHolds, steps⟩

theorem mapM {act : Item → Action Result} {result : Item → Result}
    {records : Item → List LogRecord} {items : List Item}
    (each : ∀ item ∈ items,
      Notes files patience before (act item) (result item) (records item) before) :
    Notes files patience before (items.mapM act) (items.map result) (items.flatMap records)
      before := by
  induction items with
  | nil => exact silent []
  | cons item items inductionHypothesis =>
    have first := each item List.mem_cons_self
    have others := inductionHypothesis fun other member =>
      each other (List.mem_cons_of_mem item member)
    have rest : Notes files patience before
        (items.mapM act >>= fun results => pure (result item :: results))
        (result item :: items.map result) (items.flatMap records) before := by
      rw [← List.append_nil (items.flatMap records)]
      exact others.bind (silent (result item :: items.map result))
    rw [List.mapM_cons]
    exact first.bind rest

/-! ### The terminal of a station -/

theorem log (record : LogRecord) :
    Notes files patience before (Terminal.log record) () [record] before := by
  intro output log holds
  refine ⟨output, holds, ?_⟩
  show some ((), { holding files patience output log with log := log.toArray.push record }) = _
  rw [List.push_toArray]
  rfl

/-- Printing fails on any output that has something to pass on then. -/
theorem print {bytes : List UInt8}
    (fails : ∀ output : Output, before output →
      output.Refusing cause ∧ (bytes ≠ [] ∨ output.held ≠ #[])) :
    Notes files patience before (Terminal.print bytes) (some cause) [] (Output.Stuck cause) := by
  intro output log holds
  obtain ⟨refusing, anything⟩ := fails output holds
  obtain ⟨stuck, isStuck, printed⟩ := Output.print_refusing refusing anything
  refine ⟨stuck, isStuck, ?_⟩
  show some ((output.print bytes).1, { holding files patience output log with
    output := (output.print bytes).2 }) = _
  rw [printed, List.append_nil]
  rfl

variable {clockHz : Nat} {image : Path} {ending : Run.Ending}

/-- A run on standard output that is stuck ends as it does on any console that refuses
everything. -/
theorem run (ends : Run.ending? patience files clockHz image = some ending) :
    Notes files patience (Output.Stuck cause) (Terminal.run image clockHz)
      (ending.refused cause).outcome [] (Output.Stuck cause) := by
  obtain ⟨state, ran, ended⟩ := Run.ending?_eq_some_iff.1 ends
  have stopped : state ≠ .running := by
    rintro rfl
    cases ended
  intro output log stuck
  obtain ⟨printed, refused⟩ :=
    Run.ofFile_refused (Output.refuses_of_stuck stuck) ran stopped
  refine ⟨_, Output.stuck_printAll stuck printed, ?_⟩
  show (ended? (Run.ofFile patience files image output clockHz).1).map
    (fun outcome => (outcome, { holding files patience output log with
      output := (Run.ofFile patience files image output clockHz).2 })) = _
  have told : ended? (if ending.transcript = .empty then state else .failed (.console cause)) =
      some (ending.refused cause).outcome := by
    unfold Run.Ending.refused Run.Ending.silent
    by_cases quiet : ending.transcript = .empty
    · rw [if_pos quiet, ended, if_pos (beq_iff_eq.2 quiet)]
    · rw [if_neg quiet, if_neg (mt beq_iff_eq.1 quiet)]
      rfl
  rw [refused, List.append_nil]
  dsimp only
  rw [told]
  rfl

/-! ### Telling about one image -/

theorem printOrWarn {bytes : List UInt8}
    (fails : ∀ output : Output, before output →
      output.Refusing cause ∧ (bytes ≠ [] ∨ output.held ≠ #[])) (image : Path)
    (warning : String) :
    Notes files patience before (Batch.printOrWarn image bytes warning) ()
      [⟨.warn, warning, image, some cause⟩] (Output.Stuck cause) :=
  (print fails).bind (log ⟨.warn, warning, image, some cause⟩)

/-- An output that is stuck fails whatever is printed, even if that is nothing. -/
theorem printOrWarn_stuck (image : Path) (bytes : List UInt8) (warning : String) :
    Notes files patience (Output.Stuck cause) (Batch.printOrWarn image bytes warning) ()
      [⟨.warn, warning, image, some cause⟩] (Output.Stuck cause) :=
  printOrWarn (fun _ stuck => ⟨stuck.1, .inr stuck.2⟩) image warning

theorem announce (image : Path) :
    Notes files patience (Output.Refusing cause) (Batch.announce image) ()
      [⟨.warn, "couldn't write to stdout", image, some cause⟩] (Output.Stuck cause) :=
  printOrWarn (fun _ refusing => ⟨refusing, .inl (Batch.announcement_ne_nil image)⟩) image _

theorem conclude (image : Path) (ending : Run.Ending) :
    Notes files patience (Output.Stuck cause) (Batch.conclude image ending.outcome)
      ending.passed (ending.concluded cause image) (Output.Stuck cause) := by
  cases ending with
  | mk transcript outcome =>
    cases outcome with
    | ok report => exact (printOrWarn_stuck image _ _).bind (silent true)
    | error fault =>
      have told : Notes files patience (Output.Stuck cause) (Batch.conclude image (.error fault))
          false [⟨.error, fault.chain, image, none⟩] (Output.Stuck cause) :=
        (log ⟨.error, fault.chain, image, none⟩).bind (silent false)
      rwa [RunFault.chain_eq] at told

theorem runNext (ends : Run.ending? patience files clockHz image = some ending) :
    Notes files patience (Output.Refusing cause) (Batch.runNext clockHz image)
      (ending.passed && ending.silent) (ending.inTurn cause image) (Output.Refusing cause) := by
  have told : Notes files patience (Output.Refusing cause) (Batch.runNext clockHz image)
      (ending.refused cause).passed (ending.inTurn cause image) (Output.Stuck cause) :=
    (announce image).bind ((run ends).bind (conclude image (ending.refused cause)))
  rw [← ending.passed_refused cause]
  exact told.imp fun _ stuck => stuck.1

theorem tell (image : Path) (ending : Run.Ending) :
    Notes files patience (Output.Refusing cause)
      (Batch.tell image (pure (ending.transcript, ending.outcome))) ending.passed
      (ending.sideBySide cause image) (Output.Refusing cause) := by
  have handed : Notes files patience (Output.Refusing cause)
    (pure (ending.transcript, ending.outcome)) (ending.transcript, ending.outcome) []
    (Output.Refusing cause) := silent _
  have told : Notes files patience (Output.Refusing cause)
      (Batch.tell image (pure (ending.transcript, ending.outcome))) ending.passed
      (ending.sideBySide cause image) (Output.Stuck cause) :=
    handed.bind
      ((announce image).bind ((printOrWarn_stuck image _ _).bind (conclude image ending)))
  exact told.imp fun _ stuck => stuck.1

/-! ### Lists of images -/

variable {images : List Path} {ending : Path → Run.Ending}

theorem runInTurn
    (ends : ∀ image ∈ images,
      Run.ending? patience files clockHz image = some (ending image)) :
    Notes files patience (Output.Refusing cause) (Batch.runInTurn images clockHz)
      (images.map fun image => (ending image).passed && (ending image).silent)
      (images.flatMap fun image => (ending image).inTurn cause image) (Output.Refusing cause) :=
  mapM fun image member => runNext (ends image member)

theorem runSideBySide
    (ends : ∀ image ∈ images,
      Run.ending? patience files clockHz image = some (ending image)) :
    Notes files patience (Output.Refusing cause) (Batch.runSideBySide images clockHz)
      (images.map fun image => (ending image).passed)
      (images.flatMap fun image => (ending image).sideBySide cause image)
      (Output.Refusing cause) := by
  intro output log refusing
  rw [(holding files patience output log).runSideBySide_eq ends]
  exact mapM (fun image _ => tell image (ending image)) output log refusing

theorem execute {arguments : List String} {parallel : Bool}
    (asked : CommandLine.parse arguments = .run ⟨images, clockHz, parallel⟩)
    (ends : ∀ image ∈ images,
      Run.ending? patience files clockHz image = some (ending image)) :
    ∃ records, Notes files patience (Output.Refusing cause) (Program.execute arguments)
      (Program.exitCode (images.map fun image =>
        (ending image).passed && (parallel || (ending image).silent))) records
      (Output.Refusing cause) := by
  have batch : ∃ records, Notes files patience (Output.Refusing cause)
      (Batch.run ⟨images, clockHz, parallel⟩)
      (images.map fun image => (ending image).passed && (parallel || (ending image).silent))
      records (Output.Refusing cause) := by
    cases parallel with
    | true =>
      simp only [Bool.true_or, Bool.and_true]
      exact ⟨_, runSideBySide ends⟩
    | false =>
      simp only [Bool.false_or]
      exact ⟨_, runInTurn ends⟩
  obtain ⟨records, told⟩ := batch
  unfold Program.execute
  rw [asked]
  exact ⟨_, told.bind (silent _)⟩

end Notes

/-! ## Both ways of running a list -/

/-- A station where nothing has been told yet, at a standard output that takes everything or
refuses everything. -/
def opening (files : Files) (patience : Nat) (refusal : Option ConsoleFault) : Station :=
  holding files patience (Output.fresh refusal) []

/-- What the log of a station tells of errors. -/
def errors (station : Station) : List LogRecord :=
  LogRecord.errors station.log.toList

variable {clockHz : Nat} {images : List Path} {ending : Path → Run.Ending}

/-- Whatever is told of each image in one piece, the errors in it are told in the same order. -/
theorem errors_flatMap {told records : Path → List LogRecord}
    (each : ∀ image, LogRecord.errors (told image) = records image) :
    LogRecord.errors (images.flatMap told) = images.flatMap records := by
  unfold LogRecord.errors at each ⊢
  rw [List.filter_flatMap]
  exact congrArg (List.flatMap · images) (funext each)

theorem Tells.from_opening {action : Action Result} {result : Result} {text : List UInt8}
    {records : List LogRecord} (tells : Tells files patience action result text records) :
    action (opening files patience none) = some (result, settled files patience text records) :=
  tells [] []

theorem Notes.from_opening {action : Action Result} {result : Result}
    {records : List LogRecord}
    (notes : Notes files patience (Output.Refusing cause) action result records
      (Output.Refusing cause)) :
    ∃ refusing : Station,
      action (opening files patience (some cause)) = some (result, refusing) ∧
        refusing.log.toList = records ∧ refusing.output.delivered = #[] := by
  obtain ⟨output, refusing, told⟩ :=
    notes (Output.fresh (some cause)) [] (Output.refusing_fresh cause)
  exact ⟨_, told, rfl, refusing.2⟩

theorem execute_of_told {station finish : Station} {arguments : List String} {code : Nat}
    (told : (Program.execute arguments : Action Nat) station = some (code, finish)) :
    execute station arguments = some ⟨code, finish.output, finish.log⟩ := by
  show ((Program.execute arguments : Action Nat) station).map _ = _
  rw [told]
  rfl

/-- Standard output that refuses everything, for whatever reason, changes verdicts only where
images are run in turn. Side by side all verdicts, exit codes and errors in the log are those
of an output that takes everything.

In turn an image passes if its run on a console that works would do so and print nothing. The
log tells of the console and the reason where something was printed, and else of the fault
that ended the run, if there was one. Either way each image is told about, in the order of
the list. -/
theorem refusal_changes_runs_in_turn_only (files : Files) (cause : ConsoleFault)
    (clockHz : Nat) {images : List Path} {ending : Path → Run.Ending}
    (ends : ∀ image ∈ images,
      ∃ limit, Run.ending? limit files clockHz image = some (ending image)) :
    ∃ needed, ∀ patience ≥ needed,
      (∃ working refusing : Station,
        (Batch.runSideBySide images clockHz : Action (List Bool)) (opening files patience none) =
            some (images.map fun image => (ending image).passed, working) ∧
          (Batch.runSideBySide images clockHz : Action (List Bool))
              (opening files patience (some cause)) =
            some (images.map fun image => (ending image).passed, refusing) ∧
          refusing.errors = working.errors ∧
          (refusing.log.toList =
            images.flatMap fun image => (ending image).sideBySide cause image) ∧
          refusing.output.delivered = #[]) ∧
      (∃ refusing : Station,
        (Batch.runInTurn images clockHz : Action (List Bool))
              (opening files patience (some cause)) =
            some (images.map fun image => (ending image).passed && (ending image).silent,
              refusing) ∧
          (refusing.errors = images.flatMap fun image =>
            if (ending image).silent then (ending image).records image
            else [⟨.error, "couldn't write to the console: " ++ cause.message, image, none⟩]) ∧
          (refusing.log.toList = images.flatMap fun image => (ending image).inTurn cause image) ∧
          refusing.output.delivered = #[]) ∧
      ∀ arguments parallel,
        CommandLine.parse arguments = .run ⟨images, clockHz, parallel⟩ →
          ∃ working refusing : Outcome,
            execute (opening files patience none) arguments = some working ∧
              execute (opening files patience (some cause)) arguments = some refusing ∧
              (parallel = true → refusing.exitCode = working.exitCode) ∧
              refusing.exitCode =
                Program.exitCode (images.map fun image =>
                  (ending image).passed && (parallel || (ending image).silent)) := by
  obtain ⟨needed, within⟩ := Run.exists_limit ends
  refine ⟨needed, fun patience enough => ?_⟩
  have inTime : ∀ image ∈ images,
      Run.ending? patience files clockHz image = some (ending image) :=
    fun image member => Run.ending?_of_le (within image member) enough
  refine ⟨?sideBySide, ?inTurn, fun arguments parallel asked => ?_⟩
  case sideBySide =>
    have working := (Tells.runSideBySide inTime).from_opening
    obtain ⟨refusing, told, log, delivered⟩ := (Notes.runSideBySide inTime).from_opening
    refine ⟨_, refusing, working, told, ?_, log, delivered⟩
    unfold errors
    rw [log, errors_flatMap fun image => (ending image).errors_sideBySide cause image]
    exact (errors_flatMap fun image => (ending image).errors_records image).symm
  case inTurn =>
    obtain ⟨refusing, told, log, delivered⟩ := (Notes.runInTurn inTime).from_opening
    refine ⟨refusing, told, ?_, log, delivered⟩
    unfold errors
    rw [log]
    exact errors_flatMap fun image => (ending image).errors_inTurn cause image
  obtain ⟨records, notes⟩ := Notes.execute asked inTime
  obtain ⟨refusing, told, -⟩ := notes.from_opening
  have working := (Tells.execute asked inTime).from_opening
  refine ⟨_, _, execute_of_told working, execute_of_told told, ?_, rfl⟩
  rintro rfl
  simp only [Bool.true_or, Bool.and_true]

/-- Two programs that print a letter, one that ends then and one that comes to a byte that is
no instruction; and two that do the same in silence. -/
def fourFiles : FileTree where
  entries := [
    ([[0x61]], some [0x0e, 0x02, 0x1e, 0x41, 0xdb, 0x00, 0xd3, 0x00]),
    ([[0x62]], some [0x0e, 0x02, 0x1e, 0x41, 0xdb, 0x00, 0xcb]),
    ([[0x63]], some [0xd3, 0x00]),
    ([[0x64]], some [0xcb])]

/-- How the runs of the four files and of one that is not there end. -/
def ofFourFiles (image : Path) : Run.Ending :=
  if image = ⟨[0x61]⟩ then ⟨⟨#[0x41]⟩, .ok ⟨"a", 4, defaultClockHz, .zero⟩⟩
  else if image = ⟨[0x62]⟩ then ⟨⟨#[0x41]⟩, .error (.execution ⟨0xcb, 0x0106⟩)⟩
  else if image = ⟨[0x63]⟩ then ⟨⟨#[]⟩, .ok ⟨"c", 1, defaultClockHz, .zero⟩⟩
  else if image = ⟨[0x64]⟩ then ⟨⟨#[]⟩, .error (.execution ⟨0xcb, 0x0100⟩)⟩
  else ⟨⟨#[]⟩, .error (.load (.unreadable image .notFound))⟩

/-- The paths of those five. -/
def fiveImages : List Path :=
  [⟨[0x61]⟩, ⟨[0x62]⟩, ⟨[0x63]⟩, ⟨[0x64]⟩, ⟨[0x65]⟩]

/-- An output that nobody reads from any more. -/
def brokenPipe : ConsoleFault :=
  .device "Broken pipe (os error 32)"

/-- The verdict on the first file is another in turn, and the log tells of the console about
the first two. -/
theorem refusal_changes_runs_in_turn_only_fourFiles :
    ∃ needed, ∀ patience ≥ needed,
      (∃ refusing : Station,
        (Batch.runSideBySide fiveImages defaultClockHz : Action (List Bool))
            (opening fourFiles patience (some brokenPipe)) =
            some ([true, false, true, false, false], refusing) ∧
          refusing.log.toList =
            fiveImages.flatMap fun image => (ofFourFiles image).sideBySide brokenPipe image) ∧
      (∃ refusing : Station,
        (Batch.runInTurn fiveImages defaultClockHz : Action (List Bool))
            (opening fourFiles patience (some brokenPipe)) =
            some ([false, false, true, false, false], refusing) ∧
          refusing.errors = [
            ⟨.error, "couldn't write to the console: Broken pipe (os error 32)", ⟨[0x61]⟩, none⟩,
            ⟨.error, "couldn't write to the console: Broken pipe (os error 32)", ⟨[0x62]⟩, none⟩,
            ⟨.error, "encountered unimplemented opcode 0xcb at 0x0100", ⟨[0x64]⟩, none⟩,
            ⟨.error, "couldn't read e: No such file or directory (os error 2)", ⟨[0x65]⟩,
              none⟩]) := by
  have found : ∀ image ∈ fiveImages,
      Run.ending? 4 fourFiles defaultClockHz image = some (ofFourFiles image) := by
    decide +kernel
  obtain ⟨needed, told⟩ := refusal_changes_runs_in_turn_only fourFiles brokenPipe defaultClockHz
    fun image member => ⟨4, found image member⟩
  refine ⟨needed, fun patience enough => ?_⟩
  obtain ⟨⟨-, beside, -, sideBySide, -, log, -⟩, ⟨alone, inTurn, errors, -⟩, -⟩ :=
    told patience enough
  have verdicts : (fiveImages.map fun image => (ofFourFiles image).passed) =
      [true, false, true, false, false] := by
    decide +kernel
  have verdictsInTurn :
      (fiveImages.map fun image => (ofFourFiles image).passed && (ofFourFiles image).silent) =
        [false, false, true, false, false] := by
    decide +kernel
  rw [verdicts] at sideBySide
  rw [verdictsInTurn] at inTurn
  refine ⟨⟨beside, sideBySide, log⟩, alone, inTurn, errors.trans ?_⟩
  decide +kernel

end Station

end Cpm80
