import Cpm80.Proofs.StandardOutput
import Cpm80.Station
import Mathlib.Control.Monad.Basic

/-!
Contract: what is told about a list of images on a standard output that takes everything.

Each image comes with a block of text and, if its run failed, a record in the log. Both
follow from the run of that image on a machine of its own.

Owns:
- the ends of runs, which do not depend on how much longer a run was allowed to go on;
- actions that print a text, note some records and give a result;
- the block and the records of an image;
- both ways of running a list, which tell the same.

Does not own: an output that refuses anything; wall time, which stands still here.
-/

namespace Cpm80

/-! ## Runs that end -/

namespace Run

variable {Device : Type} [Console Device]

theorem ofImage_of_le {limit larger : Nat} {name : String} {image : Image} {console : Device}
    {clockHz : Nat} {state : RunState Report} {finish : Device}
    (ends : ofImage limit name image console clockHz = (state, finish))
    (ended : state ≠ .running) (allowed : limit ≤ larger) :
    ofImage larger name image console clockHz = (state, finish) := by
  unfold ofImage at ends ⊢
  cases loads : (Machine.assemble Z80.fresh console).load image with
  | mk fault machine =>
    rw [loads] at ends
    cases fault with
    | some fault => exact ends
    | none =>
      dsimp only at ends ⊢
      obtain ⟨rfl, rfl⟩ := Prod.mk.inj ends
      have running : (machine.run limit).1 ≠ .running :=
        fun same => ended (Machine.map_eq_running_iff.2 same)
      rw [Machine.run_of_le rfl running allowed]

theorem ofFile_of_le {limit larger : Nat} {files : Files} {path : Path} {console : Device}
    {clockHz : Nat} {state : RunState Report} {finish : Device}
    (ends : ofFile limit files path console clockHz = (state, finish))
    (ended : state ≠ .running) (allowed : limit ≤ larger) :
    ofFile larger files path console clockHz = (state, finish) := by
  unfold ofFile ofRead at ends ⊢
  cases found : Image.read files path with
  | error fault => rwa [found] at ends
  | ok image =>
    rw [found] at ends
    exact ofImage_of_le ends ended allowed

/-- How a run went: what it printed, and its report or the fault that ended it. -/
structure Ending where
  transcript : Transcript
  outcome : Except RunFault Report
deriving DecidableEq

/-- The end of the run of a file on a transcript, if it comes within so many steps. -/
def ending? (limit : Nat) (files : Files) (clockHz : Nat) (path : Path) : Option Ending :=
  let (state, transcript) := ofFile limit files path Transcript.empty clockHz
  (Station.ended? state).map fun outcome => ⟨transcript, outcome⟩

variable {files : Files} {clockHz limit larger : Nat} {path : Path} {ending : Ending}

theorem ending?_eq_some_iff :
    ending? limit files clockHz path = some ending ↔
      ∃ state, ofFile limit files path Transcript.empty clockHz = (state, ending.transcript) ∧
        Station.ended? state = some ending.outcome := by
  unfold ending?
  cases ofFile limit files path Transcript.empty clockHz with
  | mk state transcript =>
    cases ending with
    | mk printed outcome =>
      simp only [Option.map_eq_some_iff, Ending.mk.injEq, Prod.mk.injEq]
      constructor
      · rintro ⟨_, ended, rfl, rfl⟩
        exact ⟨state, ⟨rfl, rfl⟩, ended⟩
      · rintro ⟨_, ⟨rfl, rfl⟩, ended⟩
        exact ⟨outcome, ended, rfl, rfl⟩

theorem ending?_of_le (ends : ending? limit files clockHz path = some ending)
    (allowed : limit ≤ larger) : ending? larger files clockHz path = some ending := by
  rw [ending?_eq_some_iff] at ends ⊢
  obtain ⟨state, ran, ended⟩ := ends
  have stopped : state ≠ .running := by
    rintro rfl
    cases ended
  exact ⟨state, ofFile_of_le ran stopped allowed, ended⟩

/-- A run has at most one end. -/
theorem ending?_unique {other : Ending} (ends : ending? limit files clockHz path = some ending)
    (also : ending? larger files clockHz path = some other) : other = ending := by
  have first := ending?_of_le ends (Nat.le_max_left limit larger)
  have second := ending?_of_le also (Nat.le_max_right limit larger)
  exact Option.some.inj (second.symm.trans first)

/-- Of finitely many runs that end there is one that goes on longest. -/
theorem exists_limit {images : List Path} {ending : Path → Ending}
    (ends : ∀ image ∈ images, ∃ limit, ending? limit files clockHz image = some (ending image)) :
    ∃ limit, ∀ image ∈ images, ending? limit files clockHz image = some (ending image) := by
  -- The limit of a list is the larger of those of its head and its tail.
  induction images with
  | nil => exact ⟨0, fun _ member => absurd member List.not_mem_nil⟩
  | cons image images inductionHypothesis =>
    obtain ⟨first, found⟩ := ends image List.mem_cons_self
    obtain ⟨others, foundOthers⟩ :=
      inductionHypothesis fun other member => ends other (List.mem_cons_of_mem image member)
    refine ⟨max first others, fun other member => ?_⟩
    rcases List.mem_cons.1 member with rfl | later
    · exact ending?_of_le found (Nat.le_max_left first others)
    · exact ending?_of_le (foundOthers other later) (Nat.le_max_right first others)

end Run

/-! ## Actions that tell something -/

namespace Station

/-- A station whose standard output has taken some bytes and holds none back. -/
def settled (files : Files) (patience : Nat) (written : List UInt8) (log : List LogRecord) :
    Station where
  files := files
  output := Output.passedOn written
  log := log.toArray
  patience := patience

/-- Starting a run that comes to an end changes nothing at a station. -/
theorem start_eq (station : Station) {clockHz : Nat} {image : Path} {ending : Run.Ending}
    (ends : Run.ending? station.patience station.files clockHz image = some ending) :
    (Terminal.start image clockHz : Action (Action (Transcript × Except RunFault Report)))
        station = some (pure (ending.transcript, ending.outcome), station) := by
  obtain ⟨state, ran, ended⟩ := Run.ending?_eq_some_iff.1 ends
  show (ended? (Run.ofFile station.patience station.files image Transcript.empty clockHz).1).map
    (fun outcome => (pure ((Run.ofFile station.patience station.files image Transcript.empty
      clockHz).2, outcome), station)) = _
  rw [ran]
  dsimp only
  rw [ended]
  rfl

/-- Actions that change nothing at a station change nothing one after the other. -/
theorem mapM_eq_of_unchanged {Result Item : Type} (station : Station) {act : Item → Action Result}
    {result : Item → Result} {items : List Item}
    (each : ∀ item ∈ items, act item station = some (result item, station)) :
    items.mapM act station = some (items.map result, station) := by
  induction items with
  | nil => rfl
  | cons item items inductionHypothesis =>
    have others := inductionHypothesis fun other member =>
      each other (List.mem_cons_of_mem item member)
    rw [List.mapM_cons]
    show (act item station).bind (fun told =>
      (items.mapM act told.2).bind fun rest => some (told.1 :: rest.1, rest.2)) = _
    rw [each item List.mem_cons_self, Option.bind_some, others]
    rfl

/-- Side by side nothing happens at a station before the runs are told about, if they all end. -/
theorem runSideBySide_eq (station : Station) {clockHz : Nat} {images : List Path}
    {ending : Path → Run.Ending}
    (ends : ∀ image ∈ images,
      Run.ending? station.patience station.files clockHz image = some (ending image)) :
    (Batch.runSideBySide images clockHz : Action (List Bool)) station =
      (images.mapM fun image =>
        Batch.tell image (pure ((ending image).transcript, (ending image).outcome)) :
          Action (List Bool)) station := by
  let finish : Path → Action (Transcript × Except RunFault Report) :=
    fun image => pure ((ending image).transcript, (ending image).outcome)
  have started : (images.mapM fun image => Terminal.start image clockHz : Action _) station =
      some (images.map finish, station) :=
    station.mapM_eq_of_unchanged fun image member => station.start_eq (ends image member)
  show ((images.mapM fun image => Terminal.start image clockHz : Action _) station).bind
    (fun told => ((images.zip told.1).mapM fun (image, finish) => Batch.tell image finish :
      Action (List Bool)) told.2) = _
  rw [started, Option.bind_some, ← List.map_prod_left_eq_zip, List.mapM_map]
  rfl

variable {files : Files} {patience : Nat} {Result Other Item : Type}

/-- Whether an action, whatever was told before, prints a text, notes some records,
gives a result and does nothing else. -/
def Tells (files : Files) (patience : Nat) (action : Action Result) (result : Result)
    (text : List UInt8) (records : List LogRecord) : Prop :=
  ∀ written log, action (settled files patience written log) =
    some (result, settled files patience (written ++ text) (log ++ records))

namespace Tells

theorem silent (result : Result) : Tells files patience (pure result) result [] [] := by
  intro written log
  rw [List.append_nil, List.append_nil]
  rfl

theorem bind {action : Action Result} {further : Result → Action Other} {result : Result}
    {other : Other} {text moreText : List UInt8} {records moreRecords : List LogRecord}
    (first : Tells files patience action result text records)
    (second : Tells files patience (further result) other moreText moreRecords) :
    Tells files patience (action >>= further) other (text ++ moreText)
      (records ++ moreRecords) := by
  intro written log
  have steps : (action >>= further) (settled files patience written log) =
      (action (settled files patience written log)).bind fun told => further told.1 told.2 := rfl
  rw [steps, first written log]
  show further result (settled files patience (written ++ text) (log ++ records)) = _
  rw [second, List.append_assoc, List.append_assoc]

theorem mapM {act : Item → Action Result} {result : Item → Result} {text : Item → List UInt8}
    {records : Item → List LogRecord} {items : List Item}
    (each : ∀ item ∈ items, Tells files patience (act item) (result item) (text item)
      (records item)) :
    Tells files patience (items.mapM act) (items.map result) (items.flatMap text)
      (items.flatMap records) := by
  induction items with
  | nil => exact silent []
  | cons item items inductionHypothesis =>
    have first := each item List.mem_cons_self
    have others := inductionHypothesis fun other member =>
      each other (List.mem_cons_of_mem item member)
    have rest : Tells files patience
        (items.mapM act >>= fun results => pure (result item :: results))
        (result item :: items.map result) (items.flatMap text) (items.flatMap records) := by
      rw [← List.append_nil (items.flatMap text), ← List.append_nil (items.flatMap records)]
      exact others.bind (silent (result item :: items.map result))
    rw [List.mapM_cons]
    exact first.bind rest

/-! ### The terminal of a station -/

theorem print (bytes : List UInt8) :
    Tells files patience (Terminal.print bytes) none bytes [] := by
  intro written log
  rw [List.append_nil]
  show some (((Output.passedOn written).print bytes).1, { settled files patience written log with
    output := ((Output.passedOn written).print bytes).2 }) = _
  rw [Output.print_passedOn]
  rfl

theorem log (record : LogRecord) :
    Tells files patience (Terminal.log record) () [] [record] := by
  intro written log
  show some ((), { settled files patience written log with log := log.toArray.push record }) = _
  rw [List.append_nil, List.push_toArray]
  rfl

variable {clockHz : Nat} {image : Path} {ending : Run.Ending}

theorem run (ends : Run.ending? patience files clockHz image = some ending) :
    Tells files patience (Terminal.run image clockHz) ending.outcome
      ending.transcript.bytes.toList [] := by
  obtain ⟨state, ran, ended⟩ := Run.ending?_eq_some_iff.1 ends
  intro written log
  show (ended? (Run.ofFile patience files image (Output.passedOn written) clockHz).1).map
    (fun outcome => (outcome, { settled files patience written log with
      output := (Run.ofFile patience files image (Output.passedOn written) clockHz).2 })) = _
  rw [Run.ofFile_passedOn, ran]
  dsimp only
  rw [ended, List.append_nil]
  rfl

end Tells

end Station

/-! ## Blocks and records -/

theorem RunFault.chain_eq (fault : RunFault) :
    fault.chain = fault.message ++ String.join (fault.causes.map (": " ++ ·)) := by
  rw [RunFault.chain]
  generalize fault.message = message
  induction fault.causes generalizing message with
  | nil => simp [String.join]
  | cons cause causes inductionHypothesis =>
    rw [String.intercalate_cons_cons, inductionHypothesis, List.map_cons, String.join_cons]
    simp only [String.append_assoc]

namespace Run.Ending

def passed (ending : Ending) : Bool :=
  ending.outcome.isOk

/-- The report of a run with an empty line before it and one behind it, or nothing. -/
def closing (ending : Ending) : List UInt8 :=
  match ending.outcome with
  | .ok report => Batch.bytesOf ("\n" ++ report.text ++ "\n\n")
  | .error _ => []

/-- The text that comes with an image: its name, what its program printed and, if there
is one, the report. -/
def block (ending : Ending) (image : Path) : List UInt8 :=
  Batch.bytesOf ("Testing " ++ image.displayName ++ "...\n") ++
    (ending.transcript.bytes.toList ++ ending.closing)

/-- What the log holds about the run of an image: nothing, or the message of its fault
followed by the text of each cause. -/
def records (ending : Ending) (image : Path) : List LogRecord :=
  match ending.outcome with
  | .ok _ => []
  | .error fault =>
    [⟨.error, fault.message ++ String.join (fault.causes.map (": " ++ ·)), image, none⟩]

end Run.Ending

namespace Station

namespace Tells

variable {files : Files} {patience clockHz : Nat} {image : Path} {ending : Run.Ending}

theorem printOrWarn (image : Path) (bytes : List UInt8) (warning : String) :
    Tells files patience (Batch.printOrWarn image bytes warning) () bytes [] := by
  have told : Tells files patience (Batch.printOrWarn image bytes warning) () (bytes ++ []) [] :=
    (print bytes).bind (silent ())
  rwa [List.append_nil] at told

theorem conclude (image : Path) (ending : Run.Ending) :
    Tells files patience (Batch.conclude image ending.outcome) ending.passed ending.closing
      (ending.records image) := by
  cases ending with
  | mk transcript outcome =>
    cases outcome with
    | ok report =>
      have told : Tells files patience (Batch.conclude image (.ok report)) true
          (Batch.bytesOf (Batch.reportText report) ++ []) [] :=
        (printOrWarn image _ _).bind (silent true)
      rwa [List.append_nil] at told
    | error fault =>
      have told : Tells files patience (Batch.conclude image (.error fault)) false []
          [⟨.error, fault.chain, image, none⟩] :=
        (log ⟨.error, fault.chain, image, none⟩).bind (silent false)
      rwa [RunFault.chain_eq] at told

theorem runNext (ends : Run.ending? patience files clockHz image = some ending) :
    Tells files patience (Batch.runNext clockHz image) ending.passed (ending.block image)
      (ending.records image) :=
  (printOrWarn image _ _).bind ((run ends).bind (conclude image ending))

theorem tell (image : Path) (ending : Run.Ending) :
    Tells files patience (Batch.tell image (pure (ending.transcript, ending.outcome)))
      ending.passed (ending.block image) (ending.records image) := by
  have handed : Tells files patience (pure (ending.transcript, ending.outcome))
    (ending.transcript, ending.outcome) [] [] := silent _
  exact handed.bind
    ((printOrWarn image _ _).bind ((printOrWarn image _ _).bind (conclude image ending)))

/-! ### Lists of images -/

variable {images : List Path} {ending : Path → Run.Ending}

theorem runInTurn
    (ends : ∀ image ∈ images,
      Run.ending? patience files clockHz image = some (ending image)) :
    Tells files patience (Batch.runInTurn images clockHz)
      (images.map fun image => (ending image).passed)
      (images.flatMap fun image => (ending image).block image)
      (images.flatMap fun image => (ending image).records image) :=
  mapM fun image member => runNext (ends image member)

theorem runSideBySide
    (ends : ∀ image ∈ images,
      Run.ending? patience files clockHz image = some (ending image)) :
    Tells files patience (Batch.runSideBySide images clockHz)
      (images.map fun image => (ending image).passed)
      (images.flatMap fun image => (ending image).block image)
      (images.flatMap fun image => (ending image).records image) := by
  intro written log
  rw [(settled files patience written log).runSideBySide_eq ends]
  exact mapM (fun image _ => tell image (ending image)) written log

theorem execute {arguments : List String} {parallel : Bool}
    (asked : CommandLine.parse arguments = .run ⟨images, clockHz, parallel⟩)
    (ends : ∀ image ∈ images,
      Run.ending? patience files clockHz image = some (ending image)) :
    Tells files patience (Program.execute arguments)
      (Program.exitCode (images.map fun image => (ending image).passed))
      (images.flatMap fun image => (ending image).block image)
      (images.flatMap fun image => (ending image).records image) := by
  have batch : Tells files patience (Batch.run ⟨images, clockHz, parallel⟩)
      (images.map fun image => (ending image).passed)
      (images.flatMap fun image => (ending image).block image)
      (images.flatMap fun image => (ending image).records image) := by
    cases parallel with
    | true => exact runSideBySide ends
    | false => exact runInTurn ends
  have told : Tells files patience
      (Batch.run ⟨images, clockHz, parallel⟩ >>= fun verdicts => pure (Program.exitCode verdicts))
      _ _ _ := batch.bind (silent _)
  rw [List.append_nil, List.append_nil] at told
  unfold Program.execute
  rw [asked]
  exact told

end Tells

theorem exitCode_eq_zero_iff {images : List Path} {passed : Path → Bool} :
    Program.exitCode (images.map passed) = 0 ↔ ∀ image ∈ images, passed image = true := by
  simp [Program.exitCode]

/-- Images run in turn and side by side are told about alike: one block for each, in the
order of the images, one verdict for each and one record for each that failed. What
comes with an image follows from its own run, and so from the files, the clock rate and
its path alone. -/
theorem both_ways_tell_blocks (files : Files) (clockHz : Nat) {images : List Path}
    {ending : Path → Run.Ending}
    (ends : ∀ image ∈ images,
      ∃ limit, Run.ending? limit files clockHz image = some (ending image)) :
    (∀ image ∈ images, ∀ limit other,
      Run.ending? limit files clockHz image = some other → other = ending image) ∧
    (Program.exitCode (images.map fun image => (ending image).passed) = 0 ↔
      ∀ image ∈ images, (ending image).passed = true) ∧
    ∃ needed, ∀ patience ≥ needed,
      Tells files patience (Batch.runInTurn images clockHz)
        (images.map fun image => (ending image).passed)
        (images.flatMap fun image => (ending image).block image)
        (images.flatMap fun image => (ending image).records image) ∧
      Tells files patience (Batch.runSideBySide images clockHz)
        (images.map fun image => (ending image).passed)
        (images.flatMap fun image => (ending image).block image)
        (images.flatMap fun image => (ending image).records image) ∧
      ∀ arguments parallel,
        CommandLine.parse arguments = .run ⟨images, clockHz, parallel⟩ →
          execute (settled files patience [] []) arguments =
            some ⟨Program.exitCode (images.map fun image => (ending image).passed),
              Output.passedOn (images.flatMap fun image => (ending image).block image),
              (images.flatMap fun image => (ending image).records image).toArray⟩ := by
  refine ⟨?same, exitCode_eq_zero_iff, ?told⟩
  case same =>
    intro image member limit other also
    obtain ⟨_, found⟩ := ends image member
    exact Run.ending?_unique found also
  case told =>
    obtain ⟨needed, within⟩ := Run.exists_limit ends
    refine ⟨needed, fun patience enough => ?_⟩
    have inTime : ∀ image ∈ images,
        Run.ending? patience files clockHz image = some (ending image) :=
      fun image member => Run.ending?_of_le (within image member) enough
    refine ⟨Tells.runInTurn inTime, Tells.runSideBySide inTime, fun arguments parallel asked => ?_⟩
    have told := Tells.execute asked inTime [] []
    show ((Program.execute arguments : Action Nat) (settled files patience [] [])).map _ = _
    rw [told]
    rfl

/-- A program at `/a` that prints a letter and ends, a byte at `../b` that is no program, and
files that may not be read. -/
def twoFiles : Files where
  read path :=
    if path = ⟨[0x2f, 0x61]⟩ then .ok [0x0e, 0x02, 0x1e, 0x41, 0xdb, 0x00, 0xd3, 0x00]
    else if path = ⟨[0x2e, 0x2e, 0x2f, 0x62]⟩ then .ok [0xcb]
    else .error (.other "Permission denied (os error 13)")

/-- How the runs of both files and of any other end. -/
def ofTwoFiles (image : Path) : Run.Ending :=
  if image = ⟨[0x2f, 0x61]⟩ then ⟨⟨#[0x41]⟩, .ok ⟨"a", 4, defaultClockHz, .zero⟩⟩
  else if image = ⟨[0x2e, 0x2e, 0x2f, 0x62]⟩ then ⟨⟨#[]⟩, .error (.execution ⟨0xcb, 0x0100⟩)⟩
  else ⟨⟨#[]⟩, .error (.load (.unreadable image (.other "Permission denied (os error 13)")))⟩

/-- The paths of both files with another one between them and `/a` once more. -/
def fourImages : List Path :=
  [⟨[0x2f, 0x61]⟩, ⟨[0x2e, 0x2e, 0x2f, 0x62]⟩, ⟨[0x63]⟩, ⟨[0x2f, 0x61]⟩]

/-- Each of the four images is told about, although two of them fail. -/
theorem both_ways_tell_blocks_twoFiles :
    (∀ image ∈ fourImages, ∃ limit,
      Run.ending? limit twoFiles defaultClockHz image = some (ofTwoFiles image)) ∧
    ∃ needed, ∀ patience ≥ needed,
      execute (settled twoFiles patience [] []) ["/a", "../b", "--parallel", "c", "/a"] =
        some ⟨1,
          Output.passedOn ((ofTwoFiles ⟨[0x2f, 0x61]⟩).block ⟨[0x2f, 0x61]⟩ ++
            (Batch.bytesOf "Testing b...\nTesting c...\n" ++
              (ofTwoFiles ⟨[0x2f, 0x61]⟩).block ⟨[0x2f, 0x61]⟩)),
          #[⟨.error, "encountered unimplemented opcode 0xcb at 0x0100",
              ⟨[0x2e, 0x2e, 0x2f, 0x62]⟩, none⟩,
            ⟨.error, "couldn't read c: Permission denied (os error 13)", ⟨[0x63]⟩, none⟩]⟩ := by
  have found : ∀ image ∈ fourImages,
      Run.ending? 4 twoFiles defaultClockHz image = some (ofTwoFiles image) := by
    decide +kernel
  have ends : ∀ image ∈ fourImages, ∃ limit,
      Run.ending? limit twoFiles defaultClockHz image = some (ofTwoFiles image) :=
    fun image member => ⟨4, found image member⟩
  refine ⟨ends, ?_⟩
  obtain ⟨-, -, needed, told⟩ := both_ways_tell_blocks twoFiles defaultClockHz ends
  refine ⟨needed, fun patience enough => ?_⟩
  have asked : CommandLine.parse ["/a", "../b", "--parallel", "c", "/a"] =
      .run ⟨fourImages, defaultClockHz, true⟩ := by
    decide +kernel
  have between : (ofTwoFiles ⟨[0x2e, 0x2e, 0x2f, 0x62]⟩).block ⟨[0x2e, 0x2e, 0x2f, 0x62]⟩ ++
      (ofTwoFiles ⟨[0x63]⟩).block ⟨[0x63]⟩ = Batch.bytesOf "Testing b...\nTesting c...\n" := by
    decide +kernel
  have verdict : Program.exitCode (fourImages.map fun image => (ofTwoFiles image).passed) = 1 := by
    decide +kernel
  have noted : (fourImages.flatMap fun image => (ofTwoFiles image).records image) =
      [⟨.error, "encountered unimplemented opcode 0xcb at 0x0100",
          ⟨[0x2e, 0x2e, 0x2f, 0x62]⟩, none⟩,
        ⟨.error, "couldn't read c: Permission denied (os error 13)", ⟨[0x63]⟩, none⟩] := by
    decide +kernel
  rw [(told patience enough).2.2 _ true asked, verdict, noted, ← between]
  simp only [fourImages, List.flatMap_cons, List.flatMap_nil, List.append_assoc, List.append_nil]

end Station

end Cpm80
