import Cpm80.Path
import Cpm80.Proofs.Decoding

/-!
Contract: file names of paths.

Owns:
- the beginnings and ends of paths that do not count for the name;
- the last component of a path, by where it stands in the bytes;
- paths without a file name: those with no component, and those whose last one leads upwards;
- what a path is shown as.

Does not own: whether there is a file of that name.
-/

namespace Cpm80.Path

/-! ## Pieces -/

theorem piecesOf_eq_splitOn (bytes : List UInt8) : piecesOf bytes = bytes.splitOn slash := by
  induction bytes with
  | nil => rfl
  | cons byte bytes inductionHypothesis =>
    rw [piecesOf, List.splitOn_cons_eq_if_modifyHead, ← inductionHypothesis]
    by_cases separates : byte = slash
    · simp [separates]
    · rw [if_neg separates, if_neg (by simpa using separates)]
      cases pieces : piecesOf bytes with
      | nil => exact absurd pieces (piecesOf_ne_nil bytes)
      | cons piece pieces => rfl

theorem slash_not_mem_of_mem_piecesOf {bytes piece : List UInt8} (member : piece ∈ piecesOf bytes) :
    slash ∉ piece := by
  induction bytes generalizing piece with
  | nil =>
    rw [piecesOf, List.mem_singleton] at member
    simp [member]
  | cons byte bytes inductionHypothesis =>
    unfold piecesOf at member
    split at member
    · rcases List.mem_cons.1 member with rfl | later
      · exact List.not_mem_nil
      · exact inductionHypothesis later
    · next other =>
      cases pieces : piecesOf bytes with
      | nil => exact absurd pieces (piecesOf_ne_nil bytes)
      | cons first rest =>
        rw [pieces] at member inductionHypothesis
        rcases List.mem_cons.1 member with rfl | later
        · rw [List.mem_cons, not_or]
          exact ⟨Ne.symm other, inductionHypothesis List.mem_cons_self⟩
        · exact inductionHypothesis (List.mem_cons_of_mem _ later)

theorem intercalate_cons (piece : List UInt8) (behind : List (List UInt8)) :
    [slash].intercalate (piece :: behind) = piece ++ behind.flatMap (slash :: ·) := by
  induction behind generalizing piece with
  | nil => simp
  | cons next behind inductionHypothesis =>
    rw [List.intercalate_cons_cons, inductionHypothesis]
    simp

theorem intercalate_append (before behind : List (List UInt8)) (piece : List UInt8) :
    [slash].intercalate (before ++ piece :: behind) =
      before.flatMap (· ++ [slash]) ++ piece ++ behind.flatMap (slash :: ·) := by
  induction before with
  | nil => exact intercalate_cons piece behind
  | cons first before inductionHypothesis =>
    rw [List.cons_append, List.intercalate_cons_of_ne_nil (by simp), inductionHypothesis]
    simp

/-- Pieces without slashes are those of the bytes that they are put together to. -/
theorem piecesOf_flatMap {piece : List UInt8} {behind : List (List UInt8)}
    (plain : ∀ other ∈ piece :: behind, slash ∉ other) :
    piecesOf (piece ++ behind.flatMap (slash :: ·)) = piece :: behind := by
  rw [piecesOf_eq_splitOn, ← intercalate_cons]
  exact List.splitOn_intercalate slash plain (List.cons_ne_nil _ _)

theorem eq_of_piecesOf_eq {bytes piece : List UInt8} (before : List (List UInt8))
    {behind : List (List UInt8)} (pieces : piecesOf bytes = before ++ piece :: behind) :
    bytes = before.flatMap (· ++ [slash]) ++ piece ++ behind.flatMap (slash :: ·) := by
  rw [← intercalate_append, ← pieces, piecesOf_eq_splitOn, List.intercalate_splitOn]

/-! ## Beginnings and ends -/

/-- Bytes before the last piece: none, or some that end in a slash. -/
def IsDirectory (bytes : List UInt8) : Prop :=
  bytes = [] ∨ ∃ parents, bytes = parents ++ [slash]

/-- A piece that leads nowhere: nothing at all, or a single dot. -/
def IsIdle (piece : List UInt8) : Prop :=
  piece = [] ∨ piece = here

instance (piece : List UInt8) : Decidable (IsIdle piece) :=
  inferInstanceAs (Decidable (piece = [] ∨ piece = here))

/-- A run of slashes, some of them with a dot behind. -/
def IsTrailing (bytes : List UInt8) : Prop :=
  ∃ pieces : List (List UInt8), (∀ piece ∈ pieces, IsIdle piece) ∧
    bytes = pieces.flatMap (slash :: ·)

/-- Whether a piece is the last one in a path but for trailing slashes and dots. -/
def EndsIn (path : Path) (piece : List UInt8) : Prop :=
  ∃ directory trailing, IsDirectory directory ∧ IsTrailing trailing ∧
    path.bytes = directory ++ piece ++ trailing

/-- A path of slashes and single dots alone, or an empty one. -/
def IsBlank (path : Path) : Prop :=
  ∃ first trailing, IsIdle first ∧ IsTrailing trailing ∧ path.bytes = first ++ trailing

/-- A piece that can be a component: some bytes without a slash, and not a single dot. -/
def IsComponent (piece : List UInt8) : Prop :=
  slash ∉ piece ∧ ¬IsIdle piece

instance (piece : List UInt8) : Decidable (IsComponent piece) :=
  inferInstanceAs (Decidable (slash ∉ piece ∧ ¬IsIdle piece))

/-- A component that does not lead upwards. -/
def IsName (piece : List UInt8) : Prop :=
  IsComponent piece ∧ piece ≠ above

instance (piece : List UInt8) : Decidable (IsName piece) :=
  inferInstanceAs (Decidable (IsComponent piece ∧ piece ≠ above))

theorem IsIdle.slash_not_mem {piece : List UInt8} (idle : IsIdle piece) : slash ∉ piece := by
  rcases idle with rfl | rfl <;> decide

theorem isDirectory_flatMap (pieces : List (List UInt8)) :
    IsDirectory (pieces.flatMap (· ++ [slash])) := by
  rcases List.eq_nil_or_concat pieces with rfl | ⟨first, last, rfl⟩
  · exact .inl rfl
  · exact .inr ⟨first.flatMap (· ++ [slash]) ++ last, by simp⟩

/-! ## The last component -/

variable {path : Path} {piece : List UInt8}

theorem components_eq : path.components = path.pieces.filter (¬IsIdle ·) := by
  apply List.filter_congr
  intro piece _
  rw [Bool.eq_iff_iff]
  simp [IsIdle]

/-- The last component is the piece behind which there are only idle ones. -/
theorem getLast?_components_iff_pieces :
    path.components.getLast? = some piece ↔
      ∃ before behind, path.pieces = before ++ piece :: behind ∧ ¬IsIdle piece ∧
        ∀ other ∈ behind, IsIdle other := by
  rw [components_eq, List.getLast?_eq_some_iff]
  constructor
  · rintro ⟨kept, last⟩
    obtain ⟨before, rest, pieces, -, last⟩ := List.filter_eq_append_iff.1 last
    obtain ⟨dropped, behind, rfl, -, counts, idle⟩ := List.filter_eq_cons_iff.1 last
    refine ⟨before ++ dropped, behind, by rw [pieces, List.append_assoc], ?_, ?_⟩
    · simpa using counts
    · simpa using idle
  · rintro ⟨before, behind, pieces, counts, idle⟩
    refine ⟨before.filter (¬IsIdle ·), ?_⟩
    have none : behind.filter (¬IsIdle ·) = [] := by simpa using idle
    rw [pieces, List.filter_append, List.filter_cons_of_pos (by simpa using counts), none]

theorem getLast?_components_iff :
    path.components.getLast? = some piece ↔ IsComponent piece ∧ path.EndsIn piece := by
  rw [getLast?_components_iff_pieces]
  constructor
  · rintro ⟨before, behind, pieces, counts, idle⟩
    have member : piece ∈ piecesOf path.bytes := by
      rw [← Path.pieces, pieces]
      simp
    exact ⟨⟨slash_not_mem_of_mem_piecesOf member, counts⟩, before.flatMap (· ++ [slash]),
      behind.flatMap (slash :: ·), isDirectory_flatMap before, ⟨behind, idle, rfl⟩,
      eq_of_piecesOf_eq before pieces⟩
  · -- Neither the piece nor an idle one holds a slash, so the end of the path is taken apart
    -- into just them, and the slash before it keeps the directory's pieces separate.
    rintro ⟨⟨plain, counts⟩, directory, trailing, isDirectory, ⟨behind, idle, rfl⟩, whole⟩
    have last : piecesOf (piece ++ behind.flatMap (slash :: ·)) = piece :: behind :=
      piecesOf_flatMap (List.forall_mem_cons.2
        ⟨plain, fun other member => (idle other member).slash_not_mem⟩)
    rcases isDirectory with rfl | ⟨parents, rfl⟩
    · exact ⟨[], behind, by rw [Path.pieces, whole]; exact last, counts, idle⟩
    · refine ⟨piecesOf parents, behind, ?_, counts, idle⟩
      rw [Path.pieces, whole, ← last]
      simp only [piecesOf_eq_splitOn, List.append_assoc, List.singleton_append]
      exact List.splitOn_append_cons_self _ _

/-- There is no component just if there are only slashes and single dots. -/
theorem components_eq_nil_iff : path.components = [] ↔ path.IsBlank := by
  rw [components_eq, List.filter_eq_nil_iff]
  constructor
  · intro idle
    cases pieces : path.pieces with
    | nil => exact absurd pieces (piecesOf_ne_nil path.bytes)
    | cons first behind =>
      rw [pieces] at idle
      simp only [List.mem_cons, forall_eq_or_imp] at idle
      have whole := eq_of_piecesOf_eq [] pieces
      exact ⟨first, behind.flatMap (slash :: ·), by simpa using idle.1,
        ⟨behind, by simpa using idle.2, rfl⟩, by simpa using whole⟩
  · rintro ⟨first, _, idleFirst, ⟨behind, idle, rfl⟩, whole⟩
    have all : ∀ piece ∈ first :: behind, IsIdle piece := List.forall_mem_cons.2 ⟨idleFirst, idle⟩
    have pieces : path.pieces = first :: behind := by
      rw [Path.pieces, whole]
      exact piecesOf_flatMap fun piece member => (all piece member).slash_not_mem
    rw [pieces]
    simpa using all

/-! ## File names -/

theorem fileName?_eq_some_iff {name : List UInt8} :
    path.fileName? = some name ↔ IsName name ∧ path.EndsIn name := by
  rw [fileName?, Option.filter_eq_some_iff, getLast?_components_iff]
  simp only [IsName, bne_iff_ne]
  tauto

/-- A path has no file name just if it has no component or its last one leads upwards. -/
theorem fileName?_eq_none_iff : path.fileName? = none ↔ path.IsBlank ∨ path.EndsIn above := by
  have upwards : path.components.getLast? = some above ↔ path.EndsIn above := by
    rw [getLast?_components_iff, and_iff_right (show IsComponent above by decide)]
  rw [← components_eq_nil_iff, ← upwards, fileName?, ← List.getLast?_eq_none_iff]
  cases path.components.getLast? <;> simp

theorem fileName?_eq_none_iff_forall :
    path.fileName? = none ↔ ∀ name, IsName name → ¬path.EndsIn name := by
  simp only [Option.eq_none_iff_forall_ne_some, ne_eq, fileName?_eq_some_iff, not_and]

theorem displayName_of_name {name : List UInt8} (isName : IsName name) (last : path.EndsIn name) :
    path.displayName = Utf8.decode name := by
  rw [displayName, fileName?_eq_some_iff.2 ⟨isName, last⟩]

theorem displayName_of_none (unnamed : path.fileName? = none) :
    path.displayName = Utf8.decode path.bytes := by
  rw [displayName, unnamed]
  rfl

/-- A path is shown as its last component. Whatever directories are named before it and
whatever slashes and single dots stand behind it, this alone is decoded. A path without such
a component is shown whole, which is one of slashes and single dots alone, or one whose last
component leads upwards. There is no slash in what is shown for a path with a file name.

Bytes are decoded in the one way in which they can be taken apart into characters and maximal
ill-formed parts, of which each is shown as a mark, so that text is decoded unchanged. -/
theorem displayName_exact :
    (∀ directory name trailing, IsDirectory directory → IsName name → IsTrailing trailing →
      displayName ⟨directory ++ name ++ trailing⟩ = Utf8.decode name) ∧
      (∀ path : Path, (∀ name, IsName name → ¬path.EndsIn name) →
        path.displayName = Utf8.decode path.bytes) ∧
      (∀ path : Path, (∀ name, IsName name → ¬path.EndsIn name) ↔
        path.IsBlank ∨ path.EndsIn above) ∧
      (∀ path : Path, (∃ name, IsName name ∧ path.EndsIn name) →
        '/' ∉ path.displayName.toList) ∧
      (∀ bytes text, Utf8.decode bytes = String.ofList text ↔ Utf8.Decodes bytes text) ∧
      ∀ text : String, Utf8.decode text.toUTF8.toList = text := by
  refine ⟨?named, ?unnamed, ?without, ?plain, ?decoded, Utf8.decode_toUTF8⟩
  case named =>
    intro directory name trailing isDirectory isName isTrailing
    exact displayName_of_name isName ⟨directory, trailing, isDirectory, isTrailing, rfl⟩
  case unnamed =>
    intro path none
    exact displayName_of_none (fileName?_eq_none_iff_forall.2 none)
  case without =>
    intro path
    rw [← fileName?_eq_none_iff_forall, fileName?_eq_none_iff]
  case plain =>
    rintro path ⟨name, isName, last⟩ shown
    rw [displayName_of_name isName last, Utf8.decode, String.toList_ofList] at shown
    have inside : slash ∈ name := Utf8.mem_of_mem_characters (by decide) shown
    exact isName.1.1 inside
  case decoded =>
    intro bytes text
    rw [Utf8.decodes_iff, Utf8.decode, String.ofList_inj, eq_comm]

/-- Between a directory and trailing slashes, a name of one character, the first two bytes of
another and a byte that begins none; and a path that leads upwards. -/
theorem displayName_exact_illFormed :
    displayName ⟨[0x7a, 0x2f] ++ [0x61, 0xe2, 0x82, 0xff] ++ [0x2f, 0x2f, 0x2e]⟩ = "a\ufffd\ufffd" ∧
      displayName ⟨[0x61, 0x2f, 0x2e, 0x2e, 0x2f, 0x2e]⟩ = "a/../." := by
  obtain ⟨named, unnamed, without, -, decoded, unchanged⟩ := displayName_exact
  constructor
  · have trailing : IsTrailing [0x2f, 0x2f, 0x2e] := ⟨[[], here], by decide, rfl⟩
    have cut : Utf8.IllFormed [0xe2, 0x82] [0xff] :=
      .of_breaks rfl (.behind rfl (.here (by rintro _ ⟨⟩; rfl)))
    have apart : Utf8.Decodes [0x61, 0xe2, 0x82, 0xff] ['a', '\ufffd', '\ufffd'] :=
      .character 'a' (.illFormed cut (.illFormed (.of_none rfl []) .nil))
    rw [named [0x7a, 0x2f] [0x61, 0xe2, 0x82, 0xff] _ (.inr ⟨[0x7a], rfl⟩) (by decide) trailing]
    exact (decoded _ _).2 apart
  · have upwards : EndsIn ⟨[0x61, 0x2f, 0x2e, 0x2e, 0x2f, 0x2e]⟩ above :=
      ⟨[0x61, 0x2f], [0x2f, 0x2e], .inr ⟨[0x61], rfl⟩, ⟨[here], by decide, rfl⟩, rfl⟩
    rw [unnamed _ ((without _).2 (.inr upwards))]
    have spelled : "a/../.".toUTF8.toList = [0x61, 0x2f, 0x2e, 0x2e, 0x2f, 0x2e] := by
      rw [Utf8.toList_toUTF8]
      decide
    exact spelled ▸ unchanged "a/../."

end Cpm80.Path
