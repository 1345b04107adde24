import Cpm80.Files

/-!
Contract: files in a tree below a current directory, and no files anywhere else.

A path is followed piece by piece. A piece that is looked up needs a directory to
be looked up in, and the first piece that fails decides the fault.

Owns:
- what is found at a path, the directory above the tree included;
- the files of a tree.

Does not own: files on a disk, which may be outside, behind links or locked.
-/

namespace Cpm80

def maxNameLength : Nat := 255

def maxPathLength : Nat := 4095

/-- Files and directories by the names that lead to them from the current
directory. Of two entries with the same names the later one counts, and every
entry brings the directories above it. -/
structure FileTree where
  entries : List (List (List UInt8) × Option (List UInt8))

/-- A place that a path can lead to: a file with its bytes, a directory of the
tree, or a directory outside, of which nothing but its existence is known. -/
inductive Place where
  | file (bytes : List UInt8)
  | directory (names : List (List UInt8))
  | outside
deriving DecidableEq, Repr

namespace FileTree

def find? (tree : FileTree) (names : List (List UInt8)) : Option Place :=
  match tree.entries.reverse.find? (fun entry => entry.1 == names) with
  | some (_, some bytes) => some (.file bytes)
  | some (_, none) => some (.directory names)
  | none =>
    if names.isEmpty || tree.entries.any (fun entry => names.isPrefixOf entry.1) then
      some (.directory names)
    else none

/-- The place to which one piece leads from a directory of the tree. -/
def enter (tree : FileTree) (names : List (List UInt8)) (piece : List UInt8) :
    Except ReadFault Place :=
  if piece.isEmpty || piece == Path.here then .ok (.directory names)
  else if piece == Path.above then
    .ok (if names.isEmpty then .outside else .directory names.dropLast)
  else if maxNameLength < piece.length then .error .nameTooLong
  else
    match tree.find? (names ++ [piece]) with
    | some place => .ok place
    | none => .error .notFound

def follow (tree : FileTree) : Place → List (List UInt8) → Except ReadFault Place
  | place, [] => .ok place
  | .file _, _ :: _ => .error .notADirectory
  | .directory names, piece :: pieces =>
    match tree.enter names piece with
    | .ok place => tree.follow place pieces
    | .error fault => .error fault
  | .outside, piece :: pieces =>
    if piece.isEmpty || piece == Path.here || piece == Path.above then
      tree.follow .outside pieces
    else if maxNameLength < piece.length then .error .nameTooLong
    else .error .notFound

/-- The place at a path. A path that begins with a slash leads outside. -/
def resolve (tree : FileTree) (path : Path) : Except ReadFault Place :=
  if path.bytes.isEmpty then .error .notFound
  else if maxPathLength < path.bytes.length then .error .nameTooLong
  else if path.bytes.head? == some Path.slash then tree.follow .outside path.pieces
  else tree.follow (.directory []) path.pieces

def read (tree : FileTree) (path : Path) : Except ReadFault (List UInt8) :=
  match tree.resolve path with
  | .ok (.file bytes) => .ok bytes
  | .ok (.directory _) => .error .isADirectory
  | .ok .outside => .error .isADirectory
  | .error fault => .error fault

def toFiles (tree : FileTree) : Files where
  read := tree.read

instance : Coe FileTree Files where
  coe := toFiles

end FileTree

end Cpm80
