import Cpm80.Utf8

/-!
Contract: paths as the bytes that a person typed.

Owns:
- the pieces between slashes, and the components among them;
- the name under which the file at a path is shown.

Does not own: whether anything is found at a path.
-/

namespace Cpm80

/-- A path, which need not be text. -/
structure Path where
  bytes : List UInt8
deriving DecidableEq, Repr

namespace Path

def ofString (text : String) : Path :=
  ⟨text.toUTF8.toList⟩

def display (path : Path) : String :=
  Utf8.decode path.bytes

/-! ## Pieces -/

def slash : UInt8 := 0x2f

/-- The piece that names the directory in which it stands. -/
def here : List UInt8 := [0x2e]

/-- The piece that names the directory above. -/
def above : List UInt8 := [0x2e, 0x2e]

/-- The pieces between the slashes, empty ones included. There is always one. -/
def piecesOf : List UInt8 → List (List UInt8)
  | [] => [[]]
  | byte :: bytes =>
    if byte = slash then [] :: piecesOf bytes
    else
      match piecesOf bytes with
      | [] => [[byte]]
      | piece :: pieces => (byte :: piece) :: pieces

theorem piecesOf_ne_nil (bytes : List UInt8) : piecesOf bytes ≠ [] := by
  cases bytes with
  | nil => exact List.cons_ne_nil _ _
  | cons byte bytes =>
    unfold piecesOf
    split
    · exact List.cons_ne_nil _ _
    · split <;> exact List.cons_ne_nil _ _

def pieces (path : Path) : List (List UInt8) :=
  piecesOf path.bytes

/-- The pieces that lead somewhere: neither empty nor a single dot. -/
def components (path : Path) : List (List UInt8) :=
  path.pieces.filter fun piece => !piece.isEmpty && piece != here

/-- The last component, unless it leads upwards. -/
def fileName? (path : Path) : Option (List UInt8) :=
  path.components.getLast?.filter (· != above)

/-- The file name as text, or the whole path if it names no file. -/
def displayName (path : Path) : String :=
  match path.fileName? with
  | some name => Utf8.decode name
  | none => path.display

end Path

end Cpm80
