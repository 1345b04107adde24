import Cpm80.Path

/-!
Contract: files, as what is read at a path.

There may be a file at any path, and reading may fail for any reason. What is read does not
change from one time to the next.

Owns:
- the reasons why nothing is read, and their texts;
- files as far as images are read from them.

Does not own: where files are kept, or how a path leads to them.
-/

namespace Cpm80

/-- Why nothing is read. A reason that has no name here comes with its text. -/
inductive ReadFault where
  | notFound
  | isADirectory
  | notADirectory
  | nameTooLong
  | other (text : String)
deriving DecidableEq, Repr

def ReadFault.message : ReadFault → String
  | .notFound => "No such file or directory (os error 2)"
  | .isADirectory => "Is a directory (os error 21)"
  | .notADirectory => "Not a directory (os error 20)"
  | .nameTooLong => "File name too long (os error 36)"
  | .other text => text

/-- At each path the bytes of a file, or the reason why they are not read. -/
structure Files where
  read : Path → Except ReadFault (List UInt8)

end Cpm80
