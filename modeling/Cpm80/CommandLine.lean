import Cpm80.Path
import Cpm80.Report

/-!
Contract: the command line of the program.

Arguments are read from left to right, and the first that is wrong decides. Images
and options may be mixed; two dashes alone end the options.

Owns:
- what a person can ask for, and the ways in which a request can be wrong;
- the reading of arguments and of clock rates.

Does not own: carrying out a request; what is told about a request at length, of which there
is one line here for help and one for each thing that can be wrong.
-/

namespace Cpm80.CommandLine

/-! ## Requests -/

/-- Images to run, the clock rate to assume, and whether to run them side by side. -/
structure Options where
  images : List Path
  clockHz : Nat
  parallel : Bool
deriving DecidableEq, Repr

inductive UsageFault where
  | unknownOption
  | repeatedOption
  | missingValue
  | unexpectedValue
  | invalidClockRate
  | emptyImage
  | noImages
deriving DecidableEq, Repr

def UsageFault.message : UsageFault → String
  | .unknownOption => "unknown option"
  | .repeatedOption => "an option is given more than once"
  | .missingValue => "an option lacks its value"
  | .unexpectedValue => "an option is given a value it does not take"
  | .invalidClockRate => "a clock rate is a whole number from 1 to 18446744073709551615"
  | .emptyImage => "an image has an empty name"
  | .noImages => "no images are given"

inductive Request where
  | run (options : Options)
  | version
  | help
  | refused (fault : UsageFault)
deriving DecidableEq, Repr

def versionText : String := "zex-harness 0.2.0\n"

def helpText : String :=
  "Usage: zex-harness [--parallel] [--clock-hz <CLOCK_HZ>] <IMAGES>...\n"

/-! ## Clock rates -/

def digit? (character : Char) : Option Nat :=
  if character.isDigit then some (character.toNat - '0'.toNat) else none

/-- The number that decimal digits spell, continuing a number already read. -/
def digits? : Nat → List Char → Option Nat
  | value, [] => some value
  | value, character :: rest =>
    match digit? character with
    | some digit => digits? (10 * value + digit) rest
    | none => none

/-- A natural number in decimal, with at least one digit and possibly a plus sign. -/
def natural? : List Char → Option Nat
  | [] => none
  | ['+'] => none
  | '+' :: rest => digits? 0 rest
  | text => digits? 0 text

def maxClockHz : Nat := UInt64.size - 1

/-- A clock rate: a number of at least one that fits sixty-four bits. -/
def clockRate? (text : List Char) : Option Nat :=
  (natural? text).filter fun rate => 1 ≤ rate && rate ≤ maxClockHz

/-! ## Arguments -/

/-- An argument by its form. Options may bring a value behind an equals sign. -/
inductive Argument where
  | endOfOptions
  | clockRate (value : Option (List Char))
  | parallel (value : Option (List Char))
  | version (value : Option (List Char))
  | help (value : Option (List Char))
  | unknown
  | image (name : List Char)
deriving DecidableEq, Repr

/-- The name of a long option, and the value behind the first equals sign. -/
def splitValue : List Char → List Char × Option (List Char)
  | [] => ([], none)
  | '=' :: value => ([], some value)
  | character :: rest =>
    let (name, value) := splitValue rest
    (character :: name, value)

def longOption (text : List Char) : Argument :=
  match splitValue text with
  | (name, value) =>
    if name = "clock-hz".toList then .clockRate value
    else if name = "parallel".toList then .parallel value
    else if name = "version".toList then .version value
    else if name = "help".toList then .help value
    else .unknown

/-- What stands behind the letter of a short option does not matter: both letters
end the reading. A dash alone is an image. -/
def Argument.ofText : List Char → Argument
  | ['-', '-'] => .endOfOptions
  | '-' :: '-' :: long => longOption long
  | '-' :: 'V' :: _ => .version none
  | '-' :: 'h' :: _ => .help none
  | '-' :: _ :: _ => .unknown
  | text => .image text

/-! ## Reading -/

structure Draft where
  images : List Path
  clockHz : Option Nat
  parallel : Bool

def Draft.blank : Draft where
  images := []
  clockHz := none
  parallel := false

namespace Draft

def finish (draft : Draft) : Request :=
  if draft.images.isEmpty then .refused .noImages
  else .run ⟨draft.images, draft.clockHz.getD defaultClockHz, draft.parallel⟩

def addImage (draft : Draft) (name : List Char) : Except UsageFault Draft :=
  if name.isEmpty then .error .emptyImage
  else .ok { draft with images := draft.images ++ [Path.ofString (String.ofList name)] }

def setParallel (draft : Draft) (value : Option (List Char)) : Except UsageFault Draft :=
  if value.isSome then .error .unexpectedValue
  else if draft.parallel then .error .repeatedOption
  else .ok { draft with parallel := true }

def setClockRate (draft : Draft) (text : List Char) : Except UsageFault Draft :=
  if draft.clockHz.isSome then .error .repeatedOption
  else
    match clockRate? text with
    | some rate => .ok { draft with clockHz := some rate }
    | none => .error .invalidClockRate

end Draft

def readImages : Draft → List (List Char) → Request
  | draft, [] => draft.finish
  | draft, name :: rest =>
    match draft.addImage name with
    | .ok draft => readImages draft rest
    | .error fault => .refused fault

/-- Reads arguments, options among them. The value of a clock rate may be the next
argument, unless that has the form of an option. -/
def readArguments : Draft → List (List Char) → Request
  | draft, [] => draft.finish
  | draft, argument :: rest =>
    match Argument.ofText argument with
    | .endOfOptions => readImages draft rest
    | .version none => .version
    | .help none => .help
    | .version (some _) => .refused .unexpectedValue
    | .help (some _) => .refused .unexpectedValue
    | .unknown => .refused .unknownOption
    | .image name =>
      match draft.addImage name with
      | .ok draft => readArguments draft rest
      | .error fault => .refused fault
    | .parallel value =>
      match draft.setParallel value with
      | .ok draft => readArguments draft rest
      | .error fault => .refused fault
    | .clockRate (some value) =>
      match draft.setClockRate value with
      | .ok draft => readArguments draft rest
      | .error fault => .refused fault
    | .clockRate none =>
      match rest with
      | [] => .refused .missingValue
      | value :: rest =>
        match Argument.ofText value with
        | .image value =>
          match draft.setClockRate value with
          | .ok draft => readArguments draft rest
          | .error fault => .refused fault
        | _ => .refused .missingValue

def parse (arguments : List String) : Request :=
  readArguments .blank (arguments.map String.toList)

end Cpm80.CommandLine
