import Cpm80.Hex

/-!
Contract: text in which no character is a command to the terminal that shows it.

A command is written as a backslash and its number in hexadecimal digits. Tabs,
line ends and the control characters that terminals ignore are kept.

Owns:
- the characters that are commands;
- their written forms, and the laws that none is left and nothing else is touched.

Does not own: which text is shown.
-/

namespace Cpm80.Escape

/-- Bell, backspace, form feed, escape and delete. -/
def asciiCommands : List Char :=
  ['\x07', '\x08', '\x0c', '\x1b', '\x7f']

def isHighCommand (character : Char) : Bool :=
  0x80 ≤ character.toNat && character.toNat ≤ 0x9f

/-- Whether a terminal may obey a character instead of showing it. -/
def isCommand (character : Char) : Bool :=
  asciiCommands.contains character || isHighCommand character

/-- The written form of a character. The number of a command has two digits, with
braces around them above ASCII. -/
def ofCharacter (character : Char) : List Char :=
  let digits := Hex.digits character.toNat 2
  if asciiCommands.contains character then "\\x".toList ++ digits
  else if isHighCommand character then "\\u\x7b".toList ++ digits ++ "\x7d".toList
  else [character]

def ofText (text : String) : String :=
  String.ofList (text.toList.flatMap ofCharacter)

/-! ## Laws -/

theorem isCommand_digit (value : Fin 16) : isCommand (Hex.digit value) = false := by
  revert value
  decide

theorem isCommand_of_mem_digits {value places : Nat} {character : Char}
    (member : character ∈ Hex.digits value places) : isCommand character = false := by
  induction places with
  | zero => cases member
  | succ places inductionHypothesis =>
    rcases List.mem_cons.1 member with same | later
    · rw [same]
      exact isCommand_digit _
    · exact inductionHypothesis later

theorem isCommand_of_all {signs : List Char} {sign : Char}
    (harmless : signs.all (fun other => !isCommand other) = true) (member : sign ∈ signs) :
    isCommand sign = false := by
  simpa using List.all_eq_true.1 harmless sign member

theorem ofCharacter_eq_self {character : Char} (harmless : isCommand character = false) :
    ofCharacter character = [character] := by
  rw [isCommand, Bool.or_eq_false_iff] at harmless
  simp only [ofCharacter, harmless.1, harmless.2]
  rfl

theorem isCommand_of_mem_ofCharacter {character written : Char}
    (member : written ∈ ofCharacter character) : isCommand written = false := by
  simp only [ofCharacter] at member
  split at member
  · rcases List.mem_append.1 member with sign | digit
    · exact isCommand_of_all (by decide) sign
    · exact isCommand_of_mem_digits digit
  · split at member
    · rcases List.mem_append.1 member with front | sign
      · rcases List.mem_append.1 front with sign | digit
        · exact isCommand_of_all (by decide) sign
        · exact isCommand_of_mem_digits digit
      · exact isCommand_of_all (by decide) sign
    · next notAscii notHigh =>
      rw [List.mem_singleton.1 member, isCommand, Bool.or_eq_false_iff]
      exact ⟨Bool.eq_false_iff.2 notAscii, Bool.eq_false_iff.2 notHigh⟩

/-- No command is left in escaped text. -/
theorem isCommand_of_mem_ofText {text : String} {character : Char}
    (member : character ∈ (ofText text).toList) : isCommand character = false := by
  rw [ofText, String.toList_ofList] at member
  obtain ⟨_, _, written⟩ := List.mem_flatMap.1 member
  exact isCommand_of_mem_ofCharacter written

end Cpm80.Escape
