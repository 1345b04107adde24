/-!
Contract: bytes as text, with a mark in the place of what is not UTF-8.

Owns:
- the continuation bytes that each leading byte admits;
- decoding in which every maximal ill-formed part gives one replacement
  character.

Does not own: the encoding of text, which the string type provides.
-/

namespace Cpm80.Utf8

/-- A range of bytes, both ends included. -/
structure ByteRange where
  first : UInt8
  last : UInt8
deriving DecidableEq, Repr

def ByteRange.contains (range : ByteRange) (byte : UInt8) : Bool :=
  range.first ≤ byte && byte ≤ range.last

/-- Every byte that can continue a character. -/
def continuation : ByteRange := ⟨0x80, 0xbf⟩

/-- What a leading byte says: its own part of the character's number, and the
ranges of the bytes that follow. -/
structure Leader where
  value : Nat
  rest : List ByteRange
deriving DecidableEq, Repr

/-- The narrower ranges keep out numbers that have a shorter form, surrogates, and
numbers past the last character. -/
def Leader.ofByte? (byte : UInt8) : Option Leader :=
  if byte < 0x80 then some ⟨byte.toNat, []⟩
  else if byte < 0xc2 then none
  else if byte < 0xe0 then some ⟨byte.toNat - 0xc0, [continuation]⟩
  else if byte = 0xe0 then some ⟨0, [⟨0xa0, 0xbf⟩, continuation]⟩
  else if byte = 0xed then some ⟨13, [⟨0x80, 0x9f⟩, continuation]⟩
  else if byte < 0xf0 then some ⟨byte.toNat - 0xe0, [continuation, continuation]⟩
  else if byte = 0xf0 then some ⟨0, [⟨0x90, 0xbf⟩, continuation, continuation]⟩
  else if byte < 0xf4 then some ⟨byte.toNat - 0xf0, [continuation, continuation, continuation]⟩
  else if byte = 0xf4 then some ⟨4, [⟨0x80, 0x8f⟩, continuation, continuation]⟩
  else none

/-- Reads continuation bytes as far as they fit the ranges. The number is complete
if all of them were there; the bytes behind the last one that fitted are left. -/
def readRest : List ByteRange → Nat → List UInt8 → Option Nat × List UInt8
  | [], value, bytes => (some value, bytes)
  | _ :: _, _, [] => (none, [])
  | range :: ranges, value, byte :: bytes =>
    if range.contains byte then readRest ranges (64 * value + byte.toNat % 64) bytes
    else (none, byte :: bytes)

theorem length_readRest_le (ranges : List ByteRange) (value : Nat) (bytes : List UInt8) :
    (readRest ranges value bytes).2.length ≤ bytes.length := by
  induction ranges generalizing value bytes with
  | nil => simp [readRest]
  | cons range ranges inductionHypothesis =>
    cases bytes with
    | nil => simp [readRest]
    | cons byte bytes =>
      unfold readRest
      split
      · exact Nat.le_succ_of_le (inductionHypothesis _ bytes)
      · exact Nat.le_refl _

/-- The mark for bytes that are no character. -/
def replacement : Char := '\ufffd'

/-- The character of a leading byte and the bytes behind it, or the mark, and the
bytes that are left. -/
def readCharacter (lead : UInt8) (bytes : List UInt8) : Char × List UInt8 :=
  match Leader.ofByte? lead with
  | none => (replacement, bytes)
  | some leader =>
    match readRest leader.rest leader.value bytes with
    | (some value, left) => (Char.ofNat value, left)
    | (none, left) => (replacement, left)

theorem length_readCharacter_le (lead : UInt8) (bytes : List UInt8) :
    (readCharacter lead bytes).2.length ≤ bytes.length := by
  unfold readCharacter
  split
  · exact Nat.le_refl _
  · next leader _ =>
    have bound := length_readRest_le leader.rest leader.value bytes
    split
    · next found => simpa [found] using bound
    · next found => simpa [found] using bound

def characters : List UInt8 → List Char
  | [] => []
  | lead :: bytes => (readCharacter lead bytes).1 :: characters (readCharacter lead bytes).2
termination_by bytes => bytes.length
decreasing_by exact Nat.lt_succ_of_le (length_readCharacter_le lead bytes)

def decode (bytes : List UInt8) : String :=
  String.ofList (characters bytes)

end Cpm80.Utf8
