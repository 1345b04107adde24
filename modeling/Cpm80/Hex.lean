/-!
Contract: hexadecimal digits with a fixed number of places, in lower case.

Owns:
- the digits of a byte and of a word, padded with zeros on the left.

Does not own: the reading of hexadecimal text.
-/

namespace Cpm80.Hex

def digit (value : Fin 16) : Char :=
  if value.val < 10 then Char.ofNat (48 + value.val) else Char.ofNat (87 + value.val)

/-- The lowest `places` hexadecimal digits of `value`, the most significant one first. -/
def digits (value : Nat) : Nat → List Char
  | 0 => []
  | places + 1 => digit (Fin.ofNat 16 (value >>> (4 * places))) :: digits value places

@[simp]
theorem length_digits (value places : Nat) : (digits value places).length = places := by
  induction places with
  | zero => rfl
  | succ places inductionHypothesis => simp [digits, inductionHypothesis]

def ofByte (byte : UInt8) : String :=
  String.ofList (digits byte.toNat 2)

def ofWord (word : UInt16) : String :=
  String.ofList (digits word.toNat 4)

end Cpm80.Hex
