import Cpm80.Hex

/-!
Contract: console bytes as ASCII characters.

Owns:
- the character of a byte, and the refusal of bytes that have none;
- the byte that a console is given in the place of such bytes.

Does not own: who writes to a console.
-/

namespace Cpm80.Ascii

structure DecodeFault where
  byte : UInt8
deriving DecidableEq, Repr

def DecodeFault.message (fault : DecodeFault) : String :=
  "byte 0x" ++ Hex.ofByte fault.byte ++ " is not an ASCII character"

def decode (byte : UInt8) : Except DecodeFault Char :=
  if byte < 0x80 then .ok (Char.ofNat byte.toNat) else .error ⟨byte⟩

/-- The byte that stands for itself on a console, or a space in its place. -/
def shown (byte : UInt8) : UInt8 :=
  match decode byte with
  | .ok character => character.toNat.toUInt8
  | .error _ => 0x20

theorem shown_eq (byte : UInt8) : shown byte = if byte < 0x80 then byte else 0x20 := by
  have all : ∀ value : Fin 256, shown (UInt8.ofFin value) =
      if UInt8.ofFin value < 0x80 then UInt8.ofFin value else 0x20 := by
    decide +kernel
  exact all byte.toFin

end Cpm80.Ascii
