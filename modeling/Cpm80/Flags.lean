import Cpm80.Word

/-!
Contract: the flag register of the Z80 as eight truth values.

Owns:
- the flags by name, among them the two undocumented ones, bits 5 and 3;
- the byte that holds them, which is the same information;
- the flags that describe an eight-bit result.

Does not own: which flags an instruction changes.
-/

namespace Cpm80

/-- The flags, from bit 7 of the flag register down to bit 0. `parity` doubles as
the overflow flag. -/
structure Flags where
  sign : Bool
  zero : Bool
  bit5 : Bool
  half : Bool
  bit3 : Bool
  parity : Bool
  subtract : Bool
  carry : Bool
deriving DecidableEq, Repr

@[inline]
def bitOf (byte index : UInt8) : Bool :=
  (byte &&& (1 <<< index)) != 0

theorem bitOf_eq_getLsbD (byte : UInt8) (index : Fin 8) :
    bitOf byte (UInt8.ofNat index.val) = byte.toBitVec.getLsbD index.val := by
  have all : ∀ (value : Fin 256) (place : Fin 8),
      bitOf (UInt8.ofFin value) (UInt8.ofNat place.val) =
        (UInt8.ofFin value).toBitVec.getLsbD place.val := by
    decide +kernel
  exact all byte.toFin index

namespace Flags

def ofByte (byte : UInt8) : Flags where
  sign := bitOf byte 7
  zero := bitOf byte 6
  bit5 := bitOf byte 5
  half := bitOf byte 4
  bit3 := bitOf byte 3
  parity := bitOf byte 2
  subtract := bitOf byte 1
  carry := bitOf byte 0

def toByte (flags : Flags) : UInt8 :=
  (if flags.sign then 0x80 else 0) ||| (if flags.zero then 0x40 else 0) |||
    (if flags.bit5 then 0x20 else 0) ||| (if flags.half then 0x10 else 0) |||
    (if flags.bit3 then 0x08 else 0) ||| (if flags.parity then 0x04 else 0) |||
    (if flags.subtract then 0x02 else 0) ||| (if flags.carry then 0x01 else 0)

@[simp]
theorem toByte_ofByte (byte : UInt8) : (ofByte byte).toByte = byte := by
  have all : ∀ value : Fin 256, (ofByte (UInt8.ofFin value)).toByte = UInt8.ofFin value := by
    decide +kernel
  exact all byte.toFin

@[simp]
theorem ofByte_toByte (flags : Flags) : ofByte flags.toByte = flags := by
  obtain ⟨sign, zero, bit5, half, bit3, parity, subtract, carry⟩ := flags
  revert sign zero bit5 half bit3 parity subtract carry
  decide +kernel

/-- The flags that describe a result by itself: its sign, whether it is zero, and
copies of its bits 5 and 3. The others are clear. -/
def ofResult (result : UInt8) : Flags where
  sign := bitOf result 7
  zero := result == 0
  bit5 := bitOf result 5
  half := false
  bit3 := bitOf result 3
  parity := false
  subtract := false
  carry := false

/-- The flags that describe a result, its parity included. -/
def ofResultParity (result : UInt8) : Flags :=
  { ofResult result with parity := Word.evenParity result }

/-- Copies of bits 5 and 3 of a byte in place of the present ones. -/
def copyFrom (flags : Flags) (byte : UInt8) : Flags :=
  { flags with bit5 := bitOf byte 5, bit3 := bitOf byte 3 }

end Flags

end Cpm80
