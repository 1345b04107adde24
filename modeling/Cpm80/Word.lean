/-!
Contract: bit fields of fixed-width words, and the byte and word arithmetic of
a sixteen-bit address space.

Owns:
- fields and single bits of a word of any width;
- the two bytes of a sixteen-bit word;
- signed displacement of an address and the parity of a byte.

Does not own: memory, or the meaning of any field of an opcode.
-/

namespace Cpm80.Word

/-! ## Fields of a word of any width -/

/-- The `count` bits of `value` from bit `lsb` upwards, moved to bit zero.
Bits past the top of the word read as zero. -/
def extract {width : Nat} (value lsb count : BitVec width) : BitVec width :=
  (value >>> lsb) &&& ~~~(BitVec.allOnes width <<< count)

/-- Whether bit `bit` of `value` is one. -/
def isSet {width : Nat} (value bit : BitVec width) : Bool :=
  (value &&& ((1 : BitVec width) <<< bit)) != 0

/-! ## Bytes and words -/

def join (high low : UInt8) : UInt16 :=
  (high.toUInt16 <<< 8) ||| low.toUInt16

def high (word : UInt16) : UInt8 :=
  (word >>> 8).toUInt8

def low (word : UInt16) : UInt8 :=
  (word &&& 0xff).toUInt8

def split (word : UInt16) : UInt8 × UInt8 :=
  (high word, low word)

theorem toNat_join (highByte lowByte : UInt8) :
    (join highByte lowByte).toNat = 256 * highByte.toNat + lowByte.toNat := by
  have highBound := highByte.toNat_lt
  have lowBound := lowByte.toNat_lt
  have shifted : highByte.toNat <<< 8 % 65536 = 2 ^ 8 * highByte.toNat := by
    rw [Nat.shiftLeft_eq]
    omega
  simp only [join, UInt16.toNat_or, UInt16.toNat_shiftLeft, UInt8.toNat_toUInt16]
  rw [show (8 : UInt16).toNat % 16 = 8 from rfl, shifted,
    ← Nat.two_pow_add_eq_or_of_lt lowBound]

theorem toNat_high (word : UInt16) : (high word).toNat = word.toNat / 256 := by
  have bound := word.toNat_lt
  simp only [high, UInt16.toNat_toUInt8, UInt16.toNat_shiftRight]
  rw [show (8 : UInt16).toNat % 16 = 8 from rfl, Nat.shiftRight_eq_div_pow]
  omega

theorem toNat_low (word : UInt16) : (low word).toNat = word.toNat % 256 := by
  simp only [low, UInt16.toNat_toUInt8, UInt16.toNat_and]
  rw [show (0xff : UInt16).toNat = 2 ^ 8 - 1 from rfl, Nat.and_two_pow_sub_one_eq_mod]
  omega

@[simp]
theorem join_high_low (word : UInt16) : join (high word) (low word) = word := by
  apply UInt16.toNat_inj.1
  rw [toNat_join, toNat_high, toNat_low]
  omega

@[simp]
theorem high_join (highByte lowByte : UInt8) : high (join highByte lowByte) = highByte := by
  apply UInt8.toNat_inj.1
  rw [toNat_high, toNat_join]
  have := lowByte.toNat_lt
  omega

@[simp]
theorem low_join (highByte lowByte : UInt8) : low (join highByte lowByte) = lowByte := by
  apply UInt8.toNat_inj.1
  rw [toNat_low, toNat_join]
  have := lowByte.toNat_lt
  omega

/-! ## Addresses and parity -/

/-- The address `displacement` bytes away from `base`, the displacement being
read as a signed byte and the sum wrapping around the address space. -/
def displace (base : UInt16) (displacement : UInt8) : UInt16 :=
  base + displacement.toInt8.toInt16.toUInt16

/-- The number of one bits among the lowest `width` bits of `value`. -/
def onesBelow (value : UInt8) : Nat → Nat
  | 0 => 0
  | width + 1 => onesBelow value width + (value.toBitVec.getLsbD width).toNat

/-- Whether a byte has an even number of one bits. Folding its halves onto each
other keeps the parity. -/
def evenParity (value : UInt8) : Bool :=
  let four := value ^^^ (value >>> 4)
  let two := four ^^^ (four >>> 2)
  let one := two ^^^ (two >>> 1)
  one &&& 1 == 0

theorem evenParity_eq (value : UInt8) : evenParity value = (onesBelow value 8 % 2 == 0) := by
  have all : ∀ byte : Fin 256,
      evenParity (UInt8.ofFin byte) = (onesBelow (UInt8.ofFin byte) 8 % 2 == 0) := by
    decide +kernel
  exact all value.toFin

end Cpm80.Word
