import Mathlib.Algebra.Group.Nat.Defs
import Cpm80.Word

/-!
Contract: fields of a word as digits of its number.

Owns:
- single bits of a word and of a field of it;
- a field as a quotient and a remainder by powers of two;
- two fields next to each other as one;
- the two bytes of a word as its fields.

Does not own: which fields an opcode has.
-/

namespace Cpm80.Word

variable {width : Nat}

/-- Places in a word are added without wrapping. -/
theorem toNat_add_of_lt {first second : BitVec width}
    (inside : first.toNat + second.toNat < width) :
    (first + second).toNat = first.toNat + second.toNat := by
  rw [BitVec.toNat_add]
  exact Nat.mod_eq_of_lt (Nat.lt_trans inside Nat.lt_two_pow_self)

/-! ## Single bits -/

theorem isSet_eq_getLsbD (value bit : BitVec width) :
    isSet value bit = value.getLsbD bit.toNat := by
  have one : (1 : BitVec width) <<< bit = BitVec.twoPow width bit.toNat :=
    (BitVec.twoPow_eq width bit.toNat).symm
  rw [isSet, one, BitVec.and_twoPow]
  cases set : value.getLsbD bit.toNat with
  | false => simp
  | true =>
    -- A bit past the top is not set, so that this power of two is not lost.
    have inside : bit.toNat < width := BitVec.lt_of_getLsbD set
    have nonzero : BitVec.twoPow width bit.toNat ≠ 0 := by
      intro same
      have bits := congrArg (·.getLsbD bit.toNat) same
      simp [inside] at bits
    simpa using nonzero

theorem getLsbD_extract (value lsb count : BitVec width) (index : Nat) :
    (extract value lsb count).getLsbD index =
      (decide (index < count.toNat) && value.getLsbD (lsb.toNat + index)) := by
  rw [extract, BitVec.getLsbD_and, BitVec.ushiftRight_eq', BitVec.getLsbD_ushiftRight,
    BitVec.getLsbD_not, BitVec.shiftLeft_eq', BitVec.getLsbD_shiftLeft, BitVec.getLsbD_allOnes]
  cases set : value.getLsbD (lsb.toNat + index) with
  | false => simp
  | true =>
    have inside : lsb.toNat + index < width := BitVec.lt_of_getLsbD set
    have below : index < width := by omega
    have rest : index - count.toNat < width := by omega
    simp [below, rest]

/-- A field has the bits of the word that it covers, as far as the word goes. -/
theorem isSet_extract (value lsb count bit : BitVec width) :
    isSet (extract value lsb count) bit = true ↔
      bit.toNat < count.toNat ∧ lsb.toNat + bit.toNat < width ∧
        isSet value (lsb + bit) = true := by
  rw [isSet_eq_getLsbD, isSet_eq_getLsbD, getLsbD_extract, Bool.and_eq_true, decide_eq_true_iff]
  refine and_congr_right fun _ => ?_
  by_cases inside : lsb.toNat + bit.toNat < width
  · rw [toNat_add_of_lt inside]
    exact (and_iff_right inside).symm
  · have beyond : value.getLsbD (lsb.toNat + bit.toNat) = false :=
      BitVec.getLsbD_of_ge _ _ (Nat.le_of_not_lt inside)
    simp [beyond, inside]

/-! ## Fields as numbers -/

theorem toNat_extract (value lsb count : BitVec width) :
    (extract value lsb count).toNat = value.toNat / 2 ^ lsb.toNat % 2 ^ count.toNat := by
  apply Nat.eq_of_testBit_eq
  intro index
  rw [Nat.testBit_mod_two_pow, Nat.testBit_div_two_pow, BitVec.testBit_toNat,
    BitVec.testBit_toNat, getLsbD_extract, Nat.add_comm]

/-- A field whose count is split has the lower part at its own place and the upper part
behind it. -/
theorem extract_add {value lsb lower upper : BitVec width}
    (counts : lower.toNat + upper.toNat < width) (place : lsb.toNat + lower.toNat < width) :
    (extract value lsb (lower + upper)).toNat =
      (extract value lsb lower).toNat +
        2 ^ lower.toNat * (extract value (lsb + lower) upper).toNat := by
  rw [toNat_extract, toNat_extract, toNat_extract, toNat_add_of_lt counts,
    toNat_add_of_lt place, Nat.pow_add, Nat.pow_add, Nat.mod_mul, Nat.div_div_eq_div_mul]

/-! ## The bytes of a word -/

theorem split_eq_extract (word : UInt16) :
    (split word).1.toNat = (extract word.toBitVec 8 8).toNat ∧
      (split word).2.toNat = (extract word.toBitVec 0 8).toNat := by
  rw [toNat_extract, toNat_extract]
  constructor
  · have bound := word.toNat_lt
    show (high word).toNat = word.toNat / 2 ^ 8 % 2 ^ 8
    rw [toNat_high]
    omega
  · show (low word).toNat = word.toNat / 2 ^ 0 % 2 ^ 8
    rw [toNat_low]
    omega

/-- Fields are exact, in words of every width. A field is the number of its word divided by
the power of two of its place, modulo that of its count. Its bits are those of the word from
this place on, as far as the count and the word go. Two fields next to each other are the
field of both counts, the upper one scaled by what the lower one takes.

A word is joined from the two bytes that it is split into, and any two bytes are what the word
joined from them is split into. These bytes are the upper and the lower field of eight. -/
theorem fields_exact :
    (∀ {width : Nat} (value lsb count : BitVec width),
      (extract value lsb count).toNat = value.toNat / 2 ^ lsb.toNat % 2 ^ count.toNat ∧
        (∀ bit, isSet (extract value lsb count) bit = true ↔
          bit.toNat < count.toNat ∧ lsb.toNat + bit.toNat < width ∧
            isSet value (lsb + bit) = true) ∧
        ∀ more, count.toNat + more.toNat < width → lsb.toNat + count.toNat < width →
          (extract value lsb (count + more)).toNat =
            (extract value lsb count).toNat +
              2 ^ count.toNat * (extract value (lsb + count) more).toNat) ∧
      (∀ word, join (split word).1 (split word).2 = word) ∧
      (∀ highByte lowByte, split (join highByte lowByte) = (highByte, lowByte)) ∧
      ∀ word : UInt16, (split word).1.toNat = (extract word.toBitVec 8 8).toNat ∧
        (split word).2.toNat = (extract word.toBitVec 0 8).toNat := by
  refine ⟨?fields, join_high_low, ?bytes, split_eq_extract⟩
  case fields =>
    intro width value lsb count
    exact ⟨toNat_extract value lsb count, isSet_extract value lsb count,
      fun more counts place => extract_add counts place⟩
  case bytes =>
    intro highByte lowByte
    exact Prod.ext (high_join highByte lowByte) (low_join highByte lowByte)

/-- Two fields of a word of thirty-two bits, the upper of which goes past its top: four bits
are left of the eight. -/
theorem fields_exact_acrossTop :
    (20 : BitVec 32).toNat + (8 : BitVec 32).toNat < 32 ∧
      (8 : BitVec 32).toNat + (20 : BitVec 32).toNat < 32 ∧
      (extract 0xfedcba98 8 28 : BitVec 32).toNat =
        (extract 0xfedcba98 8 20 : BitVec 32).toNat +
          2 ^ 20 * (extract 0xfedcba98 28 8 : BitVec 32).toNat ∧
      (extract 0xfedcba98 28 8 : BitVec 32) = 0xf := by
  obtain ⟨-, -, together⟩ := fields_exact.1 (0xfedcba98 : BitVec 32) 8 20
  exact ⟨by decide, by decide, together 8 (by decide) (by decide), by decide⟩

end Cpm80.Word
