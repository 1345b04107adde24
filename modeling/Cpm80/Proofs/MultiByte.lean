import Cpm80.Proofs.ByteArithmetic
import Mathlib.Data.Nat.Digits.Defs
import Mathlib.Tactic.LinearCombination

/-!
Contract: numbers of many bytes, added and subtracted one byte at a time.

The bytes of a number stand with the lowest first. A byte operation takes the carry of
the byte below and gives one to the byte above, in the flags.

Owns:
- addition and subtraction with a carry, on integers and on bytes;
- chains of byte operations, for digits of any base;
- the value of a chain, its last carry, and the sign of the result that its last sign and
  overflow flags give together.

Does not own: the code that carries out such a chain.
-/

namespace Cpm80

/-! ## Addition and subtraction -/

inductive Chained where
  | addition
  | subtraction
deriving DecidableEq, Repr

namespace Chained

/-- The sum with a carry, or the difference less a borrow. -/
def total : Chained → Int → Int → Int → Int
  | .addition, left, right, carry => left + right + carry
  | .subtraction, left, right, carry => left - right - carry

/-- Whether a carry comes out of a result that has to stay below a bound. -/
def Carries (operation : Chained) (bound left right carry : Nat) : Prop :=
  match operation with
  | .addition => bound ≤ left + right + carry
  | .subtraction => left < right + carry

instance (operation : Chained) (bound left right carry : Nat) :
    Decidable (operation.Carries bound left right carry) :=
  match operation with
  | .addition => inferInstanceAs (Decidable (bound ≤ left + right + carry))
  | .subtraction => inferInstanceAs (Decidable (left < right + carry))

def combine : Chained → UInt8 → UInt8 → Flags → UInt8 × Flags
  | .addition, left, right, flags => Arithmetic.add left right flags.carry
  | .subtraction, left, right, flags => Arithmetic.sub left right flags.carry

/-- A total digit by digit: what the lowest digits leave goes to the others. -/
theorem total_shift (operation : Chained) {base left right carry low next : Int}
    (lowest : operation.total left right carry = low + base * operation.total 0 0 next)
    (leftRest rightRest : Int) :
    operation.total (left + base * leftRest) (right + base * rightRest) carry =
      low + base * operation.total leftRest rightRest next := by
  cases operation with
  | addition =>
    simp only [total] at lowest ⊢
    linear_combination lowest
  | subtraction =>
    simp only [total] at lowest ⊢
    linear_combination lowest

theorem carries_iff (operation : Chained) {bound left right carry result : Nat} {carried : Bool}
    (below : result < bound)
    (whole : operation.total left right carry =
      result + (bound : Int) * operation.total 0 0 carried.toNat) :
    carried = true ↔ operation.Carries bound left right carry := by
  cases operation with
  | addition =>
    cases carried <;> simp [total, Carries] at whole ⊢ <;> omega
  | subtraction =>
    cases carried <;> simp [total, Carries] at whole ⊢ <;> omega

end Chained

/-! ## Chains -/

namespace Arithmetic

variable (combine : UInt8 → UInt8 → Flags → UInt8 × Flags)

/-- Combines bytes in pairs from the lowest upwards, the flags going from each pair to
the next. -/
def chain : List UInt8 → List UInt8 → Flags → List UInt8 × Flags
  | left :: lefts, right :: rights, flags =>
    let (result, next) := combine left right flags
    let (results, last) := chain lefts rights next
    (result :: results, last)
  | _, _, flags => ([], flags)

theorem chain_cons (left right : UInt8) (lefts rights : List UInt8) (flags : Flags) :
    chain combine (left :: lefts) (right :: rights) flags =
      ((combine left right flags).1 :: (chain combine lefts rights (combine left right flags).2).1,
        (chain combine lefts rights (combine left right flags).2).2) :=
  rfl

theorem length_chain {lefts rights : List UInt8} (same : lefts.length = rights.length)
    (flags : Flags) : (chain combine lefts rights flags).1.length = lefts.length := by
  induction lefts generalizing rights flags with
  | nil => rfl
  | cons left lefts inductionHypothesis =>
    cases rights with
    | nil => cases same
    | cons right rights =>
      rw [chain_cons, List.length_cons, List.length_cons,
        inductionHypothesis (Nat.succ.inj same)]

end Arithmetic

/-! ## Digits -/

/-- The number that bytes spell, the lowest digit first. -/
def spelled (base : Nat) (digit : UInt8 → Nat) (bytes : List UInt8) : Nat :=
  Nat.ofDigits base (bytes.map digit)

section Digits

variable {base : Nat} {digit : UInt8 → Nat}

theorem spelled_nil : spelled base digit [] = 0 :=
  rfl

theorem spelled_cons (byte : UInt8) (bytes : List UInt8) :
    spelled base digit (byte :: bytes) = digit byte + base * spelled base digit bytes := by
  rw [spelled, List.map_cons, Nat.ofDigits_cons]
  rfl

theorem spelled_lt {bytes : List UInt8} (base_gt : 1 < base)
    (small : ∀ byte ∈ bytes, digit byte < base) :
    spelled base digit bytes < base ^ bytes.length := by
  rw [← List.length_map digit, spelled]
  apply Nat.ofDigits_lt_base_pow_length base_gt
  simpa using small

end Digits

/-- Whether an operation on bytes is addition or subtraction of digits, for bytes that
are valid digits. -/
structure Digitwise (operation : Chained) (base : Nat) (digit : UInt8 → Nat)
    (valid : UInt8 → Prop) (combine : UInt8 → UInt8 → Flags → UInt8 × Flags) : Prop where
  base_gt : 1 < base
  small : ∀ byte, valid byte → digit byte < base
  keeps : ∀ left right flags, valid left → valid right → valid (combine left right flags).1
  total : ∀ left right flags, valid left → valid right →
    operation.total (digit left) (digit right) flags.carry.toNat =
      digit (combine left right flags).1 +
        base * operation.total 0 0 (combine left right flags).2.carry.toNat

namespace Digitwise

variable {operation : Chained} {base : Nat} {digit : UInt8 → Nat} {valid : UInt8 → Prop}
  {combine : UInt8 → UInt8 → Flags → UInt8 × Flags} {lefts rights : List UInt8}

theorem valid_chain (each : Digitwise operation base digit valid combine)
    (validLefts : ∀ byte ∈ lefts, valid byte) (validRights : ∀ byte ∈ rights, valid byte)
    (flags : Flags) : ∀ byte ∈ (Arithmetic.chain combine lefts rights flags).1, valid byte := by
  induction lefts generalizing rights flags with
  | nil => exact fun _ member => absurd member List.not_mem_nil
  | cons left lefts inductionHypothesis =>
    cases rights with
    | nil => exact fun _ member => absurd member List.not_mem_nil
    | cons right rights =>
      rw [List.forall_mem_cons] at validLefts validRights
      rw [Arithmetic.chain_cons, List.forall_mem_cons]
      exact ⟨each.keeps _ _ _ validLefts.1 validRights.1,
        inductionHypothesis validLefts.2 validRights.2 _⟩

/-- What a chain leaves below its carry and the carry itself make up the whole total. -/
theorem total_chain (each : Digitwise operation base digit valid combine)
    (same : lefts.length = rights.length) (validLefts : ∀ byte ∈ lefts, valid byte)
    (validRights : ∀ byte ∈ rights, valid byte) (flags : Flags) :
    operation.total (spelled base digit lefts) (spelled base digit rights) flags.carry.toNat =
      spelled base digit (Arithmetic.chain combine lefts rights flags).1 +
        (base ^ lefts.length : Nat) *
          operation.total 0 0 (Arithmetic.chain combine lefts rights flags).2.carry.toNat := by
  induction lefts generalizing rights flags with
  | nil =>
    cases rights with
    | cons right rights => cases same
    | nil => simp [Arithmetic.chain, spelled_nil]
  | cons left lefts inductionHypothesis =>
    cases rights with
    | nil => cases same
    | cons right rights =>
      rw [List.forall_mem_cons] at validLefts validRights
      have rest := inductionHypothesis (Nat.succ.inj same) validLefts.2 validRights.2
        (combine left right flags).2
      have whole := operation.total_shift (each.total left right flags validLefts.1 validRights.1)
        (spelled base digit lefts) (spelled base digit rights)
      rw [rest] at whole
      simp only [Arithmetic.chain_cons, spelled_cons, List.length_cons]
      push_cast at whole ⊢
      rw [whole]
      ring

/-- A chain gives the total as far as its digits reach. -/
theorem spelled_chain (each : Digitwise operation base digit valid combine)
    (same : lefts.length = rights.length) (validLefts : ∀ byte ∈ lefts, valid byte)
    (validRights : ∀ byte ∈ rights, valid byte) (flags : Flags) :
    (spelled base digit (Arithmetic.chain combine lefts rights flags).1 : Int) =
      operation.total (spelled base digit lefts) (spelled base digit rights)
        flags.carry.toNat % (base ^ lefts.length : Nat) := by
  have valid := each.valid_chain validLefts validRights flags
  have below := spelled_lt each.base_gt fun byte member => each.small byte (valid byte member)
  rw [Arithmetic.length_chain combine same] at below
  rw [each.total_chain same validLefts validRights, Int.add_mul_emod_self_left,
    Int.emod_eq_of_lt (Int.natCast_nonneg _) (Int.ofNat_lt.2 below)]

theorem carry_chain (each : Digitwise operation base digit valid combine)
    (same : lefts.length = rights.length) (validLefts : ∀ byte ∈ lefts, valid byte)
    (validRights : ∀ byte ∈ rights, valid byte) (flags : Flags) :
    (Arithmetic.chain combine lefts rights flags).2.carry = true ↔
      operation.Carries (base ^ lefts.length) (spelled base digit lefts)
        (spelled base digit rights) flags.carry.toNat := by
  have valid := each.valid_chain validLefts validRights flags
  have below := spelled_lt each.base_gt fun byte member => each.small byte (valid byte member)
  have whole := each.total_chain same validLefts validRights flags
  rw [Arithmetic.length_chain combine same] at below
  exact operation.carries_iff below whole

end Digitwise

/-! ## Bytes as digits -/

/-- The number that bytes hold, the lowest byte first. -/
def littleEndian (bytes : List UInt8) : Nat :=
  spelled 256 UInt8.toNat bytes

/-- The same bytes read as a signed number. -/
def signedLittleEndian (bytes : List UInt8) : Int :=
  Int.bmod (littleEndian bytes) (256 ^ bytes.length)

theorem signedLittleEndian_singleton (byte : UInt8) :
    signedLittleEndian [byte] = Int.bmod byte.toNat 256 := by
  rw [signedLittleEndian, littleEndian, spelled_cons, spelled_nil]
  rfl

/-- Of more bytes than one the lowest has no part in the sign. -/
theorem signedLittleEndian_cons (byte : UInt8) {bytes : List UInt8} (more : bytes ≠ []) :
    signedLittleEndian (byte :: bytes) = byte.toNat + 256 * signedLittleEndian bytes := by
  have lowest := byte.toNat_lt
  obtain ⟨half, even⟩ : ∃ half : Nat, 256 ^ bytes.length = 2 * half := by
    cases bytes with
    | nil => exact absurd rfl more
    | cons next bytes => exact ⟨128 * 256 ^ bytes.length, by rw [List.length_cons]; ring⟩
  have positive : 0 < 256 ^ bytes.length := Nat.pow_pos (by decide)
  -- What the bytes above lose to their bound is lost by the whole number to its own bound.
  have whole := Int.bmod_add_bdiv (littleEndian bytes) (256 ^ bytes.length)
  have low := Int.le_bmod (x := littleEndian bytes) positive
  have high := Int.bmod_lt (x := littleEndian bytes) positive
  rw [signedLittleEndian, signedLittleEndian, littleEndian, spelled_cons, ← littleEndian,
    List.length_cons, Nat.pow_succ']
  generalize Int.bmod (littleEndian bytes) (256 ^ bytes.length) = signed at *
  generalize Int.bdiv (littleEndian bytes) (256 ^ bytes.length) = quotient at *
  generalize 256 ^ bytes.length = bound at *
  have split : ((byte.toNat + 256 * littleEndian bytes : Nat) : Int) =
      (byte.toNat + 256 * signed) + (256 * bound : Nat) * quotient := by
    push_cast
    rw [← whole]
    ring
  rw [split, Int.add_mul_bmod_self_left]
  apply Int.bmod_eq_of_le <;> omega

namespace Chained

theorem digitwise (operation : Chained) :
    Digitwise operation 256 UInt8.toNat (fun _ => True) operation.combine where
  base_gt := by decide
  small byte _ := byte.toNat_lt
  keeps _ _ _ _ _ := trivial
  total left right flags _ _ := by
    cases operation with
    | addition =>
      have sum := Arithmetic.toNat_add left right flags.carry
      simp only [total, combine]
      omega
    | subtraction =>
      have difference := Arithmetic.toNat_sub left right flags.carry
      simp only [total, combine]
      omega

theorem negative_combine (operation : Chained) (left right : UInt8) (flags : Flags) :
    ((operation.combine left right flags).2.sign ^^
      (operation.combine left right flags).2.parity) = true ↔
      operation.total (Int.bmod left.toNat 256) (Int.bmod right.toNat 256)
        flags.carry.toNat < 0 := by
  cases operation with
  | addition => exact Arithmetic.negative_add left right flags.carry
  | subtraction => exact Arithmetic.negative_sub left right flags.carry

/-- The sign and overflow flags behind a chain together give the sign of the whole result. -/
theorem negative_chain (operation : Chained) {lefts rights : List UInt8}
    (same : lefts.length = rights.length) (more : lefts ≠ []) (flags : Flags) :
    ((Arithmetic.chain operation.combine lefts rights flags).2.sign ^^
      (Arithmetic.chain operation.combine lefts rights flags).2.parity) = true ↔
      operation.total (signedLittleEndian lefts) (signedLittleEndian rights)
        flags.carry.toNat < 0 := by
  induction lefts generalizing rights flags with
  | nil => exact absurd rfl more
  | cons left lefts inductionHypothesis =>
    cases rights with
    | nil => cases same
    | cons right rights =>
      rw [Arithmetic.chain_cons]
      have lowest := operation.digitwise.total left right flags trivial trivial
      -- The flags of the highest pair stay, so the other pairs only hand on their carry.
      cases lefts with
      | nil =>
        rw [List.eq_nil_of_length_eq_zero (Nat.succ.inj same).symm,
          signedLittleEndian_singleton, signedLittleEndian_singleton]
        exact operation.negative_combine left right flags
      | cons next lefts =>
        have moreRights : rights ≠ [] := by
          rintro rfl
          cases same
        rw [inductionHypothesis (Nat.succ.inj same) (List.cons_ne_nil next lefts),
          signedLittleEndian_cons left (List.cons_ne_nil next lefts),
          signedLittleEndian_cons right moreRights]
        have shifted := operation.total_shift lowest (signedLittleEndian (next :: lefts))
          (signedLittleEndian rights)
        have small := (operation.combine left right flags).1.toNat_lt
        push_cast at shifted
        rw [shifted]
        omega

end Chained

end Cpm80
