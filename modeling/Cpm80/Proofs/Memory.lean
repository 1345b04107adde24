import Cpm80.Processor
import Cpm80.Z80.Step

/-!
Contract: runs of bytes in a memory that wraps around.

Owns:
- the taking apart of a run, and runs of two memories that agree on it;
- runs that have no address in common;
- memory after a run of bytes or a word has been stored, address by address;
- storing through a Z80 as storing in its memory.

Does not own: which runs of bytes a program consists of.
-/

namespace Cpm80

theorem add_ofNat_succ (address : UInt16) (offset : Nat) :
    address + UInt16.ofNat (offset + 1) = address + 1 + UInt16.ofNat offset := by
  rw [UInt16.ofNat_add]
  grind

theorem add_ofNat_add (address : UInt16) (first second : Nat) :
    address + UInt16.ofNat first + UInt16.ofNat second =
      address + UInt16.ofNat (first + second) := by
  rw [UInt16.ofNat_add, UInt16.add_assoc]

/-- Below the end of the address space nothing wraps. -/
theorem toNat_add_ofNat {address : UInt16} {offset : Nat}
    (within : address.toNat + offset < addressSpace) :
    (address + UInt16.ofNat offset).toNat = address.toNat + offset := by
  have small : (UInt16.ofNat offset).toNat = offset :=
    UInt16.toNat_ofNat_of_lt' (Nat.lt_of_le_of_lt (Nat.le_add_left _ _) within)
  rw [UInt16.toNat_add, small]
  exact Nat.mod_eq_of_lt within

/-- A run of consecutive addresses, whatever they are looked up in, is its first one and the
run behind it. -/
theorem map_load_range_succ (load : UInt16 → UInt8) (address : UInt16) (length : Nat) :
    ((List.range (length + 1)).map fun offset => load (address + UInt16.ofNat offset)) =
      load address :: (List.range length).map fun offset =>
        load (address + 1 + UInt16.ofNat offset) := by
  rw [List.range_succ_eq_map, List.map_cons, List.map_map]
  congr 1
  · exact congrArg load (UInt16.add_zero address)
  · apply List.map_congr_left
    intro offset _
    exact congrArg load (add_ofNat_succ address offset)

namespace Memory

/-! ## Reading runs -/

@[simp]
theorem read_zero (memory : Memory) (address : UInt16) : memory.read address 0 = [] :=
  rfl

theorem read_succ (memory : Memory) (address : UInt16) (length : Nat) :
    memory.read address (length + 1) =
      memory.load address :: memory.read (address + 1) length :=
  map_load_range_succ memory.load address length

theorem read_add (memory : Memory) (address : UInt16) (first second : Nat) :
    memory.read address (first + second) =
      memory.read address first ++ memory.read (address + UInt16.ofNat first) second := by
  induction first generalizing address with
  | zero => simp
  | succ first inductionHypothesis =>
    rw [Nat.add_right_comm, read_succ, read_succ, inductionHypothesis, add_ofNat_succ,
      List.cons_append]

theorem read_congr {left right : Memory} {address : UInt16} {length : Nat}
    (agree : ∀ offset < length,
      left.load (address + UInt16.ofNat offset) = right.load (address + UInt16.ofNat offset)) :
    left.read address length = right.read address length := by
  apply List.map_congr_left
  intro offset member
  exact agree offset (List.mem_range.mp member)

theorem read_succ_eq_cons {memory : Memory} {address : UInt16} {length : Nat} {byte : UInt8}
    {bytes : List UInt8} :
    memory.read address (length + 1) = byte :: bytes ↔
      memory.load address = byte ∧ memory.read (address + 1) length = bytes := by
  rw [read_succ, List.cons.injEq]

theorem load_of_read {memory : Memory} {address : UInt16} {bytes : List UInt8}
    (holds : memory.read address bytes.length = bytes) {offset : Nat}
    (inside : offset < bytes.length) :
    memory.load (address + UInt16.ofNat offset) = bytes[offset] := by
  have here : (memory.read address bytes.length)[offset]? = bytes[offset]? := by
    rw [holds]
  simpa [read, inside] using here

/-- Both parts of a run that is known as a whole. -/
theorem read_eq_append {memory : Memory} {address : UInt16} {first second : List UInt8}
    (holds : memory.read address (first ++ second).length = first ++ second) :
    memory.read address first.length = first ∧
      memory.read (address + UInt16.ofNat first.length) second.length = second := by
  rw [List.length_append, read_add] at holds
  exact List.append_inj holds (memory.length_read address first.length)

/-! ## Runs apart -/

/-- Whether no address belongs to both of two runs. -/
def Apart (first : UInt16) (firstLength : Nat) (second : UInt16) (secondLength : Nat) : Prop :=
  ∀ offset < firstLength, ∀ other < secondLength,
    first + UInt16.ofNat offset ≠ second + UInt16.ofNat other

instance (first : UInt16) (firstLength : Nat) (second : UInt16) (secondLength : Nat) :
    Decidable (Apart first firstLength second secondLength) :=
  inferInstanceAs (Decidable (∀ offset < firstLength, ∀ other < secondLength,
    first + UInt16.ofNat offset ≠ second + UInt16.ofNat other))

namespace Apart

variable {first second : UInt16} {firstLength secondLength : Nat}

theorem head (apart : Apart first (firstLength + 1) second secondLength) :
    Apart first 1 second secondLength :=
  fun offset below => apart offset (Nat.lt_of_lt_of_le below (Nat.le_add_left 1 firstLength))

theorem tail_left (apart : Apart first (firstLength + 1) second secondLength) :
    Apart (first + 1) firstLength second secondLength := by
  intro offset below other otherBelow
  rw [← add_ofNat_succ]
  exact apart (offset + 1) (Nat.succ_lt_succ below) other otherBelow

/-- A part of the second run. -/
theorem part_right {offset length : Nat} (apart : Apart first firstLength second secondLength)
    (inside : offset + length ≤ secondLength) :
    Apart first firstLength (second + UInt16.ofNat offset) length := by
  intro index below other otherBelow
  rw [add_ofNat_add]
  exact apart index below (offset + other) (by omega)

theorem tail_right (apart : Apart first firstLength second (secondLength + 1)) :
    Apart first firstLength (second + 1) secondLength := by
  have part : Apart first firstLength (second + UInt16.ofNat 1) secondLength :=
    apart.part_right (by omega)
  exact part

/-- A byte does not belong to the run behind it, unless that goes all the way around. -/
theorem behind (address : UInt16) {length : Nat} (fits : length < addressSpace) :
    Apart address 1 (address + 1) length := by
  intro offset below other otherBelow same
  rw [Nat.lt_one_iff.1 below, ← add_ofNat_succ] at same
  have distance : UInt16.ofNat 0 = UInt16.ofNat (other + 1) := by grind
  have wraps := congrArg UInt16.toNat distance
  unfold addressSpace at fits
  rw [UInt16.toNat_ofNat_of_lt' (by decide), UInt16.toNat_ofNat_of_lt' (by
    show other + 1 < 65536
    omega)] at wraps
  omega

/-- A byte stored at the beginning of one run leaves the other as it was. -/
theorem read_store (apart : Apart first 1 second secondLength) (memory : Memory)
    (value : UInt8) :
    (memory.store first value).read second secondLength = memory.read second secondLength := by
  apply read_congr
  intro offset below
  have outside := apart 0 Nat.one_pos offset below
  rw [show UInt16.ofNat 0 = 0 from rfl, UInt16.add_zero] at outside
  exact memory.load_store_other value outside.symm

end Apart

/-! ## Storing runs -/

def storeAll (memory : Memory) (address : UInt16) : List UInt8 → Memory
  | [] => memory
  | byte :: bytes => (memory.store address byte).storeAll (address + 1) bytes

/-- A run that is no longer than the address space does not run into itself, so
that each of its addresses holds its own byte afterwards. -/
theorem load_storeAll (memory : Memory) (address other : UInt16) (bytes : List UInt8)
    (fits : bytes.length ≤ addressSpace) :
    (memory.storeAll address bytes).load other =
      (bytes[(other - address).toNat]?).getD (memory.load other) := by
  induction bytes generalizing memory address with
  | nil => rfl
  | cons byte bytes inductionHypothesis =>
    rw [List.length_cons] at fits
    rw [storeAll, inductionHypothesis _ _ (by omega)]
    by_cases here : other = address
    · -- The rest of the run ends before it comes back to its first address.
      subst here
      have around : (other - (other + 1)).toNat = 65535 := by
        have : other - (other + 1) = 65535 := by grind
        rw [this]
        rfl
      have beyond : bytes[(other - (other + 1)).toNat]? = none := by
        apply List.getElem?_eq_none
        rw [around]
        unfold addressSpace at fits
        omega
      rw [beyond, UInt16.sub_self]
      exact memory.load_store_same other byte
    · have offset : (other - address).toNat = (other - (address + 1)).toNat + 1 := by
        have apart : other.toNat ≠ address.toNat := fun same => here (UInt16.toNat_inj.1 same)
        have otherBound := other.toNat_lt
        have addressBound := address.toNat_lt
        simp only [UInt16.toNat_sub, UInt16.toNat_add, show (1 : UInt16).toNat = 1 from rfl]
        omega
      rw [offset, List.getElem?_cons_succ, memory.load_store_other byte here]

theorem load_storeAll_outside (memory : Memory) (address other : UInt16) (bytes : List UInt8)
    (fits : bytes.length ≤ addressSpace) (outside : bytes.length ≤ (other - address).toNat) :
    (memory.storeAll address bytes).load other = memory.load other := by
  rw [load_storeAll _ _ _ _ fits, List.getElem?_eq_none outside]
  rfl

/-- The same for an address that is known to differ from all of the run. -/
theorem load_storeAll_of_ne (memory : Memory) {address other : UInt16} {bytes : List UInt8}
    (fits : bytes.length ≤ addressSpace)
    (apart : ∀ offset < bytes.length, other ≠ address + UInt16.ofNat offset) :
    (memory.storeAll address bytes).load other = memory.load other := by
  apply load_storeAll_outside _ _ _ _ fits
  refine Nat.le_of_not_lt fun inside => ?_
  apply apart (other - address).toNat inside
  rw [UInt16.ofNat_toNat]
  grind

theorem read_storeAll_outside (memory : Memory) (address other : UInt16) (bytes : List UInt8)
    (length : Nat) (fits : bytes.length ≤ addressSpace)
    (outside : ∀ offset < length, bytes.length ≤ (other + UInt16.ofNat offset - address).toNat) :
    (memory.storeAll address bytes).read other length = memory.read other length := by
  apply read_congr
  intro offset below
  exact memory.load_storeAll_outside address _ bytes fits (outside offset below)

theorem read_storeAll (memory : Memory) (address : UInt16) (bytes : List UInt8)
    (fits : bytes.length ≤ addressSpace) :
    (memory.storeAll address bytes).read address bytes.length = bytes := by
  apply List.ext_getElem (Memory.length_read _ _ _)
  intro offset _ inside
  have distance : (address + UInt16.ofNat offset - address).toNat = offset := by
    have : address + UInt16.ofNat offset - address = UInt16.ofNat offset := by grind
    rw [this]
    exact UInt16.toNat_ofNat_of_lt' (Nat.lt_of_lt_of_le inside fits)
  simp only [read, List.getElem_map, List.getElem_range]
  rw [load_storeAll _ _ _ _ fits, distance, List.getElem?_eq_getElem inside]
  rfl

/-! ## Storing words -/

theorem load_storeWord_of_ne (memory : Memory) {address other word : UInt16}
    (low : other ≠ address) (high : other ≠ address + 1) :
    (memory.storeWord address word).load other = memory.load other := by
  rw [storeWord, load_store_other _ _ high, load_store_other _ _ low]

/-- A word that is stored where another was, and then replaced by that, leaves no trace. -/
theorem storeWord_storeWord_loadWord (memory : Memory) (address word : UInt16) :
    (memory.storeWord address word).storeWord address (memory.loadWord address) = memory := by
  apply ext
  intro other
  simp only [storeWord, loadWord, load_store, Word.high_join, Word.low_join]
  split
  · next high => rw [high]
  · split
    · next low => rw [low]
    · rfl

end Memory

namespace Z80

/-- Storing bytes through the processor moves nothing but its memory. -/
theorem storeAll_eq (cpu : Z80) (address : UInt16) (bytes : List UInt8) :
    Processor.storeAll cpu address bytes =
      { cpu with memory := cpu.memory.storeAll address bytes } := by
  induction bytes generalizing cpu address with
  | nil => rfl
  | cons byte bytes inductionHypothesis =>
    exact inductionHypothesis (cpu.store address byte) (address + 1)

end Z80

end Cpm80
