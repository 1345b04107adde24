import Cpm80.Word

/-!
Contract: the memory of an eight-bit processor with sixteen-bit addresses.

Every address names a byte, because the array behind the memory holds exactly
one byte per address. Words are little-endian and, like runs of bytes, wrap
around from the highest address to the lowest.

Owns:
- loading and storing of bytes and words, and reading of byte runs;
- the laws that give a load after a store.

Does not own: what is stored where when a program is placed in memory.
-/

namespace Cpm80

def addressSpace : Nat := 65536

structure Memory where
  bytes : ByteArray
  size_eq : bytes.size = addressSpace

namespace Memory

def zeroed : Memory where
  bytes := ⟨Array.replicate addressSpace 0⟩
  size_eq := by simp [ByteArray.size]

theorem toNat_lt_size (memory : Memory) (address : UInt16) :
    address.toNat < memory.bytes.size := by
  rw [memory.size_eq]
  exact address.toNat_lt

def load (memory : Memory) (address : UInt16) : UInt8 :=
  memory.bytes.get address.toNat (memory.toNat_lt_size address)

def store (memory : Memory) (address : UInt16) (value : UInt8) : Memory where
  bytes := memory.bytes.set address.toNat value (memory.toNat_lt_size address)
  size_eq := by
    rw [← memory.size_eq]
    exact Array.size_set (memory.toNat_lt_size address)

/-- The word whose low byte is at an address and whose high byte is at the next. -/
def loadWord (memory : Memory) (address : UInt16) : UInt16 :=
  Word.join (memory.load (address + 1)) (memory.load address)

/-- Stores the low byte of a word at an address, then its high byte at the next. -/
def storeWord (memory : Memory) (address value : UInt16) : Memory :=
  (memory.store address (Word.low value)).store (address + 1) (Word.high value)

/-- The `length` bytes from an address on. A run longer than the address space
goes around it more than once. -/
def read (memory : Memory) (address : UInt16) (length : Nat) : List UInt8 :=
  (List.range length).map fun offset => memory.load (address + UInt16.ofNat offset)

/-! ## Loads after stores -/

@[simp]
theorem load_zeroed (address : UInt16) : zeroed.load address = 0 :=
  Array.getElem_replicate (zeroed.toNat_lt_size address)

@[simp]
theorem load_store_same (memory : Memory) (address : UInt16) (value : UInt8) :
    (memory.store address value).load address = value :=
  Array.getElem_set_self (memory.toNat_lt_size address)

theorem load_store_other (memory : Memory) {address other : UInt16} (value : UInt8)
    (apart : other ≠ address) :
    (memory.store address value).load other = memory.load other := by
  have separate : address.toNat ≠ other.toNat := fun same =>
    apart (UInt16.toNat_inj.1 same).symm
  exact Array.getElem_set_ne (memory.toNat_lt_size address) (memory.toNat_lt_size other) separate

theorem load_store (memory : Memory) (address other : UInt16) (value : UInt8) :
    (memory.store address value).load other =
      if other = address then value else memory.load other := by
  split
  · next same => rw [same, load_store_same]
  · next apart => exact memory.load_store_other value apart

/-- The word just stored is loaded again, at the highest address too. -/
theorem loadWord_storeWord (memory : Memory) (address value : UInt16) :
    (memory.storeWord address value).loadWord address = value := by
  have apart : address ≠ address + 1 := fun same =>
    absurd (UInt16.add_right_inj address |>.1 ((UInt16.add_zero address).trans same)) (by decide)
  rw [loadWord, storeWord, load_store_same, load_store_other _ _ apart, load_store_same,
    Word.join_high_low]

@[ext]
theorem ext {left right : Memory} (agree : ∀ address, left.load address = right.load address) :
    left = right := by
  obtain ⟨leftBytes, leftSize⟩ := left
  obtain ⟨rightBytes, rightSize⟩ := right
  congr 1
  apply ByteArray.ext
  apply Array.ext (leftSize.trans rightSize.symm)
  intro index leftBound _
  have bound : index < addressSpace := leftSize ▸ leftBound
  have wrapped : (UInt16.ofNat index).toNat = index := UInt16.toNat_ofNat_of_lt' bound
  have agreed : ∀ (place : Nat) (inLeft : place < leftBytes.data.size)
      (inRight : place < rightBytes.data.size), (UInt16.ofNat index).toNat = place →
      leftBytes.data[place] = rightBytes.data[place] := by
    intro place _ _ same
    subst same
    exact agree (UInt16.ofNat index)
  exact agreed index _ _ wrapped

@[simp]
theorem length_read (memory : Memory) (address : UInt16) (length : Nat) :
    (memory.read address length).length = length := by
  simp [read]

end Memory

end Cpm80
