import Cpm80.Proofs.Footprint

/-!
Contract: memory as what its history of stores has left.

Owns:
- stores of bytes and of words, and the bytes that each writes;
- the byte that was written last to an address, which a load gives after any stores;
- runs of bytes that go around the address space.

Does not own: which stores an instruction makes.
-/

namespace Cpm80.Memory

/-! ## Stores -/

inductive Store where
  | byte (address : UInt16) (value : UInt8)
  | word (address value : UInt16)
deriving DecidableEq, Repr

/-- The bytes that a store writes, each with its address. Behind the highest address comes
the lowest. -/
def Store.written : Store → List (UInt16 × UInt8)
  | .byte address value => [(address, value)]
  | .word address value => [(address, Word.low value), (address + 1, Word.high value)]

def perform (memory : Memory) : Store → Memory
  | .byte address value => memory.store address value
  | .word address value => memory.storeWord address value

/-- Memory after stores, the first of a list first. -/
def performAll (memory : Memory) (history : List Store) : Memory :=
  history.foldl perform memory

/-- Fresh memory after stores. -/
def ofHistory (history : List Store) : Memory :=
  zeroed.performAll history

/-- Whether a byte is the last one that a list has for an address. -/
def LastWritten (written : List (UInt16 × UInt8)) (address : UInt16) (value : UInt8) : Prop :=
  ∃ before behind, written = before ++ (address, value) :: behind ∧
    ∀ entry ∈ behind, address ≠ entry.1

theorem storeEach_append (memory : Memory) (first second : List (UInt16 × UInt8)) :
    memory.storeEach (first ++ second) = (memory.storeEach first).storeEach second :=
  List.foldl_append

/-- Any stores are stores of single bytes. -/
theorem performAll_eq_storeEach (memory : Memory) (history : List Store) :
    memory.performAll history = memory.storeEach (history.flatMap Store.written) := by
  induction history generalizing memory with
  | nil => rfl
  | cons store history inductionHypothesis =>
    have step : memory.perform store = memory.storeEach store.written := by
      cases store <;> rfl
    rw [List.flatMap_cons, storeEach_append, ← step]
    exact inductionHypothesis (memory.perform store)

/-! ## Loads after a history -/

theorem load_storeEach_of_lastWritten (memory : Memory) {written : List (UInt16 × UInt8)}
    {address : UInt16} {value : UInt8} (last : LastWritten written address value) :
    (memory.storeEach written).load address = value := by
  obtain ⟨before, behind, rfl, elsewhere⟩ := last
  rw [storeEach_append]
  show (((memory.storeEach before).store address value).storeEach behind).load address = value
  rw [load_storeEach_of_ne _ elsewhere, load_store_same]

/-- Among the bytes for an address, if there are any, one is the last. -/
theorem lastWritten_or_elsewhere (written : List (UInt16 × UInt8)) (address : UInt16) :
    (∃ value, LastWritten written address value) ∨ ∀ entry ∈ written, address ≠ entry.1 := by
  induction written with
  | nil => exact .inr (by simp)
  | cons entry written inductionHypothesis =>
    rcases inductionHypothesis with ⟨value, before, behind, rfl, elsewhere⟩ | elsewhere
    · exact .inl ⟨value, entry :: before, behind, rfl, elsewhere⟩
    · by_cases here : address = entry.1
      · subst here
        exact .inl ⟨entry.2, [], written, rfl, elsewhere⟩
      · exact .inr (List.forall_mem_cons.2 ⟨here, elsewhere⟩)

/-- A load gives the byte last written, or what was there before if there is none. -/
theorem load_storeEach_eq_iff (memory : Memory) (written : List (UInt16 × UInt8))
    (address : UInt16) (value : UInt8) :
    (memory.storeEach written).load address = value ↔
      LastWritten written address value ∨
        (∀ entry ∈ written, address ≠ entry.1) ∧ memory.load address = value := by
  constructor
  · intro loaded
    rcases lastWritten_or_elsewhere written address with ⟨last, isLast⟩ | elsewhere
    · rw [memory.load_storeEach_of_lastWritten isLast] at loaded
      subst loaded
      exact .inl isLast
    · rw [memory.load_storeEach_of_ne elsewhere] at loaded
      exact .inr ⟨elsewhere, loaded⟩
  · rintro (isLast | ⟨elsewhere, before⟩)
    · exact memory.load_storeEach_of_lastWritten isLast
    · rw [memory.load_storeEach_of_ne elsewhere, before]

theorem toNat_loadWord (memory : Memory) (address : UInt16) :
    (memory.loadWord address).toNat =
      (memory.load address).toNat + 256 * (memory.load (address + 1)).toNat := by
  rw [loadWord, Word.toNat_join, Nat.add_comm]

/-! ## Runs around the address space -/

theorem getElem?_read (memory : Memory) (address : UInt16) {length index : Nat}
    (inside : index < length) :
    (memory.read address length)[index]? = some (memory.load (address + UInt16.ofNat index)) := by
  simp [read, inside]

theorem getElem?_read_around (memory : Memory) (address : UInt16) {length index : Nat}
    (inside : index + addressSpace < length) :
    (memory.read address length)[index + addressSpace]? =
      (memory.read address length)[index]? := by
  have around : UInt16.ofNat (index + addressSpace) = UInt16.ofNat index := by
    apply UInt16.toNat_inj.1
    rw [UInt16.toNat_ofNat', UInt16.toNat_ofNat']
    exact Nat.add_mod_right index addressSpace
  have insideToo : index < length := Nat.lt_of_le_of_lt (Nat.le_add_right _ _) inside
  rw [getElem?_read _ _ inside, getElem?_read _ _ insideToo, around]

/-- Every address has its byte in the array behind a memory. -/
theorem getElem?_bytes (memory : Memory) (address : UInt16) :
    memory.bytes.data[address.toNat]? = some (memory.load address) :=
  Array.getElem?_eq_getElem (memory.toNat_lt_size address)

/-- Memory is an array of bytes over addresses that wrap around. After any stores of bytes
and words into fresh memory the array has its size, and no address is out of its bounds. A
byte loaded is the one that was written last to its address, or zero if none was. A word
loaded has the byte at its address for its low part and the byte behind it for its high part,
and is the word that has just been stored there.

A run read from anywhere has the length asked for, also where this is more than the whole
address space. Its bytes are those at the addresses that follow each other, so that they come
again each time it has been around, and a longer run is a shorter one and the run behind. -/
theorem ofHistory_exact (history : List Store) :
    (ofHistory history).bytes.size = 65536 ∧
      (∀ address, (ofHistory history).bytes.data[address.toNat]? =
        some ((ofHistory history).load address)) ∧
      (∀ address value, (ofHistory history).load address = value ↔
        LastWritten (history.flatMap Store.written) address value ∨
          (∀ entry ∈ history.flatMap Store.written, address ≠ entry.1) ∧ value = 0) ∧
      (∀ address, ((ofHistory history).loadWord address).toNat =
        ((ofHistory history).load address).toNat +
          256 * ((ofHistory history).load (address + 1)).toNat) ∧
      (∀ address word, (ofHistory (history ++ [.word address word])).loadWord address = word) ∧
      ∀ address length,
        ((ofHistory history).read address length).length = length ∧
          (∀ index < length, ((ofHistory history).read address length)[index]? =
            some ((ofHistory history).load (address + UInt16.ofNat index))) ∧
          (∀ index, index + 65536 < length →
            ((ofHistory history).read address length)[index + 65536]? =
              ((ofHistory history).read address length)[index]?) ∧
          ∀ more, (ofHistory history).read address (length + more) =
            (ofHistory history).read address length ++
              (ofHistory history).read (address + UInt16.ofNat length) more := by
  refine ⟨(ofHistory history).size_eq, getElem?_bytes _, ?loads, toNat_loadWord _, ?stored, ?runs⟩
  case loads =>
    intro address value
    rw [ofHistory, performAll_eq_storeEach, load_storeEach_eq_iff, load_zeroed,
      @eq_comm UInt8 0 value]
  case stored =>
    intro address word
    have last : ofHistory (history ++ [.word address word]) =
        (ofHistory history).storeWord address word :=
      List.foldl_append
    rw [last, loadWord_storeWord]
  case runs =>
    intro address length
    exact ⟨length_read _ _ _, fun index inside => getElem?_read _ _ inside,
      fun index inside => getElem?_read_around _ _ inside, read_add _ _ _⟩

/-- A word across the end of the address space, and a byte in the place of its high part. -/
def acrossEnd : List Store :=
  [.word 0xffff 0x1234, .byte 0x0000 0x56]

theorem ofHistory_exact_acrossEnd :
    (ofHistory acrossEnd).load 0xffff = 0x34 ∧ (ofHistory acrossEnd).load 0x0000 = 0x56 ∧
      (ofHistory acrossEnd).load 0x0001 = 0 ∧
      2 + 65536 < 65539 ∧
      ((ofHistory acrossEnd).read 0xfffe 65539)[2 + 65536]? = some 0x56 := by
  obtain ⟨-, -, loads, -, -, runs⟩ := ofHistory_exact acrossEnd
  obtain ⟨-, bytes, again, -⟩ := runs 0xfffe 65539
  have low : (ofHistory acrossEnd).load 0xffff = 0x34 :=
    (loads 0xffff 0x34).2 (.inl ⟨[], [(0x0000, 0x12), (0x0000, 0x56)], rfl, by simp⟩)
  have replaced : (ofHistory acrossEnd).load 0x0000 = 0x56 :=
    (loads 0x0000 0x56).2 (.inl ⟨[(0xffff, 0x34), (0x0000, 0x12)], [], rfl, by simp⟩)
  have untouched : (ofHistory acrossEnd).load 0x0001 = 0 :=
    (loads 0x0001 0).2 (.inr ⟨by simp [acrossEnd, Store.written], rfl⟩)
  refine ⟨low, replaced, untouched, by decide, ?_⟩
  rw [again 2 (by decide), bytes 2 (by decide)]
  exact congrArg some replaced

end Cpm80.Memory
