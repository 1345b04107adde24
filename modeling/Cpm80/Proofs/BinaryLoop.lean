import Cpm80.Proofs.ByteLoop

/-!
Contract: addition and subtraction of binary numbers of many bytes by machine code.

Owns:
- the loop of ADC A,(HL) or SBC A,(HL): the number it leaves, its carry and its sign;
- a sum whose bytes lie around the end of memory.

Does not own: loops over bytes in general; decimal numbers.
-/

namespace Cpm80.Z80

open Processor (Runs)

theorem combines_chained (operation : Chained) :
    Combines [0x1a, operation.opcode] 2 operation.combine := by
  intro cpu holds
  simp only [List.length_cons, List.length_nil, Memory.read_succ_eq_cons] at holds
  obtain ⟨first, second, -⟩ := holds
  have behind : cpu.pc + UInt16.ofNat 2 = cpu.pc + 1 + 1 := add_ofNat_succ cpu.pc 1
  refine Runs.internal first Instruction.decode_loadAFromDE ?_
  refine Runs.internal second operation.decode_opcode ?_
  simp only [execute, loadA, operand, operation.accumulate_accumulator, skip, load, pair,
    combined, setAccumulator, goTo, List.length_cons, List.length_nil, Nat.zero_add,
    Nat.reduceAdd, behind]
  exact Processor.Runs.done _

/-- Seven bytes of code add a number of many bytes to another in memory, or subtract it
from the other, with the carry flag going in and coming out. -/
theorem loop_adds_or_subtracts (operation : Chained) {cpu : Z80} {count : Nat}
    {lefts rights : List UInt8}
    (code : cpu.memory.read cpu.pc 7 = [0x1a, operation.opcode, 0x12, 0x23, 0x13, 0x10, 0xf9])
    (counted : count = if cpu.b = 0 then 256 else cpu.b.toNat)
    (apart : Memory.Apart (cpu.pair .de) count (cpu.pair .hl) count)
    (clear : Memory.Apart (cpu.pair .de) count cpu.pc 7)
    (atDE : cpu.memory.read (cpu.pair .de) count = lefts)
    (atHL : cpu.memory.read (cpu.pair .hl) count = rights) :
    ∃ a f memory,
      Runs (6 * count) cpu
        { cpu with
          a := a
          f := f
          b := 0
          d := Word.high (cpu.pair .de + UInt16.ofNat count)
          e := Word.low (cpu.pair .de + UInt16.ofNat count)
          h := Word.high (cpu.pair .hl + UInt16.ofNat count)
          l := Word.low (cpu.pair .hl + UInt16.ofNat count)
          pc := cpu.pc + 7
          memory := memory } ∧
      (littleEndian (memory.read (cpu.pair .de) count) : Int) =
        operation.total (littleEndian lefts) (littleEndian rights) cpu.f.carry.toNat %
          (256 ^ count : Nat) ∧
      (f.carry = true ↔ operation.Carries (256 ^ count) (littleEndian lefts)
        (littleEndian rights) cpu.f.carry.toNat) ∧
      ((f.sign ^^ f.parity) = true ↔
        operation.total (signedLittleEndian lefts) (signedLittleEndian rights)
          cpu.f.carry.toNat < 0) ∧
      ∀ address, (∀ offset < count, address ≠ cpu.pair .de + UInt16.ofNat offset) →
        memory.load address = cpu.memory.load address := by
  obtain ⟨b, positive, most⟩ := eq_ofNat_loopCount counted
  have back : Word.displace (cpu.pc + 7) 0xf9 = cpu.pc := by
    have around : (0xf9 : UInt8).toInt8.toInt16.toUInt16 = 65529 := rfl
    rw [Word.displace, around]
    grind
  have atLoop : AtLoop [0x1a, operation.opcode] 0xf9 count cpu := ⟨b, code, back, clear, apart⟩
  have valid (bytes : List UInt8) : ∀ byte ∈ bytes, True := fun _ _ => trivial
  obtain ⟨a, memory, runs, -, value, carry, others⟩ :=
    atLoop.exists_total (combines_chained operation) operation.digitwise positive most atDE atHL
      (valid lefts) (valid rights)
  refine ⟨a, _, memory, runs, value, carry, ?sign, others⟩
  case sign =>
    have lengthDE := cpu.memory.length_read (cpu.pair .de) count
    have lengthHL := cpu.memory.length_read (cpu.pair .hl) count
    rw [atDE] at lengthDE
    rw [atHL] at lengthHL
    have some : lefts ≠ [] := List.ne_nil_of_length_pos (lengthDE ▸ positive)
    exact operation.negative_chain (lengthDE.trans lengthHL.symm) some cpu.f

/-! ## A sum around the end of memory -/

/-- A processor about to add 0x0100 at 0x8000 and a carry to 0x7fff, whose low byte is
the last of memory and whose high byte is the first. -/
def edgeAdder : Z80 :=
  { fresh with
    b := 2
    d := 0xff
    e := 0xff
    h := 0x80
    l := 0x00
    f := Flags.ofByte 0x01
    pc := 0x0100
    memory :=
      ((Memory.zeroed.storeAll 0x0100 [0x1a, 0x8e, 0x12, 0x23, 0x13, 0x10, 0xf9]).storeAll
        0xffff [0xff, 0x7f]).storeAll 0x8000 [0x00, 0x01] }

/-- The sum is 0x8100. Its sign flag is set because it overflows, not because the exact sum
is negative. -/
theorem loop_adds_or_subtracts_edgeAdder :
    ∃ a f memory,
      Runs 12 edgeAdder
        { edgeAdder with
          a := a
          f := f
          b := 0
          d := 0x00
          e := 0x01
          h := 0x80
          l := 0x02
          pc := 0x0107
          memory := memory } ∧
      (littleEndian (memory.read 0xffff 2) : Int) = 0x8100 ∧
      f.carry = false ∧ (f.sign ^^ f.parity) = false := by
  have code : edgeAdder.memory.read edgeAdder.pc 7 =
      [0x1a, Chained.addition.opcode, 0x12, 0x23, 0x13, 0x10, 0xf9] := by
    rw [edgeAdder, Memory.read_storeAll_outside _ _ _ _ _ (by decide) (by decide),
      Memory.read_storeAll_outside _ _ _ _ _ (by decide) (by decide)]
    exact Memory.read_storeAll _ _ _ (by decide)
  have atDE : edgeAdder.memory.read (edgeAdder.pair .de) 2 = [0xff, 0x7f] := by
    have outside : edgeAdder.memory.read (edgeAdder.pair .de) 2 = _ :=
      Memory.read_storeAll_outside _ _ _ _ _ (by decide) (by decide)
    rw [outside]
    exact Memory.read_storeAll _ _ _ (by decide)
  have atHL : edgeAdder.memory.read (edgeAdder.pair .hl) 2 = [0x00, 0x01] :=
    Memory.read_storeAll _ 0x8000 [0x00, 0x01] (by decide)
  obtain ⟨a, f, memory, runs, value, carry, sign, -⟩ :=
    loop_adds_or_subtracts .addition code rfl (by decide +kernel) (by decide +kernel) atDE atHL
  refine ⟨a, f, memory, runs, value, ?_, ?_⟩
  · rw [Bool.eq_false_iff, Ne, carry]
    decide +kernel
  · rw [Bool.eq_false_iff, Ne, sign]
    decide +kernel

end Cpm80.Z80
