import Cpm80.Proofs.ByteLoop
import Cpm80.Proofs.DecimalArithmetic

/-!
Contract: addition and subtraction of packed decimal numbers of many bytes by machine
code.

Owns:
- the loop of ADC A,(HL) or SBC A,(HL) with DAA behind it: the digits that it leaves,
  and its carry;
- a difference that runs below zero, around the end of memory.

Does not own: loops over bytes in general; what decimal adjustment does to a byte.
-/

namespace Cpm80

theorem Instruction.decode_decimalAdjust : decode 0x27 = .internal (.adjust .decimal) := by
  rw [decode_eq]
  rfl

namespace Z80

open Processor (Runs)

theorem combines_chainedDecimal (operation : Chained) :
    Combines [0x1a, operation.opcode, 0x27] 3 operation.combineDecimal := by
  intro cpu holds
  simp only [List.length_cons, List.length_nil, Memory.read_succ_eq_cons] at holds
  obtain ⟨first, second, third, -⟩ := holds
  have behind : cpu.pc + UInt16.ofNat 3 = cpu.pc + 1 + 1 + 1 := by
    rw [add_ofNat_succ]
    exact add_ofNat_succ (cpu.pc + 1) 1
  refine Runs.internal first Instruction.decode_loadAFromDE ?_
  refine Runs.internal second operation.decode_opcode ?_
  refine Runs.internal third Instruction.decode_decimalAdjust ?_
  simp only [execute, loadA, operand, operation.accumulate_accumulator, Arithmetic.adjust,
    Chained.combineDecimal, skip, load, pair, combined, setAccumulator, goTo,
    List.length_cons, List.length_nil, Nat.zero_add, Nat.reduceAdd, behind]
  exact Processor.Runs.done _

/-- Eight bytes of code add a packed decimal number of many bytes to another in memory,
or subtract it from the other, with the carry flag going in and coming out. -/
theorem loop_adds_or_subtracts_packed (operation : Chained) {cpu : Z80} {count : Nat}
    {lefts rights : List UInt8}
    (code : cpu.memory.read cpu.pc 8 =
      [0x1a, operation.opcode, 0x27, 0x12, 0x23, 0x13, 0x10, 0xf8])
    (counted : count = if cpu.b = 0 then 256 else cpu.b.toNat)
    (apart : Memory.Apart (cpu.pair .de) count (cpu.pair .hl) count)
    (clear : Memory.Apart (cpu.pair .de) count cpu.pc 8)
    (atDE : cpu.memory.read (cpu.pair .de) count = lefts)
    (atHL : cpu.memory.read (cpu.pair .hl) count = rights)
    (packedLefts : ∀ byte ∈ lefts, Packed byte) (packedRights : ∀ byte ∈ rights, Packed byte) :
    ∃ a f memory,
      Runs (7 * count) cpu
        { cpu with
          a := a
          f := f
          b := 0
          d := Word.high (cpu.pair .de + UInt16.ofNat count)
          e := Word.low (cpu.pair .de + UInt16.ofNat count)
          h := Word.high (cpu.pair .hl + UInt16.ofNat count)
          l := Word.low (cpu.pair .hl + UInt16.ofNat count)
          pc := cpu.pc + 8
          memory := memory } ∧
      (∀ byte ∈ memory.read (cpu.pair .de) count, Packed byte) ∧
      (packedLittleEndian (memory.read (cpu.pair .de) count) : Int) =
        operation.total (packedLittleEndian lefts) (packedLittleEndian rights)
          cpu.f.carry.toNat % (100 ^ count : Nat) ∧
      (f.carry = true ↔ operation.Carries (100 ^ count) (packedLittleEndian lefts)
        (packedLittleEndian rights) cpu.f.carry.toNat) ∧
      ∀ address, (∀ offset < count, address ≠ cpu.pair .de + UInt16.ofNat offset) →
        memory.load address = cpu.memory.load address := by
  obtain ⟨b, positive, most⟩ := eq_ofNat_loopCount counted
  have back : Word.displace (cpu.pc + 8) 0xf8 = cpu.pc := by
    have around : (0xf8 : UInt8).toInt8.toInt16.toUInt16 = 65528 := rfl
    rw [Word.displace, around]
    grind
  have atLoop : AtLoop [0x1a, operation.opcode, 0x27] 0xf8 count cpu :=
    ⟨b, code, back, clear, apart⟩
  obtain ⟨a, memory, runs, packed, value, carry, others⟩ :=
    atLoop.exists_total (combines_chainedDecimal operation) operation.digitwiseDecimal positive
      most atDE atHL packedLefts packedRights
  exact ⟨a, _, memory, runs, packed, value, carry, others⟩

/-! ## A difference below zero -/

/-- A processor about to subtract 1 at 0x8000 and a borrow from 1000, whose lower
digits are in the last byte of memory and whose upper digits are in the first. -/
def edgeSubtracter : Z80 :=
  { fresh with
    b := 2
    d := 0xff
    e := 0xff
    h := 0x80
    l := 0x00
    f := Flags.ofByte 0x01
    pc := 0x0100
    memory :=
      ((Memory.zeroed.storeAll 0x0100
          [0x1a, 0x9e, 0x27, 0x12, 0x23, 0x13, 0x10, 0xf8]).storeAll
        0xffff [0x00, 0x10]).storeAll 0x8000 [0x01, 0x20] }

/-- From 1000 are taken 2001 and one more: the digits left are those of 8998, with a
borrow. -/
theorem loop_adds_or_subtracts_packed_edgeSubtracter :
    ∃ a f memory,
      Runs 14 edgeSubtracter
        { edgeSubtracter with
          a := a
          f := f
          b := 0
          d := 0x00
          e := 0x01
          h := 0x80
          l := 0x02
          pc := 0x0108
          memory := memory } ∧
      (∀ byte ∈ memory.read 0xffff 2, Packed byte) ∧
      packedLittleEndian (memory.read 0xffff 2) = 8998 ∧ f.carry = true := by
  have code : edgeSubtracter.memory.read edgeSubtracter.pc 8 =
      [0x1a, Chained.subtraction.opcode, 0x27, 0x12, 0x23, 0x13, 0x10, 0xf8] := by
    rw [edgeSubtracter, Memory.read_storeAll_outside _ _ _ _ _ (by decide) (by decide),
      Memory.read_storeAll_outside _ _ _ _ _ (by decide) (by decide)]
    exact Memory.read_storeAll _ _ _ (by decide)
  have atDE : edgeSubtracter.memory.read (edgeSubtracter.pair .de) 2 = [0x00, 0x10] := by
    have outside : edgeSubtracter.memory.read (edgeSubtracter.pair .de) 2 = _ :=
      Memory.read_storeAll_outside _ _ _ _ _ (by decide) (by decide)
    rw [outside]
    exact Memory.read_storeAll _ _ _ (by decide)
  have atHL : edgeSubtracter.memory.read (edgeSubtracter.pair .hl) 2 = [0x01, 0x20] :=
    Memory.read_storeAll _ 0x8000 [0x01, 0x20] (by decide)
  obtain ⟨a, f, memory, runs, packed, value, carry, -⟩ :=
    loop_adds_or_subtracts_packed .subtraction code rfl (by decide +kernel) (by decide +kernel)
      atDE atHL (by simp [Packed]) (by simp [Packed])
  refine ⟨a, f, memory, runs, packed, ?_, ?_⟩
  · exact Int.ofNat_inj.1 value
  · rw [carry]
    decide +kernel

end Z80

end Cpm80
