import Cpm80.Host
import Cpm80.Proofs.Memory

/-!
Contract: what printing does to a console and to the host that owns it.

Owns:
- a device after bytes have been printed on it, and devices that never fail;
- the host after a system call: its console moves, and nothing else does where
  the console never fails;
- the bytes that a system call asks for, with a string as a run of memory cut at
  its terminator;
- the addresses at which the search for that terminator looks.

Does not own: which instruction makes a system call.
-/

namespace Cpm80

/-! ## Devices -/

namespace Console

variable {Device : Type} [Console Device]

/-- A device after bytes have been printed on it, each flushed if it was taken. A
refused byte does not keep the next one back. -/
def printAll (device : Device) (bytes : List UInt8) : Device :=
  bytes.foldl (fun device byte => (print device byte).2) device

@[simp]
theorem printAll_nil (device : Device) : printAll device [] = device :=
  rfl

theorem printAll_cons (device : Device) (byte : UInt8) (bytes : List UInt8) :
    printAll device (byte :: bytes) = printAll (print device byte).2 bytes :=
  rfl

theorem printAll_append (device : Device) (first second : List UInt8) :
    printAll device (first ++ second) = printAll (printAll device first) second :=
  List.foldl_append

/-- A device that never fails: whatever has been printed on it, the next byte is
taken and passed on. -/
def Reliable (device : Device) : Prop :=
  ∀ bytes byte, (print (printAll device bytes) byte).1 = none

theorem Reliable.print_fst {device : Device} (reliable : Reliable device) (byte : UInt8) :
    (print device byte).1 = none :=
  reliable [] byte

/-- A device that never fails does not start to fail later. -/
theorem Reliable.printAll {device : Device} (reliable : Reliable device) (bytes : List UInt8) :
    Reliable (printAll device bytes) := by
  intro further byte
  rw [← printAll_append]
  exact reliable (bytes ++ further) byte

end Console

namespace Transcript

theorem print_eq (transcript : Transcript) (byte : UInt8) :
    Console.print transcript byte = (none, ⟨transcript.bytes.push byte⟩) :=
  rfl

theorem reliable (transcript : Transcript) : Console.Reliable transcript :=
  fun _ _ => rfl

theorem toList_printAll (transcript : Transcript) (bytes : List UInt8) :
    (Console.printAll transcript bytes).bytes.toList = transcript.bytes.toList ++ bytes := by
  induction bytes generalizing transcript with
  | nil => simp
  | cons byte bytes inductionHypothesis =>
    rw [Console.printAll_cons, print_eq, inductionHypothesis]
    simp

end Transcript

/-! ## Hosts -/

namespace Host

variable {Device : Type} [Console Device]

theorem emit_console (host : Host Device) (byte : UInt8) :
    (host.emit byte).console = (Console.print host.console (Ascii.shown byte)).2 :=
  rfl

theorem emit_fault (host : Host Device) (byte : UInt8) :
    (host.emit byte).fault =
      host.fault.or (Console.print host.console (Ascii.shown byte)).1 :=
  rfl

theorem foldl_emit_console (host : Host Device) (bytes : List UInt8) :
    (bytes.foldl emit host).console =
      Console.printAll host.console (bytes.map Ascii.shown) := by
  induction bytes generalizing host with
  | nil => rfl
  | cons byte bytes inductionHypothesis =>
    rw [List.foldl_cons, inductionHypothesis, emit_console, List.map_cons, Console.printAll_cons]

theorem foldl_emit_halted (host : Host Device) (bytes : List UInt8) :
    (bytes.foldl emit host).halted = host.halted := by
  induction bytes generalizing host with
  | nil => rfl
  | cons byte bytes inductionHypothesis =>
    rw [List.foldl_cons, inductionHypothesis]
    rfl

theorem foldl_emit_fault (host : Host Device) (bytes : List UInt8)
    (reliable : Console.Reliable host.console) :
    (bytes.foldl emit host).fault = host.fault := by
  induction bytes generalizing host with
  | nil => rfl
  | cons byte bytes inductionHypothesis =>
    have taken := reliable.print_fst (Ascii.shown byte)
    rw [List.foldl_cons, inductionHypothesis _ (reliable.printAll [Ascii.shown byte]), emit_fault,
      taken, Option.or_none]

/-- A host whose console never fails has printed, and has changed in nothing else. -/
theorem foldl_emit_reliable (host : Host Device) (bytes : List UInt8)
    (reliable : Console.Reliable host.console) :
    bytes.foldl emit host =
      { host with console := Console.printAll host.console (bytes.map Ascii.shown) } := by
  have console := host.foldl_emit_console bytes
  have halted := host.foldl_emit_halted bytes
  have fault := host.foldl_emit_fault bytes reliable
  cases printed : bytes.foldl emit host with
  | mk newConsole newHalted newFault =>
    rw [printed] at console halted fault
    subst console halted fault
    rfl

variable {Cpu : Type} [Processor Cpu]

theorem answer_console (cpu : Cpu) (host : Host Device) :
    (answer cpu host).2.console =
      Console.printAll host.console ((requested cpu).map Ascii.shown) :=
  host.foldl_emit_console (requested cpu)

theorem answer_halted (cpu : Cpu) (host : Host Device) :
    (answer cpu host).2.halted = host.halted :=
  host.foldl_emit_halted (requested cpu)

end Host

/-! ## Requests -/

/-- What a console shows of some bytes: those outside ASCII as spaces. -/
def Ascii.spaced (bytes : List UInt8) : List UInt8 :=
  bytes.map fun byte => if byte < 0x80 then byte else 0x20

theorem Ascii.spaced_append (first second : List UInt8) :
    spaced (first ++ second) = spaced first ++ spaced second :=
  List.map_append

theorem Ascii.map_shown (bytes : List UInt8) : bytes.map shown = spaced bytes :=
  List.map_congr_left fun byte _ => shown_eq byte

/-- The string at an address: the bytes before the first dollar sign, a hundred at most. -/
def Memory.string (memory : Memory) (address : UInt16) : List UInt8 :=
  (memory.read address 100).takeWhile (· != 0x24)

/-- A string is a run of bytes cut where the terminator first occurs. -/
theorem stringAt_eq_takeWhile (load : UInt16 → UInt8) (address : UInt16) (limit : Nat) :
    stringAt load address limit =
      ((List.range limit).map fun offset => load (address + UInt16.ofNat offset)).takeWhile
        (· != stringTerminator) := by
  induction limit generalizing address with
  | zero => rfl
  | succ limit inductionHypothesis =>
    rw [map_load_range_succ, List.takeWhile_cons, stringAt, inductionHypothesis]
    by_cases ends : load address = stringTerminator
    · simp [ends]
    · simp [ends]

/-- A string that stands in memory with a dollar sign behind it. -/
theorem Memory.string_eq_of_read {memory : Memory} {address : UInt16} {bytes : List UInt8}
    (stands : memory.read address (bytes.length + 1) = bytes ++ [0x24])
    (plain : 0x24 ∉ bytes) (short : bytes.length < 100) :
    memory.string address = bytes := by
  obtain ⟨further, enough⟩ : ∃ further, 100 = bytes.length + 1 + further :=
    ⟨100 - (bytes.length + 1), by omega⟩
  have passes : ∀ byte ∈ bytes, (byte != 0x24) = true := by
    intro byte member
    rw [bne_iff_ne]
    rintro rfl
    exact plain member
  rw [string, enough, read_add, stands, List.append_assoc, List.takeWhile_append_of_pos passes]
  simp

/-- Whether a search for the terminator that starts at an address, and gives up after
so many bytes, comes to look at a target. -/
def Memory.Scans (memory : Memory) (address : UInt16) (limit : Nat) (target : UInt16) : Prop :=
  ∃ offset < limit, target = address + UInt16.ofNat offset ∧
    ∀ earlier < offset, memory.load (address + UInt16.ofNat earlier) ≠ 0x24

theorem Memory.Scans.succ {memory : Memory} {address target : UInt16} {limit : Nat}
    (goesOn : memory.load address ≠ 0x24) (scans : memory.Scans (address + 1) limit target) :
    memory.Scans address (limit + 1) target := by
  obtain ⟨offset, below, rfl, notBefore⟩ := scans
  refine ⟨offset + 1, by omega, (add_ofNat_succ address offset).symm, ?_⟩
  intro earlier before
  cases earlier with
  | zero => simpa using goesOn
  | succ earlier =>
    rw [add_ofNat_succ]
    exact notBefore earlier (by omega)

/-- The string at an address depends on no byte but those that the search looks at. -/
theorem Memory.takeWhile_read_congr {left right : Memory} {address : UInt16} {limit : Nat}
    (agree : ∀ target, left.Scans address limit target → left.load target = right.load target) :
    (left.read address limit).takeWhile (· != 0x24) =
      (right.read address limit).takeWhile (· != 0x24) := by
  induction limit generalizing address with
  | zero => rfl
  | succ limit inductionHypothesis =>
    have first : left.load address = right.load address :=
      agree address ⟨0, by omega, (UInt16.add_zero address).symm, by simp⟩
    rw [read_succ, read_succ, List.takeWhile_cons, List.takeWhile_cons, ← first]
    by_cases ends : left.load address = 0x24
    · simp [ends]
    · have rest := inductionHypothesis fun target scans => agree target (scans.succ ends)
      rw [rest]

/-- What the system call of a Z80 asks to print: the character in E for function 2, the
string at DE for function 9, and nothing for any other. -/
theorem Z80.requested_eq (cpu : Z80) :
    requested cpu =
      if cpu.c = 2 then [cpu.e]
      else if cpu.c = 9 then cpu.memory.string (cpu.pair .de)
      else [] := by
  have string : stringAt (Processor.load cpu) (Processor.pair cpu .de) maxStringLength =
      cpu.memory.string (cpu.pair .de) :=
    stringAt_eq_takeWhile cpu.memory.load (cpu.pair .de) maxStringLength
  unfold requested
  rw [string]
  rfl

/-- What the console shows of the system call of a Z80. -/
def Z80.systemOutput (cpu : Z80) : List UInt8 :=
  Ascii.spaced
    (if cpu.c = 2 then [cpu.e]
    else if cpu.c = 9 then cpu.memory.string (cpu.pair .de)
    else [])

theorem Z80.systemOutput_character {cpu : Z80} (function : cpu.c = 2) :
    cpu.systemOutput = Ascii.spaced [cpu.e] := by
  rw [systemOutput, if_pos function]

theorem Z80.systemOutput_string {cpu : Z80} (function : cpu.c = 9) :
    cpu.systemOutput = Ascii.spaced (cpu.memory.string (cpu.pair .de)) := by
  have other : cpu.c ≠ 2 := by
    rw [function]
    decide
  rw [systemOutput, if_neg other, if_pos function]

theorem Z80.map_shown_requested (cpu : Z80) :
    (requested cpu).map Ascii.shown = cpu.systemOutput := by
  rw [Ascii.map_shown, requested_eq]
  rfl

end Cpm80
