import Cpm80.Proofs.Loading

/-!
Contract: what loading an image does to a Z80 in any state, address by address.

Owns:
- memory after an image has been placed in it: the image, the traps over it, and every
  other byte as it was, above the image too;
- loading as an all or nothing: an image that fits is placed and changes no register but
  the program counter, one that does not fit changes nothing and starts nothing.

Does not own: what a loaded program does.
-/

namespace Cpm80

namespace Memory

/-- Memory before and after an image has been placed in it. The image does not come around
to the first page, in which nothing but the traps is written. -/
structure Places (before : Memory) (image : Image) (after : Memory) : Prop where
  placed : ∀ (offset : Nat) (inside : offset < image.length),
    after.load (0x0100 + UInt16.ofNat offset) = image[offset]
  haltTrap : after.load 0 = 0xd3 ∧ after.load 1 = 0x00
  systemTrap : after.load 5 = 0xdb ∧ after.load 6 = 0x00 ∧ after.load 7 = 0xc9
  kept : ∀ address, address ∉ [0, 1, 5, 6, 7] →
    address.toNat < 0x0100 ∨ 0x0100 + image.length ≤ address.toNat →
      after.load address = before.load address

theorem places_withImage (memory : Memory) {image : Image}
    (fits : image.length ≤ Image.capacity) : memory.Places image (memory.withImage image) where
  placed offset inside := load_of_read (memory.read_withImage_origin image fits) inside
  haltTrap := by
    have code := memory.read_withImage_haltTrap image
    simp only [Image.haltTrapCode, read_succ_eq_cons] at code
    exact ⟨code.1, code.2.1⟩
  systemTrap := by
    have code := memory.read_withImage_systemTrap image
    simp only [Image.systemTrapCode, read_succ_eq_cons] at code
    exact ⟨code.1, code.2.1, code.2.2.1⟩
  kept := by
    intro address untrapped elsewhere
    have inSpace : 0x0100 + image.length ≤ addressSpace := Nat.add_le_of_le_sub' (by decide) fits
    have offImage : ∀ offset < image.length, address ≠ Image.origin + UInt16.ofNat offset := by
      rintro offset inside rfl
      have position : (Image.origin + UInt16.ofNat offset).toNat = 0x0100 + offset :=
        toNat_add_ofNat (Nat.lt_of_lt_of_le (Nat.add_lt_add_left inside _) inSpace)
      omega
    have offHaltTrap : ∀ offset < Image.haltTrapCode.length,
        address ≠ Image.haltTrap + UInt16.ofNat offset := by
      have trapped : ∀ offset < Image.haltTrapCode.length,
          Image.haltTrap + UInt16.ofNat offset ∈ [0, 1, 5, 6, 7] := by decide
      rintro offset inside rfl
      exact untrapped (trapped offset inside)
    have offSystemTrap : ∀ offset < Image.systemTrapCode.length,
        address ≠ Image.systemTrap + UInt16.ofNat offset := by
      have trapped : ∀ offset < Image.systemTrapCode.length,
          Image.systemTrap + UInt16.ofNat offset ∈ [0, 1, 5, 6, 7] := by decide
      rintro offset inside rfl
      exact untrapped (trapped offset inside)
    unfold withImage
    rw [load_storeAll_of_ne _ (by decide) offSystemTrap,
      load_storeAll_of_ne _ (by decide) offHaltTrap,
      load_storeAll_of_ne _ (Nat.le_of_add_left_le inSpace) offImage]

end Memory

/-- An image that does not fit is refused before anything is done. -/
theorem Image.load_of_tooLarge {image : Image} (large : capacity < image.length) (cpu : Z80) :
    image.load cpu = .error (.tooLarge image.length) := by
  unfold load
  rw [if_pos large]

theorem Machine.load_of_tooLarge {Device : Type} {image : Image}
    (large : Image.capacity < image.length) (machine : Machine Z80 Device) :
    machine.load image = (some (.tooLarge image.length), machine) := by
  unfold load
  rw [Image.load_of_tooLarge large]

/-- Loading into a Z80 in any state. Up to the capacity of memory an image is placed, and
no register but the program counter moves. A longer one leaves the machine around the Z80 as
it was, and its run gives the console back as it was given, for any kind of console. -/
theorem Image.load_all_or_nothing (image : Image) (cpu : Z80) :
    (image.length ≤ 0xff00 →
      ∃ memory, image.load cpu = .ok { cpu with pc := 0x0100, memory := memory } ∧
        cpu.memory.Places image memory) ∧
    (0xff00 < image.length →
      image.load cpu = .error (.tooLarge image.length) ∧
        ∀ {Device : Type} [Console Device] (console : Device),
          (∀ host instructions, (Machine.mk cpu host instructions).load image =
            (some (.tooLarge image.length), Machine.mk cpu (host : Host Device) instructions)) ∧
          ∀ limit name clockHz, Run.ofImage limit name image console clockHz =
            (.failed (.load (.tooLarge image.length)), console)) := by
  constructor
  case left =>
    intro fits
    exact ⟨_, load_of_fits fits cpu, cpu.memory.places_withImage fits⟩
  case right =>
    intro large
    refine ⟨load_of_tooLarge large cpu, fun console => ⟨?machine, ?run⟩⟩
    case machine => exact fun host instructions => Machine.load_of_tooLarge large _
    case run =>
      intro limit name clockHz
      unfold Run.ofImage
      rw [Machine.load_of_tooLarge large]
      rfl

/-- The longest image that fits ends at the highest address and leaves the bytes between the
traps. One more byte is refused. -/
theorem Image.load_all_or_nothing_longest :
    (∃ memory,
      Image.load (List.replicate 0xff00 0x76) (Z80.powerOn (Memory.zeroed.store 0x0002 0x55)) =
        .ok { Z80.powerOn memory with pc := 0x0100 } ∧
      memory.load 0xffff = 0x76 ∧ memory.load 0x0001 = 0x00 ∧ memory.load 0x0002 = 0x55) ∧
    Run.ofImage 0 "long" (List.replicate 0xff01 0x76) Transcript.empty 0 =
      (.failed (.load (.tooLarge 0xff01)), Transcript.empty) := by
  constructor
  case left =>
    have length : (List.replicate 0xff00 0x76 : Image).length = 0xff00 := List.length_replicate
    obtain ⟨memory, loads, places⟩ := (load_all_or_nothing (List.replicate 0xff00 0x76)
      (Z80.powerOn (Memory.zeroed.store 0x0002 0x55))).1 (Nat.le_of_eq length)
    refine ⟨memory, loads, ?last, places.haltTrap.2, ?between⟩
    case last =>
      have last := places.placed 0xfeff (by rw [length]; decide)
      rwa [List.getElem_replicate] at last
    case between =>
      rw [places.kept 0x0002 (by decide) (.inl (by decide))]
      exact Memory.load_store_same _ 0x0002 0x55
  case right =>
    have length : (List.replicate 0xff01 0x76 : Image).length = 0xff01 := List.length_replicate
    have refused := (load_all_or_nothing (List.replicate 0xff01 0x76) Z80.fresh).2
      (Nat.lt_of_lt_of_eq (by decide) length.symm)
    rw [length] at refused
    exact (refused.2 Transcript.empty).2 0 "long" 0

end Cpm80
