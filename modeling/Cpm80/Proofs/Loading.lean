import Cpm80.Proofs.Stepping
import Cpm80.Run

/-!
Contract: the machine with which the run of an image begins.

Owns:
- memory with an image and both traps in place, read run by run;
- a Z80 with an image that fits, and the machine around it;
- the run of an image as the run of that machine.

Does not own: images that do not fit.
-/

namespace Cpm80

/-! ## Memory -/

namespace Memory

/-- Memory with an image at the origin, and with the traps written over it. -/
def withImage (memory : Memory) (image : Image) : Memory :=
  ((memory.storeAll Image.origin image).storeAll Image.haltTrap
    Image.haltTrapCode).storeAll Image.systemTrap Image.systemTrapCode

variable (memory : Memory) (image : Image)

theorem read_withImage_systemTrap :
    (memory.withImage image).read Image.systemTrap 3 = Image.systemTrapCode :=
  read_storeAll _ Image.systemTrap Image.systemTrapCode (by decide)

theorem read_withImage_haltTrap :
    (memory.withImage image).read Image.haltTrap 2 = Image.haltTrapCode := by
  unfold withImage
  rw [read_storeAll_outside]
  · exact read_storeAll _ Image.haltTrap Image.haltTrapCode (by decide)
  · decide
  · decide

/-- The traps lie below the origin, and an image that fits does not come around to
them. -/
theorem read_withImage_origin (fits : image.length ≤ Image.capacity) :
    (memory.withImage image).read Image.origin image.length = image := by
  have inSpace : Image.origin.toNat + image.length ≤ addressSpace := by
    unfold Image.capacity at fits
    exact Nat.add_le_of_le_sub' (by decide) fits
  have above : ∀ offset < image.length, ∀ trap : UInt16, trap.toNat + 3 ≤ Image.origin.toNat →
      3 ≤ (Image.origin + UInt16.ofNat offset - trap).toNat := by
    intro offset below trap low
    have position : (Image.origin + UInt16.ofNat offset).toNat = Image.origin.toNat + offset :=
      toNat_add_ofNat (by omega)
    have ordered : trap ≤ Image.origin + UInt16.ofNat offset := by
      rw [UInt16.le_iff_toNat_le, position]
      omega
    rw [UInt16.toNat_sub_of_le _ _ ordered, position]
    omega
  unfold withImage
  rw [read_storeAll_outside, read_storeAll_outside]
  · exact read_storeAll _ Image.origin image (by omega)
  · decide
  · intro offset below
    exact Nat.le_of_succ_le (above offset below Image.haltTrap (by decide))
  · decide
  · intro offset below
    exact above offset below Image.systemTrap (by decide)

end Memory

/-! ## Processors -/

/-- Loading an image that fits writes memory and goes to the origin. -/
theorem Image.load_of_fits {image : Image} (fits : image.length ≤ capacity) (cpu : Z80) :
    image.load cpu =
      .ok { cpu with pc := origin, memory := cpu.memory.withImage image } := by
  unfold load patch
  rw [if_neg (Nat.not_lt.mpr fits), Z80.storeAll_eq, Z80.storeAll_eq, Z80.storeAll_eq]
  rfl

/-! ## Machines -/

namespace Machine

variable {Device : Type} {image : Image}

theorem loaded_fresh (fits : image.length ≤ Image.capacity) (console : Device) :
    loaded Z80.fresh image console =
      { cpu :=
          { Z80.fresh with pc := Image.origin, memory := Memory.zeroed.withImage image }
        host := Host.ofConsole console
        instructions := 0 } := by
  rw [loaded_eq, Image.load_of_fits fits]
  rfl

variable [Console Device] {console : Device}

theorem Ready.loaded (reliable : Console.Reliable console) (image : Image) :
    (loaded Z80.fresh image console).Ready := by
  rw [loaded_eq]
  exact ⟨rfl, rfl, reliable⟩

end Machine

/-! ## Runs -/

/-- An image that fits is run by the machine that is loaded with it. -/
theorem Run.ofImage_eq {Device : Type} [Console Device] {image : Image}
    (fits : image.length ≤ Image.capacity) (limit : Nat) (name : String) (console : Device)
    (clockHz : Nat) :
    ofImage limit name image console clockHz =
      (((Machine.loaded Z80.fresh image console).run limit).1.map
          fun instructions => ⟨name, instructions, clockHz, .zero⟩,
        ((Machine.loaded Z80.fresh image console).run limit).2.host.console) := by
  have accepted : ((Machine.assemble Z80.fresh console).load image).1 = none := by
    unfold Machine.load
    rw [Image.load_of_fits fits]
  unfold ofImage Machine.loaded
  cases loads : (Machine.assemble Z80.fresh console).load image with
  | mk refused machine =>
    rw [loads] at accepted
    subst accepted
    rfl

end Cpm80
