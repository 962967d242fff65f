/-
**The base address registers of a device: `pci_size_bars`.**

The size of the range that a base address register (BAR) decodes is found by a probe: ones are written to the register, the
bits that stay zero give the size, and the register is written back. Decoding is switched off for the time of it, in the
command register. A 64-bit register takes two slots, of which the second is passed over.

* `sizeBar_restored` — a slot is left as it was found, whatever it is;
* `pciSizeBars_restores` — the configuration space is as before, and while a slot held a probe the device decoded nothing.
-/

import PeachOS.Pci.Config

namespace PeachOS

open ByteStore

/-! ### Constants -/

/-- `PCI_HEADER_COMMAND_OFFSET`. -/
abbrev pciHeaderCommandOffset : BitVec 8 := 0x04

/-- `PCI_HEADER_HEADER_TYPE_OFFSET`. -/
abbrev pciHeaderHeaderTypeOffset : BitVec 8 := 0x0E

/-- `PCI_HEADER_BAR0_OFFSET`. -/
abbrev pciHeaderBar0Offset : BitVec 8 := 0x10

/-- `PCI_DEVICE_IO_MEMORY` and `PCI_DEVICE_IO_PORT`. -/
inductive PciBarType where
  | ioMemory
  | ioPort
deriving DecidableEq

/-- `PCI_DEVICE_BAR_FLAG_64BIT`. -/
def pciDeviceBarFlag64bit : BitVec 32 := 0x01

/-- `PCI_DEVICE_BAR_FLAG_IS_EXT`. -/
def pciDeviceBarFlagIsExt : BitVec 32 := 0x02

/-- `PCI_DEVICE_BAR_FLAG_PREFETCHABLE`. -/
def pciDeviceBarFlagPrefetchable : BitVec 32 := 0x04

/-- `struct pci_device_bar`. -/
structure PciDeviceBar where
  type : PciBarType
  flags : BitVec 32
  addr : BitVec 64
  size : BitVec 64
deriving DecidableEq

/-! ### Sizing -/

/-- Sizing in progress: the registers, how they were after each write, the latest first, and what is recorded of the slots. -/
structure BarSizing where
  space : ConfigSpace
  history : List ConfigSpace
  bars : Nat → PciDeviceBar

namespace BarSizing

/-- A write of 32 bits. -/
def writeDword (σ : BarSizing) (fn : PciAddress) (off : BitVec 8) (value : BitVec 32) : BarSizing :=
  let space := pciCfgWriteDword σ.space fn off value
  { σ with space := space, history := space :: σ.history }

/-- A write of a word. -/
def writeWord (σ : BarSizing) (fn : PciAddress) (off : BitVec 8) (value : BitVec 16) : BarSizing :=
  let space := pciCfgWriteWord σ.space fn off value
  { σ with space := space, history := space :: σ.history }

/-- What is recorded of a slot. -/
def record (σ : BarSizing) (i : Nat) (bar : PciDeviceBar) : BarSizing := { σ with bars := put σ.bars i bar }

@[simp] theorem record_same (σ : BarSizing) (i : Nat) (bar : PciDeviceBar) : (σ.record i bar).bars i = bar := put_same _ _ _

theorem record_other (σ : BarSizing) {i j : Nat} (different : j ≠ i) (bar : PciDeviceBar) :
    (σ.record i bar).bars j = σ.bars j := put_other _ different _

/-- The offset of a slot. -/
def offset (i : Nat) : BitVec 8 := pciHeaderBar0Offset + .ofNat 8 (i * 4)

/-- The probe of a slot of 32 bits, whose lowest bits are not part of the size. The size is the complement of the mask in
64 bits. -/
def sizeNarrow (σ : BarSizing) (fn : PciAddress) (i : Nat) (bar : PciDeviceBar) (lowBits : BitVec 32) : BarSizing :=
  let off := offset i
  let loOrig := pciCfgReadDword σ.space fn off
  let base := loOrig &&& ~~~lowBits
  let σ := σ.writeDword fn off 0xFFFFFFFF
  let szv := pciCfgReadDword σ.space fn off
  let σ := σ.writeDword fn off loOrig
  let masked := szv &&& ~~~lowBits
  if masked = 0 then σ.record i bar
  else σ.record i { bar with addr := base.setWidth 64, size := ~~~(masked.setWidth 64) + 1 }

/-- The probe of two slots that are one register of 64 bits. -/
def sizeWide (σ : BarSizing) (fn : PciAddress) (i : Nat) (bar : PciDeviceBar) : BarSizing :=
  let off := offset i
  let loOrig := pciCfgReadDword σ.space fn off
  let hiOrig := pciCfgReadDword σ.space fn (off + 4)
  let σ := σ.writeDword fn off 0xFFFFFFFF
  let σ := σ.writeDword fn (off + 4) 0xFFFFFFFF
  let loSz := pciCfgReadDword σ.space fn off
  let hiSz := pciCfgReadDword σ.space fn (off + 4)
  let σ := σ.writeDword fn off loOrig
  let σ := σ.writeDword fn (off + 4) hiOrig
  let base64 := (hiOrig.setWidth 64 <<< 32) ||| (loOrig &&& ~~~0xF#32).setWidth 64
  let mask64 := (hiSz.setWidth 64 <<< 32) ||| (loSz &&& ~~~0xF#32).setWidth 64
  let wide := if mask64 = 0 then bar
    else { bar with addr := base64, size := ~~~mask64 + 1, flags := bar.flags ||| pciDeviceBarFlag64bit }
  (σ.record i wide).record (i + 1) ⟨bar.type, pciDeviceBarFlagIsExt, base64 >>> 32, 0⟩

/-- One turn of the loop of `pci_size_bars`, and how many slots it has gone through. -/
def sizeBar (σ : BarSizing) (fn : PciAddress) (barCount i : Nat) : BarSizing × Nat :=
  let loOrig := pciCfgReadDword σ.space fn (offset i)
  let isIo := loOrig &&& 0x1#32 ≠ 0
  let bar : PciDeviceBar := {
    type := if isIo then .ioPort else .ioMemory
    flags := if ¬ isIo ∧ loOrig &&& 0x8#32 ≠ 0 then pciDeviceBarFlagPrefetchable else 0
    addr := 0
    size := 0 }
  if isIo then (σ.sizeNarrow fn i bar 0x3, 1)
  else
    let typeBits := (loOrig >>> 1) &&& 0x3#32
    let is64 := typeBits = 0x2
    if is64 ∧ i + 1 < barCount then (σ.sizeWide fn i bar, 2)
    else (σ.sizeNarrow fn i bar 0xF, 1)

/-- The loop of `pci_size_bars`. A turn goes through one slot at least, and so there are not more turns than slots. -/
def sizeBars (fn : PciAddress) (barCount : Nat) : Nat → Nat → BarSizing → BarSizing
  | 0, _, σ => σ
  | turns + 1, i, σ =>
      if i < barCount then
        let (σ, slots) := σ.sizeBar fn barCount i
        sizeBars fn barCount turns (i + slots) σ
      else σ

end BarSizing

/-- How many slots a device has, by its header: six, two, or none. -/
def pciBarCount (hdr : BitVec 8) : Nat := if hdr = 0x00 then 6 else if hdr = 0x01 then 2 else 0

/-- `pci_size_bars`. -/
def pciSizeBars (space : ConfigSpace) (fn : PciAddress) (bars : Nat → PciDeviceBar) : BarSizing :=
  let hdr := pciCfgReadByte space fn pciHeaderHeaderTypeOffset &&& 0x7F
  let barCount := pciBarCount hdr
  let cmdOrig := pciCfgReadWord space fn pciHeaderCommandOffset
  let σ : BarSizing := ⟨space, [], bars⟩
  let σ := σ.writeWord fn pciHeaderCommandOffset (cmdOrig &&& ~~~0x0007#16)
  let σ := BarSizing.sizeBars fn barCount barCount 0 σ
  σ.writeWord fn pciHeaderCommandOffset cmdOrig

/-! ### Restoring -/

namespace BarSizing

variable {σ σ' : BarSizing} {fn : PciAddress}

/-- The command register. -/
def command (space : ConfigSpace) (fn : PciAddress) : PciRegister :=
  space (pciCfgAddrLegacy fn (pciHeaderCommandOffset &&& ~~~0x3#8))

/-- The register of a slot. -/
def slot (space : ConfigSpace) (fn : PciAddress) (i : Nat) : PciRegister :=
  space (pciCfgAddrLegacy fn (offset i &&& ~~~0x3#8))

/-- A slot is not the command register, and the next slot is another one. -/
theorem offset_facts : ∀ i : Fin 6, pciHeaderCommandOffset &&& ~~~0x3#8 ≠ offset i &&& ~~~0x3#8 ∧
    offset i + 4 = offset (i + 1) ∧ offset (i + 1) &&& ~~~0x3#8 ≠ offset i &&& ~~~0x3#8 := by decide

/-- **The space is as it was**, and in between the command register did not change. -/
structure Restored (fn : PciAddress) (σ σ' : BarSizing) : Prop where
  space : σ'.space = σ.space
  history : ∀ space ∈ σ'.history, space ∈ σ.history ∨ command space fn = command σ.space fn

theorem Restored.refl (σ : BarSizing) : Restored fn σ σ := ⟨rfl, fun _ isIn => Or.inl isIn⟩

theorem Restored.trans {σ'' : BarSizing} (first : Restored fn σ σ') (second : Restored fn σ' σ'') : Restored fn σ σ'' := by
  refine ⟨second.space.trans first.space, fun space isIn => ?_⟩
  rcases second.history space isIn with before | same
  · exact first.history space before
  · exact Or.inr (same.trans (congrArg (command · fn) first.space))

/-- What is recorded does not matter. -/
theorem Restored.record (restored : Restored fn σ σ') (i : Nat) (bar : PciDeviceBar) : Restored fn σ (σ'.record i bar) :=
  ⟨restored.space, restored.history⟩

/-- A write to a slot does not change the command register. -/
theorem command_write (space : ConfigSpace) {i : Nat} (inside : i < 6) (value : BitVec 32) :
    command (pciCfgWriteDword space fn (offset i) value) fn = command space fn :=
  pciCfgWriteDword_other space (offset_facts ⟨i, inside⟩).1 value

/-- **The probe of a slot of 32 bits.** -/
theorem sizeNarrow_restored (σ : BarSizing) {i : Nat} (inside : i < 6) (bar : PciDeviceBar) (lowBits : BitVec 32) :
    Restored fn σ (σ.sizeNarrow fn i bar lowBits) := by
  have probed : Restored fn σ ((σ.writeDword fn (offset i) 0xFFFFFFFF).writeDword fn (offset i)
      (pciCfgReadDword σ.space fn (offset i))) := by
    refine ⟨pciCfgWriteDword_back σ.space _, fun space isIn => ?_⟩
    rcases List.mem_cons.mp isIn with rfl | isIn
    · exact Or.inr ((command_write _ inside _).trans (command_write _ inside _))
    · rcases List.mem_cons.mp isIn with rfl | isIn
      · exact Or.inr (command_write _ inside _)
      · exact Or.inl isIn
  unfold sizeNarrow
  dsimp only
  split
  · exact probed.record i _
  · exact probed.record i _

/-- **The probe of a register of 64 bits.** Its halves are written one after the other, and then written back. -/
theorem sizeWide_restored (σ : BarSizing) {i : Nat} (inside : i + 1 < 6) (bar : PciDeviceBar) :
    Restored fn σ (σ.sizeWide fn i bar) := by
  obtain ⟨-, next, different⟩ := offset_facts ⟨i, by omega⟩
  have next : offset i + 4 = offset (i + 1) := next
  have different : offset (i + 1) &&& ~~~0x3#8 ≠ offset i &&& ~~~0x3#8 := different
  have first : ∀ (space : ConfigSpace) (value : BitVec 32), _ := fun space value =>
    @command_write fn space i (by omega) value
  have second : ∀ (space : ConfigSpace) (value : BitVec 32), _ := fun space value =>
    @command_write fn space (i + 1) inside value
  refine Restored.record (Restored.record ?_ i _) (i + 1) _
  rw [next]
  refine ⟨?_, fun space isIn => ?_⟩
  · show pciCfgWriteDword (pciCfgWriteDword (pciCfgWriteDword (pciCfgWriteDword σ.space fn (offset i) _) fn (offset (i + 1)) _)
      fn (offset i) _) fn (offset (i + 1)) _ = σ.space
    rw [pciCfgWriteDword_comm _ different.symm, pciCfgWriteDword_back, pciCfgWriteDword_back]
  · rcases List.mem_cons.mp isIn with rfl | isIn
    · exact Or.inr ((second _ _).trans ((first _ _).trans ((second _ _).trans (first _ _))))
    · rcases List.mem_cons.mp isIn with rfl | isIn
      · exact Or.inr ((first _ _).trans ((second _ _).trans (first _ _)))
      · rcases List.mem_cons.mp isIn with rfl | isIn
        · exact Or.inr ((second _ _).trans (first _ _))
        · rcases List.mem_cons.mp isIn with rfl | isIn
          · exact Or.inr (first _ _)
          · exact Or.inl isIn

/-- **One turn of the loop**, whatever the slot is. -/
theorem sizeBar_restored (σ : BarSizing) {barCount i : Nat} (inside : i < barCount) (few : barCount ≤ 6) :
    Restored fn σ (σ.sizeBar fn barCount i).1 := by
  unfold sizeBar
  dsimp only
  split
  · exact sizeNarrow_restored σ (by omega) _ _
  · split
    · next both => exact sizeWide_restored σ (by omega) _
    · exact sizeNarrow_restored σ (by omega) _ _

/-- **The loop.** -/
theorem sizeBars_restored {barCount : Nat} (few : barCount ≤ 6) (turns i : Nat) (σ : BarSizing) :
    Restored fn σ (sizeBars fn barCount turns i σ) := by
  induction turns generalizing i σ with
  | zero => exact Restored.refl σ
  | succ turns ih =>
      unfold sizeBars
      split
      · next inside => exact (sizeBar_restored σ inside few).trans (ih _ _)
      · exact Restored.refl σ

end BarSizing

open BarSizing

theorem pciBarCount_le (hdr : BitVec 8) : pciBarCount hdr ≤ 6 := by
  unfold pciBarCount
  split
  · exact le_rfl
  · split <;> decide

/-- Bits 0 and 1 of the command register: the device decodes its I/O ranges, and its memory ranges. -/
def Decodes (space : ConfigSpace) (fn : PciAddress) : Prop := (command space fn).value &&& 0x3#32 ≠ 0

/-- **A slot holds a probe value**: another one than before. -/
def Probing (before space : ConfigSpace) (fn : PciAddress) : Prop := ∃ i < 6, slot space fn i ≠ slot before fn i

/-- A device's decoding is not wired on: its bits can be written, or are zero. -/
def DecodingSwitchable (space : ConfigSpace) (fn : PciAddress) : Prop :=
  (command space fn).value &&& ~~~(command space fn).writable &&& 0x3#32 = 0

/-- Bits 0 and 1 of a register that can be written, or are zero, are zero when zeros are written there. -/
theorem write_disabled {register : PciRegister} (switchable : register.value &&& ~~~register.writable &&& 0x3#32 = 0)
    (upper : BitVec 32) (lower : BitVec 16) :
    (register.write ((upper &&& 0xFFFF0000#32) ||| (lower &&& ~~~0x0007#16).setWidth 32)).value &&& 0x3#32 = 0 := by
  have lowerZero : (lower &&& ~~~0x0007#16).setWidth 32 &&& 0x3#32 = 0 := by
    rw [show (0x3#32) = (0x3#16).setWidth 32 from rfl, ← BitVec.setWidth_and, BitVec.and_assoc,
      show ~~~0x0007#16 &&& 0x3#16 = 0#16 from rfl, BitVec.and_zero]
    rfl
  have zero : ((upper &&& 0xFFFF0000#32) ||| (lower &&& ~~~0x0007#16).setWidth 32) &&& 0x3#32 = 0 := by
    rw [BitVec.and_or_distrib_right, lowerZero, BitVec.and_assoc, show 0xFFFF0000#32 &&& 0x3#32 = 0#32 from rfl,
      BitVec.and_zero]
    rfl
  unfold PciRegister.write
  rw [BitVec.and_or_distrib_right, switchable, BitVec.and_assoc, BitVec.and_comm register.writable, ← BitVec.and_assoc, zero,
    show (0 : BitVec 32) = 0#32 from rfl, BitVec.zero_and, BitVec.or_self]

/-- The command register after decoding and bus mastering were switched off. -/
theorem command_disabled {space : ConfigSpace} {fn : PciAddress} (switchable : DecodingSwitchable space fn) :
    ¬ Decodes (pciCfgWriteWord space fn pciHeaderCommandOffset
      (pciCfgReadWord space fn pciHeaderCommandOffset &&& ~~~0x0007#16)) fn := by
  have written : command (pciCfgWriteWord space fn pciHeaderCommandOffset
      (pciCfgReadWord space fn pciHeaderCommandOffset &&& ~~~0x0007#16)) fn = (command space fn).write _ :=
    Function.update_self _ _ _
  unfold Decodes
  rw [written, not_not]
  exact write_disabled switchable _ _

/-- The slots are probed after the command register was written. -/
theorem pciSizeBars_eq (space : ConfigSpace) (fn : PciAddress) (bars : Nat → PciDeviceBar) {quiet : ConfigSpace}
    (isQuiet : pciCfgWriteWord space fn pciHeaderCommandOffset
      (pciCfgReadWord space fn pciHeaderCommandOffset &&& ~~~0x0007#16) = quiet) :
    pciSizeBars space fn bars = BarSizing.writeWord (sizeBars fn
      (pciBarCount (pciCfgReadByte space fn pciHeaderHeaderTypeOffset &&& 0x7F))
      (pciBarCount (pciCfgReadByte space fn pciHeaderHeaderTypeOffset &&& 0x7F)) 0 ⟨quiet, [quiet], bars⟩) fn
      pciHeaderCommandOffset (pciCfgReadWord space fn pciHeaderCommandOffset) := by
  rw [← isQuiet]
  rfl

/-- **`pci_size_bars` leaves all registers of all devices as they were.** -/
theorem pciSizeBars_space (space : ConfigSpace) (fn : PciAddress) (bars : Nat → PciDeviceBar) :
    (pciSizeBars space fn bars).space = space := by
  generalize isQuiet : pciCfgWriteWord space fn pciHeaderCommandOffset
    (pciCfgReadWord space fn pciHeaderCommandOffset &&& ~~~0x0007#16) = quiet
  have loop := @sizeBars_restored fn (pciBarCount (pciCfgReadByte space fn pciHeaderHeaderTypeOffset &&& 0x7F))
    (pciBarCount_le _) (pciBarCount (pciCfgReadByte space fn pciHeaderHeaderTypeOffset &&& 0x7F)) 0 ⟨quiet, [quiet], bars⟩
  rw [pciSizeBars_eq space fn bars isQuiet]
  show pciCfgWriteWord (sizeBars _ _ _ _ _).space fn _ _ = space
  rw [loop.space, ← isQuiet]
  exact pciCfgWriteWord_back space (by decide) _

/-- The slots are as they were when they are probed. -/
theorem slot_quiet (space : ConfigSpace) {fn : PciAddress} {i : Nat} (inside : i < 6) (value : BitVec 16) :
    slot (pciCfgWriteWord space fn pciHeaderCommandOffset value) fn i = slot space fn i :=
  Function.update_of_ne (aligned_ne (offset_facts ⟨i, inside⟩).1.symm) _ _

/-- **`pci_size_bars` leaves all registers of all devices as they were, and while a slot holds a probe value the device decodes
nothing.** -/
theorem pciSizeBars_restores (space : ConfigSpace) (fn : PciAddress) (bars : Nat → PciDeviceBar)
    (switchable : DecodingSwitchable space fn) :
    (pciSizeBars space fn bars).space = space ∧
      ∀ during ∈ (pciSizeBars space fn bars).history, Probing space during fn → ¬ Decodes during fn := by
  have disabled := command_disabled switchable
  have back := pciSizeBars_space space fn bars
  refine ⟨back, fun during isIn probing => ?_⟩
  obtain ⟨i, inside, differs⟩ := probing
  have slotQuiet := @slot_quiet space fn i inside (pciCfgReadWord space fn pciHeaderCommandOffset &&& ~~~0x0007#16)
  -- The first write, and then the loop.
  generalize isQuiet : pciCfgWriteWord space fn pciHeaderCommandOffset
    (pciCfgReadWord space fn pciHeaderCommandOffset &&& ~~~0x0007#16) = quiet at disabled slotQuiet
  have loop := @sizeBars_restored fn (pciBarCount (pciCfgReadByte space fn pciHeaderHeaderTypeOffset &&& 0x7F))
    (pciBarCount_le _) (pciBarCount (pciCfgReadByte space fn pciHeaderHeaderTypeOffset &&& 0x7F)) 0 ⟨quiet, [quiet], bars⟩
  rw [pciSizeBars_eq space fn bars isQuiet] at isIn back
  rcases List.mem_cons.mp isIn with rfl | isIn
  · -- The last write is that of the command register.
    exact absurd (congrArg (slot · fn i) back) differs
  · rcases loop.history during isIn with first | same
    · rw [List.mem_singleton.mp first] at differs
      exact absurd slotQuiet differs
    · unfold Decodes
      rw [same]
      exact disabled

/-! ### A device -/

/-- A device with a memory register of 32 bits that decodes 128 kilobytes, one of 64 bits that decodes 16 kilobytes, and
an I/O register that decodes 32 ports. Its command register has the three bits. -/
def smallDevice : PciAddress := ⟨0, 3, 0⟩

def smallSpace : ConfigSpace := fun address =>
  if address = pciCfgAddrLegacy smallDevice 0x04 then ⟨0x00100007, 0x00000007⟩
  else if address = pciCfgAddrLegacy smallDevice 0x10 then ⟨0xFEB80000, 0xFFFE0000⟩
  else if address = pciCfgAddrLegacy smallDevice 0x14 then ⟨0xFE000004, 0xFFFFC000⟩
  else if address = pciCfgAddrLegacy smallDevice 0x18 then ⟨0x00000008, 0xFFFFFFFF⟩
  else if address = pciCfgAddrLegacy smallDevice 0x1C then ⟨0x0000C041, 0xFFFFFFE0⟩
  else ⟨0, 0⟩

/-- Nothing recorded. -/
def noBars : Nat → PciDeviceBar := fun _ => ⟨.ioMemory, 0, 0, 0⟩

/-- **The small device is sized and left as it was.** -/
theorem pciSizeBars_restores_small : (pciSizeBars smallSpace smallDevice noBars).space = smallSpace ∧
    ∀ during ∈ (pciSizeBars smallSpace smallDevice noBars).history, Probing smallSpace during smallDevice →
      ¬ Decodes during smallDevice :=
  pciSizeBars_restores smallSpace smallDevice noBars (by unfold DecodingSwitchable; decide)

end PeachOS
