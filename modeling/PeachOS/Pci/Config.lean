/-
**The configuration registers of PCI devices: `pci_cfg_read_*`, `pci_cfg_write_*`.**

Nothing in the kernel installs a range for `pci_ecam_cfg_ptr`, and so all accesses go by the ports: the address of a register
is written to the one, and its 32 bits are read from the other or written to it. Words and bytes are parts of these 32 bits; a
word is written by writing all 32 bits back.

A register keeps, in the bits that can be written, what was last written there.

* `PciRegister.write_write`, `PciRegister.write_value` — a register that is written back is as before;
* `pciCfgAddrLegacy_offset` — the registers of a function have addresses of their own.
-/

import PeachOS.Machine
import Mathlib.Logic.Function.Basic

namespace PeachOS

/-! ### Registers -/

/-- A register of 32 bits, and which of them can be written. -/
@[ext] structure PciRegister where
  value : BitVec 32
  writable : BitVec 32
deriving DecidableEq

/-- A write changes the bits that can be written. -/
def PciRegister.write (register : PciRegister) (value : BitVec 32) : PciRegister :=
  { register with value := (register.value &&& ~~~register.writable) ||| (value &&& register.writable) }

/-- The second of two writes counts. -/
theorem PciRegister.write_write (register : PciRegister) (first second : BitVec 32) :
    (register.write first).write second = register.write second := by
  ext1
  · unfold write
    ext i inside
    simp only [BitVec.getElem_or, BitVec.getElem_and, BitVec.getElem_not]
    cases register.value[i] <;> cases register.writable[i] <;> cases first[i] <;> rfl
  · rfl

/-- A register in which its own value is written stays as it is. -/
theorem PciRegister.write_value (register : PciRegister) : register.write register.value = register := by
  ext1
  · unfold write
    ext i inside
    simp only [BitVec.getElem_or, BitVec.getElem_and, BitVec.getElem_not]
    cases register.value[i] <;> cases register.writable[i] <;> rfl
  · rfl

/-- The registers of all functions, by the addresses of `PCI_CFG_ADDRESS`. -/
abbrev ConfigSpace := BitVec 32 → PciRegister

/-! ### Accesses -/

/-- `struct pci_address`. -/
structure PciAddress where
  bus : BitVec 8
  slot : BitVec 8
  func : BitVec 8
deriving DecidableEq

/-- `pci_cfg_addr_legacy`. -/
def pciCfgAddrLegacy (fn : PciAddress) (offset : BitVec 8) : BitVec 32 :=
  let offsetAligned := offset &&& ~~~0x3#8
  0x80000000#32 ||| (fn.bus.setWidth 32 <<< 16) ||| (fn.slot.setWidth 32 <<< 11) ||| (fn.func.setWidth 32 <<< 8) |||
    offsetAligned.setWidth 32

section Access

variable (space : ConfigSpace) (fn : PciAddress)

/-- `pci_cfg_read_dword`. -/
def pciCfgReadDword (offset : BitVec 8) : BitVec 32 :=
  let off := offset &&& ~~~0x3#8
  (space (pciCfgAddrLegacy fn off)).value

/-- `pci_cfg_read_word`. -/
def pciCfgReadWord (offset : BitVec 8) : BitVec 16 :=
  let off := offset &&& ~~~0x3#8
  let v := (space (pciCfgAddrLegacy fn off)).value
  (v >>> ((offset &&& 2#8).toNat * 8)).setWidth 16

/-- `pci_cfg_read_byte`. -/
def pciCfgReadByte (offset : BitVec 8) : BitVec 8 :=
  let v := pciCfgReadDword space fn (offset &&& ~~~0x3#8)
  (v >>> ((offset &&& 3#8).toNat * 8)).setWidth 8

/-- `pci_cfg_write_dword`. -/
def pciCfgWriteDword (offset : BitVec 8) (value : BitVec 32) : ConfigSpace :=
  let off := offset &&& ~~~0x3#8
  let address := pciCfgAddrLegacy fn off
  Function.update space address ((space address).write value)

/-- `pci_cfg_write_word`. -/
def pciCfgWriteWord (offset : BitVec 8) (value : BitVec 16) : ConfigSpace :=
  let off := offset &&& ~~~0x3#8
  let address := pciCfgAddrLegacy fn off
  let tmp := (space address).value
  let tmp := if offset &&& 2#8 = 0 then (tmp &&& 0xFFFF0000#32) ||| value.setWidth 32
    else (tmp &&& 0x0000FFFF#32) ||| (value.setWidth 32 <<< 16)
  Function.update space address ((space address).write tmp)

end Access

/-! ### Addresses -/

/-- **The offset in an address** is that of the register, aligned. -/
theorem pciCfgAddrLegacy_offset (fn : PciAddress) (offset : BitVec 8) :
    (pciCfgAddrLegacy fn offset).setWidth 8 = offset &&& ~~~0x3#8 := by
  unfold pciCfgAddrLegacy
  dsimp only
  ext i inside
  simp

/-- Registers of a function at different aligned offsets have different addresses. -/
theorem pciCfgAddrLegacy_ne {fn : PciAddress} {first second : BitVec 8} (different : first &&& ~~~0x3#8 ≠ second &&& ~~~0x3#8) :
    pciCfgAddrLegacy fn first ≠ pciCfgAddrLegacy fn second := by
  intro same
  have offsets := congrArg (BitVec.setWidth 8) same
  rw [pciCfgAddrLegacy_offset, pciCfgAddrLegacy_offset] at offsets
  exact different offsets

/-- The same for the offsets that the accesses align. -/
theorem aligned_ne {fn : PciAddress} {first second : BitVec 8} (different : first &&& ~~~0x3#8 ≠ second &&& ~~~0x3#8) :
    pciCfgAddrLegacy fn (first &&& ~~~0x3#8) ≠ pciCfgAddrLegacy fn (second &&& ~~~0x3#8) := by
  refine pciCfgAddrLegacy_ne ?_
  rwa [BitVec.and_assoc, BitVec.and_self, BitVec.and_assoc, BitVec.and_self]

/-! ### Writing back -/

section WriteBack

variable (space : ConfigSpace) {fn : PciAddress} {off other : BitVec 8}

/-- A write leaves the other registers as they are. -/
theorem pciCfgWriteDword_other (different : other &&& ~~~0x3#8 ≠ off &&& ~~~0x3#8) (value : BitVec 32) :
    pciCfgWriteDword space fn off value (pciCfgAddrLegacy fn (other &&& ~~~0x3#8)) =
      space (pciCfgAddrLegacy fn (other &&& ~~~0x3#8)) := Function.update_of_ne (aligned_ne different) _ _

theorem pciCfgReadDword_other (different : other &&& ~~~0x3#8 ≠ off &&& ~~~0x3#8) (value : BitVec 32) :
    pciCfgReadDword (pciCfgWriteDword space fn off value) fn other = pciCfgReadDword space fn other :=
  congrArg PciRegister.value (pciCfgWriteDword_other space different value)

/-- **A register that is written back.** -/
theorem pciCfgWriteDword_back (value : BitVec 32) :
    pciCfgWriteDword (pciCfgWriteDword space fn off value) fn off (pciCfgReadDword space fn off) = space := by
  unfold pciCfgWriteDword pciCfgReadDword
  dsimp only
  rw [Function.update_self, Function.update_idem, PciRegister.write_write, PciRegister.write_value, Function.update_eq_self]

/-- Writes to two registers can be made in any order. -/
theorem pciCfgWriteDword_comm (different : other &&& ~~~0x3#8 ≠ off &&& ~~~0x3#8) (value value' : BitVec 32) :
    pciCfgWriteDword (pciCfgWriteDword space fn off value) fn other value' =
      pciCfgWriteDword (pciCfgWriteDword space fn other value') fn off value := by
  have kept := @pciCfgWriteDword_other space fn off other different value
  have kept' := @pciCfgWriteDword_other space fn other off different.symm value'
  rw [pciCfgWriteDword, kept, pciCfgWriteDword, pciCfgWriteDword, kept', pciCfgWriteDword]
  exact Function.update_comm (aligned_ne different).symm _ _ _

theorem upperHalf_bit : ∀ (i : Nat) (inside : i < 32), (0xFFFF0000#32)[i] = decide (16 ≤ i) := by decide

/-- A word of the lower half that is written back: the upper half was written as it is both times. -/
theorem pciCfgWriteWord_back (lower : off &&& 2#8 = 0) (value : BitVec 16) :
    pciCfgWriteWord (pciCfgWriteWord space fn off value) fn off (pciCfgReadWord space fn off) = space := by
  unfold pciCfgWriteWord pciCfgReadWord
  dsimp only
  rw [lower, if_pos rfl, if_pos rfl, Function.update_self, Function.update_idem, PciRegister.write_write]
  refine (congrArg _ ?_).trans (Function.update_eq_self _ space)
  generalize space (pciCfgAddrLegacy fn (off &&& ~~~0x3#8)) = register
  ext1
  · unfold PciRegister.write
    ext i inside
    have upper : (0xFFFF0000#32)[i] = decide (16 ≤ i) := upperHalf_bit i inside
    have bit : (((register.value >>> ((0 : BitVec 8).toNat * 8)).setWidth 16).setWidth 32)[i] =
        (decide (i < 16) && register.value[i]) := by
      simp [BitVec.getLsbD_eq_getElem inside]
    simp only [BitVec.getElem_or, BitVec.getElem_and, BitVec.getElem_not, upper, bit]
    by_cases half : 16 ≤ i
    · rw [decide_eq_true half, decide_eq_false (Nat.not_lt.mpr half), BitVec.getElem_setWidth, BitVec.getLsbD_of_ge _ _ half]
      cases register.value[i] <;> cases register.writable[i] <;> rfl
    · rw [decide_eq_false half, decide_eq_true (Nat.not_le.mp half)]
      cases register.value[i] <;> cases register.writable[i] <;> simp
  · rfl

end WriteBack

end PeachOS
