/-
**The sizes that `pci_size_bars` records.**

A base address register (BAR) answers the probe with its size mask: ones where the address can be written. The size is the two's
complement of the mask, and `pci_size_bars` takes it in 64 bits for registers of every width.

* `sizeMask_size` — in 64 bits that is right for a mask of 64 bits;
* `narrowSize_ne` — and for a mask of 32 bits it never is;
* `pciSizeBars_recorded_iff` — the recorded bases, sizes and extensions are right exactly when every register is one of 64 bits
  or not implemented;
* `pciSizeBars_narrowSize` — a device with a register of 32 bits.
-/

import PeachOS.Pci.Bars

namespace PeachOS

open ByteStore BarSizing

/-! ### Masks -/

/-- The mask of a range of `2 ^ bits`. -/
def sizeMask (bits : Nat) : BitVec 64 := BitVec.allOnes 64 <<< bits

theorem sizeMask_bit {bits i : Nat} (inside : i < 64) : (sizeMask bits)[i] = decide (bits ≤ i) := by
  unfold sizeMask
  rw [BitVec.getElem_shiftLeft, BitVec.getElem_allOnes, Bool.and_true]
  by_cases small : i < bits
  · rw [decide_eq_true small, decide_eq_false (Nat.not_le.mpr small)]
    rfl
  · rw [decide_eq_false small, decide_eq_true (Nat.not_lt.mp small)]
    rfl

/-- **The two's complement of a mask is the size.** -/
theorem sizeMask_size {bits : Nat} (small : bits < 64) : (~~~sizeMask bits + 1).toNat = 2 ^ bits := by
  have positive := Nat.two_pow_pos bits
  have below : 2 ^ bits < 2 ^ 64 := Nat.pow_lt_pow_right (by decide) small
  have mask : (sizeMask bits).toNat = 2 ^ 64 - 2 ^ bits := by
    unfold sizeMask
    rw [BitVec.toNat_shiftLeft, BitVec.toNat_allOnes, Nat.shiftLeft_eq]
    have parts : (2 ^ 64 - 1) * 2 ^ bits = (2 ^ 64 - 2 ^ bits) + 2 ^ 64 * (2 ^ bits - 1) := by
      generalize 2 ^ bits = size at *
      omega
    rw [parts, Nat.add_mul_mod_self_left]
    exact Nat.mod_eq_of_lt (by omega)
  rw [BitVec.toNat_add, BitVec.toNat_not, mask]
  show (2 ^ 64 - 1 - (2 ^ 64 - 2 ^ bits) + 1) % 2 ^ 64 = _
  omega

theorem sizeMask_ne_zero {bits : Nat} (small : bits < 64) : sizeMask bits ≠ 0 := by
  intro zero
  have last : (sizeMask bits)[63] = true :=
    (@sizeMask_bit bits 63 (by decide)).trans (decide_eq_true (Nat.le_of_lt_succ small))
  simp [zero] at last

/-- A mask and its halves. -/
theorem halves_eq (mask : BitVec 64) :
    ((((mask >>> 32).setWidth 32).setWidth 64 <<< 32) ||| (mask.setWidth 32).setWidth 64) = mask := by
  ext i inside
  rw [BitVec.getElem_or, BitVec.getElem_shiftLeft]
  by_cases low : i < 32
  · simp [low]
    exact BitVec.getLsbD_eq_getElem inside
  · have high : i - 32 < 32 := by omega
    have back : 32 + (i - 32) = i := by omega
    simp [low, high]
    rw [back, BitVec.getLsbD_eq_getElem inside]

theorem notFifteen_bit : ∀ (i : Nat) (inside : i < 32), (~~~0xF#32)[i] = decide (4 ≤ i) := by decide

/-- The lowest four bits are not part of a mask of at least sixteen bytes. -/
theorem sizeMask_low {bits : Nat} (large : 4 ≤ bits) :
    (sizeMask bits).setWidth 32 &&& ~~~0xF#32 = (sizeMask bits).setWidth 32 := by
  ext i inside
  have bit := @sizeMask_bit bits i (by omega)
  have fifteen : (~~~0xF#32)[i] = decide (4 ≤ i) := notFifteen_bit i inside
  rw [BitVec.getElem_and, BitVec.getElem_setWidth, BitVec.getLsbD_eq_getElem (by omega), bit, fifteen]
  by_cases above : bits ≤ i
  · rw [decide_eq_true above, decide_eq_true (show 4 ≤ i by omega)]
    rfl
  · rw [decide_eq_false above]
    rfl

/-- **The size of a mask of 32 bits is never one of 32 bits**: its complement in 64 bits has the upper half set. -/
theorem narrowSize_ne (masked : BitVec 32) {bits : Nat} (small : bits < 32) :
    ((~~~(masked.setWidth 64) + 1 : BitVec 64)).toNat ≠ 2 ^ bits := by
  have below : 2 ^ bits < 2 ^ 32 := Nat.pow_lt_pow_right (by decide) small
  have positive := Nat.two_pow_pos bits
  have inside := masked.isLt
  rw [BitVec.toNat_add, BitVec.toNat_not, BitVec.toNat_setWidth]
  show (2 ^ 64 - 1 - masked.toNat % 2 ^ 64 + 1) % 2 ^ 64 ≠ _
  omega

/-! ### Registers -/

/-- A base address register, by what it decodes: `2 ^ bits` ports, with all address bits or only sixteen, or `2 ^ bits` bytes of
memory, in 32 bits or in 64. -/
inductive BarKind where
  | unimplemented
  | ioPort (bits : Nat) (wide : Bool)
  | memory32 (bits : Nat)
  | memory64 (bits : Nat)

/-- How many slots it takes. -/
def BarKind.slots : BarKind → Nat
  | .memory64 _ => 2
  | _ => 1

/-- **The slots from one on are a register of a kind**: its lowest bits say which, the bits that can be written are its size
mask, and the address is a multiple of the size. -/
def BarKind.At (space : ConfigSpace) (fn : PciAddress) (i : Nat) : BarKind → Prop
  | .unimplemented => slot space fn i = ⟨0, 0⟩
  | .ioPort bits wide =>
      2 ≤ bits ∧ bits < (if wide then 32 else 16) ∧ (slot space fn i).value &&& 0x3#32 = 0x1 ∧
        (slot space fn i).writable = (sizeMask bits).setWidth 32 &&& (if wide then 0xFFFFFFFF else 0xFFFF) ∧
        (slot space fn i).value &&& ~~~(slot space fn i).writable &&& ~~~0x3#32 = 0
  | .memory32 bits =>
      4 ≤ bits ∧ bits < 32 ∧ (slot space fn i).value &&& 0x7#32 = 0x0 ∧
        (slot space fn i).writable = (sizeMask bits).setWidth 32 ∧
        (slot space fn i).value &&& ~~~(slot space fn i).writable &&& ~~~0xF#32 = 0
  | .memory64 bits =>
      4 ≤ bits ∧ bits < 64 ∧ (slot space fn i).value &&& 0x7#32 = 0x4 ∧
        (slot space fn i).writable = (sizeMask bits).setWidth 32 ∧
        (slot space fn (i + 1)).writable = ((sizeMask bits) >>> 32).setWidth 32 ∧
        (slot space fn i).value &&& ~~~(slot space fn i).writable &&& ~~~0xF#32 = 0 ∧
        (slot space fn (i + 1)).value &&& ~~~(slot space fn (i + 1)).writable = 0

/-- **What is recorded of a register is right**: its base, its size, and for one of 64 bits the mark on the next slot. -/
def BarKind.RecordedAt (space : ConfigSpace) (fn : PciAddress) (bars : Nat → PciDeviceBar) (i : Nat) : BarKind → Prop
  | .unimplemented => True
  | .ioPort bits _ =>
      (bars i).addr = ((slot space fn i).value &&& ~~~0x3#32).setWidth 64 ∧ (bars i).size.toNat = 2 ^ bits
  | .memory32 bits =>
      (bars i).addr = ((slot space fn i).value &&& ~~~0xF#32).setWidth 64 ∧ (bars i).size.toNat = 2 ^ bits
  | .memory64 bits =>
      (bars i).addr = ((slot space fn (i + 1)).value.setWidth 64 <<< 32) |||
          ((slot space fn i).value &&& ~~~0xF#32).setWidth 64 ∧
        (bars i).size.toNat = 2 ^ bits ∧ (bars (i + 1)).flags &&& pciDeviceBarFlagIsExt ≠ 0

/-- Registers one behind the other, from one slot to another. -/
def RegistersAt (space : ConfigSpace) (fn : PciAddress) (last : Nat) : Nat → List BarKind → Prop
  | i, [] => i = last
  | i, kind :: kinds => kind.At space fn i ∧ RegistersAt space fn last (i + kind.slots) kinds

/-- What is recorded of them is right. -/
def AllRecorded (space : ConfigSpace) (fn : PciAddress) (bars : Nat → PciDeviceBar) : Nat → List BarKind → Prop
  | _, [] => True
  | i, kind :: kinds => kind.RecordedAt space fn bars i ∧ AllRecorded space fn bars (i + kind.slots) kinds

theorem BarKind.slots_pos (kind : BarKind) : 0 < kind.slots := by
  cases kind with
  | unimplemented => exact Nat.one_pos
  | ioPort bits wide => exact Nat.one_pos
  | memory32 bits => exact Nat.one_pos
  | memory64 bits => exact Nat.two_pos

/-- The register is not implemented or one of 64 bits. -/
def BarKind.Wide : BarKind → Prop
  | .unimplemented => True
  | .memory64 _ => True
  | _ => False

/-! ### One register -/

section Turn

variable {σ : BarSizing} {fn : PciAddress} {barCount i : Nat}

/-- The lowest bits of a register say how it is probed. -/
theorem sizeBar_io (isIo : pciCfgReadDword σ.space fn (offset i) &&& 0x1#32 ≠ 0) :
    ∃ bar, σ.sizeBar fn barCount i = (σ.sizeNarrow fn i bar 0x3, 1) ∧ bar.size = 0 := by
  unfold sizeBar
  dsimp only
  rw [if_pos isIo]
  exact ⟨_, rfl, rfl⟩

theorem sizeBar_memory32 (isMemory : pciCfgReadDword σ.space fn (offset i) &&& 0x1#32 = 0)
    (is32 : pciCfgReadDword σ.space fn (offset i) >>> 1 &&& 0x3#32 ≠ 0x2) :
    ∃ bar, σ.sizeBar fn barCount i = (σ.sizeNarrow fn i bar 0xF, 1) ∧ bar.size = 0 := by
  unfold sizeBar
  dsimp only
  rw [if_neg (not_not.mpr isMemory), if_neg fun both => is32 both.1]
  exact ⟨_, rfl, rfl⟩

theorem sizeBar_memory64 (isMemory : pciCfgReadDword σ.space fn (offset i) &&& 0x1#32 = 0)
    (is64 : pciCfgReadDword σ.space fn (offset i) >>> 1 &&& 0x3#32 = 0x2) (room : i + 1 < barCount) :
    ∃ bar, σ.sizeBar fn barCount i = (σ.sizeWide fn i bar, 2) := by
  unfold sizeBar
  dsimp only
  rw [if_neg (not_not.mpr isMemory), if_pos ⟨is64, room⟩]
  exact ⟨_, rfl⟩

/-- **What is recorded of a probe of 32 bits is no size of a register of 32 bits.** -/
theorem sizeNarrow_size (σ : BarSizing) (fn : PciAddress) (i : Nat) {bar : PciDeviceBar} (lowBits : BitVec 32)
    (unsized : bar.size = 0) {bits : Nat} (small : bits < 32) :
    ((σ.sizeNarrow fn i bar lowBits).bars i).size.toNat ≠ 2 ^ bits := by
  unfold sizeNarrow
  dsimp only
  split
  · rw [record_same, unsized]
    exact (Nat.two_pow_pos bits).ne
  · rw [record_same]
    exact narrowSize_ne _ small

/-- A register that keeps ones where it can be written. -/
theorem probe_value (register : PciRegister) :
    (register.write 0xFFFFFFFF).value = (register.value &&& ~~~register.writable) ||| register.writable := by
  unfold PciRegister.write
  rw [show (0xFFFFFFFF : BitVec 32) = BitVec.allOnes 32 from rfl, BitVec.allOnes_and]

/-- **What is recorded of a register of 64 bits.** -/
theorem sizeWide_recorded (σ : BarSizing) (fn : PciAddress) {i bits : Nat} (bar : PciDeviceBar) (inside : i + 1 < 6)
    (isAt : (BarKind.memory64 bits).At σ.space fn i) :
    (BarKind.memory64 bits).RecordedAt σ.space fn (σ.sizeWide fn i bar).bars i := by
  obtain ⟨large, small, -, lowMask, highMask, lowFixed, highFixed⟩ := isAt
  obtain ⟨-, next, different⟩ := offset_facts ⟨i, by omega⟩
  have next : offset i + 4 = offset (i + 1) := next
  have different : offset (i + 1) &&& ~~~0x3#8 ≠ offset i &&& ~~~0x3#8 := different
  -- The answers of the two halves are the halves of the mask.
  have low : pciCfgReadDword (pciCfgWriteDword (pciCfgWriteDword σ.space fn (offset i) 0xFFFFFFFF) fn (offset (i + 1)) 0xFFFFFFFF)
      fn (offset i) &&& ~~~0xF#32 = (sizeMask bits).setWidth 32 := by
    rw [pciCfgReadDword_other _ different.symm]
    have answer : pciCfgReadDword (pciCfgWriteDword σ.space fn (offset i) 0xFFFFFFFF) fn (offset i) = _ :=
      congrArg PciRegister.value (Function.update_self _ _ _)
    rw [answer]
    refine (congrArg (· &&& _) (probe_value (slot σ.space fn i))).trans ?_
    rw [BitVec.and_or_distrib_right, lowFixed, lowMask, sizeMask_low large]
    exact BitVec.zero_or
  have high : pciCfgReadDword (pciCfgWriteDword (pciCfgWriteDword σ.space fn (offset i) 0xFFFFFFFF) fn
    (offset (i + 1)) 0xFFFFFFFF)
      fn (offset (i + 1)) = (sizeMask bits >>> 32).setWidth 32 := by
    rw [pciCfgWriteDword_comm _ different, pciCfgReadDword_other _ different]
    have answer : pciCfgReadDword (pciCfgWriteDword σ.space fn (offset (i + 1)) 0xFFFFFFFF) fn (offset (i + 1)) = _ :=
      congrArg PciRegister.value (Function.update_self _ _ _)
    rw [answer]
    refine (probe_value (slot σ.space fn (i + 1))).trans ?_
    rw [highFixed, highMask]
    exact BitVec.zero_or
  have mask := halves_eq (sizeMask bits)
  rw [← high, ← low] at mask
  have bars : (σ.sizeWide fn i bar).bars i = { bar with
      addr := ((slot σ.space fn (i + 1)).value.setWidth 64 <<< 32) ||| ((slot σ.space fn i).value &&& ~~~0xF#32).setWidth 64
      size := ~~~sizeMask bits + 1, flags := bar.flags ||| pciDeviceBarFlag64bit } := by
    have isSized := sizeMask_ne_zero small
    rw [← mask] at isSized
    unfold sizeWide
    dsimp only
    rw [next]
    refine (record_other _ (Nat.succ_ne_self i).symm _).trans ((record_same _ _ _).trans ((if_neg isSized).trans ?_))
    rw [← mask]
    rfl
  have ext : ((σ.sizeWide fn i bar).bars (i + 1)).flags = pciDeviceBarFlagIsExt := by
    unfold sizeWide
    exact congrArg PciDeviceBar.flags (record_same _ _ _)
  refine ⟨?_, ?_, ?_⟩
  · rw [bars]
  · rw [bars]
    exact sizeMask_size small
  · rw [ext]
    decide

/-- The slots before those of a turn keep what is recorded of them. -/
theorem sizeBar_before (σ : BarSizing) {j : Nat} (before : j < i) :
    (σ.sizeBar fn barCount i).1.bars j = σ.bars j ∧ 0 < (σ.sizeBar fn barCount i).2 := by
  have narrow : ∀ bar lowBits, (σ.sizeNarrow fn i bar lowBits).bars j = σ.bars j := by
    intro bar lowBits
    unfold sizeNarrow
    dsimp only
    split
    · exact record_other _ before.ne _
    · exact record_other _ before.ne _
  unfold sizeBar
  dsimp only
  split
  · exact ⟨narrow _ _, Nat.one_pos⟩
  · split
    · exact ⟨(record_other _ (before.trans (Nat.lt_succ_self i)).ne _).trans (record_other _ before.ne _), Nat.two_pos⟩
    · exact ⟨narrow _ _, Nat.one_pos⟩

theorem sizeBars_before (turns : Nat) (i : Nat) (σ : BarSizing) {j : Nat} (before : j < i) :
    (sizeBars fn barCount turns i σ).bars j = σ.bars j := by
  induction turns generalizing i σ with
  | zero => rfl
  | succ turns ih =>
      unfold sizeBars
      split
      · obtain ⟨kept, positive⟩ := @sizeBar_before fn barCount _ σ _ before
        exact (ih _ _ (by omega)).trans kept
      · rfl

/-- The type of a register is in its lowest three bits. -/
theorem typeBits_eq (v : BitVec 32) : v >>> 1 &&& 0x3#32 = (v &&& 0x7#32) >>> 1 := by
  rw [BitVec.ushiftRight_and_distrib]
  rfl

theorem lowestBit_eq (v : BitVec 32) : v &&& 0x1#32 = (v &&& 0x7#32) &&& 0x1#32 := by
  rw [BitVec.and_assoc]
  rfl

/-- **One turn**: it goes through the slots of the register, and what it records is right exactly for one of 64 bits, or one
that is not implemented. -/
theorem sizeBar_recorded (σ : BarSizing) {kind : BarKind} (few : barCount ≤ 6) (room : i + kind.slots ≤ barCount)
    (isAt : kind.At σ.space fn i) : (σ.sizeBar fn barCount i).2 = kind.slots ∧
      (kind.RecordedAt σ.space fn (σ.sizeBar fn barCount i).1.bars i ↔ kind.Wide) := by
  cases kind with
  | unimplemented =>
      have zero : pciCfgReadDword σ.space fn (offset i) = 0 := congrArg PciRegister.value isAt
      obtain ⟨bar, turn, -⟩ := @sizeBar_memory32 σ fn barCount i (by rw [zero]; decide) (by rw [zero]; decide)
      rw [turn]
      exact ⟨rfl, Iff.rfl⟩
  | ioPort bits wide =>
      obtain ⟨-, small, low, -⟩ := isAt
      have isIo : pciCfgReadDword σ.space fn (offset i) &&& 0x1#32 ≠ 0 := by
        have bit : pciCfgReadDword σ.space fn (offset i) &&& 0x1#32 = 0x1 &&& 0x1#32 := by
          rw [← low, BitVec.and_assoc]
          rfl
        rw [bit]
        decide
      obtain ⟨bar, turn, unsized⟩ := @sizeBar_io σ fn barCount i isIo
      rw [turn]
      exact ⟨rfl, iff_of_false (fun recorded =>
        sizeNarrow_size σ fn i 0x3 unsized (small.trans_le (by split <;> decide)) recorded.2) id⟩
  | memory32 bits =>
      obtain ⟨-, small, low, -⟩ := isAt
      have low : pciCfgReadDword σ.space fn (offset i) &&& 0x7#32 = 0x0 := low
      obtain ⟨bar, turn, unsized⟩ := @sizeBar_memory32 σ fn barCount i (by rw [lowestBit_eq, low]; decide)
        (by rw [typeBits_eq, low]; decide)
      rw [turn]
      exact ⟨rfl, iff_of_false (fun recorded => sizeNarrow_size σ fn i 0xF unsized small recorded.2) id⟩
  | memory64 bits =>
      have low : pciCfgReadDword σ.space fn (offset i) &&& 0x7#32 = 0x4 := isAt.2.2.1
      have room : i + 2 ≤ barCount := room
      obtain ⟨bar, turn⟩ := @sizeBar_memory64 σ fn barCount i (by rw [lowestBit_eq, low]; decide)
        (by rw [typeBits_eq, low]; decide) (by omega)
      rw [turn]
      exact ⟨rfl, iff_of_true (sizeWide_recorded σ fn bar (by omega) isAt) trivial⟩

end Turn

/-! ### All registers -/

section Registers

variable {fn : PciAddress} {barCount : Nat}

theorem RegistersAt.le {space : ConfigSpace} {kinds : List BarKind} {i : Nat}
    (registers : RegistersAt space fn barCount i kinds) :
    i ≤ barCount := by
  induction kinds generalizing i with
  | nil => exact Nat.le_of_eq registers
  | cons kind kinds ih => exact (Nat.le_add_right _ _).trans (ih registers.2)

/-- What is recorded of a register is in its slots. -/
theorem BarKind.RecordedAt.congr {kind : BarKind} {space : ConfigSpace} {bars bars' : Nat → PciDeviceBar} {i : Nat}
    (same : ∀ j < i + kind.slots, bars j = bars' j) : kind.RecordedAt space fn bars i ↔ kind.RecordedAt space fn bars' i := by
  cases kind with
  | unimplemented => exact Iff.rfl
  | ioPort bits wide =>
      unfold BarKind.RecordedAt
      rw [same i (Nat.lt_succ_self i)]
  | memory32 bits =>
      unfold BarKind.RecordedAt
      rw [same i (Nat.lt_succ_self i)]
  | memory64 bits =>
      unfold BarKind.RecordedAt
      rw [same i (Nat.lt_add_of_pos_right Nat.two_pos), same (i + 1) (Nat.lt_succ_self _)]

/-- **The loop**: it goes from register to register. -/
theorem sizeBars_recorded (few : barCount ≤ 6) {kinds : List BarKind} {turns i : Nat} (σ : BarSizing)
    (enough : barCount ≤ i + turns) (registers : RegistersAt σ.space fn barCount i kinds) :
    AllRecorded σ.space fn (sizeBars fn barCount turns i σ).bars i kinds ↔ ∀ kind ∈ kinds, kind.Wide := by
  induction kinds generalizing i turns σ with
  | nil => exact iff_of_true trivial fun kind isIn => absurd isIn List.not_mem_nil
  | cons kind kinds ih =>
      obtain ⟨isAt, rest⟩ := registers
      have room := rest.le
      have positive := kind.slots_pos
      obtain ⟨turns, rfl⟩ : ∃ n, turns = n + 1 := ⟨turns - 1, by omega⟩
      obtain ⟨slots, recorded⟩ := sizeBar_recorded σ few room isAt
      have restored := (sizeBar_restored σ (show i < barCount by omega) few : BarSizing.Restored fn σ _).space
      have loop : sizeBars fn barCount (turns + 1) i σ =
          sizeBars fn barCount turns (i + kind.slots) (σ.sizeBar fn barCount i).1 := by
        rw [sizeBars, if_pos (show i < barCount by omega), ← slots]
      have later := @ih turns (i + kind.slots) (σ.sizeBar fn barCount i).1 (by omega) (restored.symm ▸ rest)
      rw [restored] at later
      rw [loop, List.forall_mem_cons]
      refine and_congr ((BarKind.RecordedAt.congr fun j before => ?_).trans recorded) later
      exact sizeBars_before turns (i + kind.slots) _ before

/-- A register is what its slots are. -/
theorem BarKind.At.congr {kind : BarKind} {space space' : ConfigSpace} {i : Nat}
    (same : ∀ j < i + kind.slots, slot space' fn j = slot space fn j) : kind.At space' fn i ↔ kind.At space fn i := by
  cases kind with
  | unimplemented =>
      unfold BarKind.At
      rw [same i (Nat.lt_succ_self i)]
  | ioPort bits wide =>
      unfold BarKind.At
      rw [same i (Nat.lt_succ_self i)]
  | memory32 bits =>
      unfold BarKind.At
      rw [same i (Nat.lt_succ_self i)]
  | memory64 bits =>
      unfold BarKind.At
      rw [same i (Nat.lt_add_of_pos_right Nat.two_pos), same (i + 1) (Nat.lt_succ_self _)]

theorem BarKind.RecordedAt.congr_space {kind : BarKind} {space space' : ConfigSpace} {bars : Nat → PciDeviceBar} {i : Nat}
    (same : ∀ j < i + kind.slots, slot space' fn j = slot space fn j) :
    kind.RecordedAt space' fn bars i ↔ kind.RecordedAt space fn bars i := by
  cases kind with
  | unimplemented => exact Iff.rfl
  | ioPort bits wide =>
      unfold BarKind.RecordedAt
      rw [same i (Nat.lt_succ_self i)]
  | memory32 bits =>
      unfold BarKind.RecordedAt
      rw [same i (Nat.lt_succ_self i)]
  | memory64 bits =>
      unfold BarKind.RecordedAt
      rw [same i (Nat.lt_add_of_pos_right Nat.two_pos), same (i + 1) (Nat.lt_succ_self _)]

/-- The registers, and what is recorded of them, depend on the slots alone. -/
theorem RegistersAt.congr {space space' : ConfigSpace} (same : ∀ j < barCount, slot space' fn j = slot space fn j)
    {kinds : List BarKind} {i : Nat} (bars : Nat → PciDeviceBar) (registers : RegistersAt space fn barCount i kinds) :
    RegistersAt space' fn barCount i kinds ∧ (AllRecorded space' fn bars i kinds ↔ AllRecorded space fn bars i kinds) := by
  induction kinds generalizing i with
  | nil => exact ⟨registers, Iff.rfl⟩
  | cons kind kinds ih =>
      obtain ⟨isAt, rest⟩ := registers
      have own : ∀ j < i + kind.slots, slot space' fn j = slot space fn j := fun j inside => same j (inside.trans_le rest.le)
      obtain ⟨registers, recorded⟩ := ih rest
      exact ⟨⟨(BarKind.At.congr own).mpr isAt, registers⟩, and_congr (BarKind.RecordedAt.congr_space own) recorded⟩

end Registers

/-- **What `pci_size_bars` records of a device is right exactly when each of its registers is one of 64 bits, or not
implemented.** -/
theorem pciSizeBars_recorded_iff (space : ConfigSpace) (fn : PciAddress) (bars : Nat → PciDeviceBar) {kinds : List BarKind}
    (registers : RegistersAt space fn (pciBarCount (pciCfgReadByte space fn pciHeaderHeaderTypeOffset &&& 0x7F)) 0 kinds) :
    AllRecorded space fn (pciSizeBars space fn bars).bars 0 kinds ↔ ∀ kind ∈ kinds, kind.Wide := by
  have few := pciBarCount_le (pciCfgReadByte space fn pciHeaderHeaderTypeOffset &&& 0x7F)
  have slots : ∀ j < pciBarCount (pciCfgReadByte space fn pciHeaderHeaderTypeOffset &&& 0x7F), _ := fun j inside =>
    @slot_quiet space fn j (inside.trans_le few) (pciCfgReadWord space fn pciHeaderCommandOffset &&& ~~~0x0007#16)
  generalize isQuiet : pciCfgWriteWord space fn pciHeaderCommandOffset
    (pciCfgReadWord space fn pciHeaderCommandOffset &&& ~~~0x0007#16) = quiet at slots
  have result := congrArg BarSizing.bars (pciSizeBars_eq space fn bars isQuiet)
  obtain ⟨registers, recorded⟩ := registers.congr slots (pciSizeBars space fn bars).bars
  rw [← recorded, result]
  exact sizeBars_recorded few ⟨quiet, [quiet], bars⟩ (Nat.le_add_left _ _) registers

/-! ### Devices -/

/-- The registers of the small device. -/
def smallKinds : List BarKind := [.memory32 17, .memory64 14, .ioPort 5 true, .unimplemented, .unimplemented]

/-- **The small device's first register decodes 128 kilobytes, and another size is recorded.** -/
theorem pciSizeBars_narrowSize :
    RegistersAt smallSpace smallDevice (pciBarCount (pciCfgReadByte smallSpace smallDevice pciHeaderHeaderTypeOffset &&& 0x7F)) 0
        smallKinds ∧
      ((pciSizeBars smallSpace smallDevice noBars).bars 0).size = 0xFFFFFFFF00020000 ∧
      ¬ AllRecorded smallSpace smallDevice (pciSizeBars smallSpace smallDevice noBars).bars 0 smallKinds := by
  have size : ((pciSizeBars smallSpace smallDevice noBars).bars 0).size = 0xFFFFFFFF00020000 := by decide
  refine ⟨?_, size, fun recorded => ?_⟩
  · refine ⟨?_, ?_, ?_, ?_, ?_, ?_⟩
    · refine ⟨?_, ?_, ?_, ?_, ?_⟩ <;> decide
    · refine ⟨?_, ?_, ?_, ?_, ?_, ?_, ?_⟩ <;> decide
    · refine ⟨?_, ?_, ?_, ?_, ?_⟩ <;> decide
    · exact (by decide : slot smallSpace smallDevice 4 = ⟨0, 0⟩)
    · exact (by decide : slot smallSpace smallDevice 5 = ⟨0, 0⟩)
    · exact (by decide : 6 = pciBarCount (pciCfgReadByte smallSpace smallDevice pciHeaderHeaderTypeOffset &&& 0x7F))
  · have first : ((pciSizeBars smallSpace smallDevice noBars).bars 0).size.toNat = 2 ^ 17 := recorded.1.2
    rw [size] at first
    exact absurd first (by decide)

/-- A device with one register of 64 bits that decodes 16 kilobytes. -/
def wideSpace : ConfigSpace := fun address =>
  if address = pciCfgAddrLegacy smallDevice 0x10 then ⟨0xFEBD4004, 0xFFFFC000⟩
  else if address = pciCfgAddrLegacy smallDevice 0x14 then ⟨0x00000008, 0xFFFFFFFF⟩
  else ⟨0, 0⟩

/-- Its registers. -/
def wideKinds : List BarKind := [.memory64 14, .unimplemented, .unimplemented, .unimplemented, .unimplemented]

/-- **Its base and its size are recorded, and the next slot is marked.** -/
theorem pciSizeBars_recorded_wide :
    AllRecorded wideSpace smallDevice (pciSizeBars wideSpace smallDevice noBars).bars 0 wideKinds := by
  refine (@pciSizeBars_recorded_iff wideSpace smallDevice noBars wideKinds ⟨?_, ?_, ?_, ?_, ?_, ?_⟩).mpr ?_
  · refine ⟨?_, ?_, ?_, ?_, ?_, ?_, ?_⟩ <;> decide
  · exact (by decide : slot wideSpace smallDevice 2 = ⟨0, 0⟩)
  · exact (by decide : slot wideSpace smallDevice 3 = ⟨0, 0⟩)
  · exact (by decide : slot wideSpace smallDevice 4 = ⟨0, 0⟩)
  · exact (by decide : slot wideSpace smallDevice 5 = ⟨0, 0⟩)
  · exact (by decide : 6 = pciBarCount (pciCfgReadByte wideSpace smallDevice pciHeaderHeaderTypeOffset &&& 0x7F))
  · simp [wideKinds, BarKind.Wide]

end PeachOS
