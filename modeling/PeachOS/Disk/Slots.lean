/-
**Cache slots on disks with 512-byte sectors.**

The byte offset of a sector on the hardware disk is a `long`, but it is looked up as an `int`: of the sector
number only the low 23 bits are left, and the last of them is the sign.

* `sectorSlot_512` — the slot of a sector, and when one of its indexes leaves its array;
* `lookupsApart_iff` — which two sectors have slots of their own.
-/

import PeachOS.Disk.Reads

namespace PeachOS

/-! ### The lookup of one sector -/

/-- A negative position leaves the arrays: the indexes of the upper levels are negative, or the remainder in
`size_t` is behind the 64 sectors of the bucket. -/
theorem cacheSlot_negative {sectors : Nat} (something : 0 < sectors) (low : sectors ≤ 2 ^ 22) :
    cacheSlot 512 (-((sectors * 512 : Nat) : Int)) = none := by
  have size3 : ((diskStreamBucket3ByteSize 512 : Nat) : Int) = (2 ^ 15 : Nat) := rfl
  have size2 : ((diskStreamBucket2ByteSize 512 : Nat) : Int) = (2 ^ 25 : Nat) := rfl
  have size1 : ((diskStreamBucket1ByteSize 512 : Nat) : Int) = (2 ^ 35 : Nat) := rfl
  unfold cacheSlot
  dsimp only
  rw [size3, size2, size1, Int.neg_tdiv, Int.neg_tmod, ← Int.ofNat_tdiv, ← Int.ofNat_tmod, Int.neg_tdiv, Int.neg_tmod,
    ← Int.ofNat_tdiv, ← Int.ofNat_tmod, Int.neg_tdiv, Int.neg_tmod, ← Int.ofNat_tdiv, ← Int.ofNat_tmod]
  refine if_neg ?_
  rintro ⟨-, level2, -, level3, -, -, inside⟩
  -- both quotients are zero, so the position is in the first bucket before the start
  have near : sectors < 64 := by omega
  have inLevel3 : sectors * 512 % 2 ^ 35 % 2 ^ 25 % 2 ^ 15 = sectors * 512 := by omega
  have wrapped : toWord (-((sectors * 512 : Nat) : Int)) = 2 ^ 64 - sectors * 512 := by
    unfold toWord
    omega
  rw [inLevel3, wrapped] at inside
  have remainder : ((2 ^ 64 - sectors * 512) % (8 * diskStreamLevel3SectorsArraySize * 512) : Nat) =
      (512 - sectors) * 512 := by
    simp only [diskStreamLevel3SectorsArraySize]
    omega
  rw [remainder, toInt32_of_bounds (by omega) (by omega), ← Int.ofNat_tdiv,
    Nat.mul_div_cancel _ (by decide)] at inside
  simp only [diskStreamLevel3SectorsArraySize] at inside
  omega

/-- The position that a sector is looked up at. -/
theorem sectorOffset_512 (startingLba i : Nat) :
    toInt32 (toInt64 (toWord (toWord (startingLba + i) * (512 : Nat)))) =
      if (startingLba + i) % 2 ^ 23 < 2 ^ 22 then (((startingLba + i) % 2 ^ 23 * 512 : Nat) : Int)
      else -(((2 ^ 23 - (startingLba + i) % 2 ^ 23) * 512 : Nat) : Int) := by
  have same : toInt64 (toWord (toWord (startingLba + i) * (512 : Nat))) % 2 ^ 32
      = (((startingLba + i) % 2 ^ 23 * 512 : Nat) : Int) % 2 ^ 32 := by
    rw [toInt64_emod, toWord_emod, Int.mul_emod, toWord_emod, ← Int.mul_emod]
    omega
  have below : (startingLba + i) % 2 ^ 23 < 2 ^ 23 := Nat.mod_lt _ (by decide)
  rw [toInt32_congr same]
  generalize (startingLba + i) % 2 ^ 23 = lba at below ⊢
  unfold toInt32
  rw [Int.emod_eq_of_lt (by omega) (by omega)]
  split <;> split <;> omega

/-- **The slot of a sector**: that of the low 23 bits of its number, as long as they are not negative. -/
theorem sectorSlot_512 (startingLba i : Nat) :
    sectorSlot 512 startingLba i =
      if (startingLba + i) % 2 ^ 23 < 2 ^ 22 then some (hardwareSlot ((startingLba + i) % 2 ^ 23)) else none := by
  rw [sectorSlot, sectorOffset_512]
  by_cases low : (startingLba + i) % 2 ^ 23 < 2 ^ 22
  · rw [if_pos low, if_pos low, cacheSlot_hardware (by decide) (by omega)]
  · rw [if_neg low, if_neg low]
    exact cacheSlot_negative (by omega) (by omega)

/-! ### Two sectors -/

/-- **The lookups of two sectors**: all their indexes are in their arrays, and they end at two slots. -/
def LookupsApart (disk : Disk) (a b : Nat) : Prop :=
  ∃ first second, cacheSlot disk.sectorSize (toInt32 (diskRealOffset disk a)) = some first ∧
    cacheSlot disk.sectorSize (toInt32 (diskRealOffset disk b)) = some second ∧ first ≠ second

/-- **When two sectors are told apart**: both lie in the first 2 GiB of a 4 GiB piece of the hardware disk, and
not at the same place of their pieces. -/
theorem lookupsApart_iff {disk : Disk} (sectors : disk.sectorSize = 512) (a b : Nat) :
    LookupsApart disk a b ↔
      (disk.startingLba + a) % 2 ^ 23 < 2 ^ 22 ∧ (disk.startingLba + b) % 2 ^ 23 < 2 ^ 22 ∧
        (disk.startingLba + a) % 2 ^ 23 ≠ (disk.startingLba + b) % 2 ^ 23 := by
  unfold LookupsApart
  rw [sectorSlot_eq, sectorSlot_eq, sectors, sectorSlot_512, sectorSlot_512]
  constructor
  · rintro ⟨first, second, slotA, slotB, apart⟩
    by_cases lowA : (disk.startingLba + a) % 2 ^ 23 < 2 ^ 22
    · by_cases lowB : (disk.startingLba + b) % 2 ^ 23 < 2 ^ 22
      · rw [if_pos lowA, Option.some.injEq] at slotA
        rw [if_pos lowB, Option.some.injEq] at slotB
        refine ⟨lowA, lowB, fun same => apart ?_⟩
        rw [← slotA, ← slotB, same]
      · rw [if_neg lowB] at slotB
        cases slotB
    · rw [if_neg lowA] at slotA
      cases slotA
  · rintro ⟨lowA, lowB, apart⟩
    exact ⟨_, _, if_pos lowA, if_pos lowB, fun same => apart (hardwareSlot_injective same)⟩

/-- A partition with sectors of 512 bytes that starts at sector 2048. -/
def laterPartition : Disk where
  sectorSize := 512
  startingLba := 2048
  endingLba := 2 ^ 31 - 1
  read := none

/-- The first two sectors of a partition. -/
theorem lookupsApart_first : laterPartition.sectorSize = 512 ∧ LookupsApart laterPartition 0 1 :=
  ⟨rfl, (@lookupsApart_iff laterPartition rfl 0 1).mpr (by decide)⟩

/-- **Sectors 4 GiB apart share a slot**, and an offset in the upper 2 GiB leaves the arrays. -/
theorem lookups_shared :
    ¬ (∀ (disk : Disk) (a b : Nat), disk.sectorSize = 512 → a < 2 ^ 32 → b < 2 ^ 32 → a ≠ b → LookupsApart disk a b) ∧
      ¬ LookupsApart laterPartition 0 (2 ^ 23) ∧ ¬ LookupsApart laterPartition 0 (2 ^ 22) := by
  have sameSlot : cacheSlot laterPartition.sectorSize (toInt32 (diskRealOffset laterPartition 0)) =
      cacheSlot laterPartition.sectorSize (toInt32 (diskRealOffset laterPartition (2 ^ 23))) := by
    decide +kernel
  have shared : ¬ LookupsApart laterPartition 0 (2 ^ 23) := by
    rintro ⟨first, second, slotA, slotB, apart⟩
    rw [sameSlot, slotB, Option.some.injEq] at slotA
    exact apart slotA.symm
  refine ⟨fun all => shared (all laterPartition 0 (2 ^ 23) rfl (by decide) (by decide) (by decide)), shared, ?_⟩
  have noSlot : cacheSlot laterPartition.sectorSize (toInt32 (diskRealOffset laterPartition (2 ^ 22))) = none := by
    decide +kernel
  rintro ⟨first, second, _, slotB, _⟩
  rw [noSlot] at slotB
  cases slotB

end PeachOS
