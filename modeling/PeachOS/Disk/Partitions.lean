/-
**Partitions: `disk/gpt.c` and the bounds of `disk_read_block`.**

The last LBA of an entry of the partition table is inclusive. `disk_create_new` stores it as it is, and
`disk_read_block` compares it with the first LBA behind a request. On their way from the entry to the disk
both LBAs are an `int`.

* `diskReadBlock_partition` — what the bounds of a partition do, in signed arithmetic;
* `readsOwnSectors_iff` — which requests are served and refused as they should be.
-/

import PeachOS.Disk.Model
import Mathlib.Tactic.Ring

namespace PeachOS

/-! ### Mounting a partition -/

/-- The LBAs of a `struct gpt_partition_entry`, both of them sectors of the partition. -/
structure GptPartitionEntry where
  startingLba : Nat
  endingLba : Nat

/-- `disk_create_new`, when its disk is allocated: the LBAs are an `int` each. -/
def diskCreateNew (startingLba endingLba : Int) (sectorSize : Nat) (read : Option (Nat → Nat → Except Int (Nat → Byte))) :
    Disk where
  sectorSize := sectorSize
  startingLba := toWord startingLba
  endingLba := toWord endingLba
  read := read

/-- `disk_create_partition`: the `mount_partition` of the drivers passes the LBAs on. -/
def diskCreatePartition (disk : Disk) (startingLba endingLba : Int) : Disk :=
  diskCreateNew startingLba endingLba disk.sectorSize disk.read

/-- The disk that `gpt_mount_partitions` makes for an entry. -/
def gptMountPartition (gptPrimaryDisk : Disk) (entry : GptPartitionEntry) : Disk :=
  diskCreatePartition gptPrimaryDisk (toInt32 entry.startingLba) (toInt32 entry.endingLba)

theorem gptMountPartition_startingLba (primary : Disk) (entry : GptPartitionEntry) :
    (gptMountPartition primary entry).startingLba = toWord (toInt32 entry.startingLba) := by
  rw [gptMountPartition, diskCreatePartition, diskCreateNew]

theorem gptMountPartition_endingLba (primary : Disk) (entry : GptPartitionEntry) :
    (gptMountPartition primary entry).endingLba = toWord (toInt32 entry.endingLba) := by
  rw [gptMountPartition, diskCreatePartition, diskCreateNew]

theorem gptMountPartition_read (primary : Disk) (entry : GptPartitionEntry) :
    (gptMountPartition primary entry).read = primary.read := by
  rw [gptMountPartition, diskCreatePartition, diskCreateNew]

/-! ### The bounds of a partition -/

/-- **What the stored bounds refuse**: neither of them is zero, and the end of the request, in signed LBAs, is
larger than the stored end. Negative numbers are larger than the others here, since they are a `size_t`. -/
def BoundsRefuse (first last lba total : Nat) : Prop :=
  toInt32 first ≠ 0 ∧ toInt32 last ≠ 0 ∧
    if 0 ≤ toInt32 first + lba + total then 0 ≤ toInt32 last ∧ toInt32 last < toInt32 first + lba + total
    else 0 ≤ toInt32 last ∨ toInt32 last < toInt32 first + lba + total

/-- A request to a disk whose driver reads. -/
theorem diskReadBlock_read {disk : Disk} (lba total : Nat) {read : Nat → Nat → Except Int (Nat → Byte)}
    (isRead : disk.read = some read) :
    diskReadBlock disk lba total =
      if toWord (toWord (disk.startingLba + lba) + total) > disk.endingLba ∧ disk.startingLba ≠ 0 ∧ disk.endingLba ≠ 0 then
        .error eio
      else read (toWord (disk.startingLba + lba) % 2 ^ 32) total := by
  unfold diskReadBlock
  rw [isRead]

/-! ### Signed numbers as words -/

theorem toWord_eq_zero_iff {x : Int} (low : -2 ^ 31 ≤ x) (high : x < 2 ^ 34) : toWord x = 0 ↔ x = 0 := by
  unfold toWord
  omega

theorem toWord_lt_iff {x y : Int} (low : -2 ^ 31 ≤ x) (high : x < 2 ^ 34) (low' : -2 ^ 31 ≤ y) (high' : y < 2 ^ 34) :
    toWord x < toWord y ↔ if 0 ≤ y then 0 ≤ x ∧ x < y else 0 ≤ x ∨ x < y := by
  have wrapped {z : Int} (low : -2 ^ 31 ≤ z) (high : z < 2 ^ 34) : (toWord z : Int) = if 0 ≤ z then z else z + 2 ^ 64 := by
    unfold toWord
    split <;> omega
  rw [← Int.ofNat_lt, wrapped low high, wrapped low' high']
  split <;> split <;> omega

section Requests

variable {first last lba total : Nat}

/-- **A request to a partition**: it is refused, or the driver reads from the low 32 bits of its LBA on. -/
theorem diskReadBlock_partition (primary : Disk) (someLba : lba < 2 ^ 32) (someTotal : total < 2 ^ 31)
    (read : Nat → Nat → Except Int (Nat → Byte)) (isRead : primary.read = some read) :
    (BoundsRefuse first last lba total ∧
        diskReadBlock (gptMountPartition primary ⟨first, last⟩) lba total = .error eio) ∨
      (¬ BoundsRefuse first last lba total ∧
        diskReadBlock (gptMountPartition primary ⟨first, last⟩) lba total = read ((first + lba) % 2 ^ 32) total) := by
  have narrowed : toWord ((toWord (toInt32 first) : Nat) + lba) % 2 ^ 32 = (first + lba) % 2 ^ 32 := by
    have same : (toWord ((toWord (toInt32 first) : Nat) + lba) : Int) % 2 ^ 32 = ((first + lba : Nat) : Int) % 2 ^ 32 := by
      rw [toWord_emod, Int.add_emod, toWord_emod, toInt32_emod, ← Int.add_emod, Int.natCast_add]
    exact_mod_cast same
  have bounds : (toWord ((toWord ((toWord (toInt32 first) : Nat) + lba) : Nat) + total) > toWord (toInt32 last) ∧
      toWord (toInt32 first) ≠ 0 ∧ toWord (toInt32 last) ≠ 0) ↔ BoundsRefuse first last lba total := by
    obtain ⟨low, high⟩ := toInt32_bounds first
    obtain ⟨low', high'⟩ := toInt32_bounds last
    have order := @toWord_lt_iff (toInt32 last) (toInt32 first + lba + total) low' (by omega) (by omega) (by omega)
    rw [toWord_add, Int.add_assoc, toWord_add, ← Int.add_assoc, gt_iff_lt, order, Ne, Ne,
      toWord_eq_zero_iff low (by omega), toWord_eq_zero_iff low' (by omega), BoundsRefuse]
    exact and_rotate
  rw [diskReadBlock_read lba total ((gptMountPartition_read primary ⟨first, last⟩).trans isRead),
    gptMountPartition_startingLba, gptMountPartition_endingLba, narrowed]
  by_cases refused : BoundsRefuse first last lba total
  · exact Or.inl ⟨refused, if_pos (bounds.mpr refused)⟩
  · exact Or.inr ⟨refused, if_neg fun refuses => refused (bounds.mp refuses)⟩

/-! ### Requests that are served as they should be -/

/-- **A partition serves exactly its sectors**: a request is read from its LBA on if its last sector is one of
the partition, and refused otherwise, whatever the driver does. -/
def ReadsOwnSectors (first last lba total : Nat) : Prop :=
  ∀ (primary : Disk) (read : Nat → Nat → Except Int (Nat → Byte)), primary.read = some read →
    diskReadBlock (gptMountPartition primary ⟨first, last⟩) lba total =
      if first + lba + total - 1 ≤ last then read (first + lba) total else .error eio

/-- **Which requests are served as they should be**. As long as the LBAs are those of an `int`, all but the ones
that end with the last sector. An end behind that is negative, so nothing is refused, or the end of a smaller
partition; and from `2 ^ 32` on no sector is reached. -/
def OwnSectorsRequest (first last lba total : Nat) : Prop :=
  if last < 2 ^ 31 then first + lba + total ≠ last + 1
  else if first < 2 ^ 31 then
    if 0 < last % 2 ^ 32 ∧ last % 2 ^ 32 < 2 ^ 31 then
      first + lba + total ≤ last % 2 ^ 32 ∨ last + 1 < first + lba + total
    else first + lba + total ≤ last + 1 ∧ first + lba < 2 ^ 32
  else
    (first + lba + total ≤ last + 1 ∧ first + lba < 2 ^ 32 ∧ ¬ BoundsRefuse first last lba total) ∨
      (last + 1 < first + lba + total ∧ BoundsRefuse first last lba total)

/-- In arithmetic: a request is served from its LBA on if it is in the partition, and refused otherwise. -/
theorem ownSectorsRequest_iff (positive : 0 < first) (order : first ≤ last) (someLba : lba < 2 ^ 32)
    (something : 1 ≤ total) (someTotal : total < 2 ^ 31) :
    OwnSectorsRequest first last lba total ↔
      (first + lba + total ≤ last + 1 ∧ first + lba < 2 ^ 32 ∧ ¬ BoundsRefuse first last lba total) ∨
        (last + 1 < first + lba + total ∧ BoundsRefuse first last lba total) := by
  unfold OwnSectorsRequest
  by_cases lastSmall : last < 2 ^ 31
  · -- nothing is narrowed, and the bounds are those of the entry
    have refuses : BoundsRefuse first last lba total ↔ last < first + lba + total := by
      unfold BoundsRefuse
      rw [toInt32_of_bounds (by omega) (by omega), toInt32_of_bounds (by omega) (by omega)]
      split <;> omega
    rw [if_pos lastSmall, refuses]
    omega
  · rw [if_neg lastSmall]
    by_cases firstSmall : first < 2 ^ 31
    · rw [if_pos firstSmall]
      by_cases smaller : 0 < last % 2 ^ 32 ∧ last % 2 ^ 32 < 2 ^ 31
      · have refuses : BoundsRefuse first last lba total ↔ last % 2 ^ 32 < first + lba + total := by
          have ending : toInt32 last = (last % 2 ^ 32 : Nat) := by
            unfold toInt32
            split <;> omega
          unfold BoundsRefuse
          rw [toInt32_of_bounds (by omega) (by omega), ending]
          split <;> omega
        rw [if_pos smaller, refuses]
        omega
      · have never : ¬ BoundsRefuse first last lba total := by
          have ending : toInt32 last ≤ 0 := by
            unfold toInt32
            split <;> omega
          unfold BoundsRefuse
          rw [toInt32_of_bounds (by omega) (by omega)]
          generalize toInt32 last = ending at *
          split <;> omega
        rw [if_neg smaller]
        simp only [never, not_false_eq_true, and_true, and_false, or_false]
    · rw [if_neg firstSmall]

/-- A driver that tells the sector it was asked for. -/
def tellingDriver (lba _total : Nat) : Except Int (Nat → Byte) := .ok fun offset => if offset = lba then 0x01#8 else 0x00#8

theorem tellingDriver_injective {asked other total : Nat} (same : tellingDriver asked total = tellingDriver other total) :
    asked = other := by
  unfold tellingDriver at same
  rw [Except.ok.injEq] at same
  have byte := congrFun same other
  rw [if_pos rfl] at byte
  by_contra different
  rw [if_neg (Ne.symm different)] at byte
  exact absurd byte (by decide)

/-- **When a partition serves exactly its sectors**, for every entry of a partition table and every request. -/
theorem readsOwnSectors_iff (positive : 0 < first) (order : first ≤ last) (someLba : lba < 2 ^ 32)
    (something : 1 ≤ total) (someTotal : total < 2 ^ 31) :
    ReadsOwnSectors first last lba total ↔ OwnSectorsRequest first last lba total := by
  rw [ownSectorsRequest_iff positive order someLba something someTotal]
  constructor
  · intro own
    have told := own ⟨512, 0, 0, some tellingDriver⟩ tellingDriver rfl
    rcases @diskReadBlock_partition first last lba total ⟨512, 0, 0, some tellingDriver⟩ someLba someTotal
      tellingDriver rfl with ⟨refused, result⟩ | ⟨served, result⟩
    · rw [result] at told
      by_cases inside : first + lba + total - 1 ≤ last
      · rw [if_pos inside] at told
        cases told
      · exact Or.inr ⟨by omega, refused⟩
    · rw [result] at told
      by_cases inside : first + lba + total - 1 ≤ last
      · rw [if_pos inside] at told
        have same := tellingDriver_injective told
        exact Or.inl ⟨by omega, by omega, served⟩
      · rw [if_neg inside] at told
        cases told
  · intro asShould primary read isRead
    rcases @diskReadBlock_partition first last lba total primary someLba someTotal read isRead with
      ⟨refused, result⟩ | ⟨served, result⟩
    · rcases asShould with ⟨-, -, notRefused⟩ | ⟨outside, -⟩
      · exact absurd refused notRefused
      · rw [result, if_neg (by omega)]
    · rcases asShould with ⟨inside, low, -⟩ | ⟨-, refuses⟩
      · rw [result, if_pos (by omega), Nat.mod_eq_of_lt low]
      · exact absurd refuses served

/-- The partition of sectors 2048 to 4095 serves all of them but the last. -/
theorem readsOwnSectors_first :
    0 < 2048 ∧ 2048 ≤ 4095 ∧ 0 < 2 ^ 32 ∧ 1 ≤ 2047 ∧ 2047 < 2 ^ 31 ∧ ReadsOwnSectors 2048 4095 0 2047 :=
  ⟨by decide, by decide, by decide, by decide, by decide,
    (readsOwnSectors_iff (by decide) (by decide) (by decide) (by decide) (by decide)).mpr (by
      rw [OwnSectorsRequest, if_pos (by decide)]
      decide)⟩

/-- **The last sector of a partition is refused.** -/
theorem lastSector_refused :
    ¬ (∀ first last lba total : Nat, 0 < first → first ≤ last → last < 2 ^ 64 → lba < 2 ^ 32 → 1 ≤ total →
        total < 2 ^ 31 → ReadsOwnSectors first last lba total) ∧
      ¬ ReadsOwnSectors 2048 4095 2047 1 := by
  have refused : ¬ ReadsOwnSectors 2048 4095 2047 1 := by
    intro own
    have told := own ⟨512, 0, 0, some tellingDriver⟩ tellingDriver rfl
    rcases @diskReadBlock_partition 2048 4095 2047 1 ⟨512, 0, 0, some tellingDriver⟩ (by decide) (by decide) tellingDriver rfl
      with ⟨_, result⟩ | ⟨served, _⟩
    · rw [result, if_pos (by decide)] at told
      cases told
    · exact served ⟨by decide, by decide, by decide⟩
  refine ⟨fun all => refused ?_, refused⟩
  exact all 2048 4095 2047 1 (by decide) (by decide) (by decide) (by decide) (by decide) (by decide)

end Requests

end PeachOS
