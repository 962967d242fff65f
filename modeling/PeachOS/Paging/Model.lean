/-
**Page tables of `memory/paging/paging.c`.**

Page tables lie in memory: a table is a page of 512 entries of 64 bits. An entry is its word here; the
bit fields of `struct paging_desc_entry` are read by `entryPresent`, `entryReadWrite`,
`entryUserSupervisor` and `entryAddress` and written by `entrySet`, which keeps the other fields.

* `pagingMap` walks four levels and allocates the tables that are missing; it never fails, and it does
  not check whether an allocation returned `NULL`;
* `pagingMapRange` counts pages with an `int`, `pagingMapTo` is given addresses;
* `pagingGet` is the lookup in software, which also looks at the first entry of two tables.

The invalidation of the TLB has no effect on memory and is left out.
-/

import PeachOS.Multiheap.Model
import PeachOS.Paging.Address

namespace PeachOS

open ByteStore

/-! ### Entries -/

/-- `PAGING_CACHE_DISABLED`. -/
def pagingCacheDisabled : BitVec 32 := 0b00010000#32

/-- `PAGING_WRITE_THROUGH`. -/
def pagingWriteThrough : BitVec 32 := 0b00001000#32

/-- `PAGING_ACCESS_FROM_ALL`. -/
def pagingAccessFromAll : BitVec 32 := 0b00000100#32

/-- `PAGING_IS_WRITEABLE`. -/
def pagingIsWriteable : BitVec 32 := 0b00000010#32

/-- `PAGING_IS_PRESENT`. -/
def pagingIsPresent : BitVec 32 := 0b00000001#32

/-- `PAGING_TOTAL_ENTRIES_PER_TABLE`. -/
abbrev pagingTotalEntriesPerTable : Nat := 512

/-- `sizeof(struct paging_desc_entry)`. -/
abbrev sizeofPagingDescEntry : Nat := 8

/-- `struct paging_desc`: the address of the root table and its level. -/
structure PagingDesc where
  pml : Nat
  level : Nat
deriving DecidableEq

/-- The entry at an address. -/
def entryAt (mem : Memory) (entry : Nat) : Nat := readWord mem entry sizeofPagingDescEntry

/-- Write the entry at an address. -/
def setEntryAt (mem : Memory) (entry value : Nat) : Memory := writeWord mem entry sizeofPagingDescEntry value

/-- Bit 0. -/
def entryPresent (entry : Nat) : Bool := entry % 2 = 1

/-- Bit 1. -/
def entryReadWrite (entry : Nat) : Bool := entry / 2 % 2 = 1

/-- Bit 2. -/
def entryUserSupervisor (entry : Nat) : Bool := entry / 4 % 2 = 1

/-- Bits 12 to 51, the frame number. -/
def entryAddress (entry : Nat) : Nat := entry / 2 ^ 12 % 2 ^ 40

/-- The entry with a new frame number and new access bits, in its other bits as before. -/
def entrySet (entry address : Nat) (present readWrite userSupervisor : Bool) : Nat :=
  present.toNat + 2 * readWrite.toNat + 4 * userSupervisor.toNat + 8 * (entry / 8 % 2 ^ 9) +
    2 ^ 12 * (address % 2 ^ 40) + 2 ^ 52 * (entry / 2 ^ 52)

/-- `paging_null_entry`. -/
def pagingNullEntry (entry : Nat) : Bool := entry = 0

/-! ### Mapping -/

/-- The index of an address into the table of a level, 0 for the page table and 3 for the root. -/
def tableIndex (va level : Nat) : Nat := va / 2 ^ (12 + 9 * level) % pagingTotalEntriesPerTable

/-- The table that an entry refers to, allocated if the entry is null: the step that `paging_map` takes
at each of the three upper levels. -/
def pagingTable (k : Kernel) (entry : Nat) : Nat × Kernel :=
  let k :=
    if pagingNullEntry (entryAt k.mem entry) then
      let table := kzalloc k (sizeofPagingDescEntry * pagingTotalEntriesPerTable)
      let value := entrySet (entryAt table.2.mem entry) (table.1 / 2 ^ 12) true true true
      { table.2 with mem := setEntryAt table.2.mem entry value }
    else k
  (entryAddress (entryAt k.mem entry) * 2 ^ 12, k)

/-- The leaf entry that `paging_map` writes over an entry. -/
def leafSet (entry phys : Nat) (flags : BitVec 32) : Nat :=
  entrySet entry (phys / 2 ^ 12) (flags &&& pagingIsPresent ≠ 0) (flags &&& pagingIsWriteable ≠ 0)
    (flags &&& pagingAccessFromAll ≠ 0)

def pagingMap (k : Kernel) (desc : PagingDesc) (virt phys : Nat) (flags : BitVec 32) : Int × Kernel :=
  let pdpt := pagingTable k (desc.pml + sizeofPagingDescEntry * tableIndex virt 3)
  let pd := pagingTable pdpt.2 (pdpt.1 + sizeofPagingDescEntry * tableIndex virt 2)
  let pt := pagingTable pd.2 (pd.1 + sizeofPagingDescEntry * tableIndex virt 1)
  let entry := pt.1 + sizeofPagingDescEntry * tableIndex virt 0
  let value := leafSet (entryAt pt.2.mem entry) phys flags
  (0, { pt.2 with mem := setEntryAt pt.2.mem entry value })

/-- The loop of `paging_map_range` with `fuel` iterations left. -/
def pagingMapRangeLoop (desc : PagingDesc) (flags : BitVec 32) :
    (fuel : Nat) → (virt phys : Nat) → (res : Int) → Kernel → Int × Kernel
  | 0, _, _, res, k => (res, k)
  | fuel + 1, virt, phys, _, k =>
      let mapped := pagingMap k desc virt phys flags
      if mapped.1 < 0 then mapped
      else pagingMapRangeLoop desc flags fuel (toWord (virt + pagingPageSize)) (toWord (phys + pagingPageSize))
        mapped.1 mapped.2

/-- `paging_map_range`: `for (int i = 0; i < count; i++)`, which an overflow of `i` ends. -/
def pagingMapRange (k : Kernel) (desc : PagingDesc) (virt phys count : Nat) (flags : BitVec 32) : Int × Kernel :=
  pagingMapRangeLoop desc flags (min count (2 ^ 31)) virt phys 0 k

def pagingMapTo (k : Kernel) (desc : PagingDesc) (virt phys physEnd : Nat) (flags : BitVec 32) : Int × Kernel :=
  if virt % pagingPageSize ≠ 0 then (einvarg, k)
  else if phys % pagingPageSize ≠ 0 then (einvarg, k)
  else if physEnd % pagingPageSize ≠ 0 then (einvarg, k)
  else if physEnd < phys then (einvarg, k)
  else
    let totalBytes := physEnd - phys
    let totalPages := totalBytes / pagingPageSize
    pagingMapRange k desc virt phys totalPages flags

/-! ### Looking up -/

/-- `paging_get`: the address of the leaf entry. The table behind a null entry is not looked at, nor is a
table below whose first entry is null. -/
def pagingGet (mem : Memory) (desc : PagingDesc) (virt : Nat) : Option Nat :=
  let pml4Entry := entryAt mem (desc.pml + sizeofPagingDescEntry * tableIndex virt 3)
  if pagingNullEntry pml4Entry then none
  else
    let pdptEntries := entryAddress pml4Entry * 2 ^ 12
    if pagingNullEntry (entryAt mem pdptEntries) then none
    else
      let pdptEntry := entryAt mem (pdptEntries + sizeofPagingDescEntry * tableIndex virt 2)
      if pagingNullEntry pdptEntry then none
      else
        let pdEntries := entryAddress pdptEntry * 2 ^ 12
        if pagingNullEntry (entryAt mem pdEntries) then none
        else
          let pdEntry := entryAt mem (pdEntries + sizeofPagingDescEntry * tableIndex virt 1)
          if pagingNullEntry pdEntry then none
          else
            let ptEntries := entryAddress pdEntry * 2 ^ 12
            if pagingNullEntry (entryAt mem pdEntries) then none
            else some (ptEntries + sizeofPagingDescEntry * tableIndex virt 0)

/-- `paging_get_physical_address`: zero for `NULL`. -/
def pagingGetPhysicalAddress (mem : Memory) (desc : PagingDesc) (virtualAddress : Nat) : Nat :=
  match pagingGet mem desc virtualAddress with
  | none => 0
  | some descEntry =>
      let physicalBase : Nat := entryAddress (entryAt mem descEntry) * 2 ^ 12
      let offset : Nat := virtualAddress % 2 ^ 12
      toWord (physicalBase + offset)

/-! ### Entries, field by field -/

theorem accessBits_lt (present readWrite userSupervisor : Bool) :
    present.toNat + 2 * readWrite.toNat + 4 * userSupervisor.toNat < 8 := by
  have bits := And.intro present.toNat_le (And.intro readWrite.toNat_le userSupervisor.toNat_le)
  omega

section Fields

variable (entry address : Nat) (present readWrite userSupervisor : Bool)

theorem entryPresent_set : entryPresent (entrySet entry address present readWrite userSupervisor) = present := by
  unfold entryPresent entrySet
  cases present <;> simp <;> omega

theorem entryReadWrite_set :
    entryReadWrite (entrySet entry address present readWrite userSupervisor) = readWrite := by
  unfold entryReadWrite entrySet
  cases present <;> cases readWrite <;> simp <;> omega

theorem entryUserSupervisor_set :
    entryUserSupervisor (entrySet entry address present readWrite userSupervisor) = userSupervisor := by
  have bits := And.intro present.toNat_le (And.intro readWrite.toNat_le userSupervisor.toNat_le)
  have bit : entrySet entry address present readWrite userSupervisor / 4 % 2 = userSupervisor.toNat := by
    unfold entrySet
    omega
  unfold entryUserSupervisor
  rw [bit]
  cases userSupervisor <;> rfl

theorem entryAddress_set :
    entryAddress (entrySet entry address present readWrite userSupervisor) = address % 2 ^ 40 := by
  have low := accessBits_lt present readWrite userSupervisor
  unfold entryAddress entrySet
  omega

end Fields

/-- The written entry is a word. -/
theorem entrySet_lt {entry : Nat} (word : entry < 2 ^ 64) (address : Nat) (present readWrite userSupervisor : Bool) :
    entrySet entry address present readWrite userSupervisor < 2 ^ 64 := by
  have low := accessBits_lt present readWrite userSupervisor
  unfold entrySet
  omega

end PeachOS
