/-
**The cache bits of page table entries: `PAGING_CACHE_DISABLED` and `PAGING_WRITE_THROUGH`.**

`paging_map` edits the frame number and three access bits of a leaf entry. Of the two flags for the cache it looks at
neither, and the bits of the entry that they stand for stay what they were.

* `entrySet_cacheBits` — an edit keeps both bits;
* `cacheHonoured_iff` — a call gives its pages the bits that its flags ask for exactly when their entries had them;
* `cacheDisabled_lost` — so the registers of a disk are cached as their pages were before.
-/

import PeachOS.Paging.Calls
import PeachOS.Paging.Mapping

namespace PeachOS

open ByteStore RadixTable

/-! ### The bits -/

/-- Bit 3. -/
def entryPwt (entry : Nat) : Bool := entry / 8 % 2 = 1

/-- Bit 4. -/
def entryPcd (entry : Nat) : Bool := entry / 16 % 2 = 1

/-- **An edit keeps the cache bits.** -/
theorem entrySet_cacheBits (entry address : Nat) (present readWrite userSupervisor : Bool) :
    entryPwt (entrySet entry address present readWrite userSupervisor) = entryPwt entry ∧
      entryPcd (entrySet entry address present readWrite userSupervisor) = entryPcd entry := by
  have low := accessBits_lt present readWrite userSupervisor
  unfold entryPwt entryPcd entrySet
  generalize present.toNat + 2 * readWrite.toNat + 4 * userSupervisor.toNat = access at low ⊢
  exact ⟨decide_eq_decide.mpr (by omega), decide_eq_decide.mpr (by omega)⟩

/-- The cache bits of an entry are those that the flags ask for. -/
def HonoursCaching (flags : BitVec 32) (entry : Nat) : Prop :=
  entryPcd entry = decide (flags &&& pagingCacheDisabled ≠ 0) ∧
    entryPwt entry = decide (flags &&& pagingWriteThrough ≠ 0)

instance (flags : BitVec 32) (entry : Nat) : Decidable (HonoursCaching flags entry) :=
  inferInstanceAs (Decidable (_ ∧ _))

theorem honoursCaching_leafSet (flags flags' : BitVec 32) (entry phys : Nat) :
    HonoursCaching flags (leafSet entry phys flags') ↔ HonoursCaching flags entry := by
  obtain ⟨pwt, pcd⟩ := entrySet_cacheBits entry (phys / 2 ^ 12) (flags' &&& pagingIsPresent ≠ 0)
    (flags' &&& pagingIsWriteable ≠ 0) (flags' &&& pagingAccessFromAll ≠ 0)
  unfold HonoursCaching leafSet
  rw [pwt, pcd]

/-! ### The calls -/

namespace MapCall

/-- **Every leaf entry that the call writes** has the cache bits that its flags ask for. -/
def CacheHonoured (k : Kernel) (desc : PagingDesc) (flags : BitVec 32) (call : MapCall) : Prop :=
  ∀ i < call.pages, HonoursCaching flags (entryAt (call.after k desc flags (i + 1)).mem
    (leafPlace (call.after k desc flags i) desc (pageAt call.virt i)))

/-- What is written has the cache bits of what is written over. -/
theorem cacheHonoured_found (k : Kernel) (desc : PagingDesc) (flags : BitVec 32) (call : MapCall) :
    call.CacheHonoured k desc flags ↔
      ∀ i < call.pages, HonoursCaching flags (leafFound (call.after k desc flags i) desc (pageAt call.virt i)) := by
  unfold CacheHonoured
  refine forall₂_congr fun i _ => ?_
  rw [after_succ, entryAt_leafPlace, honoursCaching_leafSet]

/-- **The cache bits are honoured exactly when they were right before**: when every entry that the call writes over has
them. In a tree of tables these are the leaves of the pages before the call, null ones where a table is missing. -/
theorem cacheHonoured_iff (k : Kernel) (desc : PagingDesc) (flags : BitVec 32) (call : MapCall) :
    (call.CacheHonoured k desc flags ↔
      ∀ i < call.pages, HonoursCaching flags (leafFound (call.after k desc flags i) desc (pageAt call.virt i))) ∧
      (TableTree k.mem desc → call.Served k desc flags →
        (call.CacheHonoured k desc flags ↔
          ∀ i < call.pages, HonoursCaching flags (pageEntry k.mem desc (pageAt call.virt i)))) := by
  refine ⟨cacheHonoured_found k desc flags call, fun tables served => ?_⟩
  rw [cacheHonoured_found]
  refine forall₂_congr fun i inside => ?_
  rw [leafFound_after tables served inside]

end MapCall

/-! ### The registers of a disk -/

/-- The flags of `nvme_map_mmio_once`. -/
def nvmeMmioFlags : BitVec 32 := pagingIsPresent ||| pagingIsWriteable ||| pagingCacheDisabled

/-- A null entry asks for neither bit. -/
theorem not_honoursCaching_zero : ¬ HonoursCaching nvmeMmioFlags 0 := by decide

/-- A page below a null entry of the root has no leaf. -/
theorem pageEntry_of_root {mem : Memory} {desc : PagingDesc} {va : Nat}
    (null : tableRead mem desc.pml (tableIndex va 3) = 0) : pageEntry mem desc va = 0 := by
  unfold pageEntry leaf pagePath
  rw [walk, null]
  rfl

/-- The first page of a device, in a new descriptor: its entry is null, and the flag is lost. -/
theorem cacheDisabled_lost : ¬ (MapCall.map 0xfebd0000 0xfebd0000).CacheHonoured firstDescriptor.kernel firstDescriptor.desc
    nvmeMmioFlags := by
  obtain ⟨begun, chains, tables, spares⟩ := firstDescriptor_inHeap
  obtain ⟨_, cleared⟩ := cleared_initial begun
  have allocated := (pagingMap_inHeap 3 tables spares 0xfebd0000 0xfebd0000 nvmeMmioFlags).1
  rw [MapCall.cacheHonoured_found]
  intro honoured
  have found := honoured 0 Nat.one_pos
  change HonoursCaching nvmeMmioFlags (leafFound firstDescriptor.kernel firstDescriptor.desc 0xfebd0000) at found
  rw [leafFound_eq tables.tree allocated, pageEntry_of_root (cleared _ (tableIndex_lt _ _))] at found
  exact not_honoursCaching_zero found

end PeachOS
