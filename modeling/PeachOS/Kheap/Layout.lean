/-
**Where `kheap_init` puts the minimal heap and its table.**

The table comes first in the chosen memory region, the data blocks follow on the next page. Both sizes
depend on each other; `kheap_init` divides twice and rounds both ends to pages. `kheapLayout` is that
computation.

`layout_sound_iff` says when it works out: the table and the blocks are in the region and of matching
sizes for every region, but the table can be a few bytes longer than what was set aside for it. That
happens when the bytes set aside fill `m - 1` pages and no more, where `m` is the least number of pages
for which the table of the remaining pages fits.
-/

import PeachOS.Paging.Address
import Mathlib.Data.Set.Pairwise.Basic
import Mathlib.Order.CompletePartialOrder
import Mathlib.Order.Interval.Set.Basic
import Mathlib.Order.Interval.Set.Disjoint

namespace PeachOS

/-- `struct e820_entry`: a memory region; type 1 is usable. -/
structure E820Entry where
  baseAddr : Nat
  length : Nat
  type : Nat
deriving DecidableEq

/-- `kheap_get_allowable_memory_region_for_minimal_heap`: the index of the chosen entry. -/
def kheapGetAllowableMemoryRegionForMinimalHeap (entries : List E820Entry) : Option Nat :=
  entries.findIdx? fun current => current.type = 1 ∧ current.length > peachosHeapMinimumSizeBytes

/-- The table and the data blocks of the minimal heap. -/
structure KheapLayout where
  heapTableAddress : Nat
  totalTableEntries : Nat
  heapAddress : Nat
  heapEndAddress : Nat
deriving DecidableEq

/-- The computation of the layout at the start of `kheap_init`; a table entry has one byte. -/
def kheapLayout (entry : E820Entry) : KheapLayout :=
  let address := entry.baseAddr
  let endAddress := toWord (entry.baseAddr + entry.length)
  let heapTableAddress :=
    if address < peachosMinimalHeapTableAddress then peachosMinimalHeapTableAddress else address
  let totalHeapSize := toWord (endAddress - heapTableAddress)
  let totalHeapBlocks := totalHeapSize / peachosHeapBlockSize
  let totalHeapEntryTableSize := totalHeapBlocks
  let heapDataSize := toWord (totalHeapSize - totalHeapEntryTableSize)
  let totalHeapDataBlocks := heapDataSize / peachosHeapBlockSize
  let totalHeapEntryTableSize := totalHeapDataBlocks
  let heapAddress := toWord (heapTableAddress + totalHeapEntryTableSize)
  let heapAddress := if pagingIsAligned heapAddress then heapAddress else pagingAlignAddress heapAddress
  let heapEndAddress := if pagingIsAligned endAddress then endAddress else pagingAlignToLowerPage endAddress
  let size := toWord (heapEndAddress - heapAddress)
  { heapTableAddress := heapTableAddress
    totalTableEntries := size / peachosHeapBlockSize
    heapAddress := heapAddress
    heapEndAddress := heapEndAddress }

/-- **A sound layout**: the table does not overlap the blocks, both lie in the region, the table not
below its lowest address, and it has one entry for each block. -/
structure LayoutSound (entry : E820Entry) (layout : KheapLayout) : Prop where
  apart : Disjoint (Set.Ico layout.heapTableAddress (layout.heapTableAddress + layout.totalTableEntries))
    (Set.Ico layout.heapAddress layout.heapEndAddress)
  tableInside : entry.baseAddr ≤ layout.heapTableAddress ∧
    layout.heapTableAddress + layout.totalTableEntries ≤ entry.baseAddr + entry.length
  tableAbove : peachosMinimalHeapTableAddress ≤ layout.heapTableAddress
  dataInside : entry.baseAddr ≤ layout.heapAddress ∧ layout.heapAddress ≤ layout.heapEndAddress ∧
    layout.heapEndAddress ≤ entry.baseAddr + entry.length
  entries : layout.totalTableEntries = (layout.heapEndAddress - layout.heapAddress) / 4096

/-- The table address of a region. -/
def tableAddress (entry : E820Entry) : Nat := max entry.baseAddr peachosMinimalHeapTableAddress

/-- The bytes of a region from the table address on. -/
def regionBytes (entry : E820Entry) : Nat := entry.baseAddr + entry.length - tableAddress entry

/-- The bytes from the table address to the next page. -/
def pageGap (entry : E820Entry) : Nat := (4096 - tableAddress entry % 4096) % 4096

/-- The whole pages of a region behind that gap. -/
def regionPages (entry : E820Entry) : Nat := (regionBytes entry - pageGap entry) / 4096

/-- The least number of pages to set aside: with the gap they hold the table of the other pages. -/
def leastTablePages (entry : E820Entry) : Nat := (regionPages entry - pageGap entry + 4096) / 4097

/-- **The table fits**: one byte for each 4096 bytes of what is left after one byte for each 4096 bytes
of the region reaches into the last of the least number of pages. -/
def tableFits (entry : E820Entry) : Prop :=
  4096 * (leastTablePages entry - 1) + pageGap entry < (regionBytes entry - regionBytes entry / 4096) / 4096

instance (entry : E820Entry) : Decidable (tableFits entry) :=
  inferInstanceAs (Decidable (_ < _))

theorem tableAddress_low {entry : E820Entry} (large : 104857600 < entry.length) :
    tableAddress entry + 88000000 ≤ entry.baseAddr + entry.length := by
  unfold tableAddress
  simp only [peachosMinimalHeapTableAddress]
  omega

/-- The conversions of the layout lose nothing in a region that does not wrap. -/
theorem kheapLayout_eq {entry : E820Entry} (large : entry.length > peachosHeapMinimumSizeBytes)
    (bounded : entry.baseAddr + entry.length < 2 ^ 64) :
    kheapLayout entry =
      let setAside := (regionBytes entry - regionBytes entry / 4096) / 4096
      let heapAddress := (tableAddress entry + setAside + 4095) / 4096 * 4096
      let heapEndAddress := (entry.baseAddr + entry.length) / 4096 * 4096
      { heapTableAddress := tableAddress entry
        totalTableEntries := (heapEndAddress - heapAddress) / 4096
        heapAddress := heapAddress
        heapEndAddress := heapEndAddress } := by
  simp only [peachosHeapMinimumSizeBytes] at large
  have table : (if entry.baseAddr < peachosMinimalHeapTableAddress then peachosMinimalHeapTableAddress
      else entry.baseAddr) = tableAddress entry := by
    unfold tableAddress
    split <;> omega
  have tableLow := tableAddress_low large
  have bytesEq : regionBytes entry = entry.baseAddr + entry.length - tableAddress entry := rfl
  unfold kheapLayout
  simp only [table, peachosHeapBlockSize, align_unless_aligned, lower_unless_aligned]
  have data := Nat.div_le_self (regionBytes entry) 4096
  have finish : toWord ((entry.baseAddr : Int) + entry.length) = entry.baseAddr + entry.length := by
    rw [← Nat.cast_add, toWord_natCast bounded]
  have bytes : toWord ((entry.baseAddr + entry.length : Nat) - (tableAddress entry : Nat)) = regionBytes entry :=
    toWord_sub (by omega) bounded
  have rest : toWord ((regionBytes entry : Nat) - (regionBytes entry / 4096 : Nat)) =
      regionBytes entry - regionBytes entry / 4096 := toWord_sub data (by omega)
  have start : toWord ((tableAddress entry : Int) +
      ((regionBytes entry - regionBytes entry / 4096) / 4096 : Nat)) =
      tableAddress entry + (regionBytes entry - regionBytes entry / 4096) / 4096 := by
    rw [← Nat.cast_add, toWord_natCast (by omega)]
  simp only [finish, bytes, rest, start]
  rw [pagingAlignAddress_eq (by omega), toWord_sub (by omega) (by omega)]

/-- **Table pages against data pages.** With `setAside` bytes rounded up to pages behind the table
address, the table of the remaining pages ends before them exactly when the least number of pages is
set aside. -/
theorem table_before_data_iff (table finish setAside gap pages : Nat)
    (gapEq : gap = (4096 - table % 4096) % 4096) (pagesEq : pages = (finish - table - gap) / 4096)
    (order : table + gap ≤ finish) (many : gap < pages)
    (few : (table + setAside + 4095) / 4096 ≤ finish / 4096) :
    table + (finish / 4096 * 4096 - (table + setAside + 4095) / 4096 * 4096) / 4096 ≤
        (table + setAside + 4095) / 4096 * 4096 ↔
      4096 * ((pages - gap + 4096) / 4097 - 1) + gap < setAside := by
  -- the first page of the data, counted from the first page behind the table address
  obtain ⟨first, firstEq⟩ : ∃ first, table + gap = 4096 * first := ⟨(table + 4095) / 4096, by omega⟩
  have finishEq : finish / 4096 = first + pages := by omega
  have startEq : (table + setAside + 4095) / 4096 = first + (setAside + 4095 - gap) / 4096 := by omega
  rw [finishEq, startEq] at few ⊢
  generalize taken : (setAside + 4095 - gap) / 4096 = count at few ⊢
  have entriesEq : ((first + pages) * 4096 - (first + count) * 4096) / 4096 = pages - count := by omega
  rw [entriesEq]
  have fits : table + (pages - count) ≤ (first + count) * 4096 ↔ pages ≤ gap + 4097 * count := by omega
  have least : pages ≤ gap + 4097 * count ↔ (pages - gap + 4096) / 4097 ≤ count := by omega
  have some : 0 < (pages - gap + 4096) / 4097 := by omega
  rw [fits, least]
  generalize (pages - gap + 4096) / 4097 = pagesNeeded at some ⊢
  omega

/-- A range that starts before a nonempty range it does not meet ends before it. -/
theorem end_le_of_disjoint {start finish start' finish' : Nat}
    (apart : Disjoint (Set.Ico start finish) (Set.Ico start' finish')) (order : start ≤ start')
    (nonempty : start' < finish') : finish ≤ start' := by
  by_contra overlap
  have inFirst : start' ∈ Set.Ico start finish := ⟨order, by omega⟩
  exact Set.disjoint_left.mp apart inFirst ⟨le_rfl, nonempty⟩

/-- **The layout of the minimal heap is sound exactly when the table fits.** -/
theorem layout_sound_iff {entries : List E820Entry} {index : Nat} {entry : E820Entry}
    (chosen : kheapGetAllowableMemoryRegionForMinimalHeap entries = some index)
    (found : entries[index]? = some entry) (bounded : entry.baseAddr + entry.length ≤ 2 ^ 52) :
    LayoutSound entry (kheapLayout entry) ↔ tableFits entry := by
  have large : entry.length > peachosHeapMinimumSizeBytes := by
    obtain ⟨inside, holds, _⟩ := List.findIdx?_eq_some_iff_getElem.mp chosen
    rw [List.getElem?_eq_getElem inside, Option.some.injEq] at found
    rw [found] at holds
    simpa using (of_decide_eq_true holds).2
  have eq := kheapLayout_eq large (by omega)
  simp only [peachosHeapMinimumSizeBytes] at large
  have tableLow : tableAddress entry + 88000000 ≤ entry.baseAddr + entry.length := by
    unfold tableAddress
    simp only [peachosMinimalHeapTableAddress]
    omega
  have tableBase : entry.baseAddr ≤ tableAddress entry := le_max_left _ _
  have tableAbove : peachosMinimalHeapTableAddress ≤ tableAddress entry := le_max_right _ _
  have bytesEq : regionBytes entry = entry.baseAddr + entry.length - tableAddress entry := rfl
  have gapEq : pageGap entry = (4096 - tableAddress entry % 4096) % 4096 := rfl
  have pagesEq : regionPages entry = (regionBytes entry - pageGap entry) / 4096 := rfl
  have few : (tableAddress entry + (regionBytes entry - regionBytes entry / 4096) / 4096 + 4095) / 4096 ≤
      (entry.baseAddr + entry.length) / 4096 := by omega
  have iff := table_before_data_iff (tableAddress entry) (entry.baseAddr + entry.length)
    ((regionBytes entry - regionBytes entry / 4096) / 4096) (pageGap entry) (regionPages entry) gapEq
    (by rw [pagesEq, bytesEq]) (by omega) (by omega) few
  rw [eq]
  unfold tableFits leastTablePages
  rw [← iff]
  constructor
  · intro sound
    exact end_le_of_disjoint sound.apart (by simp only; omega) (by simp only; omega)
  · intro fits
    refine ⟨?_, ⟨tableBase, ?_⟩, tableAbove, ⟨?_, ?_, ?_⟩, rfl⟩
    · exact Set.disjoint_left.mpr fun address inTable inData => by
        simp only [Set.mem_Ico] at inTable inData
        omega
    · simp only
      omega
    · simp only
      omega
    · simp only
      omega
    · simp only
      omega

/-- A region of 128 MB from `0x01000000` on. -/
def smallRegion : E820Entry := { baseAddr := 0x01000000, length := 0x08000000, type := 1 }

theorem layout_sound_smallRegion :
    LayoutSound smallRegion (kheapLayout smallRegion) ↔ tableFits smallRegion :=
  layout_sound_iff (show kheapGetAllowableMemoryRegionForMinimalHeap [smallRegion] = some 0 by decide) rfl
    (by decide)

/-- A region whose table is one byte longer than what is set aside. -/
def overlappingRegion : E820Entry := { baseAddr := 0x01000000, length := 0x07008000, type := 1 }

/-- **The table can overlap the first block.** -/
theorem layout_overlaps : ¬ ∀ (entries : List E820Entry) (index : Nat) (entry : E820Entry),
    kheapGetAllowableMemoryRegionForMinimalHeap entries = some index → entries[index]? = some entry →
    entry.baseAddr + entry.length ≤ 2 ^ 52 → LayoutSound entry (kheapLayout entry) := by
  intro always
  have sound := always [overlappingRegion] 0 overlappingRegion (by decide) rfl (by decide)
  have layout : kheapLayout overlappingRegion = ⟨0x01000000, 28673, 0x01007000, 0x08008000⟩ := by decide
  have apart := sound.apart
  rw [layout] at apart
  have before := end_le_of_disjoint apart (by decide) (by decide)
  revert before
  decide

end PeachOS
