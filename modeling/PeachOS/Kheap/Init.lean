/-
**`kheap_init`: the heaps the kernel starts with.**

`kheapInit` creates the minimal heap in the chosen region, makes it the first heap of the kernel
multiheap and offers every other usable region to `multiheap_add`. The result of that call is ignored.

`multiheapAdd_fails` — `multiheap_add` refuses every nonempty region: the table it gives to
`heap_create` is zeroed and says that the heap has no blocks. So the minimal heap stays alone, and
`kheapInit_covers_iff` follows: the other usable regions are covered exactly when there is none.
-/

import PeachOS.Kheap.Layout
import PeachOS.Multiheap.Model

namespace PeachOS

open ByteStore SpanTable

/-! ### The code -/

/-- The page-aligned part of a region at or above the lowest heap address. -/
def alignedRange (current : E820Entry) : Nat × Nat :=
  let baseAddr := current.baseAddr
  let endAddr := toWord (current.baseAddr + current.length)
  let baseAddr := if pagingIsAligned baseAddr then baseAddr else pagingAlignAddress baseAddr
  let endAddr := if pagingIsAligned endAddr then endAddr else pagingAlignToLowerPage endAddr
  let baseAddr := if baseAddr < peachosMinimalHeapAddress then peachosMinimalHeapAddress else baseAddr
  (baseAddr, endAddr)

/-- The loop of `kheap_init` over the entries, with the index of the next one. -/
def kheapInitLoop (usedEntry : Nat) : (i : Nat) → List E820Entry → Kernel → Kernel
  | _, [], k => k
  | i, current :: rest, k =>
      let range := alignedRange current
      if i ≠ usedEntry ∧ current.type = 1 ∧ range.1 < range.2 then
        kheapInitLoop usedEntry (i + 1) rest
          (multiheapAdd k range.1 range.2 multiheapHeapFlagDefragmentWithPaging).2
      else kheapInitLoop usedEntry (i + 1) rest k

/-- A `struct heap` that nothing has initialised. -/
def zeroHeap : Heap :=
  { table := ⟨0, 0⟩, saddr := 0, eaddr := 0, totalBlocks := 0, freeBlocks := 0, usedBlocks := 0,
    blockAllocatedCallback := false, blockFreeCallback := false }

/-- The kernel before it has a multiheap. -/
def bootKernel (mem : Memory) (minimal : Heap) : Kernel :=
  { mem := mem
    heaps := fun ref => if ref = .kernelMinimalHeap then minimal else zeroHeap
    multiheap := ⟨.kernelMinimalHeap, [], 0, 0, 0⟩
    calls := [] }

/-- `kheap_init`; `none` when it panics or follows the null pointer of a failed `multiheap_new`. -/
def kheapInit (entries : List E820Entry) (mem : Memory) : Option Kernel :=
  match kheapGetAllowableMemoryRegionForMinimalHeap entries with
  | none => none
  | some usedEntry =>
      match entries[usedEntry]? with
      | none => none
      | some entry =>
          let layout := kheapLayout entry
          match heapCreate mem layout.heapAddress layout.heapEndAddress
              { entries := layout.heapTableAddress, total := layout.totalTableEntries } with
          | .error _ => none
          | .ok (minimal, mem) =>
              let made := multiheapNew (bootKernel mem minimal) .kernelMinimalHeap
              if made.1 then
                some (kheapInitLoop usedEntry 0 entries
                  (multiheapAddExistingHeap made.2 .kernelMinimalHeap multiheapHeapFlagExternallyOwned).2)
              else none

/-! ### What building the multiheap leaves alone -/

/-- `heap_create` refuses a table without entries for a nonempty range. -/
theorem heapCreate_no_entries {mem : Memory} {saddr eaddr : Nat} (aligned : saddr % peachosHeapBlockSize = 0)
    (aligned' : eaddr % peachosHeapBlockSize = 0) (order : saddr < eaddr) (bound : eaddr < 2 ^ 64) :
    heapCreate mem saddr eaddr ⟨0, 0⟩ = .error einvarg := by
  have validate : heapValidateTable saddr eaddr ⟨0, 0⟩ = einvarg := by
    unfold heapValidateTable
    simp only [peachosHeapBlockSize] at aligned aligned' ⊢
    rw [toWord_sub (by omega) (by omega), if_pos (by omega)]
  unfold heapCreate
  simp only [validate, heapValidateAlignment, aligned, aligned', decide_true, Bool.not_true, Bool.or_false]
  rw [if_neg (by decide), if_pos (by decide)]

/-- **`multiheap_add` refuses every nonempty region**, with `-ENOMEM` or `-EINVARG`, and leaves the list
of heaps as it was. -/
theorem multiheapAdd_fails (k : Kernel) {saddr eaddr : Nat} (aligned : saddr % peachosHeapBlockSize = 0)
    (aligned' : eaddr % peachosHeapBlockSize = 0) (order : saddr < eaddr) (bound : eaddr < 2 ^ 64)
    (flags : BitVec 32) :
    (multiheapAdd k saddr eaddr flags).1 < 0 ∧ (multiheapAdd k saddr eaddr flags).2.multiheap = k.multiheap ∧
      k.SameHeaps (multiheapAdd k saddr eaddr flags).2 := by
  have first := sameHeaps_zallocAt k k.multiheap.startingHeap sizeofHeap
  have second := sameHeaps_zallocAt (k.heapZallocAt k.multiheap.startingHeap sizeofHeap).2
    k.multiheap.startingHeap sizeofHeapTable
  unfold multiheapAdd
  simp only [heapCreate_no_entries aligned aligned' order bound]
  split
  · exact ⟨show enomem < 0 by decide, rfl, first.trans second⟩
  · exact ⟨show einvarg < 0 by decide, rfl, ((first.trans second).trans (sameHeaps_freeAt _ _ _)).trans (sameHeaps_freeAt _ _ _)⟩

/-- The range of a region is aligned. -/
theorem alignedRange_aligned (current : E820Entry) :
    (alignedRange current).1 % peachosHeapBlockSize = 0 ∧
      (alignedRange current).2 % peachosHeapBlockSize = 0 ∧ (alignedRange current).2 < 2 ^ 64 := by
  have word := toWord_lt (current.baseAddr + current.length)
  have base := pagingIsAligned_alignAddress current.baseAddr
  unfold alignedRange
  simp only [align_unless_aligned, lower_unless_aligned, peachosHeapBlockSize, peachosMinimalHeapAddress]
  simp only [pagingPageSize] at base
  refine ⟨?_, by omega, by omega⟩
  split
  · decide
  · exact base

/-- **The loop adds no heap.** -/
theorem kheapInitLoop_spec (usedEntry : Nat) (entries : List E820Entry) (i : Nat) (k : Kernel) :
    (kheapInitLoop usedEntry i entries k).multiheap = k.multiheap ∧
      k.SameHeaps (kheapInitLoop usedEntry i entries k) := by
  induction entries generalizing i k with
  | nil => exact ⟨rfl, fun _ => rfl⟩
  | cons current rest ih =>
      rw [kheapInitLoop]
      split
      · rename_i offered
        obtain ⟨low, high, bound⟩ := alignedRange_aligned current
        obtain ⟨_, list, heaps⟩ := multiheapAdd_fails k low high offered.2.2 bound
          multiheapHeapFlagDefragmentWithPaging
        obtain ⟨list', heaps'⟩ := ih (i + 1)
          (multiheapAdd k (alignedRange current).1 (alignedRange current).2
            multiheapHeapFlagDefragmentWithPaging).2
        exact ⟨list'.trans list, heaps.trans heaps'⟩
      · exact ih (i + 1) k

/-! ### The result -/

/-- A valid memory map: regions that do not meet and stay off the last page of the address space. -/
structure E820Valid (entries : List E820Entry) : Prop where
  addressable : ∀ entry ∈ entries, entry.baseAddr + entry.length + pagingPageSize ≤ 2 ^ 64
  disjoint : ∀ (i j : Nat) (entry entry' : E820Entry), i ≠ j → entries[i]? = some entry → entries[j]? = some entry' →
    Disjoint (Set.Ico entry.baseAddr (entry.baseAddr + entry.length))
      (Set.Ico entry'.baseAddr (entry'.baseAddr + entry'.length))

/-- A usable entry that the minimal heap does not use and whose aligned part is not empty. -/
def OtherUsable (entries : List E820Entry) (usedEntry i : Nat) (current : E820Entry) : Prop :=
  entries[i]? = some current ∧ i ≠ usedEntry ∧ current.type = 1 ∧
    (alignedRange current).1 < (alignedRange current).2

/-- **A range is covered**: exactly one heap of the kernel multiheap has it, and all of that heap is free. -/
def Covered (k : Kernel) (range : Nat × Nat) : Prop :=
  ∃! position : Nat, ∃ single : MultiheapSingleHeap, k.multiheap.heaps[position]? = some single ∧
    (k.heaps single.heap).saddr = range.1 ∧ (k.heaps single.heap).eaddr = range.2 ∧
    (k.heaps single.heap).freeBlocks = (k.heaps single.heap).totalBlocks ∧
    ∀ block < (k.heaps single.heap).table.total, (k.heapState single.heap).view block = heapBlockTableEntryFree

/-- An allocation of one block from a heap whose first block is free takes that block. -/
theorem heapMalloc_first {s : HeapState} {size : Nat} (one : heapBlocks size = 1)
    (nonempty : 0 < s.heap.table.total) (isFree : typeFree (s.entry 0)) :
    (heapMalloc s size).1 = heapBlockToAddress s.heap 0 := by
  obtain ⟨rest, total⟩ := Nat.exists_eq_succ_of_ne_zero nonempty.ne'
  have notTaken : ¬ heapGetEntryType (s.entry ((0 : Nat) : Int)) ≠ heapBlockTableEntryFree := not_not.mpr isFree
  have search : heapGetStartBlock s 1 = (some 0, s.touch 0) := by
    unfold heapGetStartBlock
    rw [total, heapGetStartBlockLoop, if_neg notTaken]
    rfl
  have unfolded : heapMalloc s size = heapMallocBlocks s (heapBlocks size) := rfl
  rw [unfolded, one, heapMallocBlocks, search]
  rfl

/-- The minimal heap is created in every region that is large enough. -/
theorem heapCreate_minimal (mem : Memory) {entry : E820Entry}
    (large : entry.length > peachosHeapMinimumSizeBytes) (bounded : entry.baseAddr + entry.length < 2 ^ 64) :
    ∃ minimal mem', heapCreate mem (kheapLayout entry).heapAddress (kheapLayout entry).heapEndAddress
        { entries := (kheapLayout entry).heapTableAddress, total := (kheapLayout entry).totalTableEntries } =
        .ok (minimal, mem') ∧
      minimal.saddr = (kheapLayout entry).heapAddress ∧ minimal.eaddr = (kheapLayout entry).heapEndAddress ∧
      0 < minimal.saddr ∧ minimal.saddr < minimal.eaddr ∧
      entry.baseAddr ≤ minimal.saddr ∧ minimal.eaddr ≤ entry.baseAddr + entry.length ∧
      0 < minimal.table.total ∧ minimal.table.entries < 2 ^ 64 ∧
      mem' minimal.table.entries = heapBlockTableEntryFree := by
  obtain ⟨start, startEq⟩ : ∃ start, start =
      (tableAddress entry + (regionBytes entry - regionBytes entry / 4096) / 4096 + 4095) / 4096 * 4096 :=
    ⟨_, rfl⟩
  obtain ⟨finish, finishEq⟩ : ∃ finish, finish = (entry.baseAddr + entry.length) / 4096 * 4096 := ⟨_, rfl⟩
  have eq : kheapLayout entry = ⟨tableAddress entry, (finish - start) / 4096, start, finish⟩ := by
    rw [kheapLayout_eq large bounded, startEq, finishEq]
  simp only [peachosHeapMinimumSizeBytes] at large
  have tableLow := tableAddress_low large
  have tableBase : entry.baseAddr ≤ tableAddress entry := le_max_left _ _
  have tableAbove : 0x01000000 ≤ tableAddress entry := le_max_right _ _
  have bytesEq : regionBytes entry = entry.baseAddr + entry.length - tableAddress entry := rfl
  rw [eq]
  have order : tableAddress entry ≤ start ∧ start + 4096 ≤ finish ∧ finish ≤ entry.baseAddr + entry.length := by
    omega
  have validate : heapValidateTable start finish ⟨tableAddress entry, (finish - start) / 4096⟩ = 0 := by
    unfold heapValidateTable
    simp only [peachosHeapBlockSize]
    rw [toWord_sub (by omega) (by omega), if_neg (by omega)]
  have aligned : start % 4096 = 0 := by omega
  have aligned' : finish % 4096 = 0 := by omega
  refine ⟨⟨⟨tableAddress entry, (finish - start) / 4096⟩, start, finish, (finish - start) / 4096,
    (finish - start) / 4096, 0, false, false⟩,
    memset mem (tableAddress entry) heapBlockTableEntryFree ((finish - start) / 4096), ?_, rfl, rfl,
    by simp only; omega, by simp only; omega, by simp only; omega, by simp only; omega,
    by simp only; omega, by simp only; omega, ?_⟩
  · unfold heapCreate
    simp only [validate, heapValidateAlignment, peachosHeapBlockSize, aligned, aligned', decide_true,
      Bool.not_true, Bool.or_false, lt_irrefl, if_false, Bool.false_eq_true]
  · rw [memset, fill_apply, if_pos]
    exact ⟨le_rfl, by simp only; omega⟩

/-- The aligned part of a region is in the region. -/
theorem alignedRange_inside {current : E820Entry}
    (addressable : current.baseAddr + current.length + pagingPageSize ≤ 2 ^ 64)
    (nonempty : (alignedRange current).1 < (alignedRange current).2) :
    current.baseAddr ≤ (alignedRange current).1 ∧
      (alignedRange current).2 ≤ current.baseAddr + current.length := by
  revert nonempty
  simp only [pagingPageSize] at addressable
  unfold alignedRange
  simp only [align_unless_aligned, lower_unless_aligned, peachosMinimalHeapAddress]
  rw [pagingAlignAddress_eq (by omega), toWord_of_bounds (by omega) (by omega)]
  split <;> omega

theorem heapZalloc_pointer (s : HeapState) (size : Nat) : (heapZalloc s size).1 = (heapMalloc s size).1 := by
  unfold heapZalloc
  simp only
  split
  · rename_i failed
    exact failed.symm
  · rfl

/-- `multiheap_add_heap` appends at most the heap it is given. -/
theorem multiheapAddHeap_list (k : Kernel) (heap : HeapRef) (flags : BitVec 32) :
    ((multiheapAddHeap k heap flags).2.multiheap.heaps = k.multiheap.heaps ∨
      ∃ single : MultiheapSingleHeap, single.heap = heap ∧
        (multiheapAddHeap k heap flags).2.multiheap.heaps = k.multiheap.heaps ++ [single]) ∧
      k.SameHeaps (multiheapAddHeap k heap flags).2 := by
  have zalloc := sameHeaps_zallocAt k k.multiheap.startingHeap sizeofMultiheapSingleHeap
  unfold multiheapAddHeap
  split
  · exact ⟨Or.inl rfl, fun _ => rfl⟩
  · simp only
    split
    · exact ⟨Or.inl rfl, zalloc⟩
    · exact ⟨Or.inr ⟨_, rfl, rfl⟩, zalloc⟩

/-- **What `kheap_init` leaves**: the multiheap has no heap but the minimal heap, which lies in the region
it uses. -/
theorem kheapInit_result {entries : List E820Entry} {usedEntry : Nat} (valid : E820Valid entries)
    (chosen : kheapGetAllowableMemoryRegionForMinimalHeap entries = some usedEntry) (mem : Memory) :
    ∃ k entry, kheapInit entries mem = some k ∧ entries[usedEntry]? = some entry ∧
      (∀ single ∈ k.multiheap.heaps, single.heap = .kernelMinimalHeap) ∧
      entry.baseAddr ≤ (k.heaps .kernelMinimalHeap).saddr ∧
      (k.heaps .kernelMinimalHeap).saddr < entry.baseAddr + entry.length := by
  obtain ⟨inside, holds, _⟩ := List.findIdx?_eq_some_iff_getElem.mp chosen
  have large : entries[usedEntry].length > peachosHeapMinimumSizeBytes := by
    simpa using (of_decide_eq_true holds).2
  have found : entries[usedEntry]? = some entries[usedEntry] := List.getElem?_eq_getElem inside
  have addressable := valid.addressable _ (List.getElem_mem inside)
  generalize entries[usedEntry] = entry at large found addressable
  simp only [pagingPageSize] at addressable
  obtain ⟨minimal, created, create, saddrEq, eaddrEq, positive, order, low, high, nonempty, tableWord, isFree⟩ :=
    heapCreate_minimal mem large (show entry.baseAddr + entry.length < 2 ^ 64 by omega)
  have made : (multiheapNew (bootKernel created minimal) .kernelMinimalHeap).1 = true := by
    have first : typeFree (((bootKernel created minimal).heapState .kernelMinimalHeap).entry 0) := by
      show typeFree (created (toWord ((minimal.table.entries : Int) + 0)))
      rw [add_zero, toWord_natCast tableWord, isFree]
      rfl
    have pointer : (heapZalloc ((bootKernel created minimal).heapState .kernelMinimalHeap) sizeofMultiheap).1 =
        minimal.saddr := by
      rw [heapZalloc_pointer, heapMalloc_first (by decide) nonempty first]
      show toWord ((minimal.saddr : Int) + 0 * 4096) = minimal.saddr
      rw [zero_mul, add_zero, toWord_natCast (by omega)]
    unfold multiheapNew Kernel.heapZallocAt
    simp only
    rw [if_neg (by rw [pointer]; omega)]
  have newList : (multiheapNew (bootKernel created minimal) .kernelMinimalHeap).2.multiheap.heaps = [] := by
    unfold multiheapNew
    simp only
    split <;> rfl
  have newHeaps : (bootKernel created minimal).SameHeaps
      (multiheapNew (bootKernel created minimal) .kernelMinimalHeap).2 := by
    have zalloc := sameHeaps_zallocAt (bootKernel created minimal) .kernelMinimalHeap sizeofMultiheap
    unfold multiheapNew
    simp only
    split <;> exact zalloc
  obtain ⟨addList, addHeaps⟩ := multiheapAddHeap_list
    (multiheapNew (bootKernel created minimal) .kernelMinimalHeap).2 .kernelMinimalHeap
    (multiheapHeapFlagExternallyOwned ||| multiheapHeapFlagExternallyOwned)
  obtain ⟨loopList, loopHeaps⟩ := kheapInitLoop_spec usedEntry entries 0
    (multiheapAddExistingHeap (multiheapNew (bootKernel created minimal) .kernelMinimalHeap).2
      .kernelMinimalHeap multiheapHeapFlagExternallyOwned).2
  refine ⟨kheapInitLoop usedEntry 0 entries
    (multiheapAddExistingHeap (multiheapNew (bootKernel created minimal) .kernelMinimalHeap).2
      .kernelMinimalHeap multiheapHeapFlagExternallyOwned).2, entry, ?_, found, ?_, ?_⟩
  · unfold kheapInit
    rw [chosen]
    simp only [found, create, made, if_true]
  · intro single member
    rw [loopList] at member
    rcases addList with same | ⟨added, heapEq, appended⟩
    · rw [multiheapAddExistingHeap, same, newList] at member
      exact absurd member (List.not_mem_nil)
    · rw [multiheapAddExistingHeap, appended, newList, List.nil_append, List.mem_singleton] at member
      rw [member, heapEq]
  · have geometry := (newHeaps.trans (addHeaps.trans loopHeaps)) .kernelMinimalHeap
    rw [geometry.saddr]
    show entry.baseAddr ≤ minimal.saddr ∧ minimal.saddr < entry.baseAddr + entry.length
    omega

/-- No heap of the kernel multiheap has another region. -/
theorem kheapInit_not_covered {entries : List E820Entry} {usedEntry : Nat} (valid : E820Valid entries)
    (chosen : kheapGetAllowableMemoryRegionForMinimalHeap entries = some usedEntry) (mem : Memory) :
    ∃ k, kheapInit entries mem = some k ∧
      ∀ i current, OtherUsable entries usedEntry i current → ¬ Covered k (alignedRange current) := by
  obtain ⟨k, entry, result, found, onlyMinimal, low, high⟩ := kheapInit_result valid chosen mem
  refine ⟨k, result, fun i current other covered => ?_⟩
  obtain ⟨position, ⟨single, listed, saddrEq, _⟩, _⟩ := covered
  obtain ⟨there, different, _, nonempty⟩ := other
  rw [onlyMinimal single (List.mem_of_getElem? listed)] at saddrEq
  obtain ⟨low', high'⟩ := alignedRange_inside
    (valid.addressable current (List.mem_of_getElem? there)) nonempty
  -- the lowest data address of the minimal heap would be in two regions
  have apart := valid.disjoint usedEntry i entry current different.symm found there
  exact Set.disjoint_left.mp apart ⟨low, high⟩ ⟨by omega, by omega⟩

/-- **`kheap_init` covers the other usable regions exactly when there is none**: the call of `multiheap_add`
that it makes for each of them always fails. -/
theorem kheapInit_covers_iff {entries : List E820Entry} {usedEntry : Nat} (valid : E820Valid entries)
    (chosen : kheapGetAllowableMemoryRegionForMinimalHeap entries = some usedEntry) (mem : Memory) :
    (∃ k, kheapInit entries mem = some k ∧
      ((∀ i current, OtherUsable entries usedEntry i current → Covered k (alignedRange current)) ↔
        ∀ i current, ¬ OtherUsable entries usedEntry i current)) ∧
      ∀ (k : Kernel) (saddr eaddr : Nat) (flags : BitVec 32), saddr % peachosHeapBlockSize = 0 →
        eaddr % peachosHeapBlockSize = 0 → saddr < eaddr → eaddr < 2 ^ 64 →
        (multiheapAdd k saddr eaddr flags).1 < 0 ∧
          (multiheapAdd k saddr eaddr flags).2.multiheap.heaps = k.multiheap.heaps := by
  constructor
  · obtain ⟨k, result, notCovered⟩ := kheapInit_not_covered valid chosen mem
    refine ⟨k, result, ?_, ?_⟩
    · exact fun covered i current other => notCovered i current other (covered i current other)
    · exact fun none i current other => absurd other (none i current)
  · intro k saddr eaddr flags aligned aligned' order bound
    obtain ⟨failed, list, _⟩ := multiheapAdd_fails k aligned aligned' order bound flags
    exact ⟨failed, by rw [list]⟩

/-- A memory map with two usable regions, of 128 MB and of 16 MB. -/
def twoRegions : List E820Entry := [smallRegion, { baseAddr := 0x10000000, length := 0x01000000, type := 1 }]

theorem twoRegions_valid : E820Valid twoRegions := by
  constructor
  · decide
  · have apart : Disjoint (Set.Ico 0x01000000 (0x01000000 + 0x08000000))
        (Set.Ico 0x10000000 (0x10000000 + 0x01000000)) :=
      Set.disjoint_left.mpr fun address low high => by
        simp only [Set.mem_Ico] at low high
        omega
    intro i j entry entry' different found found'
    match i, j with
    | 0, 0 => exact absurd rfl different
    | 1, 1 => exact absurd rfl different
    | 0, 1 =>
        cases found
        cases found'
        exact apart
    | 1, 0 =>
        cases found
        cases found'
        exact apart.symm
    | _ + 2, _ => exact absurd found (by simp [twoRegions])
    | _, _ + 2 => exact absurd found' (by simp [twoRegions])

theorem kheapInit_covers_twoRegions : ∃ k, kheapInit twoRegions (fun _ => 0) = some k ∧
    ((∀ i current, OtherUsable twoRegions 0 i current → Covered k (alignedRange current)) ↔
      ∀ i current, ¬ OtherUsable twoRegions 0 i current) :=
  (kheapInit_covers_iff twoRegions_valid (by decide) (fun _ => 0)).1

/-- **A usable region can be left out.** -/
theorem kheapInit_leaves_region_out : ¬ ∀ (entries : List E820Entry) (usedEntry : Nat) (mem : Memory) (k : Kernel),
    E820Valid entries → kheapGetAllowableMemoryRegionForMinimalHeap entries = some usedEntry →
    kheapInit entries mem = some k →
    ∀ i current, OtherUsable entries usedEntry i current → Covered k (alignedRange current) := by
  intro always
  obtain ⟨k, result, notCovered⟩ := kheapInit_not_covered twoRegions_valid
    (show kheapGetAllowableMemoryRegionForMinimalHeap twoRegions = some 0 by decide) (fun _ => 0)
  have other : OtherUsable twoRegions 0 1 ⟨0x10000000, 0x01000000, 1⟩ := by
    refine ⟨rfl, by decide, rfl, by decide⟩
  exact notCovered _ _ other (always twoRegions 0 _ k twoRegions_valid (by decide) result _ _ other)

end PeachOS
