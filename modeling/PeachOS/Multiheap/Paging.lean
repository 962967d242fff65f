/-
**The paging side of `memory/heap/multiheap.c`.**

A heap that allows paging gets a paging heap when the multiheap is made ready: a heap of virtual
addresses, `max_end_data_addr` above its data heap, whose blocks are mapped to single data blocks. Freeing
a block of a paging heap calls `multiheap_paging_heap_free_block`, which clears the leaf of its page.

* `multiheapReady` makes the paging heaps and the tables of their pages;
* `multiheapAllocSecondPass` takes a run of virtual blocks and maps each to a data block;
* `multiheapFree` calls itself for the data address of each page, so it runs on a number of nested calls
  that are left, `none` when they run out.

The current paging descriptor is an argument. Operations that can panic return `none` when they do.
-/

import PeachOS.Paging.Model

namespace PeachOS

/-! ### Becoming ready -/

/-- `multiheap_get_max_memory_end_address`. -/
def multiheapGetMaxMemoryEndAddress (k : Kernel) : Nat :=
  k.multiheap.heaps.foldl
    (fun maxAddr current => if (k.heaps current.heap).eaddr ≥ maxAddr then (k.heaps current.heap).eaddr else maxAddr) 0

/-- The zeroed structure and what a failing `heap_create` has written to it. -/
def heapAfterFailure (ptr endPtr : Nat) (table : HeapTable) : Heap :=
  if !heapValidateAlignment ptr || !heapValidateAlignment endPtr then
    { table := { entries := 0, total := 0 }, saddr := 0, eaddr := 0, totalBlocks := 0, freeBlocks := 0,
      usedBlocks := 0, blockAllocatedCallback := false, blockFreeCallback := false }
  else
    { table := table, saddr := ptr, eaddr := endPtr, totalBlocks := table.total, freeBlocks := table.total,
      usedBlocks := 0, blockAllocatedCallback := false, blockFreeCallback := false }

/-- `heap_create` by a caller that ignores its result. -/
def heapCreateIgnored (mem : Memory) (ptr endPtr : Nat) (table : HeapTable) : Heap × Memory :=
  match heapCreate mem ptr endPtr table with
  | .ok created => created
  | .error _ => (heapAfterFailure ptr endPtr table, mem)

/-- `heap_callbacks_set(heap, NULL, multiheap_paging_heap_free_block)`. -/
def Kernel.setFreeCallback (k : Kernel) (ref : HeapRef) : Kernel :=
  { k with heaps := fun other =>
      if other = ref then
        { k.heaps ref with blockAllocatedCallback := false, blockFreeCallback := true }
      else k.heaps other }

/-- Make the paging heap of a heap that allows paging. -/
def multiheapReadyHeap (k : Kernel) (desc : PagingDesc) (maxEndAddr : Nat) (current : MultiheapSingleHeap) :
    HeapRef × Kernel :=
  let pagingHeapStartingAddress := toWord (maxEndAddr + (k.heaps current.heap).saddr)
  let pagingHeapEndingAddress := toWord (maxEndAddr + (k.heaps current.heap).eaddr)
  let table := k.heapZallocAt k.multiheap.startingHeap sizeofHeapTable
  let total := (table.2.heaps current.heap).table.total
  let entries := table.2.heapZallocAt k.multiheap.startingHeap total
  let pagingHeap := entries.2.heapZallocAt k.multiheap.startingHeap sizeofHeap
  let created := heapCreateIgnored pagingHeap.2.mem pagingHeapStartingAddress pagingHeapEndingAddress
    { entries := entries.1, total := total }
  let ref : HeapRef := .allocated pagingHeap.1
  let k' : Kernel := { pagingHeap.2 with
    mem := created.2, heaps := fun other => if other = ref then created.1 else pagingHeap.2.heaps other }
  let mapped := pagingMapTo k' desc pagingHeapStartingAddress pagingHeapStartingAddress pagingHeapEndingAddress 0#32
  (ref, mapped.2.setFreeCallback ref)

/-- The loop of `multiheap_ready`: the list with its paging heaps. -/
def multiheapReadyLoop (desc : PagingDesc) (maxEndAddr : Nat) :
    List MultiheapSingleHeap → Kernel → List MultiheapSingleHeap × Kernel
  | [], k => ([], k)
  | current :: rest, k =>
      if multiheapHeapAllowsPaging current then
        let made := multiheapReadyHeap k desc maxEndAddr current
        let result := multiheapReadyLoop desc maxEndAddr rest made.2
        ({ current with pagingHeap := some made.1 } :: result.1, result.2)
      else
        let result := multiheapReadyLoop desc maxEndAddr rest k
        (current :: result.1, result.2)

/-- `multiheap_ready`; `none` for its panic. -/
def multiheapReady (k : Kernel) (pagingDesc : Option PagingDesc) : Option Kernel :=
  match pagingDesc with
  | none => none
  | some desc =>
      let maxEndAddr := multiheapGetMaxMemoryEndAddress k
      let k := { k with multiheap := { k.multiheap with
        flags := k.multiheap.flags ||| multiheapFlagIsReady
        maxEndDataAddr := maxEndAddr } }
      let result := multiheapReadyLoop desc maxEndAddr k.multiheap.heaps k
      some { result.2 with multiheap := { result.2.multiheap with heaps := result.1 } }

/-! ### Allocating through a paging heap -/

/-- `multiheap_alloc_paging` over the rest of the list. -/
def multiheapAllocPagingLoop (size : Nat) : List MultiheapSingleHeap → Kernel →
    (Nat × Option MultiheapSingleHeap) × Kernel
  | [], k => ((0, none), k)
  | current :: rest, k =>
      if !multiheapHeapAllowsPaging current then multiheapAllocPagingLoop size rest k
      else if (k.heaps current.heap).freeBlocks < size / peachosHeapBlockSize then
        multiheapAllocPagingLoop size rest k
      else
        match current.pagingHeap with
        | none => multiheapAllocPagingLoop size rest k
        | some pagingHeap =>
            let result := k.heapMallocAt pagingHeap size
            if result.1 ≠ 0 then ((result.1, some current), result.2)
            else multiheapAllocPagingLoop size rest result.2

/-- `multiheap_alloc_paging`: the address and the eligible heap. -/
def multiheapAllocPaging (k : Kernel) (size : Nat) : (Nat × Option MultiheapSingleHeap) × Kernel :=
  multiheapAllocPagingLoop size k.multiheap.heaps k

/-- The loop of `multiheap_alloc_second_pass` with `fuel` blocks left; `none` for its panic. -/
def multiheapAllocSecondPassLoop (desc : PagingDesc) (chosenRealHeap : HeapRef) :
    (fuel : Nat) → (currentAddr : Nat) → Kernel → Option Kernel
  | 0, _, k => some k
  | fuel + 1, currentAddr, k =>
      let block := k.heapZallocAt chosenRealHeap peachosHeapBlockSize
      if block.1 = 0 then none
      else
        let mapped := pagingMap block.2 desc currentAddr block.1 (pagingIsWriteable ||| pagingIsPresent)
        multiheapAllocSecondPassLoop desc chosenRealHeap fuel (toWord (currentAddr + peachosHeapBlockSize)) mapped.2

/-- `multiheap_alloc_second_pass`; `none` for its panics. -/
def multiheapAllocSecondPass (k : Kernel) (pagingDesc : Option PagingDesc) (size : Nat) : Option (Nat × Kernel) :=
  match pagingDesc with
  | none => none
  | some desc =>
      let size := heapAlignValueToUpper size
      let totalBlocks := size / peachosHeapBlockSize
      let allocation := multiheapAllocPaging k size
      match allocation.1.2 with
      | none => some (0, allocation.2)
      | some chosen =>
          (multiheapAllocSecondPassLoop desc chosen.heap totalBlocks allocation.1.1 allocation.2).map
            fun k => (allocation.1.1, k)

/-- `multiheap_palloc`; `none` for the panics of the second pass. -/
def multiheapPalloc (k : Kernel) (pagingDesc : Option PagingDesc) (size : Nat) : Option (Nat × Kernel) :=
  let result := multiheapAllocFirstPass k size
  if result.1 ≠ 0 then some result else multiheapAllocSecondPass result.2 pagingDesc size

/-! ### Freeing -/

/-- `multiheap_paging_heap_free_block`. -/
def multiheapPagingHeapFreeBlock (k : Kernel) (desc : PagingDesc) (ptr : Nat) : Kernel :=
  (pagingMap k desc ptr 0 0#32).2

/-- The loop of `heap_mark_blocks_free` on a heap whose callback is run for each block. -/
def heapMarkBlocksFreeCallingLoop (desc : PagingDesc) (ref : HeapRef) :
    (fuel : Nat) → (i : Int) → (freed : Nat) → Kernel → Nat × Kernel
  | 0, _, freed, k => (freed, k)
  | fuel + 1, i, freed, k =>
      let s := k.heapState ref
      let entry := s.entry i
      let k := k.withHeapState ref ((s.touch i).setEntry i heapBlockTableEntryFree)
      let k :=
        if (k.heaps ref).blockFreeCallback then
          multiheapPagingHeapFreeBlock k desc (heapBlockToAddress (k.heaps ref) i)
        else k
      if entry &&& heapBlockHasNext = 0 then (freed + 1, k)
      else heapMarkBlocksFreeCallingLoop desc ref fuel (i + 1) (freed + 1) k

/-- `heap_free` on a heap whose callback is run for each block. -/
def heapFreeCalling (k : Kernel) (desc : PagingDesc) (ref : HeapRef) (ptr : Nat) : Kernel :=
  let startingBlock := heapAddressToBlock (k.heaps ref) ptr
  let result := heapMarkBlocksFreeCallingLoop desc ref ((k.heaps ref).table.total - startingBlock).toNat startingBlock 0 k
  result.2.withHeapState ref ((result.2.heapState ref).countTaken (-result.1))

/-- The loop of `multiheap_free` over the pages of an allocation, with `fuel` pages left. -/
def multiheapFreeLoop (free : Kernel → Nat → Option Kernel) (desc : PagingDesc) (ptr : Nat) :
    (fuel i : Nat) → Kernel → Option Kernel
  | 0, _, k => some k
  | fuel + 1, i, k =>
      let virtualAddressForBlock := toWord (ptr + i * peachosHeapBlockSize)
      let dataPhysAddr := pagingGetPhysicalAddress k.mem desc virtualAddressForBlock
      (free k dataPhysAddr).bind (multiheapFreeLoop free desc ptr fuel (i + 1))

/-- `multiheap_free`, with `fuel` nested calls left. -/
def multiheapFree (desc : PagingDesc) : (fuel : Nat) → Kernel → Nat → Option Kernel
  | 0, _, _ => none
  | fuel + 1, k, ptr =>
      let found := multiheapGetHeapAndPagingHeapForAddress k ptr
      match found.2.1.bind MultiheapSingleHeap.pagingHeap with
      | some pagingHeap =>
          let totalBlocks := (heapAllocationBlockCount (k.heapState pagingHeap) ptr).1
          let startingBlock := toWord (heapAddressToBlock (k.heaps pagingHeap) ptr)
          let endingBlock := toWord (startingBlock + totalBlocks)
          (multiheapFreeLoop (multiheapFree desc fuel) desc ptr (endingBlock - startingBlock) startingBlock k).map
            fun k => heapFreeCalling k desc pagingHeap ptr
      | none =>
          match found.1 with
          | some physHeap => some (k.heapFreeAt physHeap.heap found.2.2)
          | none => some k

/-! ### What mapping leaves alone -/

theorem pagingTable_kept (k : Kernel) (entry : Nat) :
    (pagingTable k entry).2.multiheap = k.multiheap ∧ k.SameHeaps (pagingTable k entry).2 := by
  have kept := kzalloc_kept k (sizeofPagingDescEntry * pagingTotalEntriesPerTable)
  unfold pagingTable
  dsimp only
  split
  · exact kept
  · exact ⟨rfl, fun _ => rfl⟩

/-- **`paging_map`** leaves the multiheap and the geometry of its heaps alone. -/
theorem pagingMap_kept (k : Kernel) (desc : PagingDesc) (virt phys : Nat) (flags : BitVec 32) :
    (pagingMap k desc virt phys flags).2.multiheap = k.multiheap ∧
      k.SameHeaps (pagingMap k desc virt phys flags).2 := by
  unfold pagingMap
  dsimp only
  obtain ⟨list₃, heaps₃⟩ := pagingTable_kept k (desc.pml + sizeofPagingDescEntry * tableIndex virt 3)
  generalize pagingTable k (desc.pml + sizeofPagingDescEntry * tableIndex virt 3) = pdpt at *
  obtain ⟨list₂, heaps₂⟩ := pagingTable_kept pdpt.2 (pdpt.1 + sizeofPagingDescEntry * tableIndex virt 2)
  generalize pagingTable pdpt.2 (pdpt.1 + sizeofPagingDescEntry * tableIndex virt 2) = pd at *
  obtain ⟨list₁, heaps₁⟩ := pagingTable_kept pd.2 (pd.1 + sizeofPagingDescEntry * tableIndex virt 1)
  generalize pagingTable pd.2 (pd.1 + sizeofPagingDescEntry * tableIndex virt 1) = pt at *
  show pt.2.multiheap = k.multiheap ∧ ∀ ref, (k.heaps ref).SameGeometry (pt.2.heaps ref)
  exact ⟨(list₁.trans list₂).trans list₃, (heaps₃.trans heaps₂).trans heaps₁⟩

theorem pagingMapRangeLoop_kept (desc : PagingDesc) (flags : BitVec 32) (fuel virt phys : Nat) (res : Int)
    (k : Kernel) :
    (pagingMapRangeLoop desc flags fuel virt phys res k).2.multiheap = k.multiheap ∧
      k.SameHeaps (pagingMapRangeLoop desc flags fuel virt phys res k).2 := by
  induction fuel generalizing virt phys res k with
  | zero => exact ⟨rfl, fun _ => rfl⟩
  | succ fuel ih =>
      obtain ⟨list, heaps⟩ := pagingMap_kept k desc virt phys flags
      rw [pagingMapRangeLoop]
      split
      · exact ⟨list, heaps⟩
      · obtain ⟨list', heaps'⟩ := ih (toWord (virt + pagingPageSize)) (toWord (phys + pagingPageSize))
          (pagingMap k desc virt phys flags).1 (pagingMap k desc virt phys flags).2
        exact ⟨list'.trans list, heaps.trans heaps'⟩

theorem pagingMapTo_kept (k : Kernel) (desc : PagingDesc) (virt phys physEnd : Nat) (flags : BitVec 32) :
    (pagingMapTo k desc virt phys physEnd flags).2.multiheap = k.multiheap ∧
      k.SameHeaps (pagingMapTo k desc virt phys physEnd flags).2 := by
  unfold pagingMapTo
  dsimp only
  split
  · exact ⟨rfl, fun _ => rfl⟩
  · split
    · exact ⟨rfl, fun _ => rfl⟩
    · split
      · exact ⟨rfl, fun _ => rfl⟩
      · split
        · exact ⟨rfl, fun _ => rfl⟩
        · exact pagingMapRangeLoop_kept desc flags _ virt phys 0 k

end PeachOS
