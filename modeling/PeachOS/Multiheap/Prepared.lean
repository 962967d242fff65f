/-
**Multiheaps that can defragment.**

`MultiheapPrepared` adds to a sound multiheap that the page tables of the paging heaps are there, as
`multiheap_ready` makes them. What the operations do to it:

* `MultiheapPrepared.secondPass` — the second pass never panics: it finds no virtual range, or takes the data
  blocks it needs;
* `MultiheapPrepared.alloc`, `realloc`, `free` — the other operations keep the multiheap prepared if they release
  no block with a table of the kernel, release only taken blocks of the heaps that allow paging, and do not shrink
  an allocation there (`ReallocKeeps`, `FreeKeeps`, `multiheapFreeKeeps`).
-/

import PeachOS.Multiheap.Passes

namespace PeachOS

open ByteStore SpanTable FirstFit RadixTable HeapState

/-- **A multiheap that can defragment.** -/
structure MultiheapPrepared (k : Kernel) (desc : PagingDesc) : Prop where
  sound : MultiheapSound k desc k.pagingHeaps
  pages : ∀ ref ∈ k.pagingHeaps, ∀ va ∈ (k.heaps ref).dataBytes, ∃ table, ReachedTable k.mem desc (pagePath va) table

/-- A paged allocation: virtual blocks of a paging heap over single blocks of its data heap. -/
structure PagedAllocation (k : Kernel) (desc : PagingDesc) (size : Nat) (node : MultiheapSingleHeap) (ref : HeapRef)
    (start ptr : Nat) (k₁ k' : Kernel) (blocks : Nat → Nat) : Prop where
  member : node ∈ k.multiheap.heaps
  allows : multiheapHeapAllowsPaging node = true
  paging : node.pagingHeap = some ref
  allocated : ∃ s, Allocated (k.heapState ref) (heapBlocks size) start ptr s ∧ (k.heapState ref).OnlyTable s ∧
    k₁ = k.withHeapState ref s
  sound : MultiheapSound k₁ desc k.pagingHeaps
  mapped : Defragmented k₁ desc k.pagingHeaps node.heap (heapBlocks size) ptr k' blocks
  prepared : MultiheapPrepared k' desc

theorem Kernel.pagingHeaps_congr {k k' : Kernel} (same : k'.multiheap = k.multiheap) : k'.pagingHeaps = k.pagingHeaps := by
  unfold Kernel.pagingHeaps
  rw [same]

/-- The heap of a node is a physical one. -/
theorem Kernel.physical_of_member {k : Kernel} {node : MultiheapSingleHeap} (member : node ∈ k.multiheap.heaps) :
    k.IsPhysical node.heap := Or.inr ⟨node, member, rfl⟩

namespace MultiheapPrepared

variable {k k' : Kernel} {desc : PagingDesc} (prepared : MultiheapPrepared k desc)

include prepared

/-- What is sound and keeps its page tables stays prepared. -/
theorem of_sound (sound : MultiheapSound k' desc k.pagingHeaps) (multiheap : k'.multiheap = k.multiheap)
    (heaps : k.SameHeaps k')
    (reached : ∀ path table, ReachedTable k.mem desc path table → ReachedTable k'.mem desc path table) :
    MultiheapPrepared k' desc := by
  have same := Kernel.pagingHeaps_congr multiheap
  refine ⟨by rw [same]; exact sound, fun ref member va inside => ?_⟩
  rw [same] at member
  rw [(heaps ref).dataBytes] at inside
  obtain ⟨table, isTable⟩ := prepared.pages ref member va inside
  exact ⟨table, reached _ _ isTable⟩

/-- **The second pass never panics.** -/
theorem secondPass (size : Nat) :
    multiheapAllocPaging k (heapAlignValueToUpper size) = ((0, none), k) ∨
      ∃ node ref start ptr k₁ k' blocks, PagedAllocation k desc size node ref start ptr k₁ k' blocks ∧
        multiheapAllocPaging k (heapAlignValueToUpper size) = ((ptr, some node), k₁) ∧
        multiheapAllocSecondPassLoop desc node.heap (heapBlocks size) ptr k₁ = some k' := by
  have sound := prepared.sound
  have blocksEq : heapBlocks (heapAlignValueToUpper size) = heapBlocks size := by
    rw [heapAlignValueToUpper_eq, heapBlocks_mul]
  rcases allocPagingLoop_cases (heapAlignValueToUpper size) k.multiheap.heaps (k := k) (fun node member ref paging =>
    sound.apart.sound ref (Or.inr ⟨node, member, paging⟩)) with nothing |
    ⟨node, member, ref, start, allows, paging, enough, allocated, selected⟩
  · exact Or.inl nothing
  · right
    have isPaging : ref ∈ k.pagingHeaps := ⟨node, member, paging⟩
    have soundHeap : (k.heapState ref).heap.Sound := sound.apart.sound ref (Or.inr isPaging)
    have only := heapMalloc_onlyTable soundHeap (heapAlignValueToUpper size)
    have sound₁ := sound.virtual isPaging only
    have pagesKept : ∀ path table, ReachedTable k.mem desc path table → ∀ a ∈ tablePage table,
        (heapMalloc (k.heapState ref) (heapAlignValueToUpper size)).2.mem a = k.mem a := fun path table isTable a inside =>
      only.mem a (not_mem_tableBytes (Set.disjoint_left.mp (sound.pagesApart ref isPaging path table isTable) inside))
    obtain ⟨_, reached, _⟩ := sound.tree.congr pagesKept
    rw [blocksEq] at allocated
    change Allocated _ _ _ (heapMalloc (k.heapState ref) (heapAlignValueToUpper size)).1 _ at allocated
    change multiheapAllocPagingLoop _ _ _ = (((heapMalloc (k.heapState ref) (heapAlignValueToUpper size)).1, some node),
      k.withHeapState ref (heapMalloc (k.heapState ref) (heapAlignValueToUpper size)).2) at selected
    generalize heapMalloc (k.heapState ref) (heapAlignValueToUpper size) = result at only sound₁ reached allocated selected
    have inside : start + heapBlocks size ≤ (k.heaps ref).table.total := allocated.inside
    have address : result.1 = (k.heaps ref).saddr + start * peachosHeapBlockSize := allocated.address
    have span : (k.heaps ref).eaddr = (k.heaps ref).saddr + (k.heaps ref).table.total * peachosHeapBlockSize :=
      soundHeap.span
    have bound : (k.heaps ref).eaddr < 2 ^ 64 := soundHeap.bound
    simp only [peachosHeapBlockSize] at address span
    have isPhysical := Kernel.physical_of_member member
    have different : node.heap ≠ ref := fun same => sound.apart.virtual ref isPaging (same ▸ isPhysical)
    have enough' : heapBlocks size ≤ ((k.withHeapState ref result.2).heaps node.heap).freeBlocks := by
      rw [k.heaps_withHeapState_other different]
      exact enough
    have isData : (k.withHeapState ref result.2).Defragments node.heap := ⟨node, member, rfl, allows⟩
    have pages : ∀ i < heapBlocks size, ∃ table, ReachedTable (k.withHeapState ref result.2).mem desc
        (pagePath (result.1 + i * peachosHeapBlockSize)) table := by
      intro i small
      obtain ⟨table, isTable⟩ := prepared.pages ref isPaging (result.1 + i * peachosHeapBlockSize)
        ⟨by simp only [peachosHeapBlockSize]; omega, by simp only [peachosHeapBlockSize]; omega⟩
      exact ⟨table, (reached _ _).mpr isTable⟩
    have fits : result.1 + heapBlocks size * peachosHeapBlockSize < 2 ^ 64 := by
      simp only [peachosHeapBlockSize]
      omega
    obtain ⟨k', blocks, runs, sound', mapped⟩ := secondPassLoop_spec sound₁ isData enough' fits pages
    refine ⟨node, ref, start, result.1, _, k', blocks,
      ⟨member, allows, paging, ⟨result.2, allocated, only, rfl⟩, sound₁, mapped, ?_⟩, selected, runs⟩
    exact prepared.of_sound sound' mapped.multiheap
      ((sameHeaps_withHeapState only.geometry).trans mapped.heaps)
      fun path table isTable => (mapped.reached path table).mpr ((reached path table).mpr isTable)

/-- **`multiheap_alloc`.** -/
theorem firstPass (size : Nat) : MultiheapPrepared (multiheapAllocFirstPass k size).2 desc := by
  obtain ⟨allocates, sound, _⟩ := firstPassLoop_spec size k.multiheap.heaps prepared.sound
    fun node member => Kernel.physical_of_member member
  obtain ⟨_, reached, _⟩ := allocates.tables prepared.sound (Set.disjoint_empty _)
  exact prepared.of_sound sound allocates.multiheap allocates.heaps fun path table => (reached path table).mpr

theorem alloc (size : Nat) : MultiheapPrepared (multiheapAlloc k size).2 desc := by
  have kept := prepared.firstPass size
  unfold multiheapAlloc
  dsimp only
  split
  · exact kept
  · exact kept

/-- A first pass that finds nothing leaves the kernel alone. -/
theorem firstPass_null {size : Nat} (null : (multiheapAllocFirstPass k size).1 = 0) :
    (multiheapAllocFirstPass k size).2 = k :=
  firstPassLoop_null size k.multiheap.heaps
    (fun _ member => prepared.sound.apart.sound _ (Or.inl (Kernel.physical_of_member member))) null

/-- **`multiheap_palloc` does not panic** and keeps the multiheap prepared. -/
theorem palloc (size : Nat) :
    ∃ result, multiheapPalloc k (some desc) size = some result ∧ MultiheapPrepared result.2 desc := by
  unfold multiheapPalloc
  dsimp only
  by_cases null : (multiheapAllocFirstPass k size).1 = 0
  · rw [prepared.firstPass_null null]
    simp only [ne_eq, null, not_true_eq_false, if_false]
    unfold multiheapAllocSecondPass
    have blocksEq : heapAlignValueToUpper size / peachosHeapBlockSize = heapBlocks size := rfl
    simp only [blocksEq]
    rcases prepared.secondPass size with nothing | ⟨node, ref, start, ptr, k₁, k', blocks, paged, selected, runs⟩
    · rw [nothing]
      exact ⟨_, rfl, prepared⟩
    · rw [selected]
      simp only [runs, Option.map_some]
      exact ⟨_, rfl, paged.prepared⟩
  · simp only [ne_eq, null, not_false_eq_true, if_true]
    exact ⟨_, rfl, prepared.firstPass size⟩

/-- An operation of a physical heap. -/
theorem operation {ref : HeapRef} (isPhysical : k.IsPhysical ref) {s : HeapState} {released : Nat → Prop}
    (touches : (k.heapState ref).TouchesFree s released)
    (unheld : ∀ block < (k.heaps ref).table.total, released block →
      Disjoint (k.tables desc k.pagingHeaps) ((k.heaps ref).blockBytes block))
    (counted : k.Defragments ref → s.TwoTypes ∧ s.Accounted) : MultiheapPrepared (k.withHeapState ref s) desc := by
  have kept := prepared.sound.tables_kept isPhysical touches
  obtain ⟨_, reached, _⟩ := prepared.sound.tree.congr fun path table isTable a inside =>
    kept a (Or.inl ⟨path, table, isTable, inside⟩)
  exact prepared.of_sound (prepared.sound.physical isPhysical touches unheld counted) rfl
    (sameHeaps_withHeapState touches.geometry) fun path table => (reached path table).mpr

end MultiheapPrepared

/-! ### Releasing blocks of physical heaps -/

/-- **A release that keeps the tables and the counters**: no block it clears holds a table, and those of a heap
that allows paging are taken. -/
def Kernel.FreeKeeps (k : Kernel) (desc : PagingDesc) (ref : HeapRef) (ptr : Nat) : Prop :=
  ∀ other, InChain (k.heapState ref).view (k.heaps ref).table.total (blockOf (k.heaps ref) ptr) other →
    Disjoint (k.tables desc k.pagingHeaps) ((k.heaps ref).blockBytes other) ∧
      (k.Defragments ref → isTaken ((k.heapState ref).view other))

/-- **A reallocation that keeps the tables and the counters**: it stays inside the block table, no block it
releases holds a table, and in a heap that allows paging it does not shrink and releases only taken blocks. -/
def Kernel.ReallocKeeps (k : Kernel) (desc : PagingDesc) (ref : HeapRef) (ptr newSize : Nat) : Prop :=
  if newSize = 0 then k.FreeKeeps desc ref ptr
  else
    let s := k.heapState ref
    let block := blockOf (k.heaps ref) ptr
    let blocks := heapBlocks newSize
    s.ReallocInside block blocks ∧
      (∀ other, s.reallocReleases block blocks other →
        Disjoint (k.tables desc k.pagingHeaps) ((k.heaps ref).blockBytes other)) ∧
      (k.Defragments ref → s.countAt block = blocks ∨ (s.countAt block < blocks ∧
        ((∀ other, block + s.countAt block ≤ other → other < block + blocks → ¬ isTaken (s.view other)) ∨
          ∀ start, IsFirstRun (fun other => typeFree (s.view other)) s.heap.table.total blocks start →
            chainTaken (takenFrom s.view start blocks) s.heap.table.total block)))

section Physical

variable {k : Kernel} {desc : PagingDesc} (prepared : MultiheapPrepared k desc) {ref : HeapRef}
  (isPhysical : k.IsPhysical ref) {ptr : Nat} (low : (k.heaps ref).saddr ≤ ptr) (high : ptr ≤ (k.heaps ref).eaddr)

include prepared isPhysical low high

theorem MultiheapPrepared.freeAt (keeps : k.FreeKeeps desc ref ptr) : MultiheapPrepared (k.heapFreeAt ref ptr) desc := by
  have soundHeap : (k.heapState ref).heap.Sound := prepared.sound.apart.sound ref (Or.inl isPhysical)
  obtain ⟨same, inside⟩ := heapFree_blockOf soundHeap low high
  unfold Kernel.heapFreeAt
  rw [same]
  refine prepared.operation isPhysical (touchesFree_free soundHeap inside) (fun block _ released => (keeps block released).1)
    fun allows => ?_
  obtain ⟨types, accounted⟩ := prepared.sound.counted ref allows
  obtain ⟨types', iff⟩ := heapFree_accounted_iff soundHeap types accounted inside
  exact ⟨types', iff.mpr fun other lowOther highOther => (keeps other ⟨lowOther, highOther⟩).2 allows⟩

theorem MultiheapPrepared.reallocAt {newSize : Nat} (word : newSize < 2 ^ 64) (aligned : ptr % peachosHeapBlockSize = 0)
    (keeps : k.ReallocKeeps desc ref ptr newSize) : MultiheapPrepared (k.heapReallocAt ref ptr newSize).2 desc := by
  have soundHeap : (k.heapState ref).heap.Sound := prepared.sound.apart.sound ref (Or.inl isPhysical)
  have positive : 0 < (k.heaps ref).saddr := soundHeap.positive
  by_cases zero : newSize = 0
  · -- a reallocation to zero is a release
    have released : heapRealloc (k.heapState ref) ptr newSize = (0, heapFree (k.heapState ref) ptr) := by
      rw [heapRealloc, if_neg (by omega), if_pos zero]
    unfold Kernel.ReallocKeeps at keeps
    rw [if_pos zero] at keeps
    unfold Kernel.heapReallocAt
    rw [released]
    exact prepared.freeAt isPhysical low high keeps
  · unfold Kernel.ReallocKeeps at keeps
    rw [if_neg zero] at keeps
    obtain ⟨stays, unheld, counts⟩ := keeps
    obtain ⟨_, inside⟩ := heapFree_blockOf soundHeap low high
    have pointer : ptr = (k.heapState ref).heap.saddr + blockOf (k.heaps ref) ptr * peachosHeapBlockSize := by
      have alignedHeap : (k.heaps ref).saddr % peachosHeapBlockSize = 0 := soundHeap.aligned
      show ptr = (k.heaps ref).saddr + _
      unfold blockOf
      simp only [peachosHeapBlockSize] at aligned alignedHeap ⊢
      omega
    have path := heapRealloc_path soundHeap inside (Nat.pos_of_ne_zero zero) word
    rw [show (k.heapState ref).heap.saddr + blockOf (k.heapState ref).heap ptr * peachosHeapBlockSize = ptr from
      pointer.symm] at path
    obtain ⟨touches, accesses⟩ := touchesFree_realloc soundHeap inside path stays
    refine prepared.operation isPhysical touches (fun block _ released => unheld block released) fun allows => ?_
    obtain ⟨types, accounted⟩ := prepared.sound.counted ref allows
    by_cases last : blockOf (k.heapState ref).heap ptr < (k.heapState ref).heap.table.total
    · obtain ⟨_, types', _, iff⟩ := countKept_realloc soundHeap types accounted last path fun i member => by
        unfold HeapState.InTable
        rw [touches.geometry.table]
        exact (accesses i member).resolve_left List.not_mem_nil
      exact ⟨types', iff.mpr (counts allows)⟩
    · -- behind the last block there is nothing to grow into
      have more : ¬ (k.heapState ref).countAt (blockOf (k.heapState ref).heap ptr) < heapBlocks newSize := fun grows => by
        rcases stays grows with ⟨other, lowOther, _, below, _⟩ | ⟨_, fits⟩
        · exact last (((Nat.le_add_right _ _).trans lowOther).trans_lt below)
        · exact last ((Nat.lt_add_of_pos_right (Nat.zero_lt_of_lt grows)).trans_le fits)
      have equal := (counts allows).resolve_right fun grows => more grows.1
      cases path with
      | same _ _ frame => exact countKept_readOnly soundHeap types accounted frame
      | shrink fewer => exact absurd equal (Nat.ne_of_gt fewer)
      | extend grows => exact absurd grows more
      | full grows => exact absurd grows more
      | move grows => exact absurd grows more
      | leave grows => exact absurd grows more

end Physical

/-! ### `multiheap_realloc` and `multiheap_free` -/

section Found

variable {k : Kernel} {ptr : Nat} {node : MultiheapSingleHeap}

theorem multiheapGetHeapForAddress_some (found : multiheapGetHeapForAddress k ptr = some node) :
    node ∈ k.multiheap.heaps ∧ (k.heaps node.heap).saddr ≤ ptr ∧ ptr ≤ (k.heaps node.heap).eaddr := by
  have within := List.find?_some found
  exact ⟨List.mem_of_find?_eq_some found, of_decide_eq_true within⟩

theorem multiheapGetPagingHeapForAddress_some (found : multiheapGetPagingHeapForAddress k ptr = some node) :
    ∃ ref ∈ k.pagingHeaps, node.pagingHeap = some ref ∧ (k.heaps ref).saddr ≤ ptr ∧ ptr ≤ (k.heaps ref).eaddr := by
  have member := List.mem_of_find?_eq_some found
  have stops := List.find?_some found
  rw [Bool.and_eq_true] at stops
  obtain ⟨_, within⟩ := stops
  cases paging : node.pagingHeap with
  | none =>
      rw [paging] at within
      cases within
  | some ref =>
      rw [paging] at within
      exact ⟨ref, ⟨node, member, paging⟩, rfl, of_decide_eq_true within⟩

end Found

/-- **`multiheap_realloc`** of a physical pointer. -/
theorem MultiheapPrepared.realloc {k : Kernel} {desc : PagingDesc} (prepared : MultiheapPrepared k desc)
    {ptr newSize : Nat} (word : newSize < 2 ^ 64) (physical : multiheapIsAddressVirtual k.multiheap ptr = false)
    (keeps : ∀ node, multiheapGetHeapForAddress k ptr = some node →
      ptr % peachosHeapBlockSize = 0 ∧ k.ReallocKeeps desc node.heap ptr newSize)
    {result : Nat × Kernel} (done : multiheapRealloc k ptr newSize = some result) :
    MultiheapPrepared result.2 desc := by
  have found : multiheapGetHeapAndPagingHeapForAddress k ptr = (multiheapGetHeapForAddress k ptr, none, ptr) := by
    unfold multiheapGetHeapAndPagingHeapForAddress
    rw [physical]
    rfl
  unfold multiheapRealloc at done
  rw [found] at done
  dsimp only at done
  cases isHeap : multiheapGetHeapForAddress k ptr with
  | none =>
      simp only [isHeap, Option.some.injEq] at done
      rw [← done]
      exact prepared.alloc newSize
  | some node =>
      simp only [isHeap, Option.some.injEq] at done
      obtain ⟨member, low, high⟩ := multiheapGetHeapForAddress_some isHeap
      obtain ⟨aligned, keeps⟩ := keeps node isHeap
      rw [← done]
      exact prepared.reallocAt (Kernel.physical_of_member member) low high word aligned keeps

/-- What the loop of `multiheap_free` releases keeps the tables and the counters. -/
def multiheapFreeLoopKeeps (free : Kernel → Nat → Option Kernel) (keeps : Kernel → Nat → Prop) (desc : PagingDesc)
    (ptr : Nat) : (fuel i : Nat) → Kernel → Prop
  | 0, _, _ => True
  | fuel + 1, i, k =>
      let dataPhysAddr := pagingGetPhysicalAddress k.mem desc (toWord (ptr + i * peachosHeapBlockSize))
      keeps k dataPhysAddr ∧
        ∀ k', free k dataPhysAddr = some k' → multiheapFreeLoopKeeps free keeps desc ptr fuel (i + 1) k'

/-- **What `multiheap_free` releases keeps the tables and the counters**, in all nested calls. -/
def multiheapFreeKeeps (desc : PagingDesc) : (fuel : Nat) → Kernel → Nat → Prop
  | 0, _, _ => True
  | fuel + 1, k, ptr =>
      let found := multiheapGetHeapAndPagingHeapForAddress k ptr
      match found.2.1.bind MultiheapSingleHeap.pagingHeap with
      | some pagingHeap =>
          let totalBlocks := (heapAllocationBlockCount (k.heapState pagingHeap) ptr).1
          let startingBlock := toWord (heapAddressToBlock (k.heaps pagingHeap) ptr)
          let endingBlock := toWord (startingBlock + totalBlocks)
          multiheapFreeLoopKeeps (multiheapFree desc fuel) (multiheapFreeKeeps desc fuel) desc ptr
            (endingBlock - startingBlock) startingBlock k
      | none =>
          match found.1 with
          | some physHeap => k.FreeKeeps desc physHeap.heap found.2.2
          | none => True

section Free

variable {desc : PagingDesc}

/-- A step of a paging heap. -/
theorem MultiheapPrepared.virtual {k : Kernel} (prepared : MultiheapPrepared k desc) {ref : HeapRef}
    (member : ref ∈ k.pagingHeaps) {s : HeapState} (only : (k.heapState ref).OnlyTable s) :
    MultiheapPrepared (k.withHeapState ref s) desc := by
  have pagesKept : ∀ path table, ReachedTable k.mem desc path table → ∀ a ∈ tablePage table, s.mem a = k.mem a :=
    fun path table isTable a inside =>
      only.mem a (not_mem_tableBytes (Set.disjoint_left.mp (prepared.sound.pagesApart ref member path table isTable) inside))
  obtain ⟨_, reached, _⟩ := prepared.sound.tree.congr pagesKept
  exact prepared.of_sound (prepared.sound.virtual member only) rfl (sameHeaps_withHeapState only.geometry)
    fun path table => (reached path table).mpr

/-- **Mapping a page of a paging heap** writes its leaf. -/
theorem MultiheapPrepared.map {k : Kernel} (prepared : MultiheapPrepared k desc) {ref : HeapRef}
    (member : ref ∈ k.pagingHeaps) {virt : Nat} (inside : virt ∈ (k.heaps ref).dataBytes) (phys : Nat)
    (flags : BitVec 32) : MultiheapPrepared (pagingMap k desc virt phys flags).2 desc := by
  obtain ⟨table, isTable⟩ := prepared.pages ref member virt inside
  have word : leafSet (pageEntry k.mem desc virt) phys flags < 2 ^ 64 := by
    refine leafSet_lt ?_ _ _
    unfold pageEntry leaf
    rw [isTable.2.2]
    exact entryAt_lt _ _
  obtain ⟨_, reached, _⟩ := prepared.sound.tree.setLeaf isTable rfl (tableIndex_lt virt 0) word
  rw [pagingMap_of_reached isTable]
  exact prepared.of_sound (prepared.sound.leaf isTable rfl (tableIndex_lt virt 0) word) rfl (fun _ => rfl)
    fun path table => (reached path table).mpr

/-- The free callback of a paging heap unmaps the page of a block. -/
theorem MultiheapPrepared.freeBlock {k : Kernel} (prepared : MultiheapPrepared k desc) {ref : HeapRef}
    (member : ref ∈ k.pagingHeaps) {block : Nat} (below : block < (k.heaps ref).table.total) {k' : Kernel}
    (called : (if (k.heaps ref).blockFreeCallback then
      multiheapPagingHeapFreeBlock k desc (heapBlockToAddress (k.heaps ref) block) else k) = k') :
    MultiheapPrepared k' desc ∧ k'.multiheap = k.multiheap ∧ k.SameHeaps k' := by
  have soundHeap : (k.heaps ref).Sound := prepared.sound.apart.sound ref (Or.inr member)
  rw [soundHeap.blockToAddress below.le] at called
  split at called
  · obtain ⟨list, heaps⟩ := pagingMap_kept k desc ((k.heaps ref).saddr + block * peachosHeapBlockSize) 0 0#32
    have mapped := prepared.map member
      (soundHeap.blockBytes_subset below ⟨le_rfl, Nat.lt_add_of_pos_right (by decide)⟩) 0 0#32
    unfold multiheapPagingHeapFreeBlock at called
    rw [called] at list heaps mapped
    exact ⟨mapped, list, heaps⟩
  · rw [← called]
    exact ⟨prepared, rfl, fun _ => rfl⟩

/-- **The loop of `heap_free` on a paging heap.** -/
theorem heapMarkBlocksFreeCallingLoop_prepared {ref : HeapRef} (fuel i freed : Nat) {k : Kernel}
    (prepared : MultiheapPrepared k desc) (member : ref ∈ k.pagingHeaps)
    (inside : i + fuel ≤ (k.heaps ref).table.total) :
    MultiheapPrepared (heapMarkBlocksFreeCallingLoop desc ref fuel i freed k).2 desc ∧
      (heapMarkBlocksFreeCallingLoop desc ref fuel i freed k).2.multiheap = k.multiheap ∧
      k.SameHeaps (heapMarkBlocksFreeCallingLoop desc ref fuel i freed k).2 := by
  induction fuel generalizing i freed k with
  | zero => exact ⟨prepared, rfl, fun _ => rfl⟩
  | succ fuel ih =>
      have soundHeap : (k.heapState ref).heap.Sound := prepared.sound.apart.sound ref (Or.inr member)
      have below : i < (k.heapState ref).heap.table.total := by
        show i < (k.heaps ref).table.total
        omega
      have next : (i : Int) + 1 = ((i + 1 : Nat) : Int) := (Nat.cast_succ i).symm
      have only : (k.heapState ref).OnlyTable (((k.heapState ref).touch i).setEntry i heapBlockTableEntryFree) :=
        (ReadOnly.touch below).onlyTable.trans (OnlyTable.setEntry (s := (k.heapState ref).touch i) soundHeap below _)
      rw [heapMarkBlocksFreeCallingLoop, next]
      -- the entry is cleared and the page of its block unmapped
      have cleared := prepared.virtual member only
      have same : k.SameHeaps (k.withHeapState ref (((k.heapState ref).touch i).setEntry i heapBlockTableEntryFree)) :=
        sameHeaps_withHeapState only.geometry
      have list : (k.withHeapState ref (((k.heapState ref).touch i).setEntry i heapBlockTableEntryFree)).multiheap =
        k.multiheap := rfl
      generalize k.withHeapState ref (((k.heapState ref).touch i).setEntry i heapBlockTableEntryFree) = k₁ at *
      have member₁ : ref ∈ k₁.pagingHeaps := by
        rw [Kernel.pagingHeaps_congr list]
        exact member
      have below₁ : i < (k₁.heaps ref).table.total := by
        rw [(same ref).table]
        exact below
      generalize called : (if (k₁.heaps ref).blockFreeCallback then
        multiheapPagingHeapFreeBlock k₁ desc (heapBlockToAddress (k₁.heaps ref) i) else k₁) = k₂
      obtain ⟨prepared₂, list₂, same₂⟩ := cleared.freeBlock member₁ below₁ called
      split
      · exact ⟨prepared₂, list₂.trans list, same.trans same₂⟩
      · obtain ⟨prepared', list', same'⟩ := ih (i + 1) (freed + 1) prepared₂
          (by rw [Kernel.pagingHeaps_congr list₂]; exact member₁)
          (by rw [((same.trans same₂) ref).table]; omega)
        exact ⟨prepared', (list'.trans list₂).trans list, (same.trans same₂).trans same'⟩

/-- **`heap_free` on a paging heap.** -/
theorem MultiheapPrepared.freeCalling {k : Kernel} (prepared : MultiheapPrepared k desc) {ref : HeapRef}
    (member : ref ∈ k.pagingHeaps) {ptr : Nat} (low : (k.heaps ref).saddr ≤ ptr) (high : ptr ≤ (k.heaps ref).eaddr) :
    MultiheapPrepared (heapFreeCalling k desc ref ptr) desc ∧ (heapFreeCalling k desc ref ptr).multiheap = k.multiheap ∧
      k.SameHeaps (heapFreeCalling k desc ref ptr) := by
  have soundHeap : (k.heapState ref).heap.Sound := prepared.sound.apart.sound ref (Or.inr member)
  obtain ⟨blockEq, inside⟩ := heapAddressToBlock_blockOf soundHeap low high
  have below : blockOf (k.heaps ref) ptr ≤ (k.heaps ref).table.total := inside
  unfold heapFreeCalling
  rw [show heapAddressToBlock (k.heaps ref) ptr = blockOf (k.heaps ref) ptr from blockEq]
  dsimp only
  generalize blockOf (k.heaps ref) ptr = block at below ⊢
  obtain ⟨prepared', list, same⟩ := heapMarkBlocksFreeCallingLoop_prepared ((k.heaps ref).table.total - block) block 0
    prepared member (by omega)
  rw [show (((k.heaps ref).table.total : Int) - (block : Nat)).toNat = (k.heaps ref).table.total - block by omega]
  generalize heapMarkBlocksFreeCallingLoop desc ref ((k.heaps ref).table.total - block) block 0 k = result at *
  have only := OnlyTable.countTaken (result.2.heapState ref) (-result.1)
  exact ⟨prepared'.virtual (by rw [Kernel.pagingHeaps_congr list]; exact member) only, list,
    same.trans (sameHeaps_withHeapState only.geometry)⟩

/-- The loop of `multiheap_free` over the pages of an allocation. -/
theorem multiheapFreeLoop_prepared {free : Kernel → Nat → Option Kernel} {keeps : Kernel → Nat → Prop}
    (released : ∀ k ptr k', MultiheapPrepared k desc → keeps k ptr → free k ptr = some k' →
      MultiheapPrepared k' desc ∧ k'.multiheap = k.multiheap ∧ k.SameHeaps k') {ptr : Nat} (fuel i : Nat) {k k' : Kernel}
    (prepared : MultiheapPrepared k desc) (keep : multiheapFreeLoopKeeps free keeps desc ptr fuel i k)
    (done : multiheapFreeLoop free desc ptr fuel i k = some k') :
    MultiheapPrepared k' desc ∧ k'.multiheap = k.multiheap ∧ k.SameHeaps k' := by
  induction fuel generalizing i k with
  | zero =>
      rw [multiheapFreeLoop, Option.some.injEq] at done
      subst done
      exact ⟨prepared, rfl, fun _ => rfl⟩
  | succ fuel ih =>
      obtain ⟨keepPage, keepRest⟩ := keep
      rw [multiheapFreeLoop] at done
      obtain ⟨k₁, freed, done⟩ := Option.bind_eq_some_iff.mp done
      obtain ⟨prepared₁, list, heaps⟩ := released _ _ _ prepared keepPage freed
      obtain ⟨prepared', list', heaps'⟩ := ih (i + 1) prepared₁ (keepRest k₁ freed) done
      exact ⟨prepared', list'.trans list, heaps.trans heaps'⟩

/-- **`multiheap_free`**, if what it releases keeps the tables and the counters. -/
theorem MultiheapPrepared.free (fuel : Nat) {k : Kernel} (prepared : MultiheapPrepared k desc) {ptr : Nat}
    (keeps : multiheapFreeKeeps desc fuel k ptr) {k' : Kernel} (done : multiheapFree desc fuel k ptr = some k') :
    MultiheapPrepared k' desc ∧ k'.multiheap = k.multiheap ∧ k.SameHeaps k' := by
  induction fuel generalizing k ptr k' with
  | zero => cases done
  | succ fuel ih =>
      rw [multiheapFree] at done
      rw [multiheapFreeKeeps] at keeps
      dsimp only at done keeps
      have found : (multiheapGetHeapAndPagingHeapForAddress k ptr).1 =
            multiheapGetHeapForAddress k (multiheapGetHeapAndPagingHeapForAddress k ptr).2.2 ∧
          ((multiheapGetHeapAndPagingHeapForAddress k ptr).2.1 = none ∨
            (multiheapGetHeapAndPagingHeapForAddress k ptr).2.1 = multiheapGetPagingHeapForAddress k ptr) := by
        unfold multiheapGetHeapAndPagingHeapForAddress
        split
        · exact ⟨rfl, Or.inr rfl⟩
        · exact ⟨rfl, Or.inl rfl⟩
      generalize multiheapGetHeapAndPagingHeapForAddress k ptr = scans at done keeps found
      obtain ⟨data, virtual⟩ := found
      cases paging : scans.2.1.bind MultiheapSingleHeap.pagingHeap with
      | some pagingHeap =>
          simp only [paging] at done keeps
          obtain ⟨node, isNode, isPaging⟩ := Option.bind_eq_some_iff.mp paging
          have scanned : multiheapGetPagingHeapForAddress k ptr = some node := by
            rcases virtual with none | same
            · rw [none] at isNode
              cases isNode
            · rw [← same, isNode]
          obtain ⟨ref, member, isRef, low, high⟩ := multiheapGetPagingHeapForAddress_some scanned
          rw [isPaging, Option.some.injEq] at isRef
          subst isRef
          obtain ⟨k₁, pages, rfl⟩ := Option.map_eq_some_iff.mp done
          obtain ⟨prepared₁, list, same⟩ := multiheapFreeLoop_prepared
            (fun _ _ _ before keep freed => ih before keep freed) _ _ prepared keeps pages
          have low₁ : (k₁.heaps pagingHeap).saddr ≤ ptr := (same pagingHeap).saddr ▸ low
          have high₁ : ptr ≤ (k₁.heaps pagingHeap).eaddr := by
            rw [same pagingHeap]
            exact high
          obtain ⟨prepared', list', same'⟩ := prepared₁.freeCalling
            (by rw [Kernel.pagingHeaps_congr list]; exact member) low₁ high₁
          exact ⟨prepared', list'.trans list, same.trans same'⟩
      | none =>
          simp only [paging] at done keeps
          cases isHeap : scans.1 with
          | none =>
              simp only [isHeap, Option.some.injEq] at done
              subst done
              exact ⟨prepared, rfl, fun _ => rfl⟩
          | some node =>
              simp only [isHeap, Option.some.injEq] at done keeps
              subst done
              rw [isHeap] at data
              obtain ⟨member, low, high⟩ := multiheapGetHeapForAddress_some data.symm
              exact ⟨prepared.freeAt (Kernel.physical_of_member member) low high keeps, rfl, sameHeaps_freeAt k _ _⟩

end Free

end PeachOS
