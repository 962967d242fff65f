/-
**What the operations of a heap touch.**

Several heaps and the page tables share one memory. `TouchesFree s s' released` is what an operation owes to
the others: it writes to its table and to blocks that were free, and the blocks that are free afterwards were
free before or are among the `released` ones.

* `TouchesFree.of_allocated`, `touchesFree_free` — an allocation releases nothing, a release its chain;
* `touchesFree_realloc` — a reallocation that stays inside the table releases what it cuts off or moves away
  from (`reallocReleases`);
* `heapMalloc_onlyTable` — `heap_malloc` writes to the table only.
-/

import PeachOS.Heap.Counters

namespace PeachOS

open ByteStore SpanTable FirstFit

/-! ### The areas of a heap -/

/-- The bytes of the block table. -/
def Heap.tableBytes (heap : Heap) : Set Nat := Set.Ico heap.table.entries (heap.table.entries + heap.table.total)

/-- The bytes of all blocks. -/
def Heap.dataBytes (heap : Heap) : Set Nat := Set.Ico heap.saddr heap.eaddr

/-- The bytes of a block. -/
def Heap.blockBytes (heap : Heap) (block : Nat) : Set Nat :=
  Set.Ico (heap.saddr + block * peachosHeapBlockSize) (heap.saddr + block * peachosHeapBlockSize + peachosHeapBlockSize)

section Areas

variable {heap heap' : Heap}

theorem Heap.SameGeometry.tableBytes (same : heap.SameGeometry heap') : heap'.tableBytes = heap.tableBytes := by
  unfold Heap.tableBytes
  rw [same.table]

theorem Heap.SameGeometry.dataBytes (same : heap.SameGeometry heap') : heap'.dataBytes = heap.dataBytes := by
  unfold Heap.dataBytes
  rw [same]

theorem Heap.SameGeometry.blockBytes (same : heap.SameGeometry heap') : heap'.blockBytes = heap.blockBytes := by
  unfold Heap.blockBytes
  rw [same.saddr]

/-- A block lies inside the heap. -/
theorem Heap.Sound.blockBytes_subset (sound : heap.Sound) {block : Nat} (inside : block < heap.table.total) :
    heap.blockBytes block ⊆ heap.dataBytes := by
  have range := sound.range_le (show block + 1 ≤ heap.table.total from inside)
  rintro a ⟨low, high⟩
  simp only [peachosHeapBlockSize] at low high range
  exact ⟨by omega, by omega⟩

/-- The table lies apart from the blocks. -/
theorem Heap.Sound.table_apart (sound : heap.Sound) : Disjoint heap.tableBytes heap.dataBytes := by
  refine Set.disjoint_left.mpr ?_
  rintro a ⟨low, high⟩ ⟨low', high'⟩
  have apart := sound.apart
  omega

/-- Different blocks lie apart. -/
theorem Heap.blockBytes_disjoint (heap : Heap) {block other : Nat} (different : block ≠ other) :
    Disjoint (heap.blockBytes block) (heap.blockBytes other) := by
  refine Set.disjoint_left.mpr ?_
  rintro a ⟨low, high⟩ ⟨low', high'⟩
  simp only [peachosHeapBlockSize] at low high low' high'
  omega

/-- An address of a run of blocks lies in one of them. -/
theorem Heap.mem_blockBytes_of_run (heap : Heap) {start blocks a : Nat}
    (low : heap.saddr + start * peachosHeapBlockSize ≤ a)
    (high : a < heap.saddr + start * peachosHeapBlockSize + blocks * peachosHeapBlockSize) :
    ∃ offset < blocks, a ∈ heap.blockBytes (start + offset) := by
  unfold Heap.blockBytes
  simp only [peachosHeapBlockSize, Set.mem_Ico] at low high ⊢
  obtain ⟨place, placeEq⟩ : ∃ place, a = heap.saddr + start * 4096 + place := ⟨a - (heap.saddr + start * 4096), by omega⟩
  subst placeEq
  have below : place / 4096 < blocks := by omega
  clear low high
  exact ⟨place / 4096, below, by omega, by omega⟩

end Areas

/-! ### Operations that touch free blocks -/

namespace HeapState

/-- **Only the table and free blocks are written**, and only released blocks become free. -/
structure TouchesFree (s s' : HeapState) (released : Nat → Prop) : Prop where
  geometry : s.heap.SameGeometry s'.heap
  mem : ∀ a, a ∉ s.heap.tableBytes →
    (∀ block < s.heap.table.total, typeFree (s.view block) → a ∉ s.heap.blockBytes block) → s'.mem a = s.mem a
  free : ∀ block < s.heap.table.total, typeFree (s'.view block) → typeFree (s.view block) ∨ released block

variable {s s' : HeapState} {released : Nat → Prop}

theorem not_mem_tableBytes {heap : Heap} {a : Nat} (outside : a ∉ heap.tableBytes) :
    a < heap.table.entries ∨ heap.table.entries + heap.table.total ≤ a := by
  by_contra inside
  exact outside ⟨by omega, by omega⟩

/-- An operation on the table alone. -/
theorem OnlyTable.touchesFree (only : s.OnlyTable s')
    (free : ∀ block < s.heap.table.total, typeFree (s'.view block) → typeFree (s.view block) ∨ released block) :
    s.TouchesFree s' released :=
  ⟨only.geometry, fun _ outside _ => only.mem _ (not_mem_tableBytes outside), free⟩

theorem ReadOnly.touchesFree (only : s.ReadOnly s') : s.TouchesFree s' released :=
  only.onlyTable.touchesFree fun block _ isFree => Or.inl (by rwa [only.view] at isFree)

/-- A run that was taken was free. -/
theorem typeFree_takenFrom {view : Nat → Byte} {start blocks block : Nat}
    (isFree : typeFree (takenFrom view start blocks block)) : typeFree (view block) := by
  unfold takenFrom at isFree
  split at isFree
  · exact absurd isFree (not_typeFree_of_entryType (entryType_mallocEntry _ _))
  · exact isFree

theorem typeFree_freedFrom {view : Nat → Byte} {block len other : Nat}
    (isFree : typeFree (freedFrom view block len other)) :
    typeFree (view other) ∨ block ≤ other ∧ other < block + len := by
  unfold freedFrom at isFree
  split at isFree
  · rename_i freed
    exact Or.inr freed
  · exact Or.inl isFree

/-- An address outside of the free blocks is outside of a free run. -/
theorem outside_run {start blocks a : Nat}
    (run : IsRun (fun block => typeFree (s.view block)) s.heap.table.total blocks start)
    (outside : ∀ block < s.heap.table.total, typeFree (s.view block) → a ∉ s.heap.blockBytes block) :
    a < s.heap.saddr + start * peachosHeapBlockSize ∨
      s.heap.saddr + start * peachosHeapBlockSize + blocks * peachosHeapBlockSize ≤ a := by
  by_contra between
  rw [not_or, not_lt, not_le] at between
  obtain ⟨offset, below, inside⟩ := s.heap.mem_blockBytes_of_run between.1 between.2
  have range := run.1
  exact outside (start + offset) (by omega) (run.2 offset below) inside

/-- **An allocation** releases nothing. -/
theorem TouchesFree.of_allocated {blocks start ptr : Nat} (allocated : Allocated s blocks start ptr s') :
    s.TouchesFree s' released where
  geometry := allocated.geometry
  mem := fun a outsideTable outsideFree => by
    refine allocated.mem a (not_mem_tableBytes outsideTable) ?_
    rw [allocated.address]
    exact outside_run allocated.run.1 outsideFree
  free := fun block below isFree => by
    rw [allocated.view block below] at isFree
    exact Or.inl (typeFree_takenFrom isFree)

end HeapState

open HeapState

/-- The blocks that freeing a block would clear. -/
def InChain (view : Nat → Byte) (total block other : Nat) : Prop :=
  block ≤ other ∧ other < block + walk goesOn view (total - block) block

section Operations

variable {s : HeapState} (sound : s.heap.Sound)

include sound

/-- **`heap_malloc` writes to the table only.** -/
theorem heapMalloc_onlyTable (size : Nat) : s.OnlyTable (heapMalloc s size).2 := by
  have readOnly := heapGetStartBlock_readOnly s (heapBlocks size)
  have unfolded : heapMalloc s size = heapMallocBlocks s (heapBlocks size) := rfl
  rw [unfolded, heapMallocBlocks]
  rcases search : heapGetStartBlock s (heapBlocks size) with ⟨found, searched⟩
  rw [search] at readOnly
  cases found with
  | none => exact readOnly.onlyTable
  | some start =>
      obtain ⟨_, run⟩ := heapGetStartBlock_found sound
        (show (heapGetStartBlock s (heapBlocks size)).1 = some start by rw [search])
      have sound' : searched.heap.Sound := by rwa [readOnly.heap]
      have inside : start + heapBlocks size ≤ searched.heap.table.total := by
        rw [readOnly.heap]
        exact run.1.1
      obtain ⟨only, _, _⟩ := heapMarkBlocksTaken_spec sound' inside
      exact (readOnly.onlyTable.trans only).trans (OnlyTable.countTaken _ _)

/-- The block of any address of the heap. -/
theorem heapAddressToBlock_blockOf {ptr : Nat} (low : s.heap.saddr ≤ ptr) (high : ptr ≤ s.heap.eaddr) :
    heapAddressToBlock s.heap ptr = blockOf s.heap ptr ∧ blockOf s.heap ptr ≤ s.heap.table.total := by
  have span := sound.span
  have small := sound.total_lt
  refine ⟨?_, ?_⟩
  · unfold heapAddressToBlock blockOf
    simp only [peachosHeapBlockSize] at span ⊢
    rw [toInt64_of_bounds (by omega) (by omega), ← Nat.cast_sub low]
    exact (Int.natCast_div _ _).symm ▸ rfl
  · unfold blockOf
    simp only [peachosHeapBlockSize] at span ⊢
    omega

/-- Every address of a block is freed as its start. -/
theorem heapFree_blockOf {ptr : Nat} (low : s.heap.saddr ≤ ptr) (high : ptr ≤ s.heap.eaddr) :
    heapFree s ptr = heapFree s (s.heap.saddr + blockOf s.heap ptr * peachosHeapBlockSize) ∧
      blockOf s.heap ptr ≤ s.heap.table.total := by
  obtain ⟨block, inside⟩ := heapAddressToBlock_blockOf sound low high
  refine ⟨?_, inside⟩
  unfold heapFree
  rw [block, sound.addressToBlock inside]

/-- **A release** frees its chain. -/
theorem touchesFree_free {block : Nat} (inside : block ≤ s.heap.table.total) :
    s.TouchesFree (heapFree s (s.heap.saddr + block * peachosHeapBlockSize))
      (InChain s.view s.heap.table.total block) := by
  obtain ⟨only, _, viewEq⟩ := heapFree_spec sound inside
  refine only.touchesFree fun other _ isFree => ?_
  rw [viewEq] at isFree
  exact typeFree_freedFrom isFree

end Operations

/-! ### Reallocating -/

/-- A block of the table behind the chain is in the way of an extension. -/
def HeapState.ExtensionBlocked (s : HeapState) (block blocks : Nat) : Prop :=
  ∃ other, block + s.countAt block ≤ other ∧ other < block + blocks ∧ other < s.heap.table.total ∧ isTaken (s.view other)

/-- **A reallocation stays inside the table**: it does not grow, it is moved, or it is extended up to the last
block at most. -/
def HeapState.ReallocInside (s : HeapState) (block blocks : Nat) : Prop :=
  s.countAt block < blocks →
    s.ExtensionBlocked block blocks ∨ 0 < block + s.countAt block ∧ block + blocks ≤ s.heap.table.total

/-- **The blocks that a reallocation releases**: those behind the cut, or the old chain of one that is moved. -/
def HeapState.reallocReleases (s : HeapState) (block blocks other : Nat) : Prop :=
  (blocks < s.countAt block ∧ InChain s.view s.heap.table.total (block + blocks) other) ∨
    (s.countAt block < blocks ∧ s.ExtensionBlocked block blocks ∧
      ∃ start, IsFirstRun (fun other => typeFree (s.view other)) s.heap.table.total blocks start ∧
        InChain (takenFrom s.view start blocks) s.heap.table.total block other)

theorem typeFree_and_notHasNext : ∀ entry : Byte, typeFree (entry &&& ~~~heapBlockHasNext) ↔ typeFree entry := by
  decide

theorem typeFree_or_hasNext : ∀ entry : Byte, typeFree (entry ||| heapBlockHasNext) ↔ typeFree entry := by
  decide

section Realloc

variable {s : HeapState} (sound : s.heap.Sound) {block blocks : Nat} (inside : block ≤ s.heap.table.total)
  {result : Nat × HeapState} (path : ReallocPath s block blocks result) (stays : s.ReallocInside block blocks)

include sound inside path stays

/-- **A reallocation** that stays inside the table. -/
theorem touchesFree_realloc : s.TouchesFree result.2 (s.reallocReleases block blocks) ∧
    ∀ i ∈ result.2.accesses, i ∈ s.accesses ∨ s.InTable i := by
  have bound := s.countAt_le inside
  cases path with
  | same equal pointer frame => exact ⟨frame.touchesFree, frame.accesses⟩
  | shrink fewer pointer counted readOnly state =>
      have sound' : counted.heap.Sound := readOnly.onlyTable.sound sound
      have insideCounted : block + s.countAt block ≤ counted.heap.table.total := by
        rw [readOnly.heap]
        exact bound
      obtain ⟨only, _, viewEq⟩ := heapReallocShrink_spec sound' insideCounted fewer
      have whole := readOnly.onlyTable.trans only
      rw [state]
      refine ⟨whole.touchesFree fun other _ isFree => ?_, whole.accesses⟩
      rw [viewEq] at isFree
      unfold cutFrom HeapState.chainLength at isFree
      rw [readOnly.view, readOnly.heap] at isFree
      split at isFree
      · exact Or.inl ((typeFree_and_notHasNext _).mp isFree)
      · exact (typeFree_freedFrom isFree).imp_right fun freed => Or.inl ⟨fewer, freed⟩
  | extend more fits isFree pointer tested readOnly state =>
      have first : 0 < block + s.countAt block := by
        rcases stays more with ⟨other, low, high, _, taken⟩ | ⟨first, _⟩
        · exact absurd taken (isFree other low high)
        · exact first
      have castEq : (block : Int) + s.countAt block - 1 = ((block + s.countAt block : Nat) : Int) - 1 := by
        push_cast
        ring
      have sound' : tested.heap.Sound := readOnly.onlyTable.sound sound
      have insideTested : block + s.countAt block + (blocks - s.countAt block) ≤ tested.heap.table.total := by
        rw [readOnly.heap]
        omega
      obtain ⟨only, _, viewEq⟩ := heapReallocExtend_spec sound' first (show 0 < blocks - s.countAt block by omega)
        insideTested
      have whole := readOnly.onlyTable.trans only
      rw [state, castEq]
      refine ⟨whole.touchesFree fun other _ isFree' => Or.inl ?_, whole.accesses⟩
      rw [viewEq] at isFree'
      unfold splicedFrom at isFree'
      rw [readOnly.view] at isFree'
      split at isFree'
      · exact (typeFree_or_hasNext _).mp isFree'
      · split at isFree'
        · exact absurd isFree' (by decide)
        · split at isFree'
          · exact absurd isFree' (by decide)
          · exact isFree'
  | full more other low high below taken pointer frame absent => exact ⟨frame.touchesFree, frame.accesses⟩
  | move more other low high below taken start moved =>
      refine ⟨⟨moved.geometry, fun a outsideTable outsideFree => ?_, fun place below' isFree => ?_⟩, moved.accesses⟩
      · refine moved.mem a (not_mem_tableBytes outsideTable) ?_
        rw [moved.address]
        exact outside_run moved.run.1 outsideFree
      · rw [moved.view place below'] at isFree
        rcases typeFree_freedFrom isFree with kept | freed
        · exact Or.inl (typeFree_takenFrom kept)
        · exact Or.inr (Or.inr ⟨more, ⟨other, low, high, below, taken⟩, start, moved.run, freed⟩)
  | leave more leaves isFree outside geometry =>
      rcases stays more with ⟨other, low, _, below, taken⟩ | ⟨_, fits⟩
      · exact absurd taken (isFree other low below)
      · omega

end Realloc

end PeachOS
