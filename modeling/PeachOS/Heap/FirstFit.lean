/-
**`heap_malloc` is first fit.**

Whatever the block table holds, a request gets the lowest run of free blocks that is long enough, and these blocks become
taken. It is refused, and nothing changes, when its size is zero or rounds up to `2 ^ 64`, or when there is no such run. A
request of no blocks completes no count in the search (`heapGetStartBlockLoop_zero`).

* `heapMalloc_firstFit` — the allocation, for every table and every size.
-/

import PeachOS.Heap.Chains

namespace PeachOS

open FirstFit

/-- The blocks that a size takes, rounded up. -/
def blocksFor (size : Nat) : Nat := (size + (peachosHeapBlockSize - 1)) / peachosHeapBlockSize

namespace HeapState

/-- The blocks from `start` on are in the table and free. -/
def FreeRun (s : HeapState) (blocks start : Nat) : Prop :=
  IsRun (fun block => typeFree (s.view block)) s.heap.table.total blocks start

/-- **The lowest-numbered run of free blocks.** -/
def LowestFreeRun (s : HeapState) (blocks start : Nat) : Prop :=
  s.FreeRun blocks start ∧ ∀ lower < start, ¬ s.FreeRun blocks lower

/-- No bytes, more than can be rounded up, or more than any run has. -/
def Refuses (s : HeapState) (size : Nat) : Prop :=
  size = 0 ∨ 2 ^ 64 - peachosHeapBlockSize < size ∨ ∀ start, ¬ s.FreeRun (blocksFor size) start

/-- **Exactly a run is taken**, and counted. -/
structure TakesRun (s : HeapState) (blocks start : Nat) (s' : HeapState) : Prop where
  taken : ∀ block, start ≤ block → block < start + blocks → heapGetEntryType (s'.view block) = heapBlockTableEntryTaken
  others : ∀ block < s.heap.table.total, block < start ∨ start + blocks ≤ block → s'.view block = s.view block
  heap : s'.heap = (s.countTaken blocks).heap

/-- **What first fit makes of a request**: the lowest run, or the null pointer and nothing changed. -/
structure FirstFits (s : HeapState) (size : Nat) (result : Nat × HeapState) : Prop where
  served : ¬ s.Refuses size → ∃ start, s.LowestFreeRun (blocksFor size) start ∧
    result.1 = heapBlockToAddress s.heap start ∧ s.TakesRun (blocksFor size) start result.2
  null : result.1 = 0 ↔ s.Refuses size
  refused : s.Refuses size → result.2.view = s.view ∧ result.2.heap = s.heap

end HeapState

/-- The entries of an allocation are taken ones. -/
theorem mallocEntry_type (blocks place : Nat) : heapGetEntryType (mallocEntry blocks place) = heapBlockTableEntryTaken := by
  unfold mallocEntry
  split
  · split <;> rfl
  · rfl

section Malloc

variable {s : HeapState} {size : Nat}

/-- The code's count of blocks, for a size that can be rounded up. -/
theorem heapBlocks_blocksFor (fits : size ≤ 2 ^ 64 - peachosHeapBlockSize) : heapBlocks size = blocksFor size :=
  heapBlocks_eq fits

/-- A request of no blocks is one that is refused. -/
theorem refuses_of_noBlocks (word : size < 2 ^ 64) (none : heapBlocks size = 0) : s.Refuses size := by
  by_cases fits : size ≤ 2 ^ 64 - peachosHeapBlockSize
  · left
    rw [heapBlocks_blocksFor fits] at none
    unfold blocksFor at none
    simp only [peachosHeapBlockSize] at none
    omega
  · exact Or.inr (Or.inl (not_le.mp fits))

/-- Who is refused asks for no blocks, or for a run that there is not. -/
theorem not_run_of_refuses (word : size < 2 ^ 64) (refuses : s.Refuses size) (some : 0 < heapBlocks size) (start : Nat) :
    ¬ s.FreeRun (heapBlocks size) start := by
  rcases refuses with empty | wraps | none
  · rw [empty] at some
    exact absurd some (by decide)
  · rw [heapBlocks_wraps wraps word] at some
    exact absurd some (Nat.lt_irrefl 0)
  · have fits : size ≤ 2 ^ 64 - peachosHeapBlockSize := by
      by_contra wraps
      rw [heapBlocks_wraps (not_le.mp wraps) word] at some
      exact absurd some (Nat.lt_irrefl 0)
    rw [heapBlocks_blocksFor fits]
    exact none start

/-- **First fit**, for every block table and every size. -/
theorem heapMalloc_firstFit (sound : s.heap.Sound) (word : size < 2 ^ 64) : s.FirstFits size (heapMalloc s size) := by
  rcases heapMalloc_cases sound size with ⟨null, readOnly, noRun⟩ | ⟨start, allocated⟩
  · have refuses : s.Refuses size := by
      rcases Nat.eq_zero_or_pos (heapBlocks size) with none | some
      · exact refuses_of_noBlocks word none
      · by_contra served
        have fits : size ≤ 2 ^ 64 - peachosHeapBlockSize := not_lt.mp fun wraps => served (Or.inr (Or.inl wraps))
        refine served (Or.inr (Or.inr ?_))
        rw [← heapBlocks_blocksFor fits]
        exact noRun some
    exact ⟨fun served => absurd refuses served, ⟨fun _ => refuses, fun _ => null⟩,
      fun _ => ⟨readOnly.view, readOnly.heap⟩⟩
  · have served : ¬ s.Refuses size := fun refuses =>
      not_run_of_refuses word refuses allocated.positive start allocated.run.1
    have fits : size ≤ 2 ^ 64 - peachosHeapBlockSize := not_lt.mp fun wraps => served (Or.inr (Or.inl wraps))
    have blocks := heapBlocks_blocksFor fits
    have nonnull := (allocated.pointer_pos sound).ne'
    refine ⟨fun _ => ⟨start, ?_, ?_, ?_, fun block below outside => ?_, ?_⟩,
      ⟨fun null => absurd null nonnull, fun refuses => absurd refuses served⟩, fun refuses => absurd refuses served⟩
    · rw [← blocks]
      exact allocated.run
    · rw [allocated.address]
      exact (sound.blockToAddress (Nat.le_of_add_right_le allocated.inside)).symm
    · intro block low high
      rw [← blocks] at high
      rw [allocated.view block (high.trans_le allocated.inside), takenFrom, if_pos ⟨low, high⟩]
      exact mallocEntry_type _ _
    · rw [← blocks] at outside
      rw [allocated.view block below, takenFrom, if_neg (by omega)]
    · rw [← blocks]
      exact allocated.heap

end Malloc

/-- Four blocks, of which the second one has an entry that no allocation leaves. -/
def gappedHeap : HeapState where
  heap := { table := ⟨0x1000, 4⟩, saddr := 0x100000, eaddr := 0x104000, totalBlocks := 4, freeBlocks := 3, usedBlocks := 1,
            blockAllocatedCallback := false, blockFreeCallback := false }
  mem := fun address => if address = 0x1001 then 0x05#8 else 0x00#8
  calls := []
  accesses := []

/-- Two of its blocks are the last ones. -/
theorem heapMalloc_firstFit_gapped : gappedHeap.FirstFits 8192 (heapMalloc gappedHeap 8192) :=
  heapMalloc_firstFit ⟨by decide, by decide, by decide, by decide, by decide, by decide, by decide, by decide⟩ (by decide)

end PeachOS
