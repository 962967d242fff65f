/-
**Mapping pages when there is no memory for tables.**

`paging_map` does not look at what `kzalloc` returns. A null pointer becomes a link to page zero, which is then taken for
the missing table, and the result is zero as ever.

* `exhaustionHandled_iff` — failed allocations are reported in no call: only when none fails there is nothing to report;
* `exhaustion_unnoticed` — a descriptor that takes the last block of its heap.
-/

import PeachOS.Paging.Calls
import PeachOS.Paging.Identity
import PeachOS.Paging.Mapping

namespace PeachOS

open ByteStore RadixTable

/-- The memory of the heaps: their tables and their blocks. -/
def Kernel.heapMemory (k : Kernel) : Set Nat :=
  { a | ∃ node ∈ k.multiheap.heaps,
    a ∈ Set.Ico (k.heaps node.heap).table.entries ((k.heaps node.heap).table.entries + (k.heaps node.heap).table.total) ∨
      a ∈ Set.Ico (k.heaps node.heap).saddr (k.heaps node.heap).eaddr }

/-- **A page that could not be mapped**: an error, no write outside the tables and the memory they are taken from, and
every walk as before. -/
structure FailsCleanly (k : Kernel) (desc : PagingDesc) (virt phys : Nat) (flags : BitVec 32) : Prop where
  result : (pagingMap k desc virt phys flags).1 < 0
  outside : ∀ a, (∀ table ∈ tablesInUse k.mem desc, a ∉ tablePage table) → a ∉ k.heapMemory →
    (pagingMap k desc virt phys flags).2.mem a = k.mem a
  walks : ∀ va, pageWalk (pagingMap k desc virt phys flags).2.mem desc va = pageWalk k.mem desc va

namespace MapCall

/-- **A failed allocation is handled**: the page fails cleanly, and the call returns the error. -/
def ExhaustionHandled (k : Kernel) (desc : PagingDesc) (flags : BitVec 32) (call : MapCall) : Prop :=
  ∀ i < call.pages, ¬ PagingMapAllocates (call.after k desc flags i) desc (pageAt call.virt i) →
    FailsCleanly (call.after k desc flags i) desc (pageAt call.virt i) (pageAt call.phys i) flags ∧
      (call.run k desc flags).1 < 0

/-- **No failed allocation is handled.** A call is only right when all tables that it needs can be allocated. -/
theorem exhaustionHandled_iff (k : Kernel) (desc : PagingDesc) (flags : BitVec 32) (call : MapCall) :
    call.ExhaustionHandled k desc flags ↔
      ∀ i < call.pages, PagingMapAllocates (call.after k desc flags i) desc (pageAt call.virt i) := by
  constructor
  · intro handled i inside
    by_contra failed
    have negative := (handled i inside failed).1.result
    -- `paging_map` has no other result than zero
    rw [pagingMap_eq] at negative
    exact lt_irrefl 0 negative
  · intro allocates i inside failed
    exact absurd (allocates i inside) failed

end MapCall

/-! ### A full heap -/

/-- A kernel whose heap has two blocks, and no more than a descriptor needs. -/
def twoBlocks : Kernel where
  mem := fun _ => 0x00#8
  heaps := fun _ =>
    { table := { entries := 0x1000, total := 2 }, saddr := 0x100000, eaddr := 0x102000, totalBlocks := 2,
      freeBlocks := 2, usedBlocks := 0, blockAllocatedCallback := false, blockFreeCallback := false }
  multiheap :=
    { startingHeap := .kernelMinimalHeap, heaps := [⟨.kernelMinimalHeap, none, multiheapHeapFlagExternallyOwned⟩],
      maxEndDataAddr := 0x102000, flags := multiheapFlagIsReady, totalHeaps := 1 }
  calls := []

/-- Its only descriptor, and no table below the root. -/
def lastDescriptor : PagingDesc := { pml := 0x101000, level := pagingMapLevel4 }

theorem lastDescriptor_allocates :
    ¬ PagingMapAllocates (pagingDescNew twoBlocks pagingMapLevel4).2 lastDescriptor 0x1000 := by
  rintro ⟨root, -⟩
  have pml : (kmalloc (kzalloc twoBlocks sizeofPagingDesc).2 4096).1 = 0x101000 := by decide +kernel
  -- the root is cleared, and no block is left for a table
  refine root (decide_eq_true (readWord_eq_zero fun offset inside => ?_)) (by decide +kernel)
  show (kzalloc (kzalloc twoBlocks sizeofPagingDesc).2 4096).2.mem (0x101000 + offset) = _
  rw [kzalloc, if_neg (by rw [pml]; decide), pml]
  exact (fill_apply _ _ _ _ _).trans (if_pos ⟨Nat.le_add_right _ _, Nat.add_lt_add_left (inside.trans (by decide)) _⟩)

/-- A page of this descriptor is not mapped, and the result is zero. -/
theorem exhaustion_unnoticed :
    ¬ (MapCall.map 0x1000 0x5000).ExhaustionHandled (pagingDescNew twoBlocks pagingMapLevel4).2 lastDescriptor 0b111#32 := by
  intro handled
  have negative := (handled 0 Nat.one_pos lastDescriptor_allocates).2
  exact lt_irrefl 0 negative

end PeachOS
