/-
**Sound heaps, the heap table as a function of the block, and frames.**

Nothing is assumed about the contents of the table here. On a sound heap (`Heap.Sound`) a block, its
address and the address of its entry determine each other; `HeapState.view` is the table as a function
from block numbers, and each primitive step of the state says what it does to the view.

`ReadOnly` and `OnlyTable` are the frames: what a search and what a marking loop leave alone. Both
record that the indexes they add to the trace lie inside the table.
-/

import PeachOS.Heap.Model
import PeachOS.Lib.SpanTable
import Mathlib.Data.List.Basic
import Mathlib.Tactic.Linarith

namespace PeachOS

open ByteStore SpanTable

/-! ### Sound heaps -/

/-- **A heap whose table has one entry for each block of `[saddr, eaddr)`**, table and blocks being
apart from each other, away from address zero and of a size the signed block arithmetic can span. -/
structure Heap.Sound (heap : Heap) : Prop where
  positive : 0 < heap.saddr
  aligned : heap.saddr % peachosHeapBlockSize = 0
  span : heap.eaddr = heap.saddr + heap.table.total * peachosHeapBlockSize
  bound : heap.eaddr < 2 ^ 64
  total_lt : heap.table.total < 2 ^ 51
  tableBound : heap.table.entries + heap.table.total ≤ 2 ^ 64
  apart : heap.table.entries + heap.table.total ≤ heap.saddr ∨ heap.eaddr ≤ heap.table.entries
  total : heap.totalBlocks = heap.table.total

namespace Heap.Sound

variable {heap : Heap} (sound : heap.Sound)

include sound

/-- The address of a block. -/
theorem blockToAddress {block : Nat} (inside : block ≤ heap.table.total) :
    heapBlockToAddress heap block = heap.saddr + block * peachosHeapBlockSize := by
  have span := sound.span
  have bound := sound.bound
  unfold heapBlockToAddress
  simp only [peachosHeapBlockSize] at span ⊢
  exact toWord_eq (by omega) (by omega)

/-- The block of an address. -/
theorem addressToBlock {block : Nat} (inside : block ≤ heap.table.total) :
    heapAddressToBlock heap (heap.saddr + block * peachosHeapBlockSize) = block := by
  have small := sound.total_lt
  unfold heapAddressToBlock
  simp only [peachosHeapBlockSize]
  rw [toInt64_of_bounds (by omega) (by omega),
    show ((heap.saddr + block * 4096 : Nat) : Int) - heap.saddr = (block : Int) * 4096 by push_cast; ring]
  exact Int.mul_tdiv_cancel _ (by norm_num)

end Heap.Sound

/-- Two heaps that differ in their counters at most. -/
def Heap.SameGeometry (heap heap' : Heap) : Prop :=
  heap' = { heap with usedBlocks := heap'.usedBlocks, freeBlocks := heap'.freeBlocks }

theorem Heap.SameGeometry.sound {heap heap' : Heap} (same : heap.SameGeometry heap')
    (sound : heap.Sound) : heap'.Sound := by
  rw [same]
  exact ⟨sound.positive, sound.aligned, sound.span, sound.bound, sound.total_lt, sound.tableBound, sound.apart,
    sound.total⟩

theorem Heap.SameGeometry.table {heap heap' : Heap} (same : heap.SameGeometry heap') :
    heap'.table = heap.table := by
  rw [same]

theorem Heap.SameGeometry.saddr {heap heap' : Heap} (same : heap.SameGeometry heap') :
    heap'.saddr = heap.saddr := by
  rw [same]

theorem Heap.SameGeometry.trans {first second third : Heap} (same : first.SameGeometry second)
    (same' : second.SameGeometry third) : first.SameGeometry third := by
  unfold Heap.SameGeometry at *
  rw [same', same]

namespace HeapState

/-! ### The table as a function of the block -/

/-- The table entry of a block. -/
def view (s : HeapState) (block : Nat) : Byte := s.mem (s.heap.table.entries + block)

/-- An index of the table. -/
def InTable (s : HeapState) (i : Int) : Prop := 0 ≤ i ∧ i < s.heap.table.total

theorem entryAddress_natCast {s : HeapState} (sound : s.heap.Sound) {block : Nat}
    (inside : block < s.heap.table.total) : s.entryAddress block = s.heap.table.entries + block := by
  have bound := sound.tableBound
  unfold entryAddress
  exact toWord_eq (by omega) (by omega)

theorem entry_natCast {s : HeapState} (sound : s.heap.Sound) {block : Nat}
    (inside : block < s.heap.table.total) : s.entry block = s.view block := by
  rw [entry, entryAddress_natCast sound inside, view]

@[simp] theorem view_touch (s : HeapState) (i : Int) : (s.touch i).view = s.view := rfl

@[simp] theorem heap_touch (s : HeapState) (i : Int) : (s.touch i).heap = s.heap := rfl

@[simp] theorem entry_touch (s : HeapState) (i j : Int) : (s.touch i).entry j = s.entry j := rfl

@[simp] theorem heap_setEntry (s : HeapState) (i : Int) (value : Byte) :
    (s.setEntry i value).heap = s.heap := rfl

theorem view_setEntry {s : HeapState} (sound : s.heap.Sound) {block : Nat}
    (inside : block < s.heap.table.total) (value : Byte) :
    (s.setEntry block value).view = put s.view block value := by
  funext other
  simp only [view, setEntry, put, entryAddress_natCast sound inside]
  by_cases same : other = block
  · rw [if_pos same, if_pos (by omega)]
  · rw [if_neg same, if_neg (by omega)]

@[simp] theorem heap_callFree (s : HeapState) (address : Nat) : (s.callFree address).heap = s.heap := by
  unfold callFree
  split <;> rfl

@[simp] theorem mem_callFree (s : HeapState) (address : Nat) : (s.callFree address).mem = s.mem := by
  unfold callFree
  split <;> rfl

@[simp] theorem accesses_callFree (s : HeapState) (address : Nat) :
    (s.callFree address).accesses = s.accesses := by
  unfold callFree
  split <;> rfl

@[simp] theorem view_callFree (s : HeapState) (address : Nat) : (s.callFree address).view = s.view := by
  funext block
  simp [view]

@[simp] theorem heap_callAllocated (s : HeapState) (address size : Nat) :
    (s.callAllocated address size).heap = s.heap := by
  unfold callAllocated
  split <;> rfl

@[simp] theorem mem_callAllocated (s : HeapState) (address size : Nat) :
    (s.callAllocated address size).mem = s.mem := by
  unfold callAllocated
  split <;> rfl

@[simp] theorem accesses_callAllocated (s : HeapState) (address size : Nat) :
    (s.callAllocated address size).accesses = s.accesses := by
  unfold callAllocated
  split <;> rfl

@[simp] theorem view_callAllocated (s : HeapState) (address size : Nat) :
    (s.callAllocated address size).view = s.view := by
  funext block
  simp [view]

@[simp] theorem view_countTaken (s : HeapState) (taken : Int) : (s.countTaken taken).view = s.view := rfl

theorem heap_countTaken_congr {s s' : HeapState} (same : s'.heap = s.heap) (taken : Int) :
    (s'.countTaken taken).heap = (s.countTaken taken).heap := by
  simp only [countTaken, same]

theorem sameGeometry_countTaken (s : HeapState) (taken : Int) :
    s.heap.SameGeometry (s.countTaken taken).heap := rfl

/-! ### Frames -/

/-- **Only reads**: nothing changes but the trace of indexes, which stays inside the table. -/
structure ReadOnly (s s' : HeapState) : Prop where
  heap : s'.heap = s.heap
  mem : s'.mem = s.mem
  calls : s'.calls = s.calls
  older : s.accesses ⊆ s'.accesses
  accesses : ∀ i ∈ s'.accesses, i ∈ s.accesses ∨ s.InTable i

/-- **Only the table**: the geometry of the heap is kept, memory changes inside the table only, and
so do the traced indexes. -/
structure OnlyTable (s s' : HeapState) : Prop where
  geometry : s.heap.SameGeometry s'.heap
  mem : ∀ address, address < s.heap.table.entries ∨
    s.heap.table.entries + s.heap.table.total ≤ address → s'.mem address = s.mem address
  older : s.accesses ⊆ s'.accesses
  accesses : ∀ i ∈ s'.accesses, i ∈ s.accesses ∨ s.InTable i

variable {s s' s'' : HeapState}

theorem ReadOnly.refl (s : HeapState) : s.ReadOnly s :=
  ⟨rfl, rfl, rfl, List.Subset.refl _, fun _ member => Or.inl member⟩

theorem ReadOnly.view (only : s.ReadOnly s') : s'.view = s.view := by
  funext block
  rw [HeapState.view, only.mem, only.heap, HeapState.view]

theorem ReadOnly.touch {block : Nat} (inside : block < s.heap.table.total) : s.ReadOnly (s.touch block) :=
  ⟨rfl, rfl, rfl, List.subset_cons_self _ _, fun i member => by
    rcases List.mem_cons.mp member with rfl | old
    · exact Or.inr ⟨by omega, by omega⟩
    · exact Or.inl old⟩

theorem ReadOnly.trans (only : s.ReadOnly s') (only' : s'.ReadOnly s'') : s.ReadOnly s'' where
  heap := only'.heap.trans only.heap
  mem := only'.mem.trans only.mem
  calls := only'.calls.trans only.calls
  older := List.Subset.trans only.older only'.older
  accesses := fun i member => by
    rcases only'.accesses i member with old | inside
    · exact only.accesses i old
    · exact Or.inr (by rwa [InTable, only.heap] at inside)

theorem ReadOnly.onlyTable (only : s.ReadOnly s') : s.OnlyTable s' where
  geometry := by
    unfold Heap.SameGeometry
    rw [only.heap]
  mem := fun _ _ => by rw [only.mem]
  older := only.older
  accesses := only.accesses

theorem OnlyTable.refl (s : HeapState) : s.OnlyTable s := (ReadOnly.refl s).onlyTable

theorem OnlyTable.trans (only : s.OnlyTable s') (only' : s'.OnlyTable s'') : s.OnlyTable s'' where
  geometry := only.geometry.trans only'.geometry
  mem := fun address outside => by
    rw [only'.mem address (by rwa [only.geometry.table]), only.mem address outside]
  older := List.Subset.trans only.older only'.older
  accesses := fun i member => by
    rcases only'.accesses i member with old | inside
    · exact only.accesses i old
    · exact Or.inr (by rwa [InTable, only.geometry.table] at inside)

theorem OnlyTable.setEntry (sound : s.heap.Sound) {block : Nat} (inside : block < s.heap.table.total)
    (value : Byte) : s.OnlyTable (s.setEntry block value) where
  geometry := rfl
  mem := fun address outside => by
    simp only [HeapState.setEntry, entryAddress_natCast sound inside]
    exact put_other _ (by omega) _
  older := List.subset_cons_self _ _
  accesses := fun i member => by
    rcases List.mem_cons.mp member with rfl | old
    · exact Or.inr ⟨by omega, by omega⟩
    · exact Or.inl old

theorem OnlyTable.callFree (s : HeapState) (address : Nat) : s.OnlyTable (s.callFree address) where
  geometry := by
    unfold Heap.SameGeometry
    rw [heap_callFree]
  mem := fun _ _ => by rw [mem_callFree]
  older := by rw [accesses_callFree]; exact List.Subset.refl _
  accesses := fun _ member => Or.inl (by rwa [accesses_callFree] at member)

theorem OnlyTable.callAllocated (s : HeapState) (address size : Nat) :
    s.OnlyTable (s.callAllocated address size) where
  geometry := by
    unfold Heap.SameGeometry
    rw [heap_callAllocated]
  mem := fun _ _ => by rw [mem_callAllocated]
  older := by rw [accesses_callAllocated]; exact List.Subset.refl _
  accesses := fun _ member => Or.inl (by rwa [accesses_callAllocated] at member)

theorem OnlyTable.countTaken (s : HeapState) (taken : Int) : s.OnlyTable (s.countTaken taken) where
  geometry := rfl
  mem := fun _ _ => rfl
  older := List.Subset.refl _
  accesses := fun _ member => Or.inl member

theorem OnlyTable.sound (only : s.OnlyTable s') (sound : s.heap.Sound) : s'.heap.Sound :=
  only.geometry.sound sound

end HeapState

end PeachOS
