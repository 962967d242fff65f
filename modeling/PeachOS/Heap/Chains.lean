/-
**Allocating and freeing on any table, and what a table says about chains.**

`heapMalloc_cases`, `heapZalloc_cases` and `heapFree_spec` are the specifications of the interface on
a sound heap whatever its table holds. What a table should hold is said by two codings:

* `chainCoding` — the documented one: `TAKEN | IS_FIRST`, then `TAKEN`, with `HAS_NEXT` on every block
  of a chain but its last;
* `looseCoding` — what the code keeps: the last block may carry `HAS_NEXT` as well.

Under the loose coding a chain is `Clean` when nothing taken follows it while it is said to go on.
That is what makes its count and its release its own.
-/

import PeachOS.Heap.Loops

namespace PeachOS

open ByteStore SpanTable FirstFit

/-! ### Sizes in blocks -/

/-- The blocks `heap_malloc` takes for a size. -/
def heapBlocks (size : Nat) : Nat := heapAlignValueToUpper size / peachosHeapBlockSize

/-- Rounding up, for every size that does not round up to `2 ^ 64`. -/
theorem heapBlocks_eq {size : Nat} (fits : size ≤ 2 ^ 64 - 4096) :
    heapBlocks size = (size + 4095) / 4096 := by
  unfold heapBlocks heapAlignValueToUpper
  simp only [peachosHeapBlockSize]
  split
  · omega
  · rw [toWord_of_bounds (by omega) (by omega)]
    omega

/-- A size that rounds up to `2 ^ 64` takes no block. -/
theorem heapBlocks_wraps {size : Nat} (wraps : 2 ^ 64 - 4096 < size) (word : size < 2 ^ 64) :
    heapBlocks size = 0 := by
  unfold heapBlocks heapAlignValueToUpper
  simp only [peachosHeapBlockSize]
  rw [if_neg (by omega), show (size : Int) - size % (4096 : Nat) + (4096 : Nat) = 2 ^ 64 by omega]
  decide

theorem heapBlocks_lt {size : Nat} (word : size < 2 ^ 64) : heapBlocks size < 2 ^ 52 := by
  by_cases fits : size ≤ 2 ^ 64 - 4096
  · rw [heapBlocks_eq fits]
    omega
  · rw [heapBlocks_wraps (by omega) word]
    norm_num

/-- The aligned size is the size of the blocks. -/
theorem heapAlignValueToUpper_eq (size : Nat) :
    heapAlignValueToUpper size = heapBlocks size * peachosHeapBlockSize := by
  unfold heapBlocks heapAlignValueToUpper
  simp only [peachosHeapBlockSize]
  split
  · omega
  · unfold toWord
    omega

/-- Whole blocks take themselves. -/
theorem heapBlocks_mul (blocks : Nat) : heapBlocks (blocks * peachosHeapBlockSize) = blocks := by
  unfold heapBlocks heapAlignValueToUpper
  simp only [peachosHeapBlockSize]
  rw [if_pos (by omega)]
  omega

/-! ### Allocating -/

/-- The table after a run was taken. -/
def takenFrom (view : Nat → Byte) (start totalBlocks : Nat) : Nat → Byte :=
  fun block =>
    if start ≤ block ∧ block < start + totalBlocks then mallocEntry totalBlocks (block - start)
    else view block

/-- **A successful allocation**: the lowest run of free blocks, marked and counted. Memory changes in
the table and in the allocated range only. -/
structure Allocated (s : HeapState) (blocks start ptr : Nat) (s' : HeapState) : Prop where
  positive : 0 < blocks
  run : IsFirstRun (fun block => typeFree (s.view block)) s.heap.table.total blocks start
  address : ptr = s.heap.saddr + start * peachosHeapBlockSize
  heap : s'.heap = (s.countTaken blocks).heap
  view : ∀ block < s.heap.table.total, s'.view block = takenFrom s.view start blocks block
  mem : ∀ address, (address < s.heap.table.entries ∨ s.heap.table.entries + s.heap.table.total ≤ address) →
    (address < ptr ∨ ptr + blocks * peachosHeapBlockSize ≤ address) → s'.mem address = s.mem address
  older : s.accesses ⊆ s'.accesses
  accesses : ∀ i ∈ s'.accesses, i ∈ s.accesses ∨ s.InTable i

namespace Allocated

variable {s s' : HeapState} {blocks start ptr : Nat} (allocated : Allocated s blocks start ptr s')

include allocated

theorem inside : start + blocks ≤ s.heap.table.total := allocated.run.1.1

theorem isFree {block : Nat} (low : start ≤ block) (high : block < start + blocks) :
    typeFree (s.view block) := by
  have here := allocated.run.1.2 (block - start) (by omega)
  rwa [Nat.add_sub_cancel' low] at here

theorem geometry : s.heap.SameGeometry s'.heap := by
  rw [allocated.heap]
  exact s.sameGeometry_countTaken blocks

theorem pointer_pos (sound : s.heap.Sound) : 0 < ptr := by
  have positive := sound.positive
  rw [allocated.address]
  omega

end Allocated

theorem heapMalloc_cases {s : HeapState} (sound : s.heap.Sound) (size : Nat) :
    ((heapMalloc s size).1 = 0 ∧ s.ReadOnly (heapMalloc s size).2 ∧
      (0 < heapBlocks size → ∀ start,
        ¬ IsRun (fun block => typeFree (s.view block)) s.heap.table.total (heapBlocks size) start)) ∨
    ∃ start, Allocated s (heapBlocks size) start (heapMalloc s size).1 (heapMalloc s size).2 := by
  have readOnly := heapGetStartBlock_readOnly s (heapBlocks size)
  have unfolded : heapMalloc s size = heapMallocBlocks s (heapBlocks size) := rfl
  rw [unfolded, heapMallocBlocks]
  rcases search : heapGetStartBlock s (heapBlocks size) with ⟨found, searched⟩
  rw [search] at readOnly
  cases found with
  | none =>
      left
      refine ⟨rfl, readOnly, fun positive => heapGetStartBlock_none sound positive ?_⟩
      rw [search]
  | some start =>
      right
      have first := heapGetStartBlock_found sound
        (show (heapGetStartBlock s (heapBlocks size)).1 = some start by rw [search])
      obtain ⟨positive, run⟩ := first
      have sound' : searched.heap.Sound := by rwa [readOnly.heap]
      have inside : start + heapBlocks size ≤ searched.heap.table.total := by
        rw [readOnly.heap]
        exact run.1.1
      obtain ⟨only, heapEq, viewEq⟩ := heapMarkBlocksTaken_spec sound' inside
      have frame := (readOnly.onlyTable.trans only).trans
        (HeapState.OnlyTable.countTaken _ (heapBlocks size))
      refine ⟨start, positive, run, ?_, ?_, fun block _ => ?_, fun address outside _ =>
        frame.mem address outside, frame.older, frame.accesses⟩
      · show heapBlockToAddress searched.heap start = _
        rw [show heapBlockToAddress searched.heap start = _ from sound'.blockToAddress (by omega),
          readOnly.heap]
      · exact HeapState.heap_countTaken_congr (heapEq.trans readOnly.heap) _
      · show ((heapMarkBlocksTaken searched start (heapBlocks size)).countTaken _).view block = _
        rw [HeapState.view_countTaken, viewEq block, readOnly.view]
        rfl

/-- Data blocks lie apart from the table. -/
theorem Heap.Sound.data_outside {heap : Heap} (sound : heap.Sound) {address : Nat}
    (low : heap.saddr ≤ address) (high : address < heap.eaddr) :
    address < heap.table.entries ∨ heap.table.entries + heap.table.total ≤ address := by
  have apart := sound.apart
  omega

/-- The range of a run of blocks inside a heap. -/
theorem Heap.Sound.range_le {heap : Heap} (sound : heap.Sound) {start blocks : Nat}
    (inside : start + blocks ≤ heap.table.total) :
    heap.saddr + start * peachosHeapBlockSize + blocks * peachosHeapBlockSize ≤ heap.eaddr := by
  have span := sound.span
  simp only [peachosHeapBlockSize] at span ⊢
  omega

/-- The table lies outside the range of a run of blocks. -/
theorem Heap.Sound.table_outside {heap : Heap} (sound : heap.Sound) {start blocks block : Nat}
    (inside : start + blocks ≤ heap.table.total) (below : block < heap.table.total) :
    heap.table.entries + block < heap.saddr + start * peachosHeapBlockSize ∨
      heap.saddr + start * peachosHeapBlockSize + blocks * peachosHeapBlockSize
        ≤ heap.table.entries + block := by
  have range := sound.range_le inside
  have apart := sound.apart
  omega

/-- A size fits into its blocks, unless it takes none. -/
theorem le_heapBlocks_mul {size : Nat} (word : size < 2 ^ 64) (some : 0 < heapBlocks size) :
    size ≤ heapBlocks size * peachosHeapBlockSize := by
  by_cases fits : size ≤ 2 ^ 64 - 4096
  · rw [heapBlocks_eq fits]
    simp only [peachosHeapBlockSize]
    omega
  · rw [heapBlocks_wraps (by omega) word] at some
    omega

/-- A change of memory inside the allocated range keeps the allocation. -/
theorem Allocated.withMem {s s' : HeapState} {blocks start ptr : Nat} (sound : s.heap.Sound)
    (allocated : Allocated s blocks start ptr s') (mem : Memory)
    (same : ∀ address, (address < ptr ∨ ptr + blocks * peachosHeapBlockSize ≤ address) →
      mem address = s'.mem address) : Allocated s blocks start ptr (s'.withMem mem) where
  positive := allocated.positive
  run := allocated.run
  address := allocated.address
  heap := allocated.heap
  view := fun block below => by
    rw [← allocated.view block below]
    refine same _ ?_
    rw [allocated.address, show (s'.withMem mem).heap.table = s.heap.table from allocated.geometry.table]
    exact sound.table_outside allocated.inside below
  mem := fun address outside outside' => (same address outside').trans (allocated.mem address outside outside')
  older := allocated.older
  accesses := allocated.accesses

theorem heapZalloc_eq (s : HeapState) (size : Nat) :
    heapZalloc s size =
      if (heapMalloc s size).1 = 0 then (0, (heapMalloc s size).2)
      else ((heapMalloc s size).1, (heapMalloc s size).2.withMem
        (memset (heapMalloc s size).2.mem (heapMalloc s size).1 0x00#8 size)) := rfl

/-- `heap_zalloc` allocates as `heap_malloc` does. -/
theorem heapZalloc_cases {s : HeapState} (sound : s.heap.Sound) {size : Nat} (word : size < 2 ^ 64) :
    ((heapZalloc s size).1 = 0 ∧ s.ReadOnly (heapZalloc s size).2 ∧
      (0 < heapBlocks size → ∀ start,
        ¬ IsRun (fun block => typeFree (s.view block)) s.heap.table.total (heapBlocks size) start)) ∨
    ∃ start, Allocated s (heapBlocks size) start (heapZalloc s size).1 (heapZalloc s size).2 := by
  rw [heapZalloc_eq]
  rcases heapMalloc_cases sound size with ⟨failed, readOnly, absent⟩ | ⟨start, allocated⟩
  · left
    rw [if_pos failed]
    exact ⟨rfl, readOnly, absent⟩
  · right
    have nonzero : (heapMalloc s size).1 ≠ 0 := (allocated.pointer_pos sound).ne'
    have fits := le_heapBlocks_mul word allocated.positive
    rw [if_neg nonzero]
    exact ⟨start, allocated.withMem sound _ fun address outside => memset_outside (by omega) _⟩

/-! ### Freeing -/

/-- **Freeing a block pointer** clears and counts the blocks up to the end of its chain. -/
theorem heapFree_spec {s : HeapState} (sound : s.heap.Sound) {block : Nat}
    (inside : block ≤ s.heap.table.total) :
    s.OnlyTable (heapFree s (s.heap.saddr + block * peachosHeapBlockSize)) ∧
      (heapFree s (s.heap.saddr + block * peachosHeapBlockSize)).heap =
        (s.countTaken (-(s.chainLength block : Int))).heap ∧
      (heapFree s (s.heap.saddr + block * peachosHeapBlockSize)).view =
        freedFrom s.view block (s.chainLength block) := by
  unfold heapFree
  rw [sound.addressToBlock inside]
  exact heapMarkBlocksFree_spec sound inside

/-! ### Chains -/

/-- A taken entry with its two flags. -/
def takenEntry (isFirst hasNext : Bool) : Byte :=
  heapBlockTableEntryTaken ||| (if isFirst then heapBlockIsFirst else 0#8) |||
    (if hasNext then heapBlockHasNext else 0#8)

theorem goesOn_takenEntry : ∀ isFirst hasNext, goesOn (takenEntry isFirst hasNext) = hasNext := by decide

theorem isFirst_takenEntry :
    ∀ isFirst hasNext, takenEntry isFirst hasNext &&& heapBlockIsFirst ≠ 0 ↔ isFirst = true := by decide

theorem entryType_takenEntry :
    ∀ isFirst hasNext, heapGetEntryType (takenEntry isFirst hasNext) = heapBlockTableEntryTaken := by
  decide

/-- The documented entry at a place of a chain. -/
def chainEntry (len place : Nat) : Byte := takenEntry (place = 0) (place + 1 < len)

/-- **The documented coding of chains.** -/
def chainCoding : Coding Byte where
  free := fun entry => entry = heapBlockTableEntryFree
  mark := fun len place entry => entry = chainEntry len place

/-- The coding of chains that may go on after their last block. -/
def looseCoding : Coding Byte where
  free := fun entry => entry = heapBlockTableEntryFree
  mark := fun len place entry =>
    heapGetEntryType entry = heapBlockTableEntryTaken ∧ (place + 1 < len → goesOn entry = true) ∧
      (entry &&& heapBlockIsFirst ≠ 0 ↔ place = 0)

/-- Documented entries show where a chain starts and whether it goes on. -/
theorem chainCoding_legible :
    chainCoding.Legible (fun entry => entry &&& heapBlockIsFirst ≠ 0) (fun entry => goesOn entry = true) where
  free_not_first := by
    rintro entry rfl
    decide
  first_iff := by
    rintro len place entry rfl
    rw [chainEntry, isFirst_takenEntry, decide_eq_true_iff]
  next_iff := by
    rintro len place entry rfl
    rw [chainEntry, goesOn_takenEntry, decide_eq_true_iff]

/-- What the documented coding accepts the loose one does. -/
theorem decodes_loose {view : Nat → Byte} {total : Nat} {chains : Set Span}
    (decodes : Decodes chainCoding view total chains) : Decodes looseCoding view total chains :=
  decodes.mono (fun _ free => free) fun len place entry marked => by
    have entryEq : entry = chainEntry len place := marked
    rw [entryEq, chainEntry]
    refine ⟨entryType_takenEntry _ _, fun inner => ?_, ?_⟩
    · rw [goesOn_takenEntry, decide_eq_true_iff]
      exact inner
    · rw [isFirst_takenEntry, decide_eq_true_iff]

/-- `heap_malloc` says "goes on" on every block of a run of several. -/
theorem mallocEntry_eq (blocks place : Nat) :
    mallocEntry blocks place = takenEntry (place = 0) (0 < place ∨ 1 < blocks) := by
  unfold mallocEntry
  rcases Nat.eq_zero_or_pos place with rfl | later
  · by_cases many : 1 < blocks
    · simp [many]
      decide
    · simp [many]
      decide
  · simp [later, later.ne']
    decide

theorem entryType_mallocEntry (blocks place : Nat) :
    heapGetEntryType (mallocEntry blocks place) = heapBlockTableEntryTaken := by
  rw [mallocEntry_eq, entryType_takenEntry]

/-- `heap_malloc` writes loose entries. -/
theorem looseCoding_mallocEntry (blocks place : Nat) :
    looseCoding.mark blocks place (mallocEntry blocks place) := by
  refine ⟨entryType_mallocEntry blocks place, fun inner => ?_, ?_⟩
  · rw [mallocEntry_eq, goesOn_takenEntry, decide_eq_true_iff]
    omega
  · rw [mallocEntry_eq, isFirst_takenEntry, decide_eq_true_iff]

/-- **`heap_malloc` writes the documented entry everywhere but on the last of several blocks.** -/
theorem mallocEntry_eq_chainEntry {blocks place : Nat} (inside : place < blocks) :
    mallocEntry blocks place = chainEntry blocks place ↔ blocks = 1 ∨ place + 1 < blocks := by
  rw [mallocEntry_eq, chainEntry]
  constructor
  · intro same
    have flags := congrArg goesOn same
    rw [goesOn_takenEntry, goesOn_takenEntry, decide_eq_decide] at flags
    omega
  · intro documented
    congr 1
    rw [decide_eq_decide]
    omega

theorem entryType_free : heapGetEntryType heapBlockTableEntryFree = heapBlockTableEntryFree := by decide

theorem isTaken_of_entryType {entry : Byte} (taken : heapGetEntryType entry = heapBlockTableEntryTaken) :
    isTaken entry := by
  revert entry
  decide

theorem not_typeFree_of_entryType {entry : Byte}
    (taken : heapGetEntryType entry = heapBlockTableEntryTaken) : ¬ typeFree entry := by
  unfold typeFree
  rw [taken]
  decide

end PeachOS
