/-
**The paths of `heap_realloc`, on any table.**

`heapRealloc_eq` frees the function of its conversions: what it does depends on the number `c` of taken
blocks that `heap_allocation_block_count` finds and on the number `m` of blocks that are asked for.

* `heapReallocShrink_spec` — the blocks from the `m`-th on are freed up to the end of the chain, and
  the counters are moved twice;
* `heapIsBlockRangeFree_cases` — the extension range is free, or it is not, or it leaves the table
  before a taken block is found;
* `heapReallocExtend_spec` — the extension in place;
* `heapReallocMove_cases` — there is no room, or `Moved`: allocate, copy, free;
* `heapRealloc_path` — every reallocation takes one of these paths (`ReallocPath`);
* `heapRealloc_cleared` — what lies behind the old bytes in a block that is new.
-/

import PeachOS.Heap.Accounting

namespace PeachOS

open ByteStore SpanTable FirstFit

/-- The number of blocks `heap_allocation_block_count` finds. -/
def HeapState.countAt (s : HeapState) (block : Nat) : Nat :=
  countIn isTaken s.view block (s.chainLength block)

theorem HeapState.countAt_le (s : HeapState) {block : Nat} (inside : block ≤ s.heap.table.total) :
    block + s.countAt block ≤ s.heap.table.total := by
  have bound := s.chainLength_le inside
  have counted := countIn_le isTaken s.view block (s.chainLength block)
  unfold HeapState.countAt
  omega

/-- **`heap_realloc` without its conversions**, for a block pointer and a size that is not zero. -/
theorem heapRealloc_eq {s : HeapState} (sound : s.heap.Sound) {block newSize : Nat}
    (inside : block ≤ s.heap.table.total) (positive : 0 < newSize) (word : newSize < 2 ^ 64) :
    ∃ counted, s.ReadOnly counted ∧
      heapRealloc s (s.heap.saddr + block * peachosHeapBlockSize) newSize =
        if s.countAt block = heapBlocks newSize then
          (s.heap.saddr + block * peachosHeapBlockSize, counted)
        else if heapBlocks newSize < s.countAt block then
          (s.heap.saddr + block * peachosHeapBlockSize,
            heapReallocShrink counted block (s.countAt block) (heapBlocks newSize))
        else
          let range := heapIsBlockRangeFree counted (block + s.countAt block)
            (block + s.countAt block + (heapBlocks newSize - s.countAt block) - 1)
          if range.1 then
            (s.heap.saddr + block * peachosHeapBlockSize,
              heapReallocExtend range.2 ((block : Int) + s.countAt block - 1) (block + s.countAt block)
                (block + s.countAt block + (heapBlocks newSize - s.countAt block) - 1)
                (heapBlocks newSize - s.countAt block))
          else heapReallocMove range.2 (s.heap.saddr + block * peachosHeapBlockSize)
            (s.countAt block * peachosHeapBlockSize) (heapBlocks newSize * peachosHeapBlockSize) := by
  obtain ⟨readOnly, count⟩ := heapAllocationBlockCount_spec sound inside
  have countEq : (heapAllocationBlockCount s (s.heap.saddr + block * peachosHeapBlockSize)).1 =
      s.countAt block := count
  have bound := s.countAt_le inside
  have total_lt := sound.total_lt
  have blocks_lt := heapBlocks_lt word
  have saddr_pos := sound.positive
  have notNull : ¬ s.heap.saddr + block * peachosHeapBlockSize = 0 := by omega
  refine ⟨_, readOnly, ?_⟩
  have sound' : (heapAllocationBlockCount s (s.heap.saddr + block * peachosHeapBlockSize)).2.heap.Sound := by
    rw [readOnly.heap]
    exact sound
  have blockEq : heapAddressToBlock
      (heapAllocationBlockCount s (s.heap.saddr + block * peachosHeapBlockSize)).2.heap
      (s.heap.saddr + block * peachosHeapBlockSize) = block := by
    rw [readOnly.heap]
    exact sound.addressToBlock inside
  have ending : toInt64 ((block : Int) + s.countAt block - 1) = (block : Int) + s.countAt block - 1 :=
    toInt64_of_bounds (by omega) (by omega)
  have start : toWord ((block : Int) + s.countAt block - 1 + 1) = block + s.countAt block :=
    toWord_eq (by omega) (by omega)
  have oldSize : toWord ((s.countAt block : Int) * (peachosHeapBlockSize : Nat)) =
      s.countAt block * peachosHeapBlockSize := by
    simp only [peachosHeapBlockSize]
    exact toWord_eq (by omega) (by omega)
  have blocksEq : heapBlocks newSize * peachosHeapBlockSize / peachosHeapBlockSize = heapBlocks newSize :=
    Nat.mul_div_cancel _ (by decide)
  unfold heapRealloc
  rw [if_neg notNull, if_neg positive.ne']
  simp only [countEq, blockEq, ending, start, oldSize, heapAlignValueToUpper_eq newSize, blocksEq]
  by_cases same : s.countAt block = heapBlocks newSize
  · rw [if_pos (by omega), if_pos same, if_pos same]
  · by_cases shrinks : heapBlocks newSize < s.countAt block
    · rw [if_pos (by omega), if_neg same, if_neg same, if_pos shrinks]
    · have last : toWord ((block + s.countAt block : Nat) +
          (heapBlocks newSize - s.countAt block : Nat) - 1) =
          block + s.countAt block + (heapBlocks newSize - s.countAt block) - 1 :=
        toWord_eq (by omega) (by omega)
      rw [if_neg (by omega), if_neg same, if_neg shrinks]
      simp only [last]

/-! ### Shrinking -/

/-- The table after a chain was cut to `blocks` blocks and `len` blocks were freed behind them. -/
def cutFrom (view : Nat → Byte) (block blocks len : Nat) : Nat → Byte :=
  fun other =>
    if 0 < blocks ∧ other = block + blocks - 1 then view other &&& ~~~heapBlockHasNext
    else freedFrom view (block + blocks) len other

theorem heapReallocShrink_spec {s : HeapState} (sound : s.heap.Sound) {block blocks current : Nat}
    (inside : block + current ≤ s.heap.table.total) (shrinks : blocks < current) :
    s.OnlyTable (heapReallocShrink s block current blocks) ∧
      (heapReallocShrink s block current blocks).heap =
        ((s.countTaken (-(s.chainLength (block + blocks) : Int))).countTaken
          (-(current - blocks : Nat))).heap ∧
      (heapReallocShrink s block current blocks).view =
        cutFrom s.view block blocks (s.chainLength (block + blocks)) := by
  have total_lt := sound.total_lt
  have start : toInt64 ((block : Int) + blocks) = ((block + blocks : Nat) : Int) := by
    rw [toInt64_of_bounds (by omega) (by omega)]
    push_cast
    rfl
  obtain ⟨only, heapEq, viewEq⟩ := heapMarkBlocksFree_spec sound
    (show block + blocks ≤ s.heap.table.total by omega)
  unfold heapReallocShrink
  simp only [start]
  set cleared := heapMarkBlocksFree s ((block + blocks : Nat) : Int) with clearedEq
  have sound' : cleared.heap.Sound := only.sound sound
  have tableEq := only.geometry.table
  by_cases positive : 0 < blocks
  · have lastEq : (block : Int) + blocks - 1 = ((block + blocks - 1 : Nat) : Int) := by omega
    have below : block + blocks - 1 < cleared.heap.table.total := by
      rw [tableEq]
      omega
    rw [if_pos positive, lastEq, HeapState.entry_natCast sound' below]
    have written := (HeapState.ReadOnly.touch below).onlyTable.trans
      (HeapState.OnlyTable.setEntry (s := cleared.touch ((block + blocks - 1 : Nat) : Int)) sound' below
        (cleared.view (block + blocks - 1) &&& ~~~heapBlockHasNext))
    refine ⟨(only.trans written).trans (HeapState.OnlyTable.countTaken _ _),
      HeapState.heap_countTaken_congr heapEq _, ?_⟩
    funext other
    rw [HeapState.view_countTaken, HeapState.view_setEntry (s := cleared.touch _) sound' below,
      HeapState.view_touch, viewEq]
    unfold cutFrom
    by_cases last : other = block + blocks - 1
    · rw [if_pos ⟨positive, last⟩, last, put_same]
      unfold freedFrom
      rw [if_neg (by omega)]
    · rw [if_neg fun here => last here.2, put_other _ last]
  · rw [if_neg positive]
    refine ⟨only.trans (HeapState.OnlyTable.countTaken _ _), HeapState.heap_countTaken_congr heapEq _, ?_⟩
    funext other
    rw [HeapState.view_countTaken, viewEq]
    unfold cutFrom
    rw [if_neg fun here => positive here.1]

/-! ### The extension range -/

/-- **The extension range** lies in the table and is free, or a block of the table is taken, or the
test goes on behind the table. -/
theorem heapIsBlockRangeFree_cases {s : HeapState} (sound : s.heap.Sound) {start len : Nat}
    (positive : 0 < len) (inside : start ≤ s.heap.table.total) :
    ((heapIsBlockRangeFree s start (start + len - 1)).1 = true ∧ start + len ≤ s.heap.table.total ∧
        (∀ block, start ≤ block → block < start + len → ¬ isTaken (s.view block)) ∧
        s.ReadOnly (heapIsBlockRangeFree s start (start + len - 1)).2) ∨
      ((heapIsBlockRangeFree s start (start + len - 1)).1 = false ∧
        (∃ block, start ≤ block ∧ block < start + len ∧ block < s.heap.table.total ∧
          isTaken (s.view block)) ∧
        s.ReadOnly (heapIsBlockRangeFree s start (start + len - 1)).2) ∨
      (s.heap.table.total < start + len ∧
        (∀ block, start ≤ block → block < s.heap.table.total → ¬ isTaken (s.view block)) ∧
        (s.heap.table.total : Int) ∈ (heapIsBlockRangeFree s start (start + len - 1)).2.accesses ∧
        ∃ trace, (heapIsBlockRangeFree s start (start + len - 1)).2 = { s with accesses := trace }) := by
  have fuelEq : start + len - 1 + 1 - start = len := by omega
  have entryEq : ∀ place, start + place < s.heap.table.total →
      s.entry ((start : Int) + place) = s.view (start + place) := by
    intro place below
    rw [← Nat.cast_add, HeapState.entry_natCast sound below]
  obtain ⟨value, accesses, trace, same⟩ := @heapIsBlockRangeFreeLoop_spec len start s
  unfold heapIsBlockRangeFree
  rw [fuelEq]
  by_cases blocked : ∃ block, start ≤ block ∧ block < start + len ∧ block < s.heap.table.total ∧
      isTaken (s.view block)
  · right
    left
    obtain ⟨block, low, high, below, taken⟩ := blocked
    have takenEntry : isTaken (s.entry ((start : Int) + ((block - start : Nat) : Int))) := by
      rw [entryEq _ (by omega), Nat.add_sub_cancel' low]
      exact taken
    refine ⟨?_, ⟨block, low, high, below, taken⟩, ⟨by rw [same], by rw [same], by rw [same],
      fun index old => (accesses index).mpr (Or.inl old), fun index member => ?_⟩⟩
    · rw [Bool.eq_false_iff]
      intro free
      exact value.mp free (block - start) (by omega) takenEntry
    · rcases (accesses index).mp member with old | ⟨place, _, rfl, earlier⟩
      · exact Or.inl old
      · -- the test stops at the taken block at the latest
        have stops : place ≤ block - start := by
          by_contra later
          exact earlier (block - start) (by omega) takenEntry
        exact Or.inr ⟨by omega, by omega⟩
  · have free : ∀ block, start ≤ block → block < start + len → block < s.heap.table.total →
        ¬ isTaken (s.view block) := fun block low high below taken =>
      blocked ⟨block, low, high, below, taken⟩
    by_cases fits : start + len ≤ s.heap.table.total
    · left
      refine ⟨value.mpr fun place below => ?_, fits, fun block low high => free block low high (by omega),
        ⟨by rw [same], by rw [same], by rw [same], fun index old => (accesses index).mpr (Or.inl old),
          fun index member => ?_⟩⟩
      · rw [entryEq place (by omega)]
        exact free _ (by omega) (by omega) (by omega)
      · rcases (accesses index).mp member with old | ⟨place, below, rfl, _⟩
        · exact Or.inl old
        · exact Or.inr ⟨by omega, by omega⟩
    · right
      right
      refine ⟨by omega, fun block low below => free block low (by omega) below, ?_, trace, same⟩
      refine (accesses _).mpr (Or.inr ⟨s.heap.table.total - start, by omega, by omega, fun earlier below => ?_⟩)
      rw [entryEq earlier (by omega)]
      exact free _ (by omega) (by omega) (by omega)

/-! ### Extending in place -/

/-- The table after `len` blocks from `start` on were spliced to the chain that ends before them. -/
def splicedFrom (view : Nat → Byte) (start len : Nat) : Nat → Byte :=
  fun other =>
    if other + 1 = start then view other ||| heapBlockHasNext
    else if start ≤ other ∧ other + 1 < start + len then heapBlockTableEntryTaken ||| heapBlockHasNext
    else if other + 1 = start + len then heapBlockTableEntryTaken
    else view other

theorem heapReallocExtend_spec {s : HeapState} (sound : s.heap.Sound) {start len : Nat}
    (first : 0 < start) (positive : 0 < len) (inside : start + len ≤ s.heap.table.total) :
    s.OnlyTable (heapReallocExtend s ((start : Int) - 1) start (start + len - 1) len) ∧
      (heapReallocExtend s ((start : Int) - 1) start (start + len - 1) len).heap = (s.countTaken len).heap ∧
      (heapReallocExtend s ((start : Int) - 1) start (start + len - 1) len).view =
        splicedFrom s.view start len := by
  have endingEq : (start : Int) - 1 = ((start - 1 : Nat) : Int) := by omega
  obtain ⟨only, heapEq, viewEq⟩ := heapReallocExtendLoop_spec sound
    (show start + (start + len - 1 - start) ≤ s.heap.table.total by omega)
  unfold heapReallocExtend
  simp only [endingEq]
  set looped := heapReallocExtendLoop (start + len - 1 - start) start s with loopedEq
  have sound' : looped.heap.Sound := only.sound sound
  have lastBelow : start + len - 1 < looped.heap.table.total := by
    rw [heapEq]
    omega
  have endBelow : start - 1 < looped.heap.table.total := by
    rw [heapEq]
    omega
  set closed := looped.setEntry ((start + len - 1 : Nat) : Int) heapBlockTableEntryTaken with closedEq
  have closedView : closed.view = put looped.view (start + len - 1) heapBlockTableEntryTaken :=
    HeapState.view_setEntry sound' lastBelow _
  have onlyClosed : looped.OnlyTable closed := HeapState.OnlyTable.setEntry sound' lastBelow _
  have entryEq : closed.entry ((start - 1 : Nat) : Int) = closed.view (start - 1) :=
    HeapState.entry_natCast (s := closed) sound' endBelow
  have onlySpliced := (HeapState.ReadOnly.touch (s := closed) endBelow).onlyTable.trans
    (HeapState.OnlyTable.setEntry (s := closed.touch ((start - 1 : Nat) : Int)) sound' endBelow
      (closed.view (start - 1) ||| heapBlockHasNext))
  rw [entryEq]
  refine ⟨((only.trans onlyClosed).trans onlySpliced).trans (HeapState.OnlyTable.countTaken _ _),
    HeapState.heap_countTaken_congr heapEq _, ?_⟩
  funext other
  rw [HeapState.view_countTaken, HeapState.view_setEntry (s := closed.touch _) sound' endBelow,
    HeapState.view_touch, closedView]
  unfold splicedFrom
  by_cases ending : other = start - 1
  · rw [if_pos (by omega), ending, put_same, put_other _ (by omega), viewEq, if_neg (by omega)]
  · rw [put_other _ ending, if_neg (show ¬ other + 1 = start by omega)]
    by_cases last : other = start + len - 1
    · have lastPlace : other + 1 = start + len := by omega
      rw [if_neg (by omega), if_pos lastPlace, last, put_same]
    · rw [put_other _ last, viewEq]
      have notLast : ¬ other + 1 = start + len := by omega
      rw [if_neg notLast]
      by_cases middle : start ≤ other ∧ other + 1 < start + len
      · rw [if_pos middle, if_pos (by omega)]
      · rw [if_neg middle, if_neg (by omega)]

/-- The extension adds to the trace, wherever it writes. -/
theorem heapReallocExtend_older (s : HeapState) (endingBlock : Int)
    (extensionStart extensionEnd extraBlocks : Nat) :
    s.accesses ⊆
      (heapReallocExtend s endingBlock extensionStart extensionEnd extraBlocks).accesses := by
  intro index member
  have looped := heapReallocExtendLoop_older (extensionEnd - extensionStart) extensionStart s member
  exact List.mem_cons_of_mem _ (List.mem_cons_of_mem _ (List.mem_cons_of_mem _ looped))

/-! ### Moving -/

/-- The number of blocks that freeing the old chain clears once the new run is taken. -/
def movedLength (s : HeapState) (block start blocks : Nat) : Nat :=
  walk goesOn (takenFrom s.view start blocks) (s.heap.table.total - block) block

/-- **A chain moved to a new run**: allocate, copy `count` blocks, free the old chain. -/
structure Moved (s : HeapState) (block count blocks start ptr : Nat) (s' : HeapState) : Prop where
  positive : 0 < blocks
  run : IsFirstRun (fun other => typeFree (s.view other)) s.heap.table.total blocks start
  address : ptr = s.heap.saddr + start * peachosHeapBlockSize
  heap : s'.heap = ((s.countTaken blocks).countTaken (-(movedLength s block start blocks : Int))).heap
  view : ∀ other < s.heap.table.total, s'.view other =
    freedFrom (takenFrom s.view start blocks) block (movedLength s block start blocks) other
  mem : ∀ address, (address < s.heap.table.entries ∨ s.heap.table.entries + s.heap.table.total ≤ address) →
    (address < ptr ∨ ptr + blocks * peachosHeapBlockSize ≤ address) → s'.mem address = s.mem address
  bytes : (∀ other, block ≤ other → other < block + count → ¬ typeFree (s.view other)) →
    ∀ offset < count * peachosHeapBlockSize % 2 ^ 32,
      s'.mem (ptr + offset) = s.mem (s.heap.saddr + block * peachosHeapBlockSize + offset)
  older : s.accesses ⊆ s'.accesses
  accesses : ∀ i ∈ s'.accesses, i ∈ s.accesses ∨ s.InTable i

theorem Moved.geometry {s s' : HeapState} {block count blocks start ptr : Nat}
    (moved : Moved s block count blocks start ptr s') : s.heap.SameGeometry s'.heap := by
  rw [moved.heap]
  exact (s.sameGeometry_countTaken _).trans ((s.countTaken _).sameGeometry_countTaken _)

/-- Blocks that are not free lie apart from a run of free ones. -/
theorem apart_of_run {view : Nat → Byte} {total blocks start block count : Nat} (positive : 0 < blocks)
    (run : IsRun (fun other => typeFree (view other)) total blocks start)
    (kept : ∀ other, block ≤ other → other < block + count → ¬ typeFree (view other)) (some : 0 < count) :
    start + blocks ≤ block ∨ block + count ≤ start := by
  by_contra overlap
  have low : start ≤ max start block := le_max_left _ _
  have free := run.2 (max start block - start) (by omega)
  rw [Nat.add_sub_cancel' low] at free
  exact kept (max start block) (le_max_right _ _) (by omega) free

theorem heapReallocMove_cases {s : HeapState} (sound : s.heap.Sound) {block count blocks : Nat}
    (inside : block + count ≤ s.heap.table.total) (fewer : count ≤ blocks) (small : blocks < 2 ^ 52)
    (positive : 0 < blocks) :
    ((heapReallocMove s (s.heap.saddr + block * peachosHeapBlockSize) (count * peachosHeapBlockSize)
          (blocks * peachosHeapBlockSize)).1 = 0 ∧
        s.ReadOnly (heapReallocMove s (s.heap.saddr + block * peachosHeapBlockSize)
          (count * peachosHeapBlockSize) (blocks * peachosHeapBlockSize)).2 ∧
        ∀ start, ¬ IsRun (fun other => typeFree (s.view other)) s.heap.table.total blocks start) ∨
      ∃ start, Moved s block count blocks start
        (heapReallocMove s (s.heap.saddr + block * peachosHeapBlockSize) (count * peachosHeapBlockSize)
          (blocks * peachosHeapBlockSize)).1
        (heapReallocMove s (s.heap.saddr + block * peachosHeapBlockSize) (count * peachosHeapBlockSize)
          (blocks * peachosHeapBlockSize)).2 := by
  have word : blocks * peachosHeapBlockSize < 2 ^ 64 := by
    simp only [peachosHeapBlockSize]
    omega
  unfold heapReallocMove
  simp only
  rcases heapZalloc_cases sound word with ⟨failed, readOnly, absent⟩ | ⟨start, allocated⟩
  · left
    rw [if_pos failed]
    rw [heapBlocks_mul] at absent
    exact ⟨rfl, readOnly, absent positive⟩
  · right
    rw [heapBlocks_mul] at allocated
    rw [if_neg (allocated.pointer_pos sound).ne']
    set ptr := (heapZalloc s (blocks * peachosHeapBlockSize)).1 with ptrEq
    set zeroed := (heapZalloc s (blocks * peachosHeapBlockSize)).2 with zeroedEq
    set source := s.heap.saddr + block * peachosHeapBlockSize with sourceEq
    have sizes : count * peachosHeapBlockSize ≤ blocks * peachosHeapBlockSize :=
      Nat.mul_le_mul_right _ fewer
    have copied := allocated.withMem sound
      (memcpy zeroed.mem ptr source (count * peachosHeapBlockSize)) fun address outside =>
        memcpy_outside (outside.imp_right fun high => (Nat.add_le_add_left sizes ptr).trans high)
    set filled := zeroed.withMem (memcpy zeroed.mem ptr source (count * peachosHeapBlockSize)) with filledEq
    have same := copied.geometry
    have tableEq := same.table
    have sound' : filled.heap.Sound := same.sound sound
    obtain ⟨only, heapEq, viewEq⟩ := heapFree_spec sound'
      (show block ≤ filled.heap.table.total by rw [tableEq]; omega)
    rw [same.saddr, ← sourceEq] at only heapEq viewEq
    have lengthEq : filled.chainLength block = movedLength s block start blocks := by
      unfold HeapState.chainLength movedLength
      rw [tableEq]
      exact walk_congr goesOn _ _ _ fun place below => copied.view _ (by omega)
    rw [lengthEq] at heapEq viewEq
    refine ⟨start, allocated.positive, allocated.run, allocated.address, ?_, fun other below => ?_,
      fun address outside outside' => ?_, fun kept offset below => ?_,
      List.Subset.trans copied.older only.older, fun i member => ?_⟩
    · rw [heapEq]
      exact HeapState.heap_countTaken_congr copied.heap _
    · rw [viewEq]
      unfold freedFrom
      split
      · rfl
      · exact copied.view other below
    · rw [only.mem address (by rw [tableEq]; exact outside)]
      exact copied.mem address outside outside'
    · have modulo := Nat.mod_le (count * peachosHeapBlockSize) (2 ^ 32)
      have range := sound.range_le allocated.inside
      have sourceRange := sound.range_le inside
      have pointer := allocated.address
      have order := apart_of_run allocated.positive allocated.run.1 kept
        (by by_contra none; rw [show count = 0 by omega] at below; simp at below)
      have apart : ptr + blocks * peachosHeapBlockSize ≤ source ∨
          source + count * peachosHeapBlockSize ≤ ptr := by
        rw [pointer, sourceEq]
        simp only [peachosHeapBlockSize]
        omega
      have targetData : ptr + offset < s.heap.table.entries ∨
          s.heap.table.entries + s.heap.table.total ≤ ptr + offset :=
        sound.data_outside (by omega) (by omega)
      have sourceData : source + offset < s.heap.table.entries ∨
          s.heap.table.entries + s.heap.table.total ≤ source + offset :=
        sound.data_outside (by omega) (by omega)
      rw [only.mem _ (by rw [tableEq]; exact targetData)]
      show memcpy zeroed.mem ptr source (count * peachosHeapBlockSize) (ptr + offset) = _
      rw [memcpy, copy_inside _ below (by omega)]
      exact allocated.mem _ sourceData (by omega)
    · rcases only.accesses i member with old | inTable
      · exact copied.accesses i old
      · exact Or.inr (by rwa [HeapState.InTable, tableEq] at inTable)

/-- Reads before the move do not matter. -/
theorem Moved.of_readOnly {s tested s' : HeapState} {block count blocks start ptr : Nat}
    (readOnly : s.ReadOnly tested) (moved : Moved tested block count blocks start ptr s') :
    Moved s block count blocks start ptr s' := by
  have viewEq := readOnly.view
  have heapEq := readOnly.heap
  have lengthEq : movedLength tested block start blocks = movedLength s block start blocks := by
    unfold movedLength
    rw [viewEq, heapEq]
  refine ⟨moved.positive, ?_, ?_, ?_, ?_, ?_, ?_, List.Subset.trans readOnly.older moved.older,
    fun i member => ?_⟩
  · rw [← viewEq, ← heapEq]
    exact moved.run
  · rw [← heapEq]
    exact moved.address
  · rw [← lengthEq, moved.heap]
    exact HeapState.heap_countTaken_congr (HeapState.heap_countTaken_congr heapEq _) _
  · rw [← viewEq, ← heapEq, ← lengthEq]
    exact moved.view
  · rw [← heapEq, ← readOnly.mem]
    exact moved.mem
  · rw [← viewEq, ← heapEq, ← readOnly.mem]
    exact moved.bytes
  · rcases moved.accesses i member with old | inTable
    · exact readOnly.accesses i old
    · exact Or.inr (by rwa [HeapState.InTable, heapEq] at inTable)

/-- **Behind the old bytes a moved block is clear**, as far as an `int` counts. -/
theorem heapReallocMove_cleared {s : HeapState} (sound : s.heap.Sound) {block count blocks : Nat}
    (inside : block + count ≤ s.heap.table.total) (small : blocks < 2 ^ 52)
    (allocates : (heapReallocMove s (s.heap.saddr + block * peachosHeapBlockSize) (count * peachosHeapBlockSize)
      (blocks * peachosHeapBlockSize)).1 ≠ 0) {offset : Nat} (behind : count * peachosHeapBlockSize ≤ offset)
    (below : offset < min (blocks * peachosHeapBlockSize) (2 ^ 31)) :
    (heapReallocMove s (s.heap.saddr + block * peachosHeapBlockSize) (count * peachosHeapBlockSize)
        (blocks * peachosHeapBlockSize)).2.mem
      ((heapReallocMove s (s.heap.saddr + block * peachosHeapBlockSize) (count * peachosHeapBlockSize)
        (blocks * peachosHeapBlockSize)).1 + offset) = 0x00#8 := by
  have word : blocks * peachosHeapBlockSize < 2 ^ 64 := by
    simp only [peachosHeapBlockSize]
    omega
  have zalloc := heapZalloc_eq s (blocks * peachosHeapBlockSize)
  unfold heapReallocMove at allocates ⊢
  simp only at allocates ⊢
  rcases heapZalloc_cases sound word with ⟨failed, _⟩ | ⟨start, allocated⟩
  · rw [if_pos failed] at allocates
    exact absurd rfl allocates
  · rw [heapBlocks_mul] at allocated
    have nonnull := (allocated.pointer_pos sound).ne'
    rw [if_neg nonnull]
    have nonzero : (heapMalloc s (blocks * peachosHeapBlockSize)).1 ≠ 0 := fun null => by
      rw [zalloc, if_pos null] at nonnull
      exact nonnull rfl
    rw [if_neg nonzero] at zalloc
    set ptr := (heapZalloc s (blocks * peachosHeapBlockSize)).1 with ptrEq
    set zeroed := (heapZalloc s (blocks * peachosHeapBlockSize)).2 with zeroedEq
    have same := allocated.geometry
    have range := sound.range_le allocated.inside
    have pointer := allocated.address
    have outside : ptr + offset < s.heap.table.entries ∨ s.heap.table.entries + s.heap.table.total ≤ ptr + offset :=
      sound.data_outside (by omega) (by omega)
    set filled := zeroed.withMem (memcpy zeroed.mem ptr (s.heap.saddr + block * peachosHeapBlockSize)
      (count * peachosHeapBlockSize)) with filledEq
    have same' : s.heap.SameGeometry filled.heap := same
    obtain ⟨only, _, _⟩ := heapFree_spec (s := filled) (same'.sound sound)
      (show block ≤ filled.heap.table.total by rw [same'.table]; omega)
    rw [same'.saddr] at only
    rw [only.mem _ (by rw [same'.table]; exact outside)]
    show memcpy zeroed.mem ptr _ (count * peachosHeapBlockSize) (ptr + offset) = 0x00#8
    rw [memcpy_outside (Or.inr (Nat.add_le_add_left behind ptr))]
    have cleared : zeroed.mem = memset (heapMalloc s (blocks * peachosHeapBlockSize)).2.mem ptr 0x00#8
        (blocks * peachosHeapBlockSize) := by
      rw [zeroedEq, ptrEq, zalloc]
      rfl
    rw [cleared, memset, fill_apply, if_pos ⟨Nat.le_add_right _ _, Nat.add_lt_add_left below ptr⟩]

/-! ### All paths -/

/-- **What a reallocation can do** to a block pointer and `blocks` blocks. -/
inductive ReallocPath (s : HeapState) (block blocks : Nat) (result : Nat × HeapState) : Prop where
  | same (equal : s.countAt block = blocks)
      (pointer : result.1 = s.heap.saddr + block * peachosHeapBlockSize) (frame : s.ReadOnly result.2)
  | shrink (fewer : blocks < s.countAt block)
      (pointer : result.1 = s.heap.saddr + block * peachosHeapBlockSize) (counted : HeapState)
      (readOnly : s.ReadOnly counted)
      (state : result.2 = heapReallocShrink counted block (s.countAt block) blocks)
  | extend (more : s.countAt block < blocks) (fits : block + blocks ≤ s.heap.table.total)
      (isFree : ∀ other, block + s.countAt block ≤ other → other < block + blocks →
        ¬ isTaken (s.view other))
      (pointer : result.1 = s.heap.saddr + block * peachosHeapBlockSize) (tested : HeapState)
      (readOnly : s.ReadOnly tested)
      (state : result.2 = heapReallocExtend tested ((block : Int) + s.countAt block - 1)
        (block + s.countAt block) (block + s.countAt block + (blocks - s.countAt block) - 1)
        (blocks - s.countAt block))
  | full (more : s.countAt block < blocks) (other : Nat) (low : block + s.countAt block ≤ other)
      (high : other < block + blocks) (below : other < s.heap.table.total) (taken : isTaken (s.view other))
      (pointer : result.1 = 0) (frame : s.ReadOnly result.2)
      (absent : ∀ start, ¬ IsRun (fun other => typeFree (s.view other)) s.heap.table.total blocks start)
  | move (more : s.countAt block < blocks) (other : Nat) (low : block + s.countAt block ≤ other)
      (high : other < block + blocks) (below : other < s.heap.table.total) (taken : isTaken (s.view other))
      (start : Nat) (moved : Moved s block (s.countAt block) blocks start result.1 result.2)
  | leave (more : s.countAt block < blocks) (leaves : s.heap.table.total < block + blocks)
      (isFree : ∀ other, block + s.countAt block ≤ other → other < s.heap.table.total →
        ¬ isTaken (s.view other))
      (outside : (s.heap.table.total : Int) ∈ result.2.accesses)
      (geometry : s.heap.SameGeometry result.2.heap)

theorem heapReallocExtendLoop_heap (fuel : Nat) (i : Int) (s : HeapState) :
    (heapReallocExtendLoop fuel i s).heap = s.heap := by
  induction fuel generalizing i s with
  | zero => rfl
  | succ fuel ih =>
      rw [heapReallocExtendLoop, ih]
      rfl

/-- **Every reallocation takes one of the paths.** -/
theorem heapRealloc_path {s : HeapState} (sound : s.heap.Sound) {block newSize : Nat}
    (inside : block ≤ s.heap.table.total) (positive : 0 < newSize) (word : newSize < 2 ^ 64) :
    ReallocPath s block (heapBlocks newSize)
      (heapRealloc s (s.heap.saddr + block * peachosHeapBlockSize) newSize) := by
  obtain ⟨counted, readOnly, unfolded⟩ := heapRealloc_eq sound inside positive word
  have bound := s.countAt_le inside
  have sound' : counted.heap.Sound := by
    rw [readOnly.heap]
    exact sound
  rw [unfolded]
  by_cases same : s.countAt block = heapBlocks newSize
  · rw [if_pos same]
    exact .same same rfl readOnly
  · rw [if_neg same]
    by_cases shrinks : heapBlocks newSize < s.countAt block
    · rw [if_pos shrinks]
      exact .shrink shrinks rfl counted readOnly rfl
    · rw [if_neg shrinks]
      have more : s.countAt block < heapBlocks newSize := by omega
      have endEq : block + s.countAt block + (heapBlocks newSize - s.countAt block) =
          block + heapBlocks newSize := by omega
      have range := heapIsBlockRangeFree_cases sound' (show 0 < heapBlocks newSize - s.countAt block by omega)
        (show block + s.countAt block ≤ counted.heap.table.total by rw [readOnly.heap]; exact bound)
      rw [readOnly.heap, readOnly.view, endEq] at range
      rw [endEq] at unfolded ⊢
      generalize heapIsBlockRangeFree counted (block + s.countAt block)
        (block + heapBlocks newSize - 1) = verdict at range ⊢
      obtain ⟨passes, tested⟩ := verdict
      simp only at range ⊢
      have moves : tested.heap = s.heap → _ := fun heapEq =>
        heapReallocMove_cases (s := tested) (by rw [heapEq]; exact sound)
          (show block + s.countAt block ≤ tested.heap.table.total by rw [heapEq]; exact bound)
          more.le (heapBlocks_lt word) (Nat.zero_lt_of_lt more)
      rcases range with ⟨rfl, fits, isFree, readRange⟩ |
        ⟨rfl, ⟨other, low, high, below, taken⟩, readRange⟩ | ⟨leaves, isFree, outside, trace, same⟩
      · rw [if_pos rfl]
        exact .extend more fits isFree rfl tested (readOnly.trans readRange) (by rw [endEq])
      · have heapEq : tested.heap = s.heap := readRange.heap.trans readOnly.heap
        have viewEq : tested.view = s.view := readRange.view.trans readOnly.view
        rw [if_neg Bool.false_ne_true]
        have outcome := moves heapEq
        rw [heapEq, viewEq] at outcome
        rcases outcome with ⟨null, readMove, absent⟩ | ⟨start, moved⟩
        · exact .full more other low high below taken null ((readOnly.trans readRange).trans readMove) absent
        · exact .move more other low high below taken start (moved.of_readOnly (readOnly.trans readRange))
      · have heapEq : tested.heap = s.heap := by rw [same]
        have geometry : s.heap.SameGeometry tested.heap := by
          unfold Heap.SameGeometry
          rw [heapEq]
        cases passes with
        | true =>
            rw [if_pos rfl]
            refine .leave more leaves isFree (heapReallocExtend_older _ _ _ _ _ outside)
              (geometry.trans ?_)
            unfold heapReallocExtend Heap.SameGeometry
            simp only [HeapState.countTaken, HeapState.heap_setEntry, HeapState.heap_touch,
              heapReallocExtendLoop_heap]
        | false =>
            rw [if_neg Bool.false_ne_true]
            have outcome := moves heapEq
            rw [heapEq] at outcome
            rcases outcome with ⟨_, readMove, _⟩ | ⟨start, moved⟩
            · exact .leave more leaves isFree (readMove.older outside)
                (geometry.trans readMove.onlyTable.geometry)
            · exact .leave more leaves isFree (moved.older outside) (geometry.trans moved.geometry)

/-- **A reallocation that returns another block** has cleared it behind the old bytes. -/
theorem heapRealloc_cleared {s : HeapState} (sound : s.heap.Sound) {block newSize : Nat}
    (inside : block ≤ s.heap.table.total) (positive : 0 < newSize) (word : newSize < 2 ^ 64)
    (nonnull : (heapRealloc s (s.heap.saddr + block * peachosHeapBlockSize) newSize).1 ≠ 0)
    (elsewhere : (heapRealloc s (s.heap.saddr + block * peachosHeapBlockSize) newSize).1 ≠
      s.heap.saddr + block * peachosHeapBlockSize) {offset : Nat}
    (behind : s.countAt block * peachosHeapBlockSize ≤ offset)
    (below : offset < min (heapBlocks newSize * peachosHeapBlockSize) (2 ^ 31)) :
    (heapRealloc s (s.heap.saddr + block * peachosHeapBlockSize) newSize).2.mem
      ((heapRealloc s (s.heap.saddr + block * peachosHeapBlockSize) newSize).1 + offset) = 0x00#8 := by
  obtain ⟨counted, readOnly, unfolded⟩ := heapRealloc_eq sound inside positive word
  rw [unfolded] at nonnull elsewhere ⊢
  by_cases same : s.countAt block = heapBlocks newSize
  · rw [if_pos same] at elsewhere
    exact absurd rfl elsewhere
  · rw [if_neg same] at nonnull elsewhere ⊢
    by_cases shrinks : heapBlocks newSize < s.countAt block
    · rw [if_pos shrinks] at elsewhere
      exact absurd rfl elsewhere
    · rw [if_neg shrinks] at nonnull elsewhere ⊢
      obtain ⟨_, _, trace, tested⟩ := @heapIsBlockRangeFreeLoop_spec
        (block + s.countAt block + (heapBlocks newSize - s.countAt block) - 1 + 1 - (block + s.countAt block))
        ((block + s.countAt block : Nat) : Int) counted
      have heapEq : (heapIsBlockRangeFree counted (block + s.countAt block)
          (block + s.countAt block + (heapBlocks newSize - s.countAt block) - 1)).2.heap = s.heap := by
        unfold heapIsBlockRangeFree
        rw [tested]
        exact readOnly.heap
      generalize heapIsBlockRangeFree counted (block + s.countAt block)
        (block + s.countAt block + (heapBlocks newSize - s.countAt block) - 1) = verdict
        at nonnull elsewhere heapEq ⊢
      dsimp only at nonnull elsewhere ⊢
      by_cases passes : verdict.1 = true
      · rw [if_pos passes] at elsewhere
        exact absurd rfl elsewhere
      · rw [if_neg passes] at nonnull ⊢
        have same : verdict.2.heap.Sound := by rw [heapEq]; exact sound
        have room : block + s.countAt block ≤ verdict.2.heap.table.total := by
          rw [heapEq]
          exact s.countAt_le inside
        have cleared := @heapReallocMove_cleared verdict.2 same block (s.countAt block) (heapBlocks newSize) room
          (heapBlocks_lt word)
        rw [heapEq] at cleared
        exact cleared nonnull behind below

end PeachOS
