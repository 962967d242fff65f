/-
**What the loops of the heap do to its table.**

Every loop is described on any table of a sound heap, so that the descriptions serve well-formed and
damaged tables alike:

* `heapGetStartBlock_found`, `heapGetStartBlock_none` — the search finds the lowest run of free blocks
  or there is none;
* `heapMarkBlocksTaken_spec` — every block of the run after its first is given `TAKEN | HAS_NEXT`, the
  last one included;
* `heapMarkBlocksFree_spec` — exactly the blocks of `chainLength` are freed, that is those up to the
  first entry without `HAS_NEXT`, or up to the end of the table;
* `heapAllocationBlockCount_spec` — the blocks counted are the taken ones among these;
* `heapIsBlockRangeFreeLoop_spec` — the range test and the indexes it reads, whatever lies behind the
  table;
* `heapReallocExtendLoop_spec` — the entries of an extension but its last.
-/

import PeachOS.Heap.Table
import PeachOS.Lib.FirstFit

namespace PeachOS

open ByteStore SpanTable FirstFit

/-! ### The first-fit search -/

/-- A block the search takes for free. -/
def typeFree (entry : Byte) : Prop := heapGetEntryType entry = heapBlockTableEntryFree

instance : DecidablePred typeFree := fun entry =>
  inferInstanceAs (Decidable (heapGetEntryType entry = heapBlockTableEntryFree))

/-- The first block of the `bc` free blocks that end before block `i`. -/
def firstOfRun (i bc : Nat) : Option Nat := if bc = 0 then none else some (i - bc)

theorem heapGetStartBlockLoop_readOnly {totalBlocks fuel i bc : Nat} {bs : Option Nat} {s : HeapState}
    (inside : i + fuel ≤ s.heap.table.total) :
    s.ReadOnly (heapGetStartBlockLoop totalBlocks fuel i bc bs s).2 := by
  induction fuel generalizing i bc bs s with
  | zero => exact HeapState.ReadOnly.refl s
  | succ fuel ih =>
      have touched : s.ReadOnly (s.touch i) := HeapState.ReadOnly.touch (by omega)
      have rest : (i + 1) + fuel ≤ (s.touch i).heap.table.total := by
        rw [HeapState.heap_touch]
        omega
      rw [heapGetStartBlockLoop]
      split
      · exact touched.trans (ih rest)
      · split
        · exact touched
        · exact touched.trans (ih rest)

/-- **The loop completes the first run or there is none.** -/
theorem heapGetStartBlockLoop_spec {totalBlocks fuel i bc : Nat} {s : HeapState}
    (sound : s.heap.Sound) (ends : i + fuel = s.heap.table.total)
    (scanned : Scanned (fun block => typeFree (s.view block)) totalBlocks i bc) :
    (∃ start, (heapGetStartBlockLoop totalBlocks fuel i bc (firstOfRun i bc) s).1
        = (totalBlocks, some start) ∧
      IsFirstRun (fun block => typeFree (s.view block)) s.heap.table.total totalBlocks start) ∨
    ((heapGetStartBlockLoop totalBlocks fuel i bc (firstOfRun i bc) s).1.1 ≠ totalBlocks ∧
      ∀ start, ¬ IsRun (fun block => typeFree (s.view block)) s.heap.table.total totalBlocks start) := by
  induction fuel generalizing i bc s with
  | zero =>
      right
      have here : i = s.heap.table.total := by omega
      rw [here] at scanned
      exact ⟨by have := scanned.short; simp only [heapGetStartBlockLoop]; omega, scanned.exhausted⟩
  | succ fuel ih =>
      have entryEq : s.entry i = s.view i := HeapState.entry_natCast sound (by omega)
      rw [heapGetStartBlockLoop, entryEq]
      by_cases isFree : typeFree (s.view i)
      · have low := scanned.low
        have run : (firstOfRun i bc).or (some i) = some (i - bc) := by
          unfold firstOfRun
          by_cases zero : bc = 0
          · rw [if_pos zero, zero, Nat.sub_zero, Option.none_or]
          · rw [if_neg zero, Option.some_or]
        have notTaken : ¬ heapGetEntryType (s.view i) ≠ heapBlockTableEntryFree := not_not.mpr isFree
        rw [if_neg notTaken, run]
        by_cases full : bc + 1 = totalBlocks
        · left
          rw [if_pos full, full]
          exact ⟨i - bc, rfl, scanned.found isFree full (by omega)⟩
        · have next : some (i - bc) = firstOfRun (i + 1) (bc + 1) := by
            unfold firstOfRun
            rw [if_neg (Nat.succ_ne_zero bc), Nat.add_sub_add_right]
          have short := scanned.short
          rw [if_neg full, next]
          exact ih (s := s.touch i) sound (by simp only [HeapState.heap_touch]; omega)
            (scanned.extend isFree (by omega))
      · have taken : heapGetEntryType (s.view i) ≠ heapBlockTableEntryFree := isFree
        rw [if_pos taken]
        exact ih (s := s.touch i) sound (by simp only [HeapState.heap_touch]; omega)
          (scanned.blocked isFree)

/-- A request of no blocks finds none: the loop has no count to complete. -/
theorem heapGetStartBlockLoop_zero {fuel i bc : Nat} {bs : Option Nat} {s : HeapState}
    (unset : bc = 0 → bs = none) :
    (heapGetStartBlockLoop 0 fuel i bc bs s).1.1 = 0 →
      (heapGetStartBlockLoop 0 fuel i bc bs s).1.2 = none := by
  induction fuel generalizing i bc bs s with
  | zero => exact unset
  | succ fuel ih =>
      rw [heapGetStartBlockLoop]
      split
      · exact ih fun _ => rfl
      · rw [if_neg (Nat.succ_ne_zero bc)]
        exact ih fun zero => absurd zero (Nat.succ_ne_zero bc)

theorem heapGetStartBlock_readOnly (s : HeapState) (totalBlocks : Nat) :
    s.ReadOnly (heapGetStartBlock s totalBlocks).2 :=
  heapGetStartBlockLoop_readOnly (by omega)

/-- **First fit.** The search returns the lowest run of free blocks. -/
theorem heapGetStartBlock_found {s : HeapState} (sound : s.heap.Sound) {totalBlocks start : Nat}
    (found : (heapGetStartBlock s totalBlocks).1 = some start) :
    0 < totalBlocks ∧
      IsFirstRun (fun block => typeFree (s.view block)) s.heap.table.total totalBlocks start := by
  rcases Nat.eq_zero_or_pos totalBlocks with zero | positive
  · subst zero
    have unset := @heapGetStartBlockLoop_zero s.heap.table.total 0 0 none s fun _ => rfl
    simp only [heapGetStartBlock] at found
    split at found
    · cases found
    · rename_i count
      rw [unset (not_not.mp count)] at found
      cases found
  · refine ⟨positive, ?_⟩
    have spec := heapGetStartBlockLoop_spec sound (Nat.zero_add s.heap.table.total)
      (Scanned.initial positive)
    simp only [heapGetStartBlock] at found
    rcases spec with ⟨first, result, isFirst⟩ | ⟨short, _⟩
    · rw [show firstOfRun 0 0 = none from rfl] at result
      rw [result, if_neg (not_not.mpr rfl)] at found
      cases found
      exact isFirst
    · rw [show firstOfRun 0 0 = none from rfl] at short
      rw [if_pos short] at found
      cases found

/-- The search fails only when there is no run. -/
theorem heapGetStartBlock_none {s : HeapState} (sound : s.heap.Sound) {totalBlocks : Nat}
    (positive : 0 < totalBlocks) (failed : (heapGetStartBlock s totalBlocks).1 = none) (start : Nat) :
    ¬ IsRun (fun block => typeFree (s.view block)) s.heap.table.total totalBlocks start := by
  have spec := heapGetStartBlockLoop_spec sound (Nat.zero_add s.heap.table.total)
    (Scanned.initial positive)
  simp only [heapGetStartBlock] at failed
  rcases spec with ⟨first, result, _⟩ | ⟨_, absent⟩
  · rw [show firstOfRun 0 0 = none from rfl] at result
    rw [result, if_neg (not_not.mpr rfl)] at failed
    cases failed
  · exact absent start

/-! ### Marking a run -/

/-- What `heap_mark_blocks_taken` gives to a place of a run. -/
def mallocEntry (totalBlocks place : Nat) : Byte :=
  if place = 0 then
    if totalBlocks > 1 then heapBlockTableEntryTaken ||| heapBlockIsFirst ||| heapBlockHasNext
    else heapBlockTableEntryTaken ||| heapBlockIsFirst
  else heapBlockTableEntryTaken ||| heapBlockHasNext

/-- The loop writes its entry and then `TAKEN | HAS_NEXT`, up to the end block: the value without
`HAS_NEXT` is chosen for the block after the end. -/
theorem heapMarkBlocksTakenLoop_spec (endBlock : Int) (fuel i : Nat) (entry : Byte) (s : HeapState)
    (sound : s.heap.Sound) (inside : i + fuel ≤ s.heap.table.total) (ends : (i + fuel : Int) ≤ endBlock + 1) :
    s.OnlyTable (heapMarkBlocksTakenLoop endBlock fuel i entry s) ∧
      (heapMarkBlocksTakenLoop endBlock fuel i entry s).heap = s.heap ∧
      ∀ block, (heapMarkBlocksTakenLoop endBlock fuel i entry s).view block =
        if i ≤ block ∧ block < i + fuel then
          if block = i then entry else heapBlockTableEntryTaken ||| heapBlockHasNext
        else s.view block := by
  induction fuel generalizing i entry s with
  | zero =>
      refine ⟨HeapState.OnlyTable.refl s, rfl, fun block => ?_⟩
      rw [if_neg (by omega)]
      rfl
  | succ fuel ih =>
      have step : (i : Int) + 1 = ((i + 1 : Nat) : Int) := (Nat.cast_succ i).symm
      rw [heapMarkBlocksTakenLoop, step]
      set marked := (s.setEntry i entry).callAllocated
        (heapBlockToAddress (s.setEntry i entry).heap i) peachosHeapBlockSize with markedEq
      have heapEq : marked.heap = s.heap := by simp [markedEq]
      have viewEq : marked.view = put s.view i entry := by
        rw [markedEq, HeapState.view_callAllocated, HeapState.view_setEntry sound (by omega)]
      have only : s.OnlyTable marked := by
        rw [markedEq]
        exact (HeapState.OnlyTable.setEntry sound (by omega) entry).trans
          (HeapState.OnlyTable.callAllocated _ _ _)
      have rest := ih (i + 1)
        (if (i : Int) ≠ endBlock then heapBlockTableEntryTaken ||| heapBlockHasNext
          else heapBlockTableEntryTaken)
        marked (by rwa [heapEq]) (by rw [heapEq]; omega) (by omega)
      obtain ⟨onlyRest, heapRest, viewRest⟩ := rest
      refine ⟨only.trans onlyRest, heapRest.trans heapEq, fun block => ?_⟩
      rw [viewRest block, viewEq]
      by_cases here : block = i
      · rw [if_neg (by omega), here, put_same, if_pos (by omega), if_pos rfl]
      · rw [put_other _ here]
        by_cases later : i + 1 ≤ block ∧ block < i + 1 + fuel
        · -- a later block exists, so block `i` is not the end block
          have whole : i ≤ block ∧ block < i + (fuel + 1) := by omega
          have notEnd : (i : Int) ≠ endBlock := by omega
          rw [if_pos later, if_pos whole, if_neg here, if_pos notEnd, ite_self]
        · rw [if_neg later, if_neg (by omega)]

/-- **The entries of a new run.** -/
theorem heapMarkBlocksTaken_spec {s : HeapState} (sound : s.heap.Sound) {start totalBlocks : Nat}
    (inside : start + totalBlocks ≤ s.heap.table.total) :
    s.OnlyTable (heapMarkBlocksTaken s start totalBlocks) ∧
      (heapMarkBlocksTaken s start totalBlocks).heap = s.heap ∧
      ∀ block, (heapMarkBlocksTaken s start totalBlocks).view block =
        if start ≤ block ∧ block < start + totalBlocks then mallocEntry totalBlocks (block - start)
        else s.view block := by
  have spec := heapMarkBlocksTakenLoop_spec ((start : Int) + totalBlocks - 1) totalBlocks start
    (if totalBlocks > 1 then heapBlockTableEntryTaken ||| heapBlockIsFirst ||| heapBlockHasNext
      else heapBlockTableEntryTaken ||| heapBlockIsFirst) s sound inside (by omega)
  refine ⟨spec.1, spec.2.1, fun block => ?_⟩
  rw [heapMarkBlocksTaken, spec.2.2 block]
  by_cases member : start ≤ block ∧ block < start + totalBlocks
  · rw [if_pos member, if_pos member, mallocEntry]
    by_cases first : block = start
    · rw [if_pos first, if_pos (show block - start = 0 by omega)]
    · rw [if_neg first, if_neg (show ¬ block - start = 0 by omega)]
  · rw [if_neg member, if_neg member]

/-! ### Freeing a chain -/

/-- An entry with `HAS_NEXT`. -/
def goesOn (entry : Byte) : Bool := entry &&& heapBlockHasNext ≠ 0

/-- An entry with `TAKEN`. -/
def isTaken (entry : Byte) : Prop := entry &&& heapBlockTableEntryTaken ≠ 0

instance : DecidablePred isTaken := fun entry =>
  inferInstanceAs (Decidable (entry &&& heapBlockTableEntryTaken ≠ 0))

/-- The number of blocks from a block to the first entry without `HAS_NEXT`, or to the end of the
table. -/
def HeapState.chainLength (s : HeapState) (block : Nat) : Nat :=
  walk goesOn s.view (s.heap.table.total - block) block

theorem HeapState.chainLength_le (s : HeapState) {block : Nat} (inside : block ≤ s.heap.table.total) :
    block + s.chainLength block ≤ s.heap.table.total := by
  have bound := walk_le goesOn s.view (s.heap.table.total - block) block
  unfold HeapState.chainLength
  omega

theorem goesOn_eq_false {entry : Byte} : goesOn entry = false ↔ entry &&& heapBlockHasNext = 0 := by
  unfold goesOn
  simp

theorem heapMarkBlocksFreeLoop_spec (fuel i freed : Nat) (s : HeapState) (sound : s.heap.Sound)
    (inside : i + fuel ≤ s.heap.table.total) :
    (heapMarkBlocksFreeLoop fuel i freed s).1 = freed + walk goesOn s.view fuel i ∧
      s.OnlyTable (heapMarkBlocksFreeLoop fuel i freed s).2 ∧
      (heapMarkBlocksFreeLoop fuel i freed s).2.heap = s.heap ∧
      ∀ block, (heapMarkBlocksFreeLoop fuel i freed s).2.view block =
        if i ≤ block ∧ block < i + walk goesOn s.view fuel i then heapBlockTableEntryFree
        else s.view block := by
  induction fuel generalizing i freed s with
  | zero =>
      refine ⟨rfl, HeapState.OnlyTable.refl s, rfl, fun block => ?_⟩
      rw [walk, if_neg (by omega)]
      rfl
  | succ fuel ih =>
      have entryEq : s.entry i = s.view i := HeapState.entry_natCast sound (by omega)
      have step : (i : Int) + 1 = ((i + 1 : Nat) : Int) := (Nat.cast_succ i).symm
      rw [heapMarkBlocksFreeLoop, entryEq, step]
      set cleared := ((s.touch i).setEntry i heapBlockTableEntryFree).callFree
        (heapBlockToAddress ((s.touch i).setEntry i heapBlockTableEntryFree).heap i) with clearedEq
      have heapEq : cleared.heap = s.heap := by simp [clearedEq]
      have viewEq : cleared.view = put s.view i heapBlockTableEntryFree := by
        rw [clearedEq, HeapState.view_callFree,
          HeapState.view_setEntry (s := s.touch i) sound (show i < (s.touch i).heap.table.total by
            rw [HeapState.heap_touch]; omega), HeapState.view_touch]
      have only : s.OnlyTable cleared := by
        rw [clearedEq]
        exact ((HeapState.ReadOnly.touch (by omega)).onlyTable.trans
          (HeapState.OnlyTable.setEntry (s := s.touch i) sound
            (show i < (s.touch i).heap.table.total by rw [HeapState.heap_touch]; omega) _)).trans
          (HeapState.OnlyTable.callFree _ _)
      by_cases last : s.view i &&& heapBlockHasNext = 0
      · have one : walk goesOn s.view (fuel + 1) i = 1 := by
          rw [walk, goesOn_eq_false.mpr last]
          rfl
        rw [one]
        simp only [if_pos last]
        refine ⟨trivial, only, heapEq, fun block => ?_⟩
        rw [viewEq]
        by_cases here : block = i
        · rw [here, put_same, if_pos (by omega)]
        · rw [put_other _ here, if_neg (by omega)]
      · have next : goesOn (s.view i) = true := by
          rw [← Bool.not_eq_false, goesOn_eq_false]
          exact last
        -- the cleared block lies behind the rest of the walk
        have walkEq : walk goesOn cleared.view fuel (i + 1) = walk goesOn s.view fuel (i + 1) :=
          walk_congr goesOn s.view fuel (i + 1) fun place _ => by
            rw [viewEq, put_other _ (by omega)]
        have whole : walk goesOn s.view (fuel + 1) i = walk goesOn s.view fuel (i + 1) + 1 := by
          rw [walk, if_pos next]
        have rest := ih (i + 1) (freed + 1) cleared (by rwa [heapEq])
          (by rw [heapEq]; omega)
        obtain ⟨countRest, onlyRest, heapRest, viewRest⟩ := rest
        rw [walkEq] at countRest viewRest
        rw [whole]
        simp only [if_neg last]
        refine ⟨by omega, only.trans onlyRest, heapRest.trans heapEq,
          fun block => ?_⟩
        rw [viewRest block, viewEq]
        by_cases here : block = i
        · rw [if_neg (by omega), here, put_same, if_pos (by omega)]
        · rw [put_other _ here]
          by_cases later : i + 1 ≤ block ∧ block < i + 1 + walk goesOn s.view fuel (i + 1)
          · rw [if_pos later, if_pos (by omega)]
          · rw [if_neg later, if_neg (by omega)]

/-- The table after the chain from a block was freed. -/
def freedFrom (view : Nat → Byte) (block len : Nat) : Nat → Byte :=
  fun other => if block ≤ other ∧ other < block + len then heapBlockTableEntryFree else view other

/-- **Freeing a chain** clears its blocks and moves them between the counters, taken or not. -/
theorem heapMarkBlocksFree_spec {s : HeapState} (sound : s.heap.Sound) {block : Nat}
    (inside : block ≤ s.heap.table.total) :
    s.OnlyTable (heapMarkBlocksFree s block) ∧
      (heapMarkBlocksFree s block).heap = (s.countTaken (-(s.chainLength block : Int))).heap ∧
      (heapMarkBlocksFree s block).view = freedFrom s.view block (s.chainLength block) := by
  have fuelEq : ((s.heap.table.total : Int) - block).toNat = s.heap.table.total - block := by omega
  have spec := heapMarkBlocksFreeLoop_spec (s.heap.table.total - block) block 0 s sound (by omega)
  obtain ⟨count, only, heapEq, viewEq⟩ := spec
  rw [Nat.zero_add] at count
  unfold heapMarkBlocksFree
  simp only [fuelEq]
  refine ⟨only.trans (HeapState.OnlyTable.countTaken _ _), ?_, ?_⟩
  · simp only [HeapState.countTaken, heapEq, count, HeapState.chainLength]
  · funext other
    rw [HeapState.view_countTaken, viewEq other]
    rfl

/-! ### Counting a chain -/

theorem heapAllocationBlockCountLoop_spec (fuel i count : Nat) (s : HeapState) (sound : s.heap.Sound)
    (inside : i + fuel ≤ s.heap.table.total) :
    s.ReadOnly (heapAllocationBlockCountLoop fuel i count s).2 ∧
      (heapAllocationBlockCountLoop fuel i count s).1 =
        count + countIn isTaken s.view i (walk goesOn s.view fuel i) := by
  induction fuel generalizing i count s with
  | zero =>
      refine ⟨HeapState.ReadOnly.refl s, ?_⟩
      rw [walk, countIn_zero]
      rfl
  | succ fuel ih =>
      have entryEq : s.entry i = s.view i := HeapState.entry_natCast sound (by omega)
      have step : (i : Int) + 1 = ((i + 1 : Nat) : Int) := (Nat.cast_succ i).symm
      have touched : s.ReadOnly (s.touch i) := HeapState.ReadOnly.touch (by omega)
      have counted : (if s.view i &&& heapBlockTableEntryTaken ≠ 0 then count + 1 else count)
          = count + (if isTaken (s.view i) then 1 else 0) := by
        by_cases taken : isTaken (s.view i)
        · rw [if_pos taken, if_pos (show s.view i &&& heapBlockTableEntryTaken ≠ 0 from taken)]
        · rw [if_neg taken, if_neg (show ¬ s.view i &&& heapBlockTableEntryTaken ≠ 0 from taken)]
          rfl
      rw [heapAllocationBlockCountLoop, entryEq, step, counted]
      by_cases last : s.view i &&& heapBlockHasNext = 0
      · have one : walk goesOn s.view (fuel + 1) i = 1 := by
          rw [walk, goesOn_eq_false.mpr last]
          rfl
        rw [one, countIn_succ, countIn_zero]
        simp only [if_pos last]
        exact ⟨touched, rfl⟩
      · have next : goesOn (s.view i) = true := by
          rw [← Bool.not_eq_false, goesOn_eq_false]
          exact last
        have whole : walk goesOn s.view (fuel + 1) i = walk goesOn s.view fuel (i + 1) + 1 := by
          rw [walk, if_pos next]
        obtain ⟨onlyRest, countRest⟩ := ih (i + 1)
          (count + if isTaken (s.view i) then 1 else 0) (s.touch i) sound
          (by rw [HeapState.heap_touch]; omega)
        rw [whole, countIn_succ]
        simp only [if_neg last]
        refine ⟨touched.trans onlyRest, ?_⟩
        rw [countRest, HeapState.view_touch, Nat.add_assoc]

/-- **The count of a chain**: the taken blocks among those that freeing it would clear. -/
theorem heapAllocationBlockCount_spec {s : HeapState} (sound : s.heap.Sound) {block : Nat}
    (inside : block ≤ s.heap.table.total) :
    s.ReadOnly (heapAllocationBlockCount s (s.heap.saddr + block * peachosHeapBlockSize)).2 ∧
      (heapAllocationBlockCount s (s.heap.saddr + block * peachosHeapBlockSize)).1 =
        countIn isTaken s.view block (s.chainLength block) := by
  have fuelEq : ((s.heap.table.total : Int) - block).toNat = s.heap.table.total - block := by omega
  have notNegative : ¬ (block : Int) < 0 := by omega
  obtain ⟨only, count⟩ := heapAllocationBlockCountLoop_spec (s.heap.table.total - block) block 0 s
    sound (by omega)
  unfold heapAllocationBlockCount
  simp only [sound.addressToBlock inside, if_neg notNegative, fuelEq]
  exact ⟨only, by rw [count, Nat.zero_add]; rfl⟩

/-! ### Testing and extending a range -/

/-- **The range test** reads entries from the lowest up to the first taken one, inside the table or
behind it, and changes nothing. -/
theorem heapIsBlockRangeFreeLoop_spec {fuel : Nat} {i : Int} {s : HeapState} :
    ((heapIsBlockRangeFreeLoop fuel i s).1 = true ↔ ∀ place < fuel, ¬ isTaken (s.entry (i + place))) ∧
      (∀ index, index ∈ (heapIsBlockRangeFreeLoop fuel i s).2.accesses ↔
        index ∈ s.accesses ∨ ∃ place < fuel, index = i + place ∧
          ∀ earlier < place, ¬ isTaken (s.entry (i + earlier))) ∧
      ∃ trace, (heapIsBlockRangeFreeLoop fuel i s).2 = { s with accesses := trace } := by
  induction fuel generalizing i s with
  | zero => exact ⟨by simp [heapIsBlockRangeFreeLoop], by simp [heapIsBlockRangeFreeLoop], s.accesses, rfl⟩
  | succ fuel ih =>
      have shift : ∀ place : Nat, i + 1 + (place : Int) = i + ((place + 1 : Nat) : Int) := by
        intro place
        push_cast
        ring
      have origin : i + ((0 : Nat) : Int) = i := by simp
      rw [heapIsBlockRangeFreeLoop]
      by_cases taken : isTaken (s.entry i)
      · have taken' : s.entry i &&& heapBlockTableEntryTaken ≠ 0 := taken
        rw [if_pos taken']
        refine ⟨⟨fun impossible => by simp at impossible, fun all => ?_⟩, fun index => ?_, _, rfl⟩
        · have first := all 0 (Nat.succ_pos fuel)
          rw [origin] at first
          exact absurd taken first
        · constructor
          · intro member
            rcases List.mem_cons.mp member with rfl | old
            · exact Or.inr ⟨0, Nat.succ_pos fuel, origin.symm, fun _ below => by omega⟩
            · exact Or.inl old
          · rintro (old | ⟨place, _, rfl, earlier⟩)
            · exact List.mem_cons_of_mem _ old
            · cases place with
              | zero => rw [origin]; exact List.mem_cons_self
              | succ place =>
                  have first := earlier 0 (Nat.succ_pos place)
                  rw [origin] at first
                  exact absurd taken first
      · have taken' : ¬ s.entry i &&& heapBlockTableEntryTaken ≠ 0 := taken
        rw [if_neg taken']
        obtain ⟨value, accesses, trace, same⟩ := ih (i := i + 1) (s := s.touch i)
        refine ⟨?_, fun index => ?_, trace, by rw [same]; rfl⟩
        · rw [value]
          constructor
          · intro rest place below
            cases place with
            | zero => rwa [origin]
            | succ place =>
                have here := rest place (by omega)
                rwa [shift, HeapState.entry_touch] at here
          · intro all place below
            have here := all (place + 1) (by omega)
            rwa [shift, HeapState.entry_touch]
        · rw [accesses index]
          constructor
          · rintro (member | ⟨place, below, rfl, earlier⟩)
            · rcases List.mem_cons.mp member with rfl | old
              · exact Or.inr ⟨0, Nat.succ_pos fuel, origin.symm, fun _ below => by omega⟩
              · exact Or.inl old
            · refine Or.inr ⟨place + 1, by omega, shift place, fun before below => ?_⟩
              cases before with
              | zero => rwa [origin]
              | succ before =>
                  have here := earlier before (by omega)
                  rwa [shift, HeapState.entry_touch] at here
          · rintro (old | ⟨place, below, rfl, earlier⟩)
            · exact Or.inl (List.mem_cons_of_mem _ old)
            · cases place with
              | zero => exact Or.inl (by rw [origin]; exact List.mem_cons_self)
              | succ place =>
                  refine Or.inr ⟨place, by omega, (shift place).symm, fun before under => ?_⟩
                  have here := earlier (before + 1) (by omega)
                  rwa [shift, HeapState.entry_touch]

theorem heapReallocExtendLoop_spec {fuel i : Nat} {s : HeapState} (sound : s.heap.Sound)
    (inside : i + fuel ≤ s.heap.table.total) :
    s.OnlyTable (heapReallocExtendLoop fuel i s) ∧ (heapReallocExtendLoop fuel i s).heap = s.heap ∧
      ∀ block, (heapReallocExtendLoop fuel i s).view block =
        if i ≤ block ∧ block < i + fuel then heapBlockTableEntryTaken ||| heapBlockHasNext
        else s.view block := by
  induction fuel generalizing i s with
  | zero =>
      refine ⟨HeapState.OnlyTable.refl s, rfl, fun block => ?_⟩
      rw [if_neg (by omega)]
      rfl
  | succ fuel ih =>
      have step : (i : Int) + 1 = ((i + 1 : Nat) : Int) := (Nat.cast_succ i).symm
      rw [heapReallocExtendLoop, step]
      obtain ⟨only, heapEq, viewEq⟩ := ih (i := i + 1)
        (s := s.setEntry i (heapBlockTableEntryTaken ||| heapBlockHasNext)) sound
        (by rw [HeapState.heap_setEntry]; omega)
      refine ⟨(HeapState.OnlyTable.setEntry sound (by omega) _).trans only, heapEq, fun block => ?_⟩
      rw [viewEq block, HeapState.view_setEntry sound (by omega)]
      by_cases here : block = i
      · rw [if_neg (by omega), here, put_same, if_pos (by omega)]
      · rw [put_other _ here]
        by_cases later : i + 1 ≤ block ∧ block < i + 1 + fuel
        · rw [if_pos later, if_pos (by omega)]
        · rw [if_neg later, if_neg (by omega)]

/-- Every step of the extension loop adds to the trace, wherever it writes. -/
theorem heapReallocExtendLoop_older (fuel : Nat) (i : Int) (s : HeapState) :
    s.accesses ⊆ (heapReallocExtendLoop fuel i s).accesses := by
  induction fuel generalizing i s with
  | zero => exact List.Subset.refl _
  | succ fuel ih =>
      have added : s.accesses ⊆ (s.setEntry i (heapBlockTableEntryTaken ||| heapBlockHasNext)).accesses :=
        List.subset_cons_self _ _
      rw [heapReallocExtendLoop]
      exact List.Subset.trans added (ih (i + 1) _)

/-! ### What no table can change -/

theorem heapGetStartBlockLoop_heap (totalBlocks fuel i bc : Nat) (bs : Option Nat) (s : HeapState) :
    (heapGetStartBlockLoop totalBlocks fuel i bc bs s).2.heap = s.heap := by
  induction fuel generalizing i bc bs s with
  | zero => rfl
  | succ fuel ih =>
      rw [heapGetStartBlockLoop]
      split
      · exact ih _ _ _ _
      · split
        · rfl
        · exact ih _ _ _ _

theorem heapMarkBlocksTakenLoop_heap (endBlock : Int) (fuel : Nat) (i : Int) (entry : Byte) (s : HeapState) :
    (heapMarkBlocksTakenLoop endBlock fuel i entry s).heap = s.heap := by
  induction fuel generalizing i entry s with
  | zero => rfl
  | succ fuel ih =>
      rw [heapMarkBlocksTakenLoop, ih, HeapState.heap_callAllocated, HeapState.heap_setEntry]

theorem heapMarkBlocksFreeLoop_heap (fuel : Nat) (i : Int) (freed : Nat) (s : HeapState) :
    (heapMarkBlocksFreeLoop fuel i freed s).2.heap = s.heap := by
  induction fuel generalizing i freed s with
  | zero => rfl
  | succ fuel ih =>
      rw [heapMarkBlocksFreeLoop]
      split
      · rw [HeapState.heap_callFree, HeapState.heap_setEntry, HeapState.heap_touch]
      · rw [ih, HeapState.heap_callFree, HeapState.heap_setEntry, HeapState.heap_touch]

/-- Allocating moves the counters of the heap at most. -/
theorem heapMalloc_geometry (s : HeapState) (size : Nat) :
    s.heap.SameGeometry (heapMalloc s size).2.heap := by
  have searched := heapGetStartBlockLoop_heap (heapAlignValueToUpper size / peachosHeapBlockSize)
    s.heap.table.total 0 0 none s
  unfold heapMalloc heapMallocBlocks
  rcases search : heapGetStartBlock s (heapAlignValueToUpper size / peachosHeapBlockSize) with ⟨found, state⟩
  have stateEq : state.heap = s.heap := by
    rw [← searched, show state = (heapGetStartBlock s _).2 by rw [search]]
    rfl
  cases found with
  | none =>
      show s.heap.SameGeometry state.heap
      rw [stateEq]
      rfl
  | some start =>
      show s.heap.SameGeometry ((heapMarkBlocksTaken state start _).countTaken _).heap
      simp only [Heap.SameGeometry, HeapState.countTaken, heapMarkBlocksTaken,
        heapMarkBlocksTakenLoop_heap, stateEq]

theorem heapZalloc_geometry (s : HeapState) (size : Nat) :
    s.heap.SameGeometry (heapZalloc s size).2.heap := by
  unfold heapZalloc
  simp only
  split
  · exact heapMalloc_geometry s size
  · exact heapMalloc_geometry s size

theorem heapFree_geometry (s : HeapState) (ptr : Nat) : s.heap.SameGeometry (heapFree s ptr).heap := by
  unfold heapFree heapMarkBlocksFree
  simp only [Heap.SameGeometry, HeapState.countTaken, heapMarkBlocksFreeLoop_heap]

end PeachOS
