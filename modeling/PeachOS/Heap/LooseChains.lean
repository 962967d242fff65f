/-
**Reallocating a chain that may go on after its last block.**

The code keeps tables in the loose coding only: the last block of a chain may carry `HAS_NEXT`. What a
walk of such a chain sees depends on the block behind it. A chain is `Clean` when its walk sees no other
chain: its last block does not go on, or it is the last of the table, or the block behind is free.

`heapRealloc_clean` — reallocating a clean chain without leaving the table keeps the loose coding: the
allocation fails and nothing changes, or the chain is resized in place, or it is moved to a free run and
given up. Every other chain keeps its entries and its bytes on each path.
-/

import PeachOS.Heap.ReallocChains

namespace PeachOS

open ByteStore SpanTable FirstFit

/-- **A clean chain**: the walk of the chain sees no block of another one. -/
def Clean (view : Nat → Byte) (total : Nat) (chain : Span) : Prop :=
  goesOn (view (chain.start + chain.len - 1)) = false ∨ chain.start + chain.len = total ∨
    ¬ isTaken (view (chain.start + chain.len))

/-- The walk of a clean chain ends with it, or with the free block behind it. -/
def EndsAt (view : Nat → Byte) (total : Nat) (chain : Span) (block length : Nat) : Prop :=
  block + length = chain.start + chain.len ∨
    block + length = chain.start + chain.len + 1 ∧ chain.start + chain.len < total ∧
      view (chain.start + chain.len) = heapBlockTableEntryFree

theorem goesOn_free : goesOn heapBlockTableEntryFree = false := by decide

theorem not_isTaken_free : ¬ isTaken heapBlockTableEntryFree := by decide

section Loose

variable {view : Nat → Byte} {total : Nat} {chains : Set Span} {chain : Span}
  (decodes : Decodes looseCoding view total chains) (live : chain ∈ chains)

include decodes

/-- A block that is not taken is free, and in no chain. -/
theorem free_of_notTaken {block : Nat} (below : block < total) (free : ¬ isTaken (view block)) :
    view block = heapBlockTableEntryFree := by
  refine decodes.vacant block below fun other member inside => free ?_
  rw [Span.mem_blocks] at inside
  have marked := decodes.marked other member (block - other.start) (by omega)
  rw [Nat.add_sub_cancel' inside.1] at marked
  exact isTaken_of_entryType marked.1

include live

theorem loose_taken {place : Nat} (inside : place < chain.len) : isTaken (view (chain.start + place)) :=
  isTaken_of_entryType (decodes.marked chain live place inside).1

/-- **The walk of a clean chain**, from any of its blocks. -/
theorem walk_of_clean (clean : Clean view total chain) {place : Nat} (inside : place < chain.len) :
    EndsAt view total chain (chain.start + place)
      (walk goesOn view (total - (chain.start + place)) (chain.start + place)) := by
  have within := decodes.within chain live
  have inner : ∀ further, further + 1 < chain.len - place →
      goesOn (view (chain.start + place + further)) = true := fun further below => by
    rw [Nat.add_assoc]
    exact (decodes.marked chain live (place + further) (by omega)).2.1 (by omega)
  by_cases ends : goesOn (view (chain.start + chain.len - 1)) = false ∨ chain.start + chain.len = total
  · left
    have length := walk_eq goesOn view (total - (chain.start + place)) (chain.start + place)
      (chain.len - place) (by omega) (by omega) inner (by
        rcases ends with stops | last
        · right
          rwa [show chain.start + place + (chain.len - place - 1) = chain.start + chain.len - 1 by omega]
        · left
          omega)
    rw [length]
    omega
  · right
    obtain ⟨continues, notLast⟩ := not_or.mp ends
    have below : chain.start + chain.len < total := by omega
    have free : view (chain.start + chain.len) = heapBlockTableEntryFree := by
      rcases clean with stops | last | notTaken
      · exact absurd stops continues
      · exact absurd last notLast
      · exact free_of_notTaken decodes below notTaken
    have length := walk_eq goesOn view (total - (chain.start + place)) (chain.start + place)
      (chain.len - place + 1) (by omega) (by omega) (fun further before => by
        by_cases end_ : further + 1 = chain.len - place
        · rw [show chain.start + place + further = chain.start + chain.len - 1 by omega]
          simpa using continues
        · exact inner further (by omega)) (by
        right
        rw [show chain.start + place + (chain.len - place + 1 - 1) = chain.start + chain.len by omega, free]
        exact goesOn_free)
    rw [length]
    exact ⟨by omega, below, free⟩

/-- The count of a clean chain is its length. -/
theorem countIn_of_clean {length : Nat} (ends : EndsAt view total chain chain.start length) :
    countIn isTaken view chain.start length = chain.len := by
  have all : countIn isTaken view chain.start chain.len = chain.len := by
    rw [countIn_eq_len]
    intro block low high
    have taken := loose_taken decodes live (show block - chain.start < chain.len by omega)
    rwa [Nat.add_sub_cancel' low] at taken
  rcases ends with here | ⟨behind, _, free⟩
  · rw [show length = chain.len by omega]
    exact all
  · rw [show length = chain.len + 1 by omega, countIn_append, all, countIn_succ, countIn_zero, free,
      if_neg not_isTaken_free, Nat.add_zero]

end Loose

/-! ### Edits of loosely coded tables -/

theorem entryType_and_notHasNext (entry : Byte) :
    heapGetEntryType (entry &&& ~~~heapBlockHasNext) = heapGetEntryType entry := by
  revert entry
  decide

theorem isFirst_and_notHasNext (entry : Byte) :
    (entry &&& ~~~heapBlockHasNext) &&& heapBlockIsFirst = entry &&& heapBlockIsFirst := by
  revert entry
  decide

theorem entryType_or_hasNext (entry : Byte) :
    heapGetEntryType (entry ||| heapBlockHasNext) = heapGetEntryType entry := by
  revert entry
  decide

theorem isFirst_or_hasNext (entry : Byte) :
    (entry ||| heapBlockHasNext) &&& heapBlockIsFirst = entry &&& heapBlockIsFirst := by
  revert entry
  decide

theorem goesOn_or_hasNext (entry : Byte) : goesOn (entry ||| heapBlockHasNext) = true := by
  revert entry
  decide

section Edits

variable {view view' : Nat → Byte} {total : Nat} {chains : Set Span} {chain : Span}
  (decodes : Decodes looseCoding view total chains)

include decodes

/-- **A run taken.** -/
theorem loose_taken_run {start blocks : Nat} (positive : 0 < blocks)
    (run : IsRun (fun block => typeFree (view block)) total blocks start)
    (viewEq : ∀ block < total, view' block = takenFrom view start blocks block) :
    Decodes looseCoding view' total (insert ⟨start, blocks⟩ chains) ∧
      ∀ other ∈ chains, Disjoint (Span.mk start blocks).blocks other.blocks := by
  have apart := disjoint_of_free decodes start blocks fun block low high => by
    have free := run.2 (block - start) (by omega)
    rwa [Nat.add_sub_cancel' low] at free
  refine ⟨decodes.insert ⟨start, blocks⟩ positive run.1 apart (fun place inside => ?_)
    fun block below outside => ?_, apart⟩
  · have within := run.1
    simp only at inside
    show looseCoding.mark blocks place (view' (start + place))
    rw [viewEq _ (by omega), takenFrom, if_pos (by omega), Nat.add_sub_cancel_left]
    exact looseCoding_mallocEntry blocks place
  · rw [Span.mem_blocks] at outside
    rw [viewEq block below, takenFrom, if_neg outside]

variable (live : chain ∈ chains)

include live

/-- **A clean chain given up.** -/
theorem loose_freed {length : Nat} (ends : EndsAt view total chain chain.start length)
    (viewEq : ∀ block < total, view' block = freedFrom view chain.start length block) :
    Decodes looseCoding view' total (chains \ {chain}) := by
  refine decodes.erase live (fun block below inside => ?_) fun block below outside => ?_
  · rw [Span.mem_blocks] at inside
    show view' block = heapBlockTableEntryFree
    rcases ends with here | ⟨behind, _, _⟩ <;>
      rw [viewEq block below, freedFrom, if_pos (by omega)]
  · rw [Span.mem_blocks] at outside
    rw [viewEq block below, freedFrom]
    split
    · -- the only block that is freed behind the chain was free before
      rcases ends with here | ⟨behind, _, free⟩
      · omega
      · rw [show block = chain.start + chain.len by omega, free]
    · rfl

/-- **A clean chain cut**: the last kept block loses `HAS_NEXT`, the blocks behind it are freed. -/
theorem loose_cut {blocks length : Nat} (positive : 0 < blocks) (fewer : blocks < chain.len)
    (ends : EndsAt view total chain (chain.start + blocks) length)
    (viewEq : ∀ block < total, view' block = cutFrom view chain.start blocks length block) :
    Decodes looseCoding view' total (insert ⟨chain.start, blocks⟩ (chains \ {chain})) := by
  have within := decodes.within chain live
  refine decodes.replace live ⟨chain.start, blocks⟩ positive (by simp only; omega)
    (fun other known different => ?_) (fun place inside => ?_) (fun block below inOld notNew => ?_)
    fun block below notOld notNew => ?_
  · refine Set.disjoint_left.mpr fun block inNew inOther => different ?_
    rw [Span.mem_blocks] at inNew
    simp only at inNew
    exact decodes.eq_of_mem known live inOther ⟨inNew.1, by omega⟩
  · show looseCoding.mark blocks place (view' (chain.start + place))
    simp only at inside
    obtain ⟨taken, inner, first⟩ := decodes.marked chain live place (by omega)
    rw [viewEq _ (by omega), cutFrom]
    by_cases last : chain.start + place = chain.start + blocks - 1
    · rw [if_pos ⟨positive, last⟩]
      refine ⟨by rw [entryType_and_notHasNext]; exact taken, fun more => by omega, ?_⟩
      rw [isFirst_and_notHasNext]
      exact first
    · rw [if_neg fun here => last here.2, freedFrom, if_neg (by omega)]
      exact ⟨taken, fun more => inner (by omega), first⟩
  · rw [Span.mem_blocks] at inOld notNew
    simp only at notNew
    show view' block = heapBlockTableEntryFree
    rw [viewEq block below, cutFrom, if_neg (by omega), freedFrom]
    rcases ends with here | ⟨behind, _, _⟩ <;> rw [if_pos (by omega)]
  · rw [Span.mem_blocks] at notOld notNew
    simp only at notNew
    rw [viewEq block below, cutFrom, if_neg (by omega), freedFrom]
    split
    · rcases ends with here | ⟨behind, _, free⟩
      · omega
      · rw [show block = chain.start + chain.len by omega, free]
    · rfl

/-- **Free blocks spliced to a chain**: its last block gains `HAS_NEXT`. -/
theorem loose_spliced {blocks : Nat} (more : chain.len < blocks) (fits : chain.start + blocks ≤ total)
    (isFree : ∀ block, chain.start + chain.len ≤ block → block < chain.start + blocks → ¬ isTaken (view block))
    (viewEq : ∀ block < total,
      view' block = splicedFrom view (chain.start + chain.len) (blocks - chain.len) block) :
    Decodes looseCoding view' total (insert ⟨chain.start, blocks⟩ (chains \ {chain})) := by
  have nonempty := decodes.nonempty chain live
  refine decodes.replace live ⟨chain.start, blocks⟩ (by simp only; omega) fits
    (fun other known different => ?_) (fun place inside => ?_) (fun block below inOld notNew => ?_)
    fun block below notOld notNew => ?_
  · refine Set.disjoint_left.mpr fun block inNew inOther => ?_
    rw [Span.mem_blocks] at inNew inOther
    simp only at inNew
    by_cases old : block < chain.start + chain.len
    · exact different (decodes.eq_of_mem known live inOther ⟨inNew.1, old⟩)
    · have taken := loose_taken decodes known (show block - other.start < other.len by omega)
      rw [Nat.add_sub_cancel' inOther.1] at taken
      exact isFree block (by omega) inNew.2 taken
  · show looseCoding.mark blocks place (view' (chain.start + place))
    simp only at inside
    rw [viewEq _ (by omega), splicedFrom]
    by_cases ending : chain.start + place + 1 = chain.start + chain.len
    · obtain ⟨taken, _, first⟩ := decodes.marked chain live place (by omega)
      rw [if_pos ending]
      refine ⟨by rw [entryType_or_hasNext]; exact taken, fun _ => goesOn_or_hasNext _, ?_⟩
      rw [isFirst_or_hasNext]
      exact first
    · rw [if_neg ending]
      by_cases old : place < chain.len
      · obtain ⟨taken, inner, first⟩ := decodes.marked chain live place old
        rw [if_neg (by omega), if_neg (by omega)]
        exact ⟨taken, fun _ => inner (by omega), first⟩
      · have notFirst : ¬ place = 0 := by omega
        by_cases last : place + 1 = blocks
        · rw [if_neg (by omega), if_pos (by omega)]
          exact ⟨by decide, fun inner => by omega, iff_of_false (by decide) notFirst⟩
        · rw [if_pos (by omega)]
          exact ⟨by decide, fun _ => by decide, iff_of_false (by decide) notFirst⟩
  · rw [Span.mem_blocks] at inOld notNew
    simp only at notNew
    omega
  · rw [Span.mem_blocks] at notOld notNew
    simp only at notNew
    rw [viewEq block below, splicedFrom, if_neg (by omega), if_neg (by omega), if_neg (by omega)]

end Edits

/-! ### Reallocating a clean chain -/

/-- A reallocation that does not leave the table. -/
def StaysInTable (view : Nat → Byte) (total : Nat) (chain : Span) (blocks : Nat) : Prop :=
  blocks ≤ chain.len ∨ chain.start + blocks ≤ total ∨
    ∃ block, chain.start + chain.len ≤ block ∧ block < total ∧ isTaken (view block)

/-- **What reallocating a clean chain does**: it fails, resizes the chain in place or moves it. -/
inductive LooseRealloc (s : HeapState) (chains : Set Span) (chain : Span) (blocks : Nat)
    (result : Nat × HeapState) : Prop where
  | failed (null : result.1 = 0) (frame : s.ReadOnly result.2)
  | inPlace (pointer : result.1 = chainAddress s.heap chain) (frame : s.OnlyTable result.2)
      (decodes : Decodes looseCoding result.2.view s.heap.table.total
        (insert ⟨chain.start, blocks⟩ (chains \ {chain})))
  | moved (start : Nat) (more : chain.len < blocks) (blocked : ∃ block, chain.start + chain.len ≤ block ∧
        block < chain.start + blocks ∧ isTaken (s.view block))
      (run : IsRun (fun block => typeFree (s.view block)) s.heap.table.total blocks start)
      (moves : Moved s chain.start chain.len blocks start result.1 result.2)
      (decodes : Decodes looseCoding result.2.view s.heap.table.total
        (insert ⟨start, blocks⟩ (chains \ {chain})))

/-- The walk of the old chain once the new run is taken: a run that started right behind the chain would
have been spliced to it. -/
theorem endsAt_moved {s : HeapState} {chains : Set Span} {chain : Span} {blocks start : Nat}
    (decodes : Decodes looseCoding s.view s.heap.table.total chains) (live : chain ∈ chains)
    (clean : Clean s.view s.heap.table.total chain)
    (run : IsRun (fun block => typeFree (s.view block)) s.heap.table.total blocks start)
    (blocked : ∃ block, chain.start + chain.len ≤ block ∧ block < chain.start + blocks ∧
      isTaken (s.view block)) :
    Clean (takenFrom s.view start blocks) s.heap.table.total chain := by
  have nonempty := decodes.nonempty chain live
  have apart := disjoint_of_free decodes start blocks (fun block low high => by
    have free := run.2 (block - start) (by omega)
    rwa [Nat.add_sub_cancel' low] at free) chain live
  have notLast : ¬ (start ≤ chain.start + chain.len - 1 ∧ chain.start + chain.len - 1 < start + blocks) :=
    fun inRun => Set.disjoint_left.mp apart inRun ⟨by omega, by omega⟩
  unfold Clean
  rw [takenFrom, if_neg notLast]
  rcases clean with stops | last | free
  · exact Or.inl stops
  · exact Or.inr (Or.inl last)
  · refine Or.inr (Or.inr ?_)
    rw [takenFrom, if_neg]
    · exact free
    · rintro ⟨low, high⟩
      -- the run starts at the block behind the chain, so the blocking block would be in it
      have startEq : start = chain.start + chain.len := by
        by_contra before
        exact notLast ⟨by omega, by omega⟩
      obtain ⟨block, behind, before, taken⟩ := blocked
      have isFree := run.2 (block - start) (by omega)
      rw [Nat.add_sub_cancel' (by omega)] at isFree
      exact not_isTaken_of_typeFree isFree taken

/-- **Reallocating a clean chain without leaving the table keeps the loose coding.** -/
theorem heapRealloc_clean {s : HeapState} {chains : Set Span} {chain : Span} (sound : s.heap.Sound)
    (decodes : Decodes looseCoding s.view s.heap.table.total chains) (live : chain ∈ chains)
    (clean : Clean s.view s.heap.table.total chain) {newSize : Nat} (word : newSize < 2 ^ 64)
    (some : 0 < heapBlocks newSize)
    (stays : StaysInTable s.view s.heap.table.total chain (heapBlocks newSize)) :
    LooseRealloc s chains chain (heapBlocks newSize)
      (heapRealloc s (chainAddress s.heap chain) newSize) := by
  have within := decodes.within chain live
  have nonempty := decodes.nonempty chain live
  have positive : 0 < newSize := by
    by_contra zero
    rw [show newSize = 0 by omega] at some
    exact absurd some (by decide)
  have ends := walk_of_clean decodes live clean nonempty
  rw [Nat.add_zero] at ends
  have countEq : s.countAt chain.start = chain.len := countIn_of_clean decodes live ends
  have path := heapRealloc_path sound (show chain.start ≤ s.heap.table.total by omega) positive word
  rw [show s.heap.saddr + chain.start * peachosHeapBlockSize = chainAddress s.heap chain from rfl] at path
  generalize heapBlocks newSize = blocks at some stays path ⊢
  generalize heapRealloc s (chainAddress s.heap chain) newSize = result at path ⊢
  cases path with
  | same equal pointer frame =>
      refine .inPlace pointer frame.onlyTable ?_
      have unchanged : insert (⟨chain.start, blocks⟩ : Span) (chains \ {chain}) = chains := by
        rw [← equal, countEq]
        exact Set.insert_sdiff_self_of_mem live
      rw [unchanged, frame.view]
      exact decodes
  | shrink fewer pointer counted readOnly state =>
      rw [countEq] at fewer state
      obtain ⟨only, _, viewEq⟩ := heapReallocShrink_spec (readOnly.onlyTable.sound sound)
        (show chain.start + chain.len ≤ counted.heap.table.total by rw [readOnly.heap]; exact within) fewer
      have ends' := walk_of_clean decodes live clean fewer
      have lengthEq : counted.chainLength (chain.start + blocks) =
          walk goesOn s.view (s.heap.table.total - (chain.start + blocks)) (chain.start + blocks) := by
        unfold HeapState.chainLength
        rw [readOnly.view, readOnly.heap]
      rw [← state] at only viewEq
      refine .inPlace pointer (readOnly.onlyTable.trans only)
        (loose_cut decodes live some fewer ends' fun block _ => ?_)
      rw [viewEq, lengthEq, readOnly.view]
  | extend more fits isFree pointer tested readOnly state =>
      rw [countEq] at more isFree state
      have castEq : (chain.start : Int) + chain.len - 1 = ((chain.start + chain.len : Nat) : Int) - 1 := by
        push_cast
        ring
      obtain ⟨only, _, viewEq⟩ := heapReallocExtend_spec (readOnly.onlyTable.sound sound)
        (show 0 < chain.start + chain.len by omega) (show 0 < blocks - chain.len by omega)
        (show _ ≤ tested.heap.table.total by rw [readOnly.heap]; omega)
      rw [castEq] at state
      rw [← state] at only viewEq
      refine .inPlace pointer (readOnly.onlyTable.trans only)
        (loose_spliced decodes live more fits isFree fun block _ => ?_)
      rw [viewEq, readOnly.view]
  | full more other low high below taken pointer frame absent => exact .failed pointer frame
  | move more other low high below taken start moved =>
      rw [countEq] at more low moved
      have blocked : ∃ block, chain.start + chain.len ≤ block ∧ block < chain.start + blocks ∧
          isTaken (s.view block) := ⟨other, low, high, taken⟩
      obtain ⟨afterTaken, apart⟩ := loose_taken_run decodes moved.positive moved.run.1
        (show ∀ block < s.heap.table.total,
          takenFrom s.view start blocks block = takenFrom s.view start blocks block from fun _ _ => rfl)
      have ends' := walk_of_clean afterTaken (Set.mem_insert_of_mem _ live)
        (endsAt_moved decodes live clean moved.run.1 blocked) nonempty
      rw [Nat.add_zero] at ends'
      refine .moved start more blocked moved.run.1 moved ?_
      have freed := loose_freed afterTaken (Set.mem_insert_of_mem _ live) ends' moved.view
      have different : (⟨start, blocks⟩ : Span) ≠ chain := by
        rintro rfl
        exact Set.disjoint_left.mp (apart _ live) ⟨le_rfl, by simp only; omega⟩ ⟨le_rfl, by simp only; omega⟩
      rwa [Set.insert_sdiff_of_notMem _ (by simpa using different)] at freed
  | leave more leaves isFree outside geometry =>
      rw [countEq] at more isFree
      rcases stays with fewer | fits | ⟨block, low, below, taken⟩
      · omega
      · omega
      · exact absurd taken (isFree block low below)

end PeachOS
