/-
**Reallocating a live chain of a well-formed heap.**

On a heap whose table decodes into documented chains every path of `heap_realloc` has one outcome, and
two paths miss what they should do:

* `realloc_inside_iff` — the indexes stay inside the table unless an extension in place is tried that
  leaves it with no taken block in the way;
* `realloc_specified_iff` — the outcome is the specified one (`ReallocSpec`) unless the chain is moved:
  a moved chain ends on a block that is said to go on.

`wellFormed_shrink` and `wellFormed_extend` are the two edits of single flags.
-/

import PeachOS.Heap.Realloc
import PeachOS.Heap.Sessions

namespace PeachOS

open ByteStore SpanTable FirstFit StepRun

/-- **A well-formed heap** with its live chains. -/
structure WellFormed (s : HeapState) (chains : Set Span) : Prop where
  sound : s.heap.Sound
  decodes : Decodes chainCoding s.view s.heap.table.total chains

/-- The address of a chain. -/
def chainAddress (heap : Heap) (chain : Span) : Nat := heap.saddr + chain.start * peachosHeapBlockSize

/-- The blocks of a size. -/
def sizeBlocks (size : Nat) : Nat := (size + 4095) / 4096

/-- A session that represents its allocations is well-formed. -/
theorem Represented.wellFormed {s : HeapState} {live : List (Nat × Nat)} (represented : Represented s live)
    (sound : s.heap.Sound) : WellFormed s (chainsOf s.heap live) :=
  ⟨sound, represented.decodes⟩

theorem takenEntry_and_notHasNext : ∀ isFirst hasNext,
    takenEntry isFirst hasNext &&& ~~~heapBlockHasNext = takenEntry isFirst false := by decide

theorem takenEntry_or_hasNext : ∀ isFirst hasNext,
    takenEntry isFirst hasNext ||| heapBlockHasNext = takenEntry isFirst true := by decide

namespace WellFormed

variable {s s' : HeapState} {chains : Set Span} {chain : Span} (formed : WellFormed s chains)

include formed

theorem entry (live : chain ∈ chains) {place : Nat} (inside : place < chain.len) :
    s.view (chain.start + place) = chainEntry chain.len place :=
  formed.decodes.marked chain live place inside

/-- A walk from inside a chain ends with the chain. -/
theorem chainLength (live : chain ∈ chains) {place : Nat} (inside : place < chain.len) :
    s.chainLength (chain.start + place) = chain.len - place := by
  have within := formed.decodes.within chain live
  refine walk_eq goesOn s.view _ _ _ (by omega) (by omega) (fun further inner => ?_) (Or.inr ?_)
  · rw [show chain.start + place + further = chain.start + (place + further) by omega,
      formed.entry live (by omega), chainEntry, goesOn_takenEntry, decide_eq_true_iff]
    omega
  · rw [show chain.start + place + (chain.len - place - 1) = chain.start + (chain.len - 1) by omega,
      formed.entry live (by omega), chainEntry, goesOn_takenEntry, decide_eq_false_iff_not]
    omega

/-- The count of a chain is its length. -/
theorem countAt (live : chain ∈ chains) : s.countAt chain.start = chain.len := by
  have nonempty := formed.decodes.nonempty chain live
  have length := formed.chainLength live nonempty
  rw [Nat.add_zero, Nat.sub_zero] at length
  rw [HeapState.countAt, length, countIn_eq_len]
  intro block low high
  have marked := formed.entry live (show block - chain.start < chain.len by omega)
  rw [Nat.add_sub_cancel' low] at marked
  rw [marked]
  exact isTaken_of_entryType (entryType_takenEntry _ _)

/-- A block that is not taken belongs to no chain. -/
theorem notMem_of_notTaken {block : Nat} (free : ¬ isTaken (s.view block)) {other : Span}
    (live : other ∈ chains) : block ∉ other.blocks := by
  rintro ⟨low, high⟩
  have marked := formed.entry live (show block - other.start < other.len by omega)
  rw [Nat.add_sub_cancel' low] at marked
  rw [marked] at free
  exact free (isTaken_of_entryType (entryType_takenEntry _ _))

/-- Two chains of one table share no block. -/
theorem outside (live : chain ∈ chains) {other : Span} (known : other ∈ chains) (different : other ≠ chain)
    {block : Nat} (inside : block ∈ chain.blocks) : block ∉ other.blocks :=
  fun inOther => different (formed.decodes.eq_of_mem known live inOther inside)

/-- **Cutting a chain**: the last kept block loses `HAS_NEXT`, the blocks behind it are freed. -/
theorem shrink (live : chain ∈ chains) {blocks : Nat} (positive : 0 < blocks) (fewer : blocks < chain.len)
    (viewEq : ∀ block < s.heap.table.total,
      s'.view block = cutFrom s.view chain.start blocks (chain.len - blocks) block) :
    Decodes chainCoding s'.view s.heap.table.total (insert ⟨chain.start, blocks⟩ (chains \ {chain})) := by
  have within := formed.decodes.within chain live
  refine formed.decodes.replace live ⟨chain.start, blocks⟩ positive (by simp only; omega)
    (fun other known different => ?_) (fun place inside => ?_) (fun block below inOld notNew => ?_)
    fun block below notOld notNew => ?_
  · refine Set.disjoint_left.mpr fun block inNew => formed.outside live known different ?_
    rw [Span.mem_blocks] at inNew ⊢
    simp only at inNew
    omega
  · show s'.view (chain.start + place) = chainEntry blocks place
    simp only at inside
    rw [viewEq _ (by omega), cutFrom]
    by_cases last : chain.start + place = chain.start + blocks - 1
    · rw [if_pos ⟨positive, last⟩, formed.entry live (by omega), chainEntry, takenEntry_and_notHasNext,
        chainEntry]
      congr 1
      rw [eq_comm, decide_eq_false_iff_not]
      omega
    · rw [if_neg fun here => last here.2, freedFrom, if_neg (by omega), formed.entry live (by omega),
        chainEntry, chainEntry]
      congr 1
      rw [decide_eq_decide]
      omega
  · rw [Span.mem_blocks] at inOld notNew
    simp only at notNew
    show s'.view block = heapBlockTableEntryFree
    rw [viewEq block below, cutFrom, if_neg (by omega), freedFrom, if_pos (by omega)]
  · rw [Span.mem_blocks] at notOld
    rw [viewEq block below, cutFrom, if_neg (by omega), freedFrom, if_neg (by omega)]

/-- **Splicing free blocks to a chain**: its last block gains `HAS_NEXT`. -/
theorem extend (live : chain ∈ chains) {blocks : Nat} (more : chain.len < blocks)
    (fits : chain.start + blocks ≤ s.heap.table.total)
    (isFree : ∀ block, chain.start + chain.len ≤ block → block < chain.start + blocks →
      ¬ isTaken (s.view block))
    (viewEq : ∀ block < s.heap.table.total,
      s'.view block = splicedFrom s.view (chain.start + chain.len) (blocks - chain.len) block) :
    Decodes chainCoding s'.view s.heap.table.total (insert ⟨chain.start, blocks⟩ (chains \ {chain})) := by
  have nonempty := formed.decodes.nonempty chain live
  refine formed.decodes.replace live ⟨chain.start, blocks⟩ (by simp only; omega) fits
    (fun other known different => ?_) (fun place inside => ?_) (fun block below inOld notNew => ?_)
    fun block below notOld notNew => ?_
  · refine Set.disjoint_left.mpr fun block inNew => ?_
    rw [Span.mem_blocks] at inNew
    simp only at inNew
    by_cases old : block < chain.start + chain.len
    · exact formed.outside live known different ⟨inNew.1, old⟩
    · exact formed.notMem_of_notTaken (isFree block (by omega) inNew.2) known
  · show s'.view (chain.start + place) = chainEntry blocks place
    simp only at inside
    rw [viewEq _ (by omega), splicedFrom]
    by_cases ending : chain.start + place + 1 = chain.start + chain.len
    · rw [if_pos ending, formed.entry live (by omega), chainEntry, takenEntry_or_hasNext, chainEntry]
      congr 1
      rw [eq_comm, decide_eq_true_iff]
      omega
    · rw [if_neg ending]
      by_cases old : place < chain.len
      · rw [if_neg (by omega), if_neg (by omega), formed.entry live old, chainEntry, chainEntry]
        congr 1
        rw [decide_eq_decide]
        omega
      · have notFirst : ¬ place = 0 := by omega
        by_cases last : place + 1 = blocks
        · have notInner : ¬ place + 1 < blocks := by omega
          rw [if_neg (by omega), if_pos (by omega), chainEntry, decide_eq_false notFirst,
            decide_eq_false notInner]
          decide
        · have inner : place + 1 < blocks := by omega
          rw [if_pos (by omega), chainEntry, decide_eq_false notFirst, decide_eq_true inner]
          decide
  · rw [Span.mem_blocks] at inOld notNew
    simp only at notNew
    omega
  · rw [Span.mem_blocks] at notOld notNew
    simp only at notNew
    rw [viewEq block below, splicedFrom, if_neg (by omega), if_neg (by omega), if_neg (by omega)]

end WellFormed

/-! ### Staying inside the table -/

/-- The state with an empty trace. -/
def HeapState.quiet (s : HeapState) : HeapState := { s with accesses := [] }

/-- **What a reallocation touches and returns lies inside the heap**: the indexes inside the table, the
range of the returned pointer inside `[saddr, eaddr)`. -/
def StaysInside (s : HeapState) (ptr newSize : Nat) : Prop :=
  (∀ i ∈ (heapRealloc s.quiet ptr newSize).2.accesses, 0 ≤ i ∧ i < s.heap.table.total) ∧
    ((heapRealloc s.quiet ptr newSize).1 = 0 ∨
      s.heap.saddr ≤ (heapRealloc s.quiet ptr newSize).1 ∧
        (heapRealloc s.quiet ptr newSize).1 + sizeBlocks newSize * peachosHeapBlockSize ≤ s.heap.eaddr)

theorem heapBlocks_of_le_totalSize {heap : Heap} (sound : heap.Sound) {newSize : Nat}
    (bounded : newSize ≤ heapTotalSize heap) : newSize < 2 ^ 64 ∧ heapBlocks newSize = sizeBlocks newSize := by
  have total_lt := sound.total_lt
  simp only [heapTotalSize, peachosHeapBlockSize] at bounded
  exact ⟨by omega, heapBlocks_eq (by omega)⟩

/-- **Reallocating a live chain stays inside the table and the heap** exactly when it does not grow,
its extension range lies inside the table, or a taken block of the table stops the range test. -/
theorem realloc_inside_iff {s : HeapState} {chains : Set Span} (formed : WellFormed s chains) {chain : Span}
    (live : chain ∈ chains) {newSize : Nat} (positive : 0 < newSize)
    (bounded : newSize ≤ heapTotalSize s.heap) :
    StaysInside s (chainAddress s.heap chain) newSize ↔
      sizeBlocks newSize ≤ chain.len ∨ chain.start + sizeBlocks newSize ≤ s.heap.table.total ∨
        ∃ block, chain.start + chain.len ≤ block ∧ block < s.heap.table.total ∧
          isTaken (s.view block) := by
  obtain ⟨word, blocksEq⟩ := heapBlocks_of_le_totalSize formed.sound bounded
  have within := formed.decodes.within chain live
  have nonempty := formed.decodes.nonempty chain live
  have formed' : WellFormed s.quiet chains := ⟨formed.sound, formed.decodes⟩
  have countEq := formed'.countAt live
  have path := heapRealloc_path (s := s.quiet) formed.sound
    (show chain.start ≤ s.quiet.heap.table.total from by simp only [HeapState.quiet]; omega) positive word
  have pointerEq : s.quiet.heap.saddr + chain.start * peachosHeapBlockSize = chainAddress s.heap chain := rfl
  rw [pointerEq, blocksEq] at path
  unfold StaysInside
  generalize heapRealloc s.quiet (chainAddress s.heap chain) newSize = result at path ⊢
  -- a trace that starts empty and stays inside, and a range that starts at the chain
  have traced : ∀ s' : HeapState, (∀ i ∈ s'.accesses, i ∈ s.quiet.accesses ∨ s.quiet.InTable i) →
      ∀ i ∈ s'.accesses, 0 ≤ i ∧ i < s.heap.table.total := fun s' accesses i member =>
    (accesses i member).resolve_left List.not_mem_nil
  have ranged : chain.start + sizeBlocks newSize ≤ s.heap.table.total → result.1 = chainAddress s.heap chain →
      s.heap.saddr ≤ result.1 ∧ result.1 + sizeBlocks newSize * peachosHeapBlockSize ≤ s.heap.eaddr :=
    fun fits pointer => by
      rw [pointer]
      exact ⟨Nat.le_add_right _ _, formed.sound.range_le fits⟩
  cases path with
  | same equal pointer frame =>
      exact ⟨fun _ => Or.inl (by omega), fun _ =>
        ⟨traced _ frame.accesses, Or.inr (ranged (by omega) (by rw [pointer, pointerEq]))⟩⟩
  | shrink fewer pointer counted readOnly state =>
      have only := (heapReallocShrink_spec (readOnly.onlyTable.sound formed.sound)
        (show chain.start + s.quiet.countAt chain.start ≤ counted.heap.table.total by
          rw [readOnly.heap, countEq]; exact within) fewer).1
      rw [← state] at only
      exact ⟨fun _ => Or.inl (by omega), fun _ => ⟨traced _ (readOnly.onlyTable.trans only).accesses,
        Or.inr (ranged (by omega) (by rw [pointer, pointerEq]))⟩⟩
  | extend more fits isFree pointer tested readOnly state =>
      have castEq : (chain.start : Int) + s.quiet.countAt chain.start - 1 =
          ((chain.start + s.quiet.countAt chain.start : Nat) : Int) - 1 := by
        push_cast
        ring
      have only := (heapReallocExtend_spec (readOnly.onlyTable.sound formed.sound)
        (show 0 < chain.start + s.quiet.countAt chain.start by omega)
        (show 0 < sizeBlocks newSize - s.quiet.countAt chain.start by omega)
        (show _ ≤ tested.heap.table.total by rw [readOnly.heap]; omega)).1
      rw [castEq] at state
      rw [← state] at only
      exact ⟨fun _ => Or.inr (Or.inl fits), fun _ => ⟨traced _ (readOnly.onlyTable.trans only).accesses,
        Or.inr (ranged fits (by rw [pointer, pointerEq]))⟩⟩
  | full more other low high below taken pointer frame absent =>
      exact ⟨fun _ => Or.inr (Or.inr ⟨other, by omega, below, taken⟩), fun _ =>
        ⟨traced _ frame.accesses, Or.inl pointer⟩⟩
  | move more other low high below taken start moved =>
      refine ⟨fun _ => Or.inr (Or.inr ⟨other, by omega, below, taken⟩), fun _ =>
        ⟨traced _ moved.accesses, Or.inr ?_⟩⟩
      rw [moved.address]
      exact ⟨Nat.le_add_right _ _, formed.sound.range_le moved.run.1.1⟩
  | leave more leaves isFree outside geometry =>
      constructor
      · intro inside
        have impossible := (inside.1 _ outside).2
        simp only [HeapState.quiet] at impossible
        omega
      · rintro (fewer | fits | ⟨block, low, below, taken⟩)
        · omega
        · have leaves' : s.heap.table.total < chain.start + sizeBlocks newSize := leaves
          omega
        · exact absurd taken (isFree block (by omega) below)

/-- Two allocations of one block each. -/
def twoAllocations : HeapSession :=
  let first := fourBlocks.allocated (heapMalloc fourBlocks.fresh 100) 100
  first.allocated (heapMalloc first.fresh 100) 100

theorem twoAllocations_wellFormed :
    WellFormed twoAllocations.state (chainsOf twoAllocations.state.heap twoAllocations.live) := by
  obtain ⟨sound, represented⟩ := represented_of_created fourBlocks_initial
  obtain ⟨sound₁, iff₁⟩ := represented_step_iff sound represented
    (show allocFreeStep fourBlocks (.malloc 100)
      (fourBlocks.allocated (heapMalloc fourBlocks.fresh 100) 100) from ⟨fun _ _ => by simp, rfl⟩)
  obtain ⟨sound₂, iff₂⟩ := represented_step_iff sound₁ (iff₁.mpr (Or.inl (by decide)))
    (show allocFreeStep _ (.malloc 100) twoAllocations from ⟨fun _ _ => by simp, rfl⟩)
  exact (iff₂.mpr (Or.inl (by decide))).wellFormed sound₂

theorem twoAllocations_live : (⟨1, 1⟩ : Span) ∈ chainsOf twoAllocations.state.heap twoAllocations.live :=
  ⟨(0x101000, 100), by decide, by decide⟩

/-- Doubling the second allocation stays inside. -/
theorem realloc_inside_twoAllocations :
    StaysInside twoAllocations.state (chainAddress twoAllocations.state.heap ⟨1, 1⟩) 8192 ↔
      sizeBlocks 8192 ≤ 1 ∨ 1 + sizeBlocks 8192 ≤ twoAllocations.state.heap.table.total ∨
        ∃ block, 1 + 1 ≤ block ∧ block < twoAllocations.state.heap.table.total ∧
          isTaken (twoAllocations.state.view block) :=
  realloc_inside_iff twoAllocations_wellFormed twoAllocations_live (by decide) (by decide)

/-- **The extension range can leave the table**: growing the second of two allocations to four blocks
tests the entry behind the last. -/
theorem realloc_leaves_table : ¬ ∀ s chains chain newSize, WellFormed s chains → chain ∈ chains →
    0 < newSize → newSize ≤ heapTotalSize s.heap → StaysInside s (chainAddress s.heap chain) newSize := by
  intro always
  have inside := always _ _ _ 16384 twoAllocations_wellFormed twoAllocations_live (by decide) (by decide)
  have last := (inside.1 4 (by decide)).2
  revert last
  decide

/-! ### The specified outcome -/

/-- **The specified outcome of a reallocation** of a live chain: `NULL`, and nothing has changed, or a
live chain of the requested size that begins with the old contents, all other chains and their bytes
being kept and the old chain given up if the pointer moved. -/
def ReallocSpec (s : HeapState) (chains : Set Span) (chain : Span) (newSize : Nat)
    (result : Nat × HeapState) : Prop :=
  (result.1 = 0 ∧ result.2.mem = s.mem) ∨
    ∃ chains' chain', WellFormed result.2 chains' ∧ chain' ∈ chains' ∧
      result.1 = chainAddress s.heap chain' ∧ chain'.len = sizeBlocks newSize ∧
      (∀ offset < min chain.len (sizeBlocks newSize) * peachosHeapBlockSize,
        result.2.mem (result.1 + offset) = s.mem (chainAddress s.heap chain + offset)) ∧
      (∀ other ∈ chains, other ≠ chain → other ∈ chains' ∧
        ∀ offset < other.len * peachosHeapBlockSize,
          result.2.mem (chainAddress s.heap other + offset) = s.mem (chainAddress s.heap other + offset)) ∧
      (result.1 ≠ chainAddress s.heap chain → chain ∉ chains')

/-- The bytes of a chain lie outside the table. -/
theorem WellFormed.bytes_outside {s : HeapState} {chains : Set Span} (formed : WellFormed s chains)
    {chain : Span} (live : chain ∈ chains) {offset : Nat} (inside : offset < chain.len * peachosHeapBlockSize) :
    chainAddress s.heap chain + offset < s.heap.table.entries ∨
      s.heap.table.entries + s.heap.table.total ≤ chainAddress s.heap chain + offset := by
  have range := formed.sound.range_le (formed.decodes.within chain live)
  unfold chainAddress
  exact formed.sound.data_outside (by omega) (by omega)

/-- Replacing the chain in place, with a change of the table only, is the specified outcome. -/
theorem ReallocSpec.in_place {s : HeapState} {chains : Set Span} (formed : WellFormed s chains)
    {chain : Span} (live : chain ∈ chains) {newSize : Nat} {result : Nat × HeapState}
    (pointer : result.1 = chainAddress s.heap chain) (only : s.OnlyTable result.2)
    (decodes : Decodes chainCoding result.2.view s.heap.table.total
      (insert ⟨chain.start, sizeBlocks newSize⟩ (chains \ {chain}))) :
    ReallocSpec s chains chain newSize result := by
  refine Or.inr ⟨insert ⟨chain.start, sizeBlocks newSize⟩ (chains \ {chain}),
    ⟨chain.start, sizeBlocks newSize⟩, ⟨only.sound formed.sound, ?_⟩, Set.mem_insert _ _,
    pointer, rfl, fun offset below => ?_, fun other known different => ⟨?_, fun offset below => ?_⟩,
    fun moved => absurd pointer moved⟩
  · rw [only.geometry.table]
    exact decodes
  · have inside : offset < chain.len * peachosHeapBlockSize :=
      below.trans_le (Nat.mul_le_mul_right _ (min_le_left _ _))
    rw [pointer]
    exact only.mem _ (formed.bytes_outside live inside)
  · exact Set.mem_insert_of_mem _ ⟨known, different⟩
  · exact only.mem _ (formed.bytes_outside known below)

/-- **A moved chain is not well-formed**: its last block says that it goes on. -/
theorem not_spec_of_moved {s : HeapState} {chains : Set Span} (formed : WellFormed s chains) {chain : Span}
    (live : chain ∈ chains) {newSize start : Nat} {result : Nat × HeapState}
    (more : chain.len < sizeBlocks newSize)
    (moved : Moved s chain.start chain.len (sizeBlocks newSize) start result.1 result.2) :
    ¬ ReallocSpec s chains chain newSize result := by
  have nonempty := formed.decodes.nonempty chain live
  have within := moved.run.1.1
  have address := moved.address
  have taken : ∀ block, chain.start ≤ block → block < chain.start + chain.len →
      isTaken (s.view block) ∧ ¬ typeFree (s.view block) := fun block low high => by
    have marked := formed.entry live (show block - chain.start < chain.len by omega)
    rw [Nat.add_sub_cancel' low] at marked
    rw [marked]
    exact ⟨isTaken_of_entryType (entryType_takenEntry _ _), not_typeFree_of_entryType (entryType_takenEntry _ _)⟩
  have apart := apart_of_run moved.positive moved.run.1 (fun block low high => (taken block low high).2) nonempty
  -- the old chain ends itself, whatever the new run is
  have lengthEq : movedLength s chain.start start (sizeBlocks newSize) = chain.len := by
    have inTable := formed.decodes.within chain live
    have kept : ∀ place < chain.len, takenFrom s.view start (sizeBlocks newSize) (chain.start + place) =
        chainEntry chain.len place := fun place inside => by
      rw [takenFrom, if_neg (by omega)]
      exact formed.entry live inside
    refine walk_eq goesOn _ _ _ _ nonempty (by omega) (fun place inner => ?_) (Or.inr ?_)
    · rw [kept place (by omega), chainEntry, goesOn_takenEntry, decide_eq_true_iff]
      exact inner
    · rw [kept _ (by omega), chainEntry, goesOn_takenEntry, decide_eq_false_iff_not]
      omega
  rintro (⟨null, _⟩ | ⟨chains', chain', formed', live', pointer, lenEq, _⟩)
  · have positive := formed.sound.positive
    omega
  · have startEq : chain'.start = start := by
      rw [address, chainAddress] at pointer
      simp only [peachosHeapBlockSize] at pointer
      omega
    have last := formed'.entry live' (show sizeBlocks newSize - 1 < chain'.len by omega)
    rw [startEq, lenEq, moved.view _ (by omega), lengthEq, freedFrom, if_neg (by omega), takenFrom,
      if_pos (by omega), Nat.add_sub_cancel_left, mallocEntry_eq_chainEntry (by omega)] at last
    omega

/-- **Reallocating a live chain does what is specified** exactly when it does not grow, it is extended
in place, or there is no room: never by moving the chain. -/
theorem realloc_specified_iff {s : HeapState} {chains : Set Span} (formed : WellFormed s chains)
    {chain : Span} (live : chain ∈ chains) {newSize : Nat} (positive : 0 < newSize)
    (bounded : newSize ≤ heapTotalSize s.heap)
    (inside : sizeBlocks newSize ≤ chain.len ∨ chain.start + sizeBlocks newSize ≤ s.heap.table.total) :
    ReallocSpec s chains chain newSize (heapRealloc s (chainAddress s.heap chain) newSize) ↔
      sizeBlocks newSize ≤ chain.len ∨
        (∀ block, chain.start + chain.len ≤ block → block < chain.start + sizeBlocks newSize →
          ¬ isTaken (s.view block)) ∨
        ∀ start, ¬ IsRun (fun block => typeFree (s.view block)) s.heap.table.total (sizeBlocks newSize) start := by
  obtain ⟨word, blocksEq⟩ := heapBlocks_of_le_totalSize formed.sound bounded
  have within := formed.decodes.within chain live
  have nonempty := formed.decodes.nonempty chain live
  have countEq := formed.countAt live
  have path := heapRealloc_path formed.sound (show chain.start ≤ s.heap.table.total by omega) positive word
  have pointerEq : s.heap.saddr + chain.start * peachosHeapBlockSize = chainAddress s.heap chain := rfl
  rw [pointerEq, blocksEq] at path
  have someBlocks : 0 < sizeBlocks newSize := by
    unfold sizeBlocks
    omega
  generalize heapRealloc s (chainAddress s.heap chain) newSize = result at path ⊢
  cases path with
  | same equal pointer frame =>
      refine ⟨fun _ => Or.inl (by omega), fun _ => .in_place formed live (by rw [pointer, pointerEq])
        frame.onlyTable ?_⟩
      have unchanged : insert (⟨chain.start, sizeBlocks newSize⟩ : Span) (chains \ {chain}) = chains := by
        rw [← equal, countEq]
        exact Set.insert_sdiff_self_of_mem live
      rw [unchanged, frame.view]
      exact formed.decodes
  | shrink fewer pointer counted readOnly state =>
      obtain ⟨only, _, viewEq⟩ := heapReallocShrink_spec (readOnly.onlyTable.sound formed.sound)
        (show chain.start + s.countAt chain.start ≤ counted.heap.table.total by
          rw [readOnly.heap, countEq]; exact within) fewer
      have lengthEq : counted.chainLength (chain.start + sizeBlocks newSize) =
          chain.len - sizeBlocks newSize := by
        unfold HeapState.chainLength
        rw [readOnly.view, readOnly.heap]
        exact formed.chainLength live (by omega)
      rw [← state] at only viewEq
      refine ⟨fun _ => Or.inl (by omega), fun _ => .in_place formed live (by rw [pointer, pointerEq])
        (readOnly.onlyTable.trans only) (formed.shrink live someBlocks (by omega) fun block _ => ?_)⟩
      rw [viewEq, lengthEq, readOnly.view]
  | extend more fits isFree pointer tested readOnly state =>
      have castEq : (chain.start : Int) + s.countAt chain.start - 1 =
          ((chain.start + s.countAt chain.start : Nat) : Int) - 1 := by
        push_cast
        ring
      obtain ⟨only, _, viewEq⟩ := heapReallocExtend_spec (readOnly.onlyTable.sound formed.sound)
        (show 0 < chain.start + s.countAt chain.start by omega)
        (show 0 < sizeBlocks newSize - s.countAt chain.start by omega)
        (show _ ≤ tested.heap.table.total by rw [readOnly.heap]; omega)
      rw [castEq] at state
      rw [← state] at only viewEq
      rw [countEq] at isFree more viewEq
      refine ⟨fun _ => Or.inr (Or.inl isFree), fun _ => .in_place formed live (by rw [pointer, pointerEq])
        (readOnly.onlyTable.trans only) (formed.extend live more fits isFree fun block _ => ?_)⟩
      rw [viewEq, readOnly.view]
  | full more other low high below taken pointer frame absent =>
      exact ⟨fun _ => Or.inr (Or.inr absent), fun _ => Or.inl ⟨pointer, frame.mem⟩⟩
  | move more other low high below taken start moved =>
      rw [countEq] at more moved low
      refine ⟨fun spec => absurd spec (not_spec_of_moved formed live more moved), ?_⟩
      rintro (fewer | isFree | absent)
      · omega
      · exact absurd taken (isFree other low high)
      · exact absurd moved.run.1 (absent start)
  | leave more leaves isFree outside geometry => omega

/-- Doubling the second of two allocations extends it in place. -/
theorem realloc_specified_twoAllocations :
    ReallocSpec twoAllocations.state (chainsOf twoAllocations.state.heap twoAllocations.live) ⟨1, 1⟩ 8192
        (heapRealloc twoAllocations.state (chainAddress twoAllocations.state.heap ⟨1, 1⟩) 8192) ↔
      sizeBlocks 8192 ≤ 1 ∨
        (∀ block, 1 + 1 ≤ block → block < 1 + sizeBlocks 8192 → ¬ isTaken (twoAllocations.state.view block)) ∨
        ∀ start, ¬ IsRun (fun block => typeFree (twoAllocations.state.view block))
          twoAllocations.state.heap.table.total (sizeBlocks 8192) start :=
  realloc_specified_iff twoAllocations_wellFormed twoAllocations_live (by decide) (by decide)
    (Or.inr (by decide))

theorem twoAllocations_live_first :
    (⟨0, 1⟩ : Span) ∈ chainsOf twoAllocations.state.heap twoAllocations.live :=
  ⟨(0x100000, 100), by decide, by decide⟩

/-- **A moved chain misses its end**: doubling the first of two allocations moves it. -/
theorem realloc_moves_unsealed : ¬ ∀ s chains chain newSize, WellFormed s chains → chain ∈ chains →
    0 < newSize → newSize ≤ heapTotalSize s.heap →
    (sizeBlocks newSize ≤ chain.len ∨ chain.start + sizeBlocks newSize ≤ s.heap.table.total) →
    ReallocSpec s chains chain newSize (heapRealloc s (chainAddress s.heap chain) newSize) := by
  intro always
  have spec := always _ _ _ 8192 twoAllocations_wellFormed twoAllocations_live_first (by decide) (by decide)
    (Or.inr (by decide))
  have countEq := twoAllocations_wellFormed.countAt twoAllocations_live_first
  have blocksEq : heapBlocks 8192 = 2 := by decide
  have path := heapRealloc_path twoAllocations_wellFormed.sound
    (Nat.zero_le twoAllocations.state.heap.table.total) (show 0 < 8192 by decide) (by decide)
  rw [blocksEq] at path
  simp only at countEq
  cases path with
  | same equal pointer frame => omega
  | shrink fewer pointer counted readOnly state => omega
  | extend more fits isFree pointer tested readOnly state =>
      exact isFree 1 (by omega) (by decide) (by decide)
  | full more other low high below taken pointer frame absent =>
      exact absent 2 ⟨by decide, by decide⟩
  | move more other low high below taken start moved =>
      rw [countEq] at moved
      exact not_spec_of_moved twoAllocations_wellFormed twoAllocations_live_first
        (show 1 < sizeBlocks 8192 by decide) moved spec
  | leave more leaves isFree outside geometry =>
      have total : twoAllocations.state.heap.table.total = 4 := by decide
      omega

end PeachOS
