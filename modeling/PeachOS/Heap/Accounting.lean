/-
**The block counters of a heap against its table.**

`heap->used_blocks` and `heap->free_blocks` are moved by `countTaken`, whatever happened to the table.
`Accounted` says that they are the numbers of taken and of free entries, and `accounted_iff` says when
a step that moved the counters by `δ` keeps it: exactly when the number of taken entries moved by `δ`.
The lemmas on `takenEntries` count what allocating and freeing do to a table.
-/

import PeachOS.Heap.Chains

namespace PeachOS

open ByteStore SpanTable FirstFit

/-- The number of taken entries of a table. -/
def takenEntries (view : Nat → Byte) (total : Nat) : Nat := countWhere isTaken view total

/-- The number of free entries of a table. -/
def freeEntries (view : Nat → Byte) (total : Nat) : Nat := countWhere typeFree view total

/-- **The counters are right**: they are the numbers of taken and of free entries, they add up to the
blocks of the heap and `heap_total_used` agrees with them. -/
structure HeapState.Accounted (s : HeapState) : Prop where
  used : s.heap.usedBlocks = takenEntries s.view s.heap.table.total
  free : s.heap.freeBlocks = freeEntries s.view s.heap.table.total
  sum : s.heap.freeBlocks + s.heap.usedBlocks = s.heap.totalBlocks
  totalUsed : heapTotalUsed s = s.heap.usedBlocks * peachosHeapBlockSize

/-- Every entry of the table is either free or taken. -/
def HeapState.TwoTypes (s : HeapState) : Prop :=
  ∀ block < s.heap.table.total, typeFree (s.view block) ∨
    heapGetEntryType (s.view block) = heapBlockTableEntryTaken

theorem isTaken_iff_of_types {entry : Byte}
    (types : typeFree entry ∨ heapGetEntryType entry = heapBlockTableEntryTaken) :
    isTaken entry ↔ ¬ typeFree entry := by
  revert entry
  decide

theorem entryType_iff_of_types {entry : Byte}
    (types : typeFree entry ∨ heapGetEntryType entry = heapBlockTableEntryTaken) :
    heapGetEntryType entry = heapBlockTableEntryTaken ↔ isTaken entry := by
  revert entry
  decide

/-- Free and taken entries make up the table. -/
theorem freeEntries_add_takenEntries {s : HeapState} (types : s.TwoTypes) :
    freeEntries s.view s.heap.table.total + takenEntries s.view s.heap.table.total =
      s.heap.table.total := by
  unfold freeEntries takenEntries countWhere
  have same : (Finset.range s.heap.table.total).filter (fun block => isTaken (s.view block)) =
      (Finset.range s.heap.table.total).filter fun block => ¬ typeFree (s.view block) :=
    Finset.filter_congr fun block inside =>
      isTaken_iff_of_types (types block (Finset.mem_range.mp inside))
  rw [same, Finset.card_filter_add_card_filter_not, Finset.card_range]

/-- Only the entries of the table are counted. -/
theorem takenEntries_congr {view view' : Nat → Byte} {total : Nat}
    (same : ∀ block < total, view' block = view block) :
    takenEntries view' total = takenEntries view total :=
  countWhere_congr isTaken fun block below => by rw [same block below]

theorem heapTotalUsedLoop_spec {s : HeapState} (sound : s.heap.Sound) {fuel i total : Nat}
    (inside : i + fuel ≤ s.heap.table.total) :
    heapTotalUsedLoop s fuel i total = total + peachosHeapBlockSize *
      countIn (fun entry => heapGetEntryType entry = heapBlockTableEntryTaken) s.view i fuel := by
  induction fuel generalizing i total with
  | zero =>
      rw [countIn_zero]
      rfl
  | succ fuel ih =>
      rw [heapTotalUsedLoop, ih (by omega), countIn_succ, HeapState.entry_natCast sound (by omega)]
      split <;> ring

/-- `heap_total_used` counts the taken entries. -/
theorem heapTotalUsed_eq {s : HeapState} (sound : s.heap.Sound) (types : s.TwoTypes) :
    heapTotalUsed s = takenEntries s.view s.heap.table.total * peachosHeapBlockSize := by
  unfold heapTotalUsed takenEntries countWhere
  rw [heapTotalUsedLoop_spec sound (by omega), Nat.zero_add, Nat.mul_comm]
  congr 1
  unfold countIn
  rw [Nat.zero_add, ← Finset.range_eq_Ico]
  congr 1
  exact Finset.filter_congr fun block inside =>
    entryType_iff_of_types (types block (Finset.mem_range.mp inside))

/-- On a table of free and taken entries one counter decides about all. -/
theorem HeapState.Accounted.of_counters {s : HeapState} (sound : s.heap.Sound) (types : s.TwoTypes)
    (used : s.heap.usedBlocks = takenEntries s.view s.heap.table.total)
    (free : s.heap.freeBlocks = freeEntries s.view s.heap.table.total) : s.Accounted where
  used := used
  free := free
  sum := by rw [free, used, freeEntries_add_takenEntries types, sound.total]
  totalUsed := by rw [heapTotalUsed_eq sound types, used]

/-- **The counters stay right exactly when they move by what the table moved.** -/
theorem accounted_iff {s s' : HeapState} (sound : s.heap.Sound) (types : s.TwoTypes)
    (types' : s'.TwoTypes) (accounted : s.Accounted) {moved : Int}
    (small : -2 ^ 62 ≤ moved ∧ moved ≤ 2 ^ 62) (heapEq : s'.heap = (s.countTaken moved).heap) :
    s'.Accounted ↔ (takenEntries s'.view s.heap.table.total : Int) =
      takenEntries s.view s.heap.table.total + moved := by
  have tableEq : s'.heap.table = s.heap.table := by rw [heapEq]; rfl
  have sound' : s'.heap.Sound := by
    rw [heapEq]
    exact (s.sameGeometry_countTaken moved).sound sound
  have total_lt := sound.total_lt
  have usedEq : s'.heap.usedBlocks = toWord (s.heap.usedBlocks + moved) := by rw [heapEq]; rfl
  have freeEq : s'.heap.freeBlocks = toWord (s.heap.freeBlocks - moved) := by rw [heapEq]; rfl
  have parts := freeEntries_add_takenEntries types
  have parts' := freeEntries_add_takenEntries types'
  rw [tableEq] at parts'
  rw [accounted.used] at usedEq
  rw [accounted.free] at freeEq
  constructor
  · intro after
    have used' := after.used
    rw [usedEq, tableEq] at used'
    unfold toWord at used'
    omega
  · intro same
    refine HeapState.Accounted.of_counters sound' types' ?_ ?_
    · rw [usedEq, tableEq, ← same]
      exact toWord_natCast (by omega)
    · rw [freeEq, tableEq,
        show (freeEntries s.view s.heap.table.total : Int) - moved =
          freeEntries s'.view s.heap.table.total by omega]
      exact toWord_natCast (by omega)

/-! ### What allocating and freeing do to the count -/

/-- A run that was free adds its length. -/
theorem takenEntries_takenFrom (view : Nat → Byte) {total start blocks : Nat}
    (inside : start + blocks ≤ total)
    (isFree : ∀ offset < blocks, ¬ isTaken (view (start + offset))) :
    takenEntries (takenFrom view start blocks) total = takenEntries view total + blocks := by
  have moved := countWhere_add isTaken view (takenFrom view start blocks) inside
    fun block _ outside => by
      unfold takenFrom
      rw [if_neg (by omega)]
  have before : countIn isTaken view start blocks = 0 :=
    countIn_eq_zero isTaken fun block low high => by
      have here := isFree (block - start) (by omega)
      rwa [Nat.add_sub_cancel' low] at here
  have after : countIn isTaken (takenFrom view start blocks) start blocks = blocks :=
    (countIn_eq_len isTaken).mpr fun block low high => by
      unfold takenFrom
      rw [if_pos ⟨low, high⟩]
      exact isTaken_of_entryType (entryType_mallocEntry _ _)
  unfold takenEntries
  omega

/-- A freed range takes away what was taken of it. -/
theorem takenEntries_freedFrom (view : Nat → Byte) {total block len : Nat} (inside : block + len ≤ total) :
    takenEntries (freedFrom view block len) total + countIn isTaken view block len =
      takenEntries view total := by
  have moved := countWhere_add isTaken view (freedFrom view block len) inside
    fun other _ outside => by
      unfold freedFrom
      rw [if_neg (by omega)]
  have after : countIn isTaken (freedFrom view block len) block len = 0 :=
    countIn_eq_zero isTaken fun other low high => by
      unfold freedFrom
      rw [if_pos ⟨low, high⟩]
      decide
  unfold takenEntries
  omega

theorem twoTypes_takenFrom {view : Nat → Byte} {start blocks block : Nat}
    (types : typeFree (view block) ∨ heapGetEntryType (view block) = heapBlockTableEntryTaken) :
    typeFree (takenFrom view start blocks block) ∨
      heapGetEntryType (takenFrom view start blocks block) = heapBlockTableEntryTaken := by
  unfold takenFrom
  split
  · exact Or.inr (entryType_mallocEntry _ _)
  · exact types

theorem twoTypes_freedFrom {view : Nat → Byte} {start len block : Nat}
    (types : typeFree (view block) ∨ heapGetEntryType (view block) = heapBlockTableEntryTaken) :
    typeFree (freedFrom view start len block) ∨
      heapGetEntryType (freedFrom view start len block) = heapBlockTableEntryTaken := by
  unfold freedFrom
  split
  · exact Or.inl entryType_free
  · exact types

theorem not_isTaken_of_typeFree {entry : Byte} (isFree : typeFree entry) : ¬ isTaken entry := by
  revert entry
  decide

/-- **Allocating keeps the counters right.** -/
theorem Allocated.accounted {s s' : HeapState} {blocks start ptr : Nat} (sound : s.heap.Sound)
    (types : s.TwoTypes) (accounted : s.Accounted) (allocated : Allocated s blocks start ptr s') :
    s'.TwoTypes ∧ s'.Accounted := by
  have inside := allocated.inside
  have small := sound.total_lt
  have types' : s'.TwoTypes := fun block below => by
    rw [allocated.geometry.table] at below
    rw [allocated.view block below]
    exact twoTypes_takenFrom (types block below)
  refine ⟨types', (accounted_iff sound types types' accounted ⟨by omega, by omega⟩ allocated.heap).mpr ?_⟩
  rw [takenEntries_congr allocated.view, takenEntries_takenFrom s.view inside fun offset below =>
    not_isTaken_of_typeFree (allocated.run.1.2 offset below)]
  push_cast
  rfl

/-- **Freeing keeps the counters right exactly when every block it clears was taken.** -/
theorem heapFree_accounted_iff {s : HeapState} (sound : s.heap.Sound) (types : s.TwoTypes)
    (accounted : s.Accounted) {block : Nat} (inside : block ≤ s.heap.table.total) :
    (heapFree s (s.heap.saddr + block * peachosHeapBlockSize)).TwoTypes ∧
      ((heapFree s (s.heap.saddr + block * peachosHeapBlockSize)).Accounted ↔
        ∀ other, block ≤ other → other < block + s.chainLength block → isTaken (s.view other)) := by
  obtain ⟨only, heapEq, viewEq⟩ := heapFree_spec sound inside
  have bound := s.chainLength_le inside
  have small := sound.total_lt
  have types' : (heapFree s (s.heap.saddr + block * peachosHeapBlockSize)).TwoTypes :=
    fun other below => by
      rw [only.geometry.table] at below
      rw [viewEq]
      exact twoTypes_freedFrom (types other below)
  refine ⟨types', ?_⟩
  rw [accounted_iff sound types types' accounted ⟨by omega, by omega⟩ heapEq, viewEq,
    ← countIn_eq_len isTaken]
  have moved := takenEntries_freedFrom s.view bound
  omega

end PeachOS
