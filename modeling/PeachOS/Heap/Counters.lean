/-
**Block accounting over runs with reallocation.**

Two paths move the counters by something else than the table: freeing a chain counts every block it
clears, also the free block that a chain of several blocks leads onto, and a shrinking reallocation
counts what it cuts off twice. `keepsCount` says, from the state before a request, that the request
takes neither:

* `countKept_shrink`, `countKept_extend`, `countKept_move` — one lemma for each path;
* `counted_step_iff` — a request keeps the counters right exactly when `keepsCount` allows it;
* `block_accounting` — the counters are right in every state of every run of such requests.
-/

import PeachOS.Heap.Realloc
import PeachOS.Heap.Sessions

namespace PeachOS

open ByteStore SpanTable FirstFit StepRun

/-! ### The condition -/

/-- The block of a pointer. -/
def blockOf (heap : Heap) (ptr : Nat) : Nat := (ptr - heap.saddr) / peachosHeapBlockSize

/-- All blocks that freeing a block would clear are taken. -/
def chainTaken (view : Nat → Byte) (total block : Nat) : Prop :=
  ∀ other, block ≤ other → other < block + walk goesOn view (total - block) block → isTaken (view other)

/-- **What keeps the counters right**: freed chains hold taken blocks only, and a reallocation keeps
its blocks, extends them in place, or moves a chain that can be freed. -/
def keepsCount (σ : HeapSession) : HeapRequest → Prop
  | .malloc _ | .zalloc _ => True
  | .free ptr => chainTaken σ.state.view σ.state.heap.table.total (blockOf σ.state.heap ptr)
  | .realloc ptr newSize =>
      let block := blockOf σ.state.heap ptr
      let count := σ.state.countAt block
      if newSize = 0 then chainTaken σ.state.view σ.state.heap.table.total block
      else count = heapBlocks newSize ∨ (count < heapBlocks newSize ∧
        ((∀ other, block + count ≤ other → other < block + heapBlocks newSize →
            ¬ isTaken (σ.state.view other)) ∨
          ∀ start, IsFirstRun (fun other => typeFree (σ.state.view other)) σ.state.heap.table.total
              (heapBlocks newSize) start →
            chainTaken (takenFrom σ.state.view start (heapBlocks newSize)) σ.state.heap.table.total block))

/-- A step in which a reallocation stays inside the table. -/
def insideStep (σ : HeapSession) (request : HeapRequest) (σ' : HeapSession) : Prop :=
  σ.step request = some σ' ∧
    ∀ ptr newSize, request = .realloc ptr newSize → ∀ i ∈ σ'.state.accesses, σ'.state.InTable i

/-! ### One lemma for each path -/

/-- Two moves of the counters are one. -/
theorem heap_countTaken_twice (s : HeapState) (first second : Int) :
    ((s.countTaken first).countTaken second).heap = (s.countTaken (first + second)).heap := by
  unfold HeapState.countTaken
  simp only [Heap.mk.injEq, true_and, and_true, toWord_add, Int.sub_eq_add_neg, Int.neg_add, Int.add_assoc]

theorem isTaken_and_notHasNext : ∀ entry : Byte, isTaken (entry &&& ~~~heapBlockHasNext) ↔ isTaken entry := by
  decide

theorem isTaken_or_hasNext : ∀ entry : Byte, isTaken (entry ||| heapBlockHasNext) ↔ isTaken entry := by
  decide

theorem types_and_notHasNext : ∀ entry : Byte,
    (typeFree entry ∨ heapGetEntryType entry = heapBlockTableEntryTaken) →
      typeFree (entry &&& ~~~heapBlockHasNext) ∨
        heapGetEntryType (entry &&& ~~~heapBlockHasNext) = heapBlockTableEntryTaken := by
  decide

theorem types_or_hasNext : ∀ entry : Byte,
    (typeFree entry ∨ heapGetEntryType entry = heapBlockTableEntryTaken) →
      typeFree (entry ||| heapBlockHasNext) ∨
        heapGetEntryType (entry ||| heapBlockHasNext) = heapBlockTableEntryTaken := by
  decide

section Paths

variable {s s' : HeapState} (sound : s.heap.Sound) (types : s.TwoTypes) (accounted : s.Accounted)

include sound types accounted

/-- Nothing but reads. -/
theorem countKept_readOnly (readOnly : s.ReadOnly s') : s'.TwoTypes ∧ s'.Accounted := by
  have types' : s'.TwoTypes := by
    unfold HeapState.TwoTypes
    rw [readOnly.heap, readOnly.view]
    exact types
  refine ⟨types', .of_counters (by rw [readOnly.heap]; exact sound) types' ?_ ?_⟩
  · rw [readOnly.heap, readOnly.view]
    exact accounted.used
  · rw [readOnly.heap, readOnly.view]
    exact accounted.free

/-- **A shrinking reallocation never keeps the counters right.** -/
theorem countKept_shrink {block blocks current : Nat} (inside : block + current ≤ s.heap.table.total)
    (shrinks : blocks < current) :
    (heapReallocShrink s block current blocks).TwoTypes ∧
      ¬ (heapReallocShrink s block current blocks).Accounted := by
  obtain ⟨only, heapEq, viewEq⟩ := heapReallocShrink_spec sound inside shrinks
  have total_lt := sound.total_lt
  have bound := s.chainLength_le (show block + blocks ≤ s.heap.table.total by omega)
  have tableEq := only.geometry.table
  have types' : (heapReallocShrink s block current blocks).TwoTypes := fun other below => by
    rw [tableEq] at below
    rw [viewEq]
    unfold cutFrom
    split
    · exact types_and_notHasNext _ (types other below)
    · exact twoTypes_freedFrom (types other below)
  refine ⟨types', ?_⟩
  rw [heap_countTaken_twice] at heapEq
  rw [accounted_iff sound types types' accounted ⟨by omega, by omega⟩ heapEq, viewEq]
  have moved := takenEntries_freedFrom s.view bound
  have counted := countIn_le isTaken s.view (block + blocks) (s.chainLength (block + blocks))
  have cut : takenEntries (cutFrom s.view block blocks (s.chainLength (block + blocks))) s.heap.table.total
      = takenEntries (freedFrom s.view (block + blocks) (s.chainLength (block + blocks)))
          s.heap.table.total := by
    refine countWhere_congr isTaken fun other _ => ?_
    unfold cutFrom
    split
    · rename_i last
      rw [isTaken_and_notHasNext]
      unfold freedFrom
      rw [if_neg (by omega)]
    · exact Iff.rfl
  omega

/-- An extension in place keeps the counters right. -/
theorem countKept_extend {start len : Nat} (first : 0 < start) (positive : 0 < len)
    (inside : start + len ≤ s.heap.table.total)
    (isFree : ∀ block, start ≤ block → block < start + len → ¬ isTaken (s.view block)) :
    (heapReallocExtend s ((start : Int) - 1) start (start + len - 1) len).TwoTypes ∧
      (heapReallocExtend s ((start : Int) - 1) start (start + len - 1) len).Accounted := by
  obtain ⟨only, heapEq, viewEq⟩ := heapReallocExtend_spec sound first positive inside
  set extended := heapReallocExtend s ((start : Int) - 1) start (start + len - 1) len with extendedEq
  have total_lt := sound.total_lt
  have tableEq := only.geometry.table
  have types' : extended.TwoTypes := fun other below => by
    rw [tableEq] at below
    rw [viewEq]
    unfold splicedFrom
    split
    · exact types_or_hasNext _ (types other below)
    · split
      · exact Or.inr (by decide)
      · split
        · exact Or.inr (by decide)
        · exact types other below
  refine ⟨types', (accounted_iff sound types types' accounted ⟨by omega, by omega⟩ heapEq).mpr ?_⟩
  have moved := countWhere_add isTaken s.view (splicedFrom s.view start len) inside
    fun other _ outside => by
      unfold splicedFrom
      by_cases ending : other + 1 = start
      · rw [if_pos ending]
        exact isTaken_or_hasNext _
      · rw [if_neg ending, if_neg (by omega), if_neg (by omega)]
  have before : countIn isTaken s.view start len = 0 := countIn_eq_zero isTaken isFree
  have after : countIn isTaken (splicedFrom s.view start len) start len = len :=
    (countIn_eq_len isTaken).mpr fun other low high => by
      unfold splicedFrom
      rw [if_neg (by omega)]
      split
      · decide
      · rw [if_pos (by omega)]
        decide
  rw [viewEq]
  unfold takenEntries
  omega

/-- **A moving reallocation keeps the counters right exactly when the old chain can be freed.** -/
theorem countKept_move {block count blocks start ptr : Nat} (inside : block ≤ s.heap.table.total)
    (moved : Moved s block count blocks start ptr s') :
    s'.TwoTypes ∧
      (s'.Accounted ↔ chainTaken (takenFrom s.view start blocks) s.heap.table.total block) := by
  have total_lt := sound.total_lt
  have range := moved.run.1.1
  have heapEq := moved.heap
  have bound := walk_le goesOn (takenFrom s.view start blocks) (s.heap.table.total - block) block
  have lengthEq : movedLength s block start blocks =
      walk goesOn (takenFrom s.view start blocks) (s.heap.table.total - block) block := rfl
  have types' : s'.TwoTypes := fun other below => by
    rw [moved.geometry.table] at below
    rw [moved.view other below]
    exact twoTypes_freedFrom (twoTypes_takenFrom (types other below))
  refine ⟨types', ?_⟩
  rw [heap_countTaken_twice] at heapEq
  rw [accounted_iff sound types types' accounted ⟨by omega, by omega⟩ heapEq,
    takenEntries_congr moved.view]
  have taken := takenEntries_takenFrom s.view range fun offset below =>
    not_isTaken_of_typeFree (moved.run.1.2 offset below)
  have freed := takenEntries_freedFrom (takenFrom s.view start blocks)
    (show block + movedLength s block start blocks ≤ s.heap.table.total by omega)
  unfold chainTaken
  rw [← lengthEq, ← countIn_eq_len isTaken]
  omega

end Paths

/-! ### One request -/

/-- A block pointer of a heap. -/
def BlockPointer (heap : Heap) (ptr : Nat) : Prop :=
  ∃ block < heap.table.total, ptr = heap.saddr + block * peachosHeapBlockSize

theorem BlockPointer.congr {heap heap' : Heap} (same : heap.SameGeometry heap') {ptr : Nat} :
    BlockPointer heap' ptr ↔ BlockPointer heap ptr := by
  unfold BlockPointer
  rw [same.table, same.saddr]

theorem blockOf_pointer {heap : Heap} (block : Nat) :
    blockOf heap (heap.saddr + block * peachosHeapBlockSize) = block := by
  simp only [blockOf, peachosHeapBlockSize]
  omega

/-- **A reallocation that stays inside the table.** -/
theorem countKept_realloc {s : HeapState} (sound : s.heap.Sound) (types : s.TwoTypes)
    (accounted : s.Accounted) {block newSize : Nat} (inside : block < s.heap.table.total)
    {result : Nat × HeapState} (path : ReallocPath s block (heapBlocks newSize) result)
    (inTable : ∀ i ∈ result.2.accesses, result.2.InTable i) :
    s.heap.SameGeometry result.2.heap ∧ result.2.TwoTypes ∧
      (result.1 = 0 ∨ BlockPointer s.heap result.1) ∧
      (result.2.Accounted ↔ s.countAt block = heapBlocks newSize ∨
        (s.countAt block < heapBlocks newSize ∧
          ((∀ other, block + s.countAt block ≤ other → other < block + heapBlocks newSize →
              ¬ isTaken (s.view other)) ∨
            ∀ start, IsFirstRun (fun other => typeFree (s.view other)) s.heap.table.total
                (heapBlocks newSize) start →
              chainTaken (takenFrom s.view start (heapBlocks newSize)) s.heap.table.total block))) := by
  have bound := s.countAt_le inside.le
  have own : BlockPointer s.heap (s.heap.saddr + block * peachosHeapBlockSize) := ⟨block, inside, rfl⟩
  cases path with
  | same equal pointer frame =>
      obtain ⟨types', accounted'⟩ := countKept_readOnly sound types accounted frame
      refine ⟨frame.onlyTable.geometry, types', Or.inr ?_, fun _ => Or.inl equal, fun _ => accounted'⟩
      rw [pointer]
      exact own
  | shrink fewer pointer counted readOnly state =>
      obtain ⟨types', accounted'⟩ := countKept_readOnly sound types accounted readOnly
      have sound' : counted.heap.Sound := readOnly.onlyTable.sound sound
      have insideCounted : block + s.countAt block ≤ counted.heap.table.total := by
        rw [readOnly.heap]
        exact bound
      have only := (heapReallocShrink_spec sound' insideCounted fewer).1
      obtain ⟨typesCut, wrong⟩ := countKept_shrink sound' types' accounted' insideCounted fewer
      rw [state, pointer]
      refine ⟨readOnly.onlyTable.geometry.trans only.geometry, typesCut, Or.inr own,
        fun right => absurd right wrong, ?_⟩
      rintro (equal | ⟨more, _⟩) <;> omega
  | extend more fits isFree pointer tested readOnly state =>
      obtain ⟨types', accounted'⟩ := countKept_readOnly sound types accounted readOnly
      have sound' : tested.heap.Sound := readOnly.onlyTable.sound sound
      -- the old ending block is written, so it is a block of the table
      have first : 0 < block + s.countAt block := by
        have ending := inTable ((block : Int) + s.countAt block - 1) (by
          rw [state]
          exact List.mem_cons_self)
        have low := ending.1
        omega
      have castEq : (block : Int) + s.countAt block - 1 = ((block + s.countAt block : Nat) : Int) - 1 := by
        push_cast
        ring
      have some : 0 < heapBlocks newSize - s.countAt block := by omega
      have endEq : block + s.countAt block + (heapBlocks newSize - s.countAt block) =
          block + heapBlocks newSize := by omega
      have insideTested : block + s.countAt block + (heapBlocks newSize - s.countAt block) ≤
          tested.heap.table.total := by
        rw [readOnly.heap, endEq]
        exact fits
      have freeTested : ∀ other, block + s.countAt block ≤ other →
          other < block + s.countAt block + (heapBlocks newSize - s.countAt block) →
          ¬ isTaken (tested.view other) := by
        rw [readOnly.view, endEq]
        exact isFree
      have only := (heapReallocExtend_spec sound' first some insideTested).1
      have kept := countKept_extend sound' types' accounted' first some insideTested freeTested
      rw [state, pointer, castEq]
      exact ⟨readOnly.onlyTable.geometry.trans only.geometry, kept.1, Or.inr own,
        fun _ => Or.inr ⟨more, Or.inl isFree⟩, fun _ => kept.2⟩
  | full more other low high below taken pointer frame absent =>
      obtain ⟨types', accounted'⟩ := countKept_readOnly sound types accounted frame
      exact ⟨frame.onlyTable.geometry, types', Or.inl pointer,
        fun _ => Or.inr ⟨more, Or.inr fun start first => absurd first.1 (absent start)⟩, fun _ => accounted'⟩
  | move more other low high below taken start moved =>
      obtain ⟨types', iff⟩ := countKept_move sound types accounted inside.le moved
      have run := moved.run
      have within := run.1.1
      have some := moved.positive
      refine ⟨moved.geometry, types', Or.inr ⟨start, by omega, moved.address⟩, iff.trans ?_⟩
      constructor
      · exact fun kept => Or.inr ⟨more, Or.inr fun start' first => by rwa [first.unique run]⟩
      · rintro (equal | ⟨_, free | all⟩)
        · omega
        · exact absurd taken (free other low high)
        · exact all start run
  | leave more leaves isFree outside geometry =>
      have impossible := (inTable _ outside).2
      rw [geometry.table] at impossible
      exact absurd impossible (lt_irrefl _)

/-- What holds besides the counters in every run. -/
structure SessionTables (σ : HeapSession) : Prop where
  sound : σ.state.heap.Sound
  types : σ.state.TwoTypes
  pointers : ∀ a ∈ σ.live, BlockPointer σ.state.heap a.1

/-- A new heap is accounted for. -/
theorem counted_of_created {σ : HeapSession} (begun : σ.Initial) :
    SessionTables σ ∧ σ.state.Accounted := by
  obtain ⟨sound, represented⟩ := represented_of_created begun
  obtain ⟨_, _, _, _, created⟩ := begun
  refine ⟨⟨sound, represented.types, ?_⟩, represented.accounted sound⟩
  rw [created.live]
  exact fun a member => absurd member List.not_mem_nil

/-- A request that allocates keeps the counters right. -/
theorem counted_allocated {σ : HeapSession} (tables : SessionTables σ) (accounted : σ.state.Accounted)
    (size : Nat) {result : Nat × HeapState}
    (cases : (result.1 = 0 ∧ σ.fresh.ReadOnly result.2 ∧ (0 < heapBlocks size → ∀ start,
        ¬ IsRun (fun block => typeFree (σ.fresh.view block)) σ.fresh.heap.table.total (heapBlocks size) start)) ∨
      ∃ start, Allocated σ.fresh (heapBlocks size) start result.1 result.2) :
    SessionTables (σ.allocated result size) ∧ (σ.allocated result size).state.Accounted := by
  have accounted' : σ.fresh.Accounted :=
    .of_counters tables.sound tables.types accounted.used accounted.free
  rcases cases with ⟨null, readOnly, _⟩ | ⟨start, allocated⟩
  · obtain ⟨types', kept⟩ := countKept_readOnly (s := σ.fresh) tables.sound tables.types accounted' readOnly
    rw [HeapSession.allocated, if_pos null]
    refine ⟨⟨readOnly.onlyTable.sound tables.sound, types', fun a member => ?_⟩, kept⟩
    rw [BlockPointer.congr readOnly.onlyTable.geometry]
    exact tables.pointers a member
  · obtain ⟨types', kept⟩ := Allocated.accounted (s := σ.fresh) tables.sound tables.types accounted'
      allocated
    have inside := allocated.inside
    have positive := allocated.positive
    rw [HeapSession.allocated, if_neg (allocated.pointer_pos tables.sound).ne']
    refine ⟨⟨allocated.geometry.sound tables.sound, types', ?_⟩, kept⟩
    rintro a (_ | ⟨_, member⟩)
    · exact (BlockPointer.congr allocated.geometry).mpr ⟨start, by omega, allocated.address⟩
    · exact (BlockPointer.congr allocated.geometry).mpr (tables.pointers a member)

/-- **One request**: it keeps the counters right exactly when `keepsCount` allows it. -/
theorem counted_step_iff {σ σ' : HeapSession} {request : HeapRequest} (tables : SessionTables σ)
    (accounted : σ.state.Accounted) (taken : insideStep σ request σ') :
    SessionTables σ' ∧ (σ'.state.Accounted ↔ keepsCount σ request) := by
  have accounted' : σ.fresh.Accounted :=
    .of_counters tables.sound tables.types accounted.used accounted.free
  obtain ⟨stepped, inTable⟩ := taken
  cases request with
  | malloc size =>
      rw [HeapSession.step, Option.ite_none_right_eq_some, Option.some.injEq] at stepped
      obtain ⟨word, rfl⟩ := stepped
      obtain ⟨tables', kept⟩ := counted_allocated tables accounted size
        (heapMalloc_cases (s := σ.fresh) tables.sound size)
      exact ⟨tables', fun _ => trivial, fun _ => kept⟩
  | zalloc size =>
      rw [HeapSession.step, Option.ite_none_right_eq_some, Option.some.injEq] at stepped
      obtain ⟨word, rfl⟩ := stepped
      obtain ⟨tables', kept⟩ := counted_allocated tables accounted size
        (heapZalloc_cases (s := σ.fresh) tables.sound word)
      exact ⟨tables', fun _ => trivial, fun _ => kept⟩
  | free ptr =>
      rw [HeapSession.step, Option.ite_none_right_eq_some, Option.some.injEq] at stepped
      obtain ⟨⟨a, member, rfl⟩, rfl⟩ := stepped
      obtain ⟨block, inside, pointer⟩ := tables.pointers a member
      have only := (heapFree_spec (s := σ.fresh) tables.sound inside.le).1
      obtain ⟨types', iff⟩ := heapFree_accounted_iff (s := σ.fresh) tables.sound tables.types accounted'
        inside.le
      rw [show σ.fresh.heap = σ.state.heap from rfl, ← pointer] at only types' iff
      refine ⟨⟨only.sound tables.sound, types', fun b kept => ?_⟩, iff.trans ?_⟩
      · rw [BlockPointer.congr only.geometry]
        exact tables.pointers b (List.mem_of_mem_filter kept)
      · rw [keepsCount, pointer, blockOf_pointer]
        exact Iff.rfl
  | realloc ptr newSize =>
      rw [HeapSession.step, Option.ite_none_right_eq_some] at stepped
      obtain ⟨⟨⟨a, member, rfl⟩, word⟩, stepped⟩ := stepped
      obtain ⟨block, inside, pointer⟩ := tables.pointers a member
      have others : ∀ heap', σ.state.heap.SameGeometry heap' → ∀ b ∈ σ.without a.1, BlockPointer heap' b.1 :=
        fun heap' same b kept =>
          (BlockPointer.congr same).mpr (tables.pointers b (List.mem_of_mem_filter kept))
      have inside' : ∀ i ∈ σ'.state.accesses, σ'.state.InTable i := inTable a.1 newSize rfl
      by_cases zero : newSize = 0
      · -- a reallocation to zero is a release
        simp only [if_pos zero, Option.some.injEq] at stepped
        have released : heapRealloc σ.fresh a.1 newSize = (0, heapFree σ.fresh a.1) := by
          have positive := tables.sound.positive
          rw [heapRealloc, if_neg (by omega), if_pos zero]
        rw [released] at stepped
        subst stepped
        have only := (heapFree_spec (s := σ.fresh) tables.sound inside.le).1
        obtain ⟨types', iff⟩ := heapFree_accounted_iff (s := σ.fresh) tables.sound tables.types accounted'
          inside.le
        rw [show σ.fresh.heap = σ.state.heap from rfl, ← pointer] at only types' iff
        refine ⟨⟨only.sound tables.sound, types', others _ only.geometry⟩, iff.trans ?_⟩
        simp only [keepsCount, if_pos zero]
        rw [pointer, blockOf_pointer]
        exact Iff.rfl
      · have positive : 0 < newSize := Nat.pos_of_ne_zero zero
        have path := heapRealloc_path (s := σ.fresh) tables.sound inside.le positive word
        rw [show σ.fresh.heap = σ.state.heap from rfl, ← pointer] at path
        have stateEq : σ'.state = (heapRealloc σ.fresh a.1 newSize).2 := by
          simp only [if_neg zero] at stepped
          split at stepped <;> · cases stepped; rfl
        rw [stateEq] at inside'
        obtain ⟨geometry, types', result, iff⟩ := countKept_realloc (s := σ.fresh) tables.sound
          tables.types accounted' inside path inside'
        refine ⟨⟨?_, by rw [stateEq]; exact types', ?_⟩, ?_⟩
        · rw [stateEq]
          exact geometry.sound tables.sound
        · simp only [if_neg zero] at stepped
          split at stepped
          · cases stepped
            exact fun b known => (BlockPointer.congr geometry).mpr (tables.pointers b known)
          · rename_i notNull
            cases stepped
            rintro b (_ | ⟨_, kept⟩)
            · exact (BlockPointer.congr geometry).mpr (result.resolve_left notNull)
            · exact others _ geometry b kept
        · rw [stateEq, iff]
          simp only [keepsCount, if_neg zero]
          rw [pointer, blockOf_pointer]
          exact Iff.rfl

/-- **Block accounting.** The counters are right in every state of every run whose requests
`keepsCount` allows, and any other request makes them wrong. -/
theorem block_accounting {σ : HeapSession}
    (reached : Reachable (Guarded keepsCount insideStep) HeapSession.Initial σ) :
    σ.state.Accounted ∧
      ∀ request σ', insideStep σ request σ' → (σ'.state.Accounted ↔ keepsCount σ request) := by
  have invariant : SessionTables σ ∧ σ.state.Accounted :=
    reached.invariant (fun σ => SessionTables σ ∧ σ.state.Accounted)
      (fun _ begun => counted_of_created begun)
      fun _ _ _ before taken => by
        have after := counted_step_iff before.1 before.2 taken.2
        exact ⟨after.1, after.2.mpr taken.1⟩
  exact ⟨invariant.2, fun _ _ taken => (counted_step_iff invariant.1 invariant.2 taken).2⟩

/-- The counters after one allocation of two blocks. -/
theorem block_accounting_fourBlocks :
    (fourBlocks.allocated (heapMalloc fourBlocks.fresh 8192) 8192).state.Accounted ∧
      ∀ request σ', insideStep (fourBlocks.allocated (heapMalloc fourBlocks.fresh 8192) 8192) request σ' →
        (σ'.state.Accounted ↔
          keepsCount (fourBlocks.allocated (heapMalloc fourBlocks.fresh 8192) 8192) request) :=
  block_accounting (.next (.malloc 8192) (.start fourBlocks_initial)
    ⟨trivial, rfl, fun _ _ realloc => by cases realloc⟩)

/-- **Freeing an allocation of two blocks counts three**: the chain leads onto a free block. -/
theorem block_accounting_lost : ¬ ∀ σ, Reachable insideStep HeapSession.Initial σ → σ.state.Accounted := by
  intro always
  have accounted := always _ (.next (.free 0x100000) (.next (.malloc 8192) (.start fourBlocks_initial)
    ⟨rfl, fun _ _ realloc => by cases realloc⟩) ⟨rfl, fun _ _ realloc => by cases realloc⟩)
  have sum := accounted.sum
  revert sum
  decide

end PeachOS
