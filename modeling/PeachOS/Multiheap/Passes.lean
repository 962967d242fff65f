/-
**The passes of the multiheap over a sound layout.**

* `firstPassLoop_spec` — the first pass takes free blocks of one heap, or nothing;
* `pagingMap_sound` — mapping a page, with the tables it allocates;
* `secondPassLoop_spec` — the second pass takes as many single blocks as `free_blocks` allows and maps the virtual
  pages to them, if the page tables are there.
-/

import PeachOS.Multiheap.Layout
import PeachOS.Paging.Identity

namespace PeachOS

open ByteStore SpanTable FirstFit RadixTable HeapState

/-! ### Allocating from a physical heap -/

/-- The counters after an allocation. -/
theorem counted_of_allocation {s : HeapState} (sound : s.heap.Sound) {blocks : Nat} {result : Nat × HeapState}
    {absent : Prop} (cases : (result.1 = 0 ∧ s.ReadOnly result.2 ∧ absent) ∨
      ∃ start, Allocated s blocks start result.1 result.2)
    (counted : s.TwoTypes ∧ s.Accounted) : result.2.TwoTypes ∧ result.2.Accounted := by
  rcases cases with ⟨_, readOnly, _⟩ | ⟨start, allocated⟩
  · exact countKept_readOnly sound counted.1 counted.2 readOnly
  · exact allocated.accounted sound counted.1 counted.2

/-- An allocation releases nothing. -/
theorem touchesFree_of_allocation {s : HeapState} {blocks : Nat} {result : Nat × HeapState} {absent : Prop}
    (cases : (result.1 = 0 ∧ s.ReadOnly result.2 ∧ absent) ∨ ∃ start, Allocated s blocks start result.1 result.2) :
    s.TouchesFree result.2 fun _ => False := by
  rcases cases with ⟨_, readOnly, _⟩ | ⟨start, allocated⟩
  · exact readOnly.touchesFree
  · exact .of_allocated allocated

/-- **What allocations leave alone.** -/
structure Kernel.Allocates (k k' : Kernel) (written : Set Nat) : Prop where
  multiheap : k'.multiheap = k.multiheap
  heaps : k.SameHeaps k'
  mem : ∀ a, (∀ ref, k.IsPhysical ref → a ∉ (k.heaps ref).tableBytes) → a ∉ written → k'.mem a = k.mem a
  free : ∀ ref, k.IsPhysical ref → ∀ block < (k.heaps ref).table.total,
    typeFree ((k'.heapState ref).view block) → typeFree ((k.heapState ref).view block)

theorem Kernel.IsPhysical.congr {k k' : Kernel} (same : k'.multiheap = k.multiheap) (ref : HeapRef) :
    k'.IsPhysical ref ↔ k.IsPhysical ref := by
  unfold Kernel.IsPhysical
  rw [same]

namespace Kernel.Allocates

variable {k k' k'' : Kernel} {written : Set Nat}

theorem refl (k : Kernel) (written : Set Nat) : k.Allocates k written :=
  ⟨rfl, fun _ => rfl, fun _ _ _ => rfl, fun _ _ _ _ isFree => isFree⟩

theorem trans (first : k.Allocates k' written) (second : k'.Allocates k'' written) : k.Allocates k'' written where
  multiheap := second.multiheap.trans first.multiheap
  heaps := first.heaps.trans second.heaps
  mem := fun a notTable outside => by
    rw [second.mem a (fun ref isPhysical => ?_) outside, first.mem a notTable outside]
    rw [(first.heaps ref).tableBytes]
    exact notTable ref ((IsPhysical.congr first.multiheap ref).mp isPhysical)
  free := fun ref isPhysical block below isFree => first.free ref isPhysical block below <|
    second.free ref ((IsPhysical.congr first.multiheap ref).mpr isPhysical) block
      (by rw [(first.heaps ref).table]; exact below) isFree

/-- A change of memory that keeps the block tables. -/
theorem withMem {mem : Memory} (kept : ∀ ref, k.IsPhysical ref → ∀ a ∈ (k.heaps ref).tableBytes, mem a = k.mem a) :
    k.Allocates { k with mem := mem } Set.univ :=
  ⟨rfl, fun _ => rfl, fun _ _ outside => absurd (Set.mem_univ _) outside, fun ref isPhysical block below isFree => by
    rwa [Kernel.view_withMem (kept ref isPhysical) below] at isFree⟩

end Kernel.Allocates

/-- **Blocks of a physical heap that were taken**: they were free before. -/
structure Kernel.Took (k k' : Kernel) (ref : HeapRef) (start blocks ptr : Nat) : Prop where
  physical : k.IsPhysical ref
  positive : 0 < blocks
  inside : start + blocks ≤ (k.heaps ref).table.total
  pointer : ptr = (k.heaps ref).saddr + start * peachosHeapBlockSize
  isFree : ∀ block, start ≤ block → block < start + blocks → typeFree ((k.heapState ref).view block)
  taken : ∀ block, start ≤ block → block < start + blocks → ¬ typeFree ((k'.heapState ref).view block)

section Allocation

variable {k : Kernel} {desc : PagingDesc} {paging : Set HeapRef} (sound : MultiheapSound k desc paging)

include sound

/-- An allocation from a physical heap. -/
theorem allocation_sound {ref : HeapRef} (isPhysical : k.IsPhysical ref) {blocks : Nat} {result : Nat × HeapState}
    {absent : Prop} (cases : (result.1 = 0 ∧ (k.heapState ref).ReadOnly result.2 ∧ absent) ∨
      ∃ start, Allocated (k.heapState ref) blocks start result.1 result.2) :
    MultiheapSound (k.withHeapState ref result.2) desc paging :=
  sound.physical isPhysical (touchesFree_of_allocation cases) (fun _ _ released => released.elim) fun allows =>
    counted_of_allocation (sound.apart.sound ref (Or.inl isPhysical)) cases (sound.counted ref allows)

theorem zallocAt_sound {ref : HeapRef} (isPhysical : k.IsPhysical ref) {size : Nat} (word : size < 2 ^ 64) :
    MultiheapSound (k.heapZallocAt ref size).2 desc paging :=
  allocation_sound sound isPhysical
    (heapZalloc_cases (s := k.heapState ref) (sound.apart.sound ref (Or.inl isPhysical)) word)

/-- **`heap_malloc` of a physical heap.** -/
theorem mallocAt_spec {ref : HeapRef} (isPhysical : k.IsPhysical ref) (size : Nat) :
    k.Allocates (k.heapMallocAt ref size).2 ∅ ∧ MultiheapSound (k.heapMallocAt ref size).2 desc paging ∧
      ((k.heapMallocAt ref size).1 ≠ 0 → ∃ start,
        k.Took (k.heapMallocAt ref size).2 ref start (heapBlocks size) (k.heapMallocAt ref size).1) := by
  have soundHeap : (k.heapState ref).heap.Sound := sound.apart.sound ref (Or.inl isPhysical)
  have cases := heapMalloc_cases soundHeap size
  have only := heapMalloc_onlyTable soundHeap size
  have touches := touchesFree_of_allocation cases
  refine ⟨⟨rfl, sameHeaps_mallocAt k ref size, fun a notTable _ =>
      only.mem a (not_mem_tableBytes (notTable ref isPhysical)), fun other isPhysical' block below isFree => ?_⟩,
    allocation_sound sound isPhysical cases, fun notNull => ?_⟩
  · by_cases here : other = ref
    · subst here
      unfold Kernel.heapMallocAt at isFree
      rw [k.view_withHeapState] at isFree
      exact (touches.free block below isFree).resolve_right id
    · rwa [Kernel.view_congr (sameHeaps_mallocAt k ref size other)
        (sound.table_kept isPhysical isPhysical' here touches) below] at isFree
  · rcases cases with ⟨null, _⟩ | ⟨start, allocated⟩
    · exact absurd null notNull
    · refine ⟨start, isPhysical, allocated.positive, allocated.inside, allocated.address,
        fun block low high => allocated.isFree low high, fun block low high isFree => ?_⟩
      unfold Kernel.heapMallocAt at isFree
      rw [k.view_withHeapState, allocated.view block (by have := allocated.inside; omega)] at isFree
      unfold takenFrom at isFree
      rw [if_pos ⟨low, high⟩] at isFree
      exact not_typeFree_of_entryType (entryType_mallocEntry _ _) isFree

end Allocation

/-- **The first pass** takes free blocks of one heap, or nothing. -/
theorem firstPassLoop_spec {desc : PagingDesc} {paging : Set HeapRef} (size : Nat) (nodes : List MultiheapSingleHeap)
    {k : Kernel} (sound : MultiheapSound k desc paging) (listed : ∀ node ∈ nodes, k.IsPhysical node.heap) :
    k.Allocates (multiheapAllocFirstPassLoop size nodes k).2 ∅ ∧
      MultiheapSound (multiheapAllocFirstPassLoop size nodes k).2 desc paging ∧
      ((multiheapAllocFirstPassLoop size nodes k).1 ≠ 0 → ∃ ref start,
        k.Took (multiheapAllocFirstPassLoop size nodes k).2 ref start (heapBlocks size)
          (multiheapAllocFirstPassLoop size nodes k).1) := by
  induction nodes generalizing k with
  | nil => exact ⟨.refl k ∅, sound, fun notNull => absurd rfl notNull⟩
  | cons current rest ih =>
      have isPhysical := listed current List.mem_cons_self
      obtain ⟨allocates, sound', took⟩ := mallocAt_spec sound isPhysical size
      rw [multiheapAllocFirstPassLoop]
      split
      · rename_i found
        obtain ⟨start, took⟩ := took found
        exact ⟨allocates, sound', fun _ => ⟨current.heap, start, took⟩⟩
      · obtain ⟨allocates', sound'', took'⟩ := ih sound' fun node member =>
          (Kernel.IsPhysical.congr allocates.multiheap node.heap).mpr (listed node (List.mem_cons_of_mem _ member))
        refine ⟨allocates.trans allocates', sound'', fun notNull => ?_⟩
        obtain ⟨ref, start, took'⟩ := took' notNull
        have isPhysical' := (Kernel.IsPhysical.congr allocates.multiheap ref).mp took'.physical
        have same := allocates.heaps ref
        have inside := took'.inside
        have pointer := took'.pointer
        rw [same.table] at inside
        rw [same.saddr] at pointer
        exact ⟨ref, start, isPhysical', took'.positive, inside, pointer, fun block low high =>
          allocates.free ref isPhysical' block (by omega) (took'.isFree block low high), took'.taken⟩

/-! ### Allocations and the tables -/

/-- An address of the taken range lies in one of its blocks. -/
theorem Kernel.Took.block {k k' : Kernel} {ref : HeapRef} {start blocks ptr : Nat}
    (took : k.Took k' ref start blocks ptr) {a : Nat} (inside : a ∈ Set.Ico ptr (ptr + blocks * peachosHeapBlockSize)) :
    ∃ block, start ≤ block ∧ block < start + blocks ∧ a ∈ (k.heaps ref).blockBytes block := by
  rw [took.pointer] at inside
  obtain ⟨offset, below, inBlock⟩ := (k.heaps ref).mem_blockBytes_of_run inside.1 inside.2
  exact ⟨start + offset, by omega, by omega, inBlock⟩

section Kept

variable {k k' : Kernel} {desc : PagingDesc} {paging : Set HeapRef} (sound : MultiheapSound k desc paging)

include sound

/-- **Allocations keep the tables of the kernel**, unless they write to them. -/
theorem Kernel.Allocates.tables {written : Set Nat} (allocates : k.Allocates k' written)
    (outside : Disjoint (k.tables desc paging) written) :
    TableTree k'.mem desc ∧ (∀ path table, ReachedTable k'.mem desc path table ↔ ReachedTable k.mem desc path table) ∧
      (∀ va, pageEntry k'.mem desc va = pageEntry k.mem desc va) ∧ k'.tables desc paging = k.tables desc paging ∧
      ∀ a ∈ k.tables desc paging, k'.mem a = k.mem a := by
  have kept : ∀ a ∈ k.tables desc paging, k'.mem a = k.mem a := fun a isTable =>
    allocates.mem a (fun ref isPhysical => Set.disjoint_left.mp (sound.tablesApart ref isPhysical) isTable)
      (Set.disjoint_left.mp outside isTable)
  obtain ⟨tree, reached, leaves⟩ := sound.tree.congr fun path table isTable a inside =>
    kept a (Or.inl ⟨path, table, isTable, inside⟩)
  exact ⟨tree, reached, leaves, Kernel.tables_congr reached fun ref _ => allocates.heaps ref, kept⟩

variable {ref : HeapRef} {start blocks ptr : Nat} (took : k.Took k' ref start blocks ptr)

include took

/-- The taken range lies in the blocks of its heap. -/
theorem Kernel.Took.data : Set.Ico ptr (ptr + blocks * peachosHeapBlockSize) ⊆ (k.heaps ref).dataBytes := by
  intro a inside
  obtain ⟨block, _, high, inBlock⟩ := took.block inside
  have range := took.inside
  exact (sound.apart.sound ref (Or.inl took.physical)).blockBytes_subset (by omega) inBlock

/-- **What was free holds no table.** -/
theorem Kernel.Took.tables_apart :
    Disjoint (k.tables desc paging) (Set.Ico ptr (ptr + blocks * peachosHeapBlockSize)) := by
  refine Set.disjoint_right.mpr fun a inside => ?_
  obtain ⟨block, low, high, inBlock⟩ := took.block inside
  have range := took.inside
  exact Set.disjoint_right.mp (sound.held ref took.physical block (by omega) (took.isFree block low high)) inBlock

/-- The block tables lie apart from it. -/
theorem Kernel.Took.heaps_apart {other : HeapRef} (isPhysical : k.IsPhysical other) :
    Disjoint (k.heaps other).tableBytes (Set.Ico ptr (ptr + blocks * peachosHeapBlockSize)) := by
  refine Set.disjoint_of_subset_right (took.data sound) ?_
  by_cases here : other = ref
  · rw [here]
    exact (sound.apart.sound ref (Or.inl took.physical)).table_apart
  · exact (sound.apart.blocks other ref isPhysical took.physical here).1

end Kept

/-! ### `kzalloc` -/

/-- **What `kzalloc` returns**: null, or cleared blocks that were free. -/
structure Kernel.Zeroed (k : Kernel) (desc : PagingDesc) (paging : Set HeapRef) (size : Nat) (ref : HeapRef)
    (start : Nat) (result : Nat × Kernel) : Prop where
  took : k.Took result.2 ref start (heapBlocks size) result.1
  allocates : k.Allocates result.2 (Set.Ico result.1 (result.1 + heapBlocks size * peachosHeapBlockSize))
  sound : MultiheapSound result.2 desc paging
  cleared : ∀ offset < min size (2 ^ 31), result.2.mem (result.1 + offset) = 0x00#8

theorem kzalloc_spec {k : Kernel} {desc : PagingDesc} {paging : Set HeapRef} (sound : MultiheapSound k desc paging)
    {size : Nat} (word : size < 2 ^ 64) (notNull : (kzalloc k size).1 ≠ 0) :
    ∃ ref start, k.Zeroed desc paging size ref start (kzalloc k size) := by
  have spec := firstPassLoop_spec size k.multiheap.heaps sound fun node member => Or.inr ⟨node, member, rfl⟩
  unfold kzalloc kmalloc multiheapAlloc multiheapAllocFirstPass at notNull ⊢
  generalize multiheapAllocFirstPassLoop size k.multiheap.heaps k = result at spec notNull ⊢
  obtain ⟨allocates, sound', took⟩ := spec
  by_cases null : result.1 = 0
  · simp [null] at notNull
  · simp only [ne_eq, null, not_false_eq_true, if_true, if_false]
    obtain ⟨ref, start, took⟩ := took null
    have fits := le_heapBlocks_mul word took.positive
    set mem' := memset result.2.mem result.1 0x00#8 size with memEq
    have same : ∀ a, a ∉ Set.Ico result.1 (result.1 + heapBlocks size * peachosHeapBlockSize) → mem' a = result.2.mem a := by
      intro a outside
      refine memset_outside ?_ _
      by_contra between
      exact outside ⟨by omega, by omega⟩
    obtain ⟨_, _, _, tablesEq, _⟩ := allocates.tables sound (Set.disjoint_empty _)
    have apartTables := took.tables_apart sound
    rw [← tablesEq] at apartTables
    have keptTables : ∀ other, result.2.IsPhysical other → ∀ a ∈ (result.2.heaps other).tableBytes,
        mem' a = result.2.mem a := by
      intro other isPhysical a inside
      rw [(allocates.heaps other).tableBytes] at inside
      have isPhysical' := (Kernel.IsPhysical.congr allocates.multiheap other).mp isPhysical
      exact same a (Set.disjoint_left.mp (took.heaps_apart sound isPhysical') inside)
    obtain ⟨tree, reached, _⟩ := sound'.tree.congr fun path table isTable a inside =>
      same a (Set.disjoint_left.mp apartTables (Or.inl ⟨path, table, isTable, inside⟩))
    have views : ∀ other, k.IsPhysical other → ∀ block < (k.heaps other).table.total,
        (({ result.2 with mem := mem' } : Kernel).heapState other).view block = (result.2.heapState other).view block := by
      intro other isPhysical block below
      have isPhysical' := (Kernel.IsPhysical.congr allocates.multiheap other).mpr isPhysical
      rw [← (allocates.heaps other).table] at below
      exact Kernel.view_withMem (keptTables other isPhysical') below
    refine ⟨ref, start, ⟨?_, ?_, sound'.withMem tree reached keptTables, fun offset below => ?_⟩⟩
    · refine ⟨took.physical, took.positive, took.inside, took.pointer, took.isFree, fun block low high isFree => ?_⟩
      have range := took.inside
      rw [views ref took.physical block (by omega)] at isFree
      exact took.taken block low high isFree
    · refine ⟨allocates.multiheap, allocates.heaps, fun a notTable outside => ?_,
        fun other isPhysical block below isFree => ?_⟩
      · exact (same a outside).trans (allocates.mem a notTable (Set.notMem_empty a))
      · rw [views other isPhysical block below] at isFree
        exact allocates.free other isPhysical block below isFree
    · show memset result.2.mem result.1 0x00#8 size (result.1 + offset) = 0x00#8
      rw [memset, fill_apply, if_pos ⟨Nat.le_add_right _ _, by omega⟩]

/-! ### Mapping a page -/

theorem heapBlocks_table : heapBlocks (sizeofPagingDescEntry * pagingTotalEntriesPerTable) = 1 := by decide

section Map

variable {k : Kernel} {desc : PagingDesc} {paging : Set HeapRef} (sound : MultiheapSound k desc paging)

include sound

/-- **The multiheap returns fresh tables.** -/
theorem Kernel.Zeroed.fresh {ref : HeapRef} {start : Nat}
    (zeroed : k.Zeroed desc paging (sizeofPagingDescEntry * pagingTotalEntriesPerTable) ref start
      (kzalloc k (sizeofPagingDescEntry * pagingTotalEntriesPerTable))) : FreshTable k (tablesInUse k.mem desc) := by
  have soundHeap := sound.apart.sound ref (Or.inl zeroed.took.physical)
  have apartTables := zeroed.took.tables_apart sound
  have inPage : ∀ {path table}, ReachedTable k.mem desc path table → ∀ offset < pagingPageSize,
      table + offset ∈ k.tables desc paging := fun {path table} reached offset small =>
    Or.inl ⟨path, table, reached, Nat.le_add_right _ _, Nat.add_lt_add_left small _⟩
  have low : (kzalloc k (sizeofPagingDescEntry * pagingTotalEntriesPerTable)).1 ∈
      Set.Ico (kzalloc k (sizeofPagingDescEntry * pagingTotalEntriesPerTable)).1
        ((kzalloc k (sizeofPagingDescEntry * pagingTotalEntriesPerTable)).1 +
          heapBlocks (sizeofPagingDescEntry * pagingTotalEntriesPerTable) * peachosHeapBlockSize) := by
    rw [heapBlocks_table]
    exact ⟨le_rfl, Nat.lt_add_of_pos_right (by decide)⟩
  refine ⟨?_, ?_, fun offset small => zeroed.cleared offset (small.trans_le (by norm_num)), fun used => ?_,
    fun table used offset small => ?_⟩
  · rw [zeroed.took.pointer]
    have aligned := soundHeap.aligned
    simp only [peachosHeapBlockSize, pagingPageSize] at aligned ⊢
    omega
  · exact (zeroed.took.data sound low).2.trans_le (sound.apart.top ref zeroed.took.physical)
  · obtain ⟨path, reached⟩ := used
    exact Set.disjoint_left.mp apartTables (inPage reached 0 (by decide)) low
  · obtain ⟨path, reached⟩ := used
    exact (zeroed.allocates.tables sound apartTables).2.2.2.2 _ (inPage reached offset small)

/-- A new table in the blocks that were taken for it. -/
theorem sound_of_step {ref : HeapRef} {start : Nat} {path : List Nat} {table digit value : Nat}
    (reached : ReachedTable k.mem desc path table) (inside : digit < pagingTotalEntriesPerTable)
    {result : Nat × Kernel}
    (zeroed : k.Zeroed desc paging (sizeofPagingDescEntry * pagingTotalEntriesPerTable) ref start result)
    (step : TableStep k.mem (setEntryAt result.2.mem (table + sizeofPagingDescEntry * digit) value) desc path table digit
      result.1) :
    MultiheapSound { result.2 with mem := setEntryAt result.2.mem (table + sizeofPagingDescEntry * digit) value } desc
        paging ∧
      k.Allocates { result.2 with mem := setEntryAt result.2.mem (table + sizeofPagingDescEntry * digit) value }
        Set.univ := by
  have took := zeroed.took
  have allocates := zeroed.allocates
  have apartTables := took.tables_apart sound
  obtain ⟨_, reachedIff, _, tablesEq, _⟩ := allocates.tables sound apartTables
  have geometry := allocates.heaps
  have physical := Kernel.IsPhysical.congr allocates.multiheap
  set mem' := setEntryAt result.2.mem (table + sizeofPagingDescEntry * digit) value with memEq
  have kept : ∀ other, k.IsPhysical other → ∀ a ∈ (k.heaps other).tableBytes, mem' a = result.2.mem a :=
    fun other isPhysical => sound.entry_kept reached inside result.2.mem value isPhysical
  have views : ∀ other, k.IsPhysical other → ∀ block < (k.heaps other).table.total,
      (({ result.2 with mem := mem' } : Kernel).heapState other).view block = (result.2.heapState other).view block := by
    intro other isPhysical block below
    refine Kernel.view_withMem (fun a inTable => ?_)
      (by rw [(geometry other).table]; exact below)
    rw [(geometry other).tableBytes] at inTable
    exact kept other isPhysical a inTable
  -- the page of the new table is the block that was taken
  have page : tablePage result.1 = Set.Ico result.1
      (result.1 + heapBlocks (sizeofPagingDescEntry * pagingTotalEntriesPerTable) * peachosHeapBlockSize) := by
    rw [heapBlocks_table, Nat.one_mul]
    rfl
  have block : tablePage result.1 = (k.heaps ref).blockBytes start := by
    rw [page, heapBlocks_table, Nat.one_mul, took.pointer]
    rfl
  have subset : (Kernel.tables { result.2 with mem := mem' } desc paging) ⊆ k.tables desc paging ∪ tablePage result.1 := by
    rintro a (⟨path', table', reached', inPage⟩ | ⟨other, member, inTable⟩)
    · rcases step.only path' table' reached' with old | new
      · exact Or.inl (Or.inl ⟨path', table', old, inPage⟩)
      · exact Or.inr (new ▸ inPage)
    · have inTable' : a ∈ (result.2.heaps other).tableBytes := inTable
      rw [(geometry other).tableBytes] at inTable'
      exact Or.inl (Or.inr ⟨other, member, inTable'⟩)
  refine ⟨⟨sound.apart.congr physical fun other _ => geometry other, fun other allows => ?_, step.tables,
    fun other isPhysical => ?_, fun other member path' table' reached' => ?_, fun other isPhysical place below isFree => ?_⟩,
    allocates.multiheap, geometry, fun _ _ outside => absurd (Set.mem_univ _) outside,
    fun other isPhysical place below isFree => ?_⟩
  · have isPhysical := (physical other).mp allows.physical
    refine Kernel.counted_withMem (zeroed.sound.apart.sound other (Or.inl allows.physical)) (fun a inTable => ?_)
      (zeroed.sound.counted other allows)
    rw [(geometry other).tableBytes] at inTable
    exact kept other isPhysical a inTable
  · have isPhysical' := (physical other).mp isPhysical
    refine Set.disjoint_of_subset_left subset (Set.disjoint_union_left.mpr ⟨?_, ?_⟩)
    · rw [show (({ result.2 with mem := mem' } : Kernel).heaps other).tableBytes = (k.heaps other).tableBytes from
        (geometry other).tableBytes]
      exact sound.tablesApart other isPhysical'
    · rw [page, show (({ result.2 with mem := mem' } : Kernel).heaps other).tableBytes = (k.heaps other).tableBytes from
        (geometry other).tableBytes]
      exact (took.heaps_apart sound isPhysical').symm
  · rw [show (({ result.2 with mem := mem' } : Kernel).heaps other).tableBytes = (k.heaps other).tableBytes from
      (geometry other).tableBytes]
    rcases step.only path' table' reached' with old | new
    · exact sound.pagesApart other member path' table' old
    · rw [new, page]
      exact (Set.disjoint_of_subset_left (fun a inTable => Or.inr ⟨other, member, inTable⟩) apartTables).symm
  · have isPhysical' := (physical other).mp isPhysical
    have below' : place < (k.heaps other).table.total := by
      rw [← (geometry other).table]
      exact below
    rw [views other isPhysical' place below'] at isFree
    rw [show (({ result.2 with mem := mem' } : Kernel).heaps other).blockBytes = (k.heaps other).blockBytes from
      (geometry other).blockBytes]
    refine Set.disjoint_of_subset_left subset (Set.disjoint_union_left.mpr ⟨?_, ?_⟩)
    · exact sound.held other isPhysical' place below' (allocates.free other isPhysical' place below' isFree)
    · rw [block]
      by_cases here : other = ref
      · subst here
        refine (k.heaps other).blockBytes_disjoint fun same => ?_
        rw [← same] at isFree
        exact took.taken start le_rfl (by rw [heapBlocks_table]; omega) isFree
      · have range := took.inside
        have positive := took.positive
        refine Set.disjoint_of_subset ?_ ?_ (sound.apart.blocks ref other took.physical isPhysical' (Ne.symm here)).2
        · exact (sound.apart.sound ref (Or.inl took.physical)).blockBytes_subset (by omega)
        · exact (sound.apart.sound other (Or.inl isPhysical')).blockBytes_subset below'
  · rw [views other isPhysical place below] at isFree
    exact allocates.free other isPhysical place below isFree

/-- **One level of `paging_map`.** -/
theorem pagingTable_sound {path : List Nat} {table digit : Nat} (reached : ReachedTable k.mem desc path table)
    (above : path.length < 3) (inside : digit < pagingTotalEntriesPerTable)
    (allocated : TableAllocated k (table + sizeofPagingDescEntry * digit)) :
    TableOrFresh k desc (table + sizeofPagingDescEntry * digit) ∧
      MultiheapSound (pagingTable k (table + sizeofPagingDescEntry * digit)).2 desc paging ∧
      k.Allocates (pagingTable k (table + sizeofPagingDescEntry * digit)).2 Set.univ := by
  by_cases null : tableRead k.mem table digit = 0
  · have isNull : pagingNullEntry (entryAt k.mem (table + sizeofPagingDescEntry * digit)) = true :=
      decide_eq_true null
    obtain ⟨ref, start, zeroed⟩ := kzalloc_spec sound
      (show sizeofPagingDescEntry * pagingTotalEntriesPerTable < 2 ^ 64 by norm_num) (allocated isNull)
    have fresh := zeroed.fresh sound
    obtain ⟨step, pointer⟩ := pagingTable_fresh sound.tree reached above inside null fresh
    refine ⟨fun _ => fresh, ?_⟩
    rw [pointer] at step
    unfold pagingTable at step ⊢
    simp only [isNull, if_true] at step ⊢
    exact sound_of_step sound reached inside zeroed step
  · have notNull : pagingNullEntry (entryAt k.mem (table + sizeofPagingDescEntry * digit)) = false :=
      decide_eq_false null
    refine ⟨fun isNull => absurd (of_decide_eq_true isNull) null, ?_⟩
    unfold pagingTable
    simp only [notNull, Bool.false_eq_true, if_false]
    exact ⟨sound, .refl k _⟩

/-- **`paging_map`**, when its tables can be allocated. -/
theorem pagingMap_sound {virt : Nat} (phys : Nat) (flags : BitVec 32) (allocates : PagingMapAllocates k desc virt) :
    MapsFresh k desc virt ∧ MultiheapSound (pagingMap k desc virt phys flags).2 desc paging ∧
      k.Allocates (pagingMap k desc virt phys flags).2 Set.univ := by
  obtain ⟨allocates₃, allocates₂, allocates₁⟩ := allocates
  unfold MapsFresh pagingMap
  dsimp only at allocates₂ allocates₁ ⊢
  obtain ⟨fresh₃, sound₃, kept₃⟩ :=
    pagingTable_sound sound sound.tree.tree.root (by decide) (tableIndex_lt virt 3) allocates₃
  have step₃ := pagingTable_tree sound.tree sound.tree.tree.root (by decide) (tableIndex_lt virt 3) fresh₃
  generalize pagingTable k (desc.pml + sizeofPagingDescEntry * tableIndex virt 3) = pdpt at *
  obtain ⟨fresh₂, sound₂, kept₂⟩ :=
    pagingTable_sound sound₃ step₃.reached (by simp) (tableIndex_lt virt 2) allocates₂
  have step₂ := pagingTable_tree sound₃.tree step₃.reached (by simp) (tableIndex_lt virt 2) fresh₂
  generalize pagingTable pdpt.2 (pdpt.1 + sizeofPagingDescEntry * tableIndex virt 2) = pd at *
  obtain ⟨fresh₁, sound₁, kept₁⟩ :=
    pagingTable_sound sound₂ step₂.reached (by simp) (tableIndex_lt virt 1) allocates₁
  have step₁ := pagingTable_tree sound₂.tree step₂.reached (by simp) (tableIndex_lt virt 1) fresh₁
  generalize pagingTable pd.2 (pd.1 + sizeofPagingDescEntry * tableIndex virt 1) = pt at *
  refine ⟨⟨fresh₃, fresh₂, fresh₁⟩, ?_⟩
  refine ⟨sound₁.leaf step₁.reached rfl (tableIndex_lt virt 0) (leafSet_found_lt _ _ phys flags), ((kept₃.trans kept₂).trans kept₁).trans ?_⟩
  exact .withMem fun ref isPhysical => sound₁.entry_kept step₁.reached (tableIndex_lt virt 0) pt.2.mem _ isPhysical

end Map

/-! ### The second pass -/

/-- **A page whose page table is there**: `paging_map` writes the leaf entry and nothing else. -/
theorem pagingMap_of_reached {k : Kernel} {desc : PagingDesc} {virt table : Nat}
    (reached : ReachedTable k.mem desc (pagePath virt) table) (phys : Nat) (flags : BitVec 32) :
    pagingMap k desc virt phys flags =
      (0, { k with
        mem := setEntryAt k.mem (table + sizeofPagingDescEntry * tableIndex virt 0)
          (leafSet (pageEntry k.mem desc virt) phys flags) }) := by
  obtain ⟨_, _, walks⟩ := reached
  have leafEq : pageEntry k.mem desc virt = entryAt k.mem (table + sizeofPagingDescEntry * tableIndex virt 0) := by
    unfold pageEntry leaf
    rw [walks]
    rfl
  rw [leafEq]
  unfold pagePath at walks
  simp only [RadixTable.walk, tableChild, tableRead] at walks
  by_cases root : entryAt k.mem (desc.pml + sizeofPagingDescEntry * tableIndex virt 3) = 0
  · simp only [root, if_true, reduceCtorEq] at walks
  simp only [root, if_false] at walks
  by_cases pdpt : entryAt k.mem (entryAddress (entryAt k.mem (desc.pml + sizeofPagingDescEntry * tableIndex virt 3)) *
      2 ^ 12 + sizeofPagingDescEntry * tableIndex virt 2) = 0
  · simp only [pdpt, if_true, reduceCtorEq] at walks
  simp only [pdpt, if_false] at walks
  by_cases pd : entryAt k.mem (entryAddress (entryAt k.mem (entryAddress (entryAt k.mem (desc.pml +
      sizeofPagingDescEntry * tableIndex virt 3)) * 2 ^ 12 + sizeofPagingDescEntry * tableIndex virt 2)) * 2 ^ 12 +
      sizeofPagingDescEntry * tableIndex virt 1) = 0
  · simp only [pd, if_true, reduceCtorEq] at walks
  simp only [pd, if_false, Option.some.injEq] at walks
  unfold pagingMap
  simp only [pagingTable_of_entry root, pagingTable_of_entry pdpt, pagingTable_of_entry pd]
  rw [walks]

/-- **Single blocks of a heap under consecutive virtual pages.** -/
structure Defragmented (k : Kernel) (desc : PagingDesc) (paging : Set HeapRef) (ref : HeapRef) (count addr : Nat)
    (k' : Kernel) (blocks : Nat → Nat) : Prop where
  multiheap : k'.multiheap = k.multiheap
  heaps : k.SameHeaps k'
  reached : ∀ path table, ReachedTable k'.mem desc path table ↔ ReachedTable k.mem desc path table
  isFree : ∀ i < count, blocks i < (k.heaps ref).table.total ∧ typeFree ((k.heapState ref).view (blocks i))
  distinct : ∀ i < count, ∀ j < count, blocks i = blocks j → i = j
  view : ∀ block < (k.heaps ref).table.total, (k'.heapState ref).view block =
    if ∃ i < count, blocks i = block then mallocEntry 1 0 else (k.heapState ref).view block
  others : ∀ other, k.IsPhysical other ∨ other ∈ paging → other ≠ ref →
    k'.heaps other = k.heaps other ∧ ∀ a ∈ (k.heaps other).tableBytes, k'.mem a = k.mem a
  pages : count < 2 ^ 36 → ∀ va, pageEntry k'.mem desc va =
    if pageOffset addr va < count then
      leafSet (pageEntry k.mem desc va) ((k.heaps ref).saddr + blocks (pageOffset addr va) * peachosHeapBlockSize)
        (pagingIsWriteable ||| pagingIsPresent)
    else pageEntry k.mem desc va

/-- A counted heap with a free block has a free entry. -/
theorem exists_free_of_counted {s : HeapState} (accounted : s.Accounted) (some : 0 < s.heap.freeBlocks) :
    ∃ block < s.heap.table.total, typeFree (s.view block) := by
  by_contra none
  have zero : freeEntries s.view s.heap.table.total = 0 :=
    countWhere_eq_zero typeFree fun block below isFree => none ⟨block, below, isFree⟩
  rw [accounted.free] at some
  omega

/-- **A block taken for one page.** -/
structure Kernel.TookBlock (k : Kernel) (desc : PagingDesc) (paging : Set HeapRef) (ref : HeapRef) (start ptr : Nat)
    (k' : Kernel) : Prop where
  sound : MultiheapSound k' desc paging
  multiheap : k'.multiheap = k.multiheap
  heaps : k.SameHeaps k'
  pointer : ptr = (k.heaps ref).saddr + start * peachosHeapBlockSize
  positive : 0 < ptr
  isFree : start < (k.heaps ref).table.total ∧ typeFree ((k.heapState ref).view start)
  view : ∀ block < (k.heaps ref).table.total, (k'.heapState ref).view block =
    if start = block then mallocEntry 1 0 else (k.heapState ref).view block
  counted : (k'.heaps ref).freeBlocks + 1 = (k.heaps ref).freeBlocks
  others : ∀ other, k.IsPhysical other ∨ other ∈ paging → other ≠ ref →
    k'.heaps other = k.heaps other ∧ ∀ a ∈ (k.heaps other).tableBytes, k'.mem a = k.mem a
  tables : ∀ a ∈ k.tables desc paging, k'.mem a = k.mem a

section SecondPass

variable {k : Kernel} {desc : PagingDesc} {paging : Set HeapRef} (sound : MultiheapSound k desc paging)
  {ref : HeapRef}

include sound

/-- **A heap with a free block serves a page.** -/
theorem tookBlock_of_free (allows : k.Defragments ref) (some : 0 < (k.heaps ref).freeBlocks) :
    ∃ start ptr k', k.heapZallocAt ref peachosHeapBlockSize = (ptr, k') ∧ k.TookBlock desc paging ref start ptr k' := by
  have isPhysical := allows.physical
  have soundHeap : (k.heapState ref).heap.Sound := sound.apart.sound ref (Or.inl isPhysical)
  obtain ⟨types, accounted⟩ := sound.counted ref allows
  have one : heapBlocks peachosHeapBlockSize = 1 := by decide
  have word : peachosHeapBlockSize < 2 ^ 64 := by norm_num
  have cases := heapZalloc_cases soundHeap word
  have sound' := zallocAt_sound sound isPhysical word
  have geometry := sameHeaps_zallocAt k ref peachosHeapBlockSize
  have touches := touchesFree_of_allocation cases
  unfold Kernel.heapZallocAt at sound' geometry ⊢
  generalize heapZalloc (k.heapState ref) peachosHeapBlockSize = result at cases sound' geometry touches ⊢
  rcases cases with ⟨_, _, full⟩ | ⟨start, allocated⟩
  · obtain ⟨block, below, isFree⟩ := exists_free_of_counted accounted some
    rw [one] at full
    refine absurd ⟨below, fun offset small => ?_⟩ (full Nat.one_pos block)
    rw [Nat.lt_one_iff.mp small]
    exact isFree
  rw [one] at allocated
  refine ⟨start, result.1, _, rfl, sound', rfl, geometry, allocated.address, allocated.pointer_pos soundHeap,
    ⟨allocated.inside, allocated.isFree le_rfl (Nat.lt_succ_self start)⟩, fun block below => ?_, ?_,
    fun other isHeap different => ⟨k.heaps_withHeapState_other different result.2, fun a inTable => ?_⟩,
    sound.tables_kept isPhysical touches⟩
  · rw [k.view_withHeapState, allocated.view block below]
    unfold takenFrom
    by_cases here : start = block
    · rw [if_pos (by omega), if_pos here, here, Nat.sub_self]
    · rw [if_neg (by omega), if_neg here]
  · rw [k.heaps_withHeapState, allocated.heap]
    show toWord ((k.heaps ref).freeBlocks - (1 : Nat)) + 1 = _
    have free : (k.heaps ref).freeBlocks = _ := accounted.free
    have bound := countWhere_le typeFree (k.heapState ref).view (k.heapState ref).heap.table.total
    have small := soundHeap.total_lt
    unfold freeEntries at free
    rw [toWord_of_bounds (by omega) (by omega)]
    omega
  · rcases isHeap with isPhysical' | member
    · exact sound.table_kept isPhysical isPhysical' different touches a inTable
    · exact sound.tables_kept isPhysical touches a (Or.inr ⟨other, member, inTable⟩)

/-- **One page of the second pass.** -/
theorem secondPass_step {start ptr : Nat} {k' : Kernel} (took : k.TookBlock desc paging ref start ptr k')
    (isPhysical : k.IsPhysical ref) {virt table : Nat} (reached : ReachedTable k.mem desc (pagePath virt) table) :
    MultiheapSound (pagingMap k' desc virt ptr (pagingIsWriteable ||| pagingIsPresent)).2 desc paging ∧
      ((pagingMap k' desc virt ptr (pagingIsWriteable ||| pagingIsPresent)).2.heaps ref).freeBlocks + 1 =
        (k.heaps ref).freeBlocks ∧
      Defragmented k desc paging ref 1 virt (pagingMap k' desc virt ptr (pagingIsWriteable ||| pagingIsPresent)).2
        fun _ => start := by
  obtain ⟨_, reachedIff, leaves⟩ := sound.tree.congr fun path table isTable a inside =>
    took.tables a (Or.inl ⟨path, table, isTable, inside⟩)
  have reached' : ReachedTable k'.mem desc (pagePath virt) table := (reachedIff _ _).mpr reached
  rw [pagingMap_of_reached reached']
  have word : leafSet (pageEntry k'.mem desc virt) ptr (pagingIsWriteable ||| pagingIsPresent) < 2 ^ 64 := by
    refine leafSet_lt ?_ _ _
    unfold pageEntry leaf
    rw [reached'.2.2]
    exact entryAt_lt _ _
  rw [leaves virt] at word ⊢
  generalize valueEq : leafSet (pageEntry k.mem desc virt) ptr (pagingIsWriteable ||| pagingIsPresent) = value at word ⊢
  obtain ⟨_, reachedIff', leaves'⟩ := took.sound.tree.setLeaf reached' rfl (tableIndex_lt virt 0) word
  have physical' := Kernel.IsPhysical.congr took.multiheap
  have entryKept : ∀ other, k.IsPhysical other → ∀ a ∈ (k.heaps other).tableBytes,
      setEntryAt k'.mem (table + sizeofPagingDescEntry * tableIndex virt 0) value a = k'.mem a := by
    intro other isPhysical' a inTable
    rw [← (took.heaps other).tableBytes] at inTable
    exact took.sound.entry_kept reached' (tableIndex_lt virt 0) k'.mem value ((physical' other).mpr isPhysical') a inTable
  refine ⟨took.sound.leaf reached' rfl (tableIndex_lt virt 0) word, took.counted, took.multiheap, took.heaps,
    fun path table => (reachedIff' path table).trans (reachedIff path table), fun _ _ => took.isFree,
    fun i small j small' _ => by omega, fun block below => ?_, fun other isHeap different => ⟨?_, fun a inTable => ?_⟩,
    fun _ va => ?_⟩
  · have kept : ∀ a ∈ (k'.heaps ref).tableBytes,
        setEntryAt k'.mem (table + sizeofPagingDescEntry * tableIndex virt 0) value a = k'.mem a := by
      rw [(took.heaps ref).tableBytes]
      exact entryKept ref isPhysical
    have below' : block < (k'.heaps ref).table.total := by
      rw [(took.heaps ref).table]
      exact below
    rw [Kernel.view_withMem kept below', took.view block below]
    simp only [Nat.lt_one_iff, exists_eq_left]
  · exact (took.others other isHeap different).1
  · have kept := (took.others other isHeap different).2
    rcases isHeap with isPhysical' | member
    · exact (entryKept other isPhysical' a inTable).trans (kept a inTable)
    · refine (writeWord_outside ?_).trans (kept a inTable)
      by_contra between
      rw [not_or, not_lt, not_le] at between
      exact Set.disjoint_left.mp (sound.pagesApart other member (pagePath virt) table reached)
        (entry_in_page (tableIndex_lt virt 0) between.1 between.2) inTable
  · have samePage : pageOffset virt va < 1 ↔ pagePath va = pagePath virt ∧ tableIndex va 0 = tableIndex virt 0 := by
      rw [← pageNumber_eq_iff]
      have bound := pageNumber_lt va
      have bound' := pageNumber_lt virt
      unfold pageOffset
      omega
    rw [leaves' va]
    by_cases here : pagePath va = pagePath virt ∧ tableIndex va 0 = tableIndex virt 0
    · have sameLeaf : pageEntry k.mem desc va = pageEntry k.mem desc virt := by
        unfold pageEntry
        rw [here.1, here.2]
      rw [if_pos here, if_pos (samePage.mpr here), sameLeaf, ← valueEq, took.pointer]
    · rw [if_neg here, if_neg fun small => here (samePage.mp small)]
      exact leaves va

end SecondPass

/-- A page and the pages behind it. -/
theorem Defragmented.cons {k k₁ k' : Kernel} {desc : PagingDesc} {paging : Set HeapRef} {ref : HeapRef}
    {count addr start : Nat} {blocks : Nat → Nat}
    (first : Defragmented k desc paging ref 1 addr k₁ fun _ => start)
    (rest : Defragmented k₁ desc paging ref count (toWord (addr + peachosHeapBlockSize)) k' blocks) :
    Defragmented k desc paging ref (count + 1) addr k' fun i => if i = 0 then start else blocks (i - 1) := by
  have tableEq : (k₁.heaps ref).table = (k.heaps ref).table := (first.heaps ref).table
  have firstView : ∀ block < (k.heaps ref).table.total, (k₁.heapState ref).view block =
      if start = block then mallocEntry 1 0 else (k.heapState ref).view block := by
    intro block below
    rw [first.view block below]
    simp only [Nat.lt_one_iff, exists_eq_left]
  -- a block that is free behind the first page is another one
  have behind : ∀ i < count, start ≠ blocks i ∧ blocks i < (k.heaps ref).table.total ∧
      typeFree ((k.heapState ref).view (blocks i)) := by
    intro i small
    obtain ⟨below, isFree⟩ := rest.isFree i small
    rw [tableEq] at below
    rw [firstView _ below] at isFree
    by_cases here : start = blocks i
    · rw [if_pos here] at isFree
      exact absurd isFree (not_typeFree_of_entryType (entryType_mallocEntry _ _))
    · rw [if_neg here] at isFree
      exact ⟨here, below, isFree⟩
  refine ⟨rest.multiheap.trans first.multiheap, first.heaps.trans rest.heaps,
    fun path table => (rest.reached path table).trans (first.reached path table), fun i small => ?_,
    fun i small j small' same => ?_, fun block below => ?_, fun other isHeap different => ?_, fun few va => ?_⟩
  · by_cases zero : i = 0
    · rw [if_pos zero]
      exact first.isFree 0 Nat.one_pos
    · rw [if_neg zero]
      exact (behind (i - 1) (by omega)).2
  · by_cases zero : i = 0 <;> by_cases zero' : j = 0
    · omega
    · rw [if_pos zero, if_neg zero'] at same
      exact absurd same (behind (j - 1) (by omega)).1
    · rw [if_neg zero, if_pos zero'] at same
      exact absurd same.symm (behind (i - 1) (by omega)).1
    · rw [if_neg zero, if_neg zero'] at same
      have equal := rest.distinct (i - 1) (by omega) (j - 1) (by omega) same
      omega
  · rw [rest.view block (by rw [tableEq]; exact below), firstView block below]
    by_cases later : ∃ i < count, blocks i = block
    · obtain ⟨i, small, here⟩ := later
      rw [if_pos ⟨i, small, here⟩, if_pos ⟨i + 1, by omega, by rw [if_neg (Nat.succ_ne_zero i), Nat.add_sub_cancel, here]⟩]
    · rw [if_neg later]
      by_cases here : start = block
      · rw [if_pos here, if_pos ⟨0, Nat.succ_pos count, by rw [if_pos rfl, here]⟩]
      · rw [if_neg here, if_neg]
        rintro ⟨i, small, same⟩
        by_cases zero : i = 0
        · rw [if_pos zero] at same
          exact here same
        · rw [if_neg zero] at same
          exact later ⟨i - 1, by omega, same⟩
  · obtain ⟨same, kept⟩ := first.others other isHeap different
    obtain ⟨same', kept'⟩ := rest.others other
      (isHeap.imp_left (Kernel.IsPhysical.congr first.multiheap other).mpr) different
    refine ⟨same'.trans same, fun a inTable => ?_⟩
    rw [same] at kept'
    exact (kept' a inTable).trans (kept a inTable)
  · have next := pageNumber_next addr
    have bound := pageNumber_lt va
    have bound' := pageNumber_lt addr
    change pageNumber (toWord (addr + peachosHeapBlockSize)) = _ at next
    rw [rest.pages (by omega) va, first.pages (by norm_num) va, (first.heaps ref).saddr]
    by_cases here : pageNumber va = pageNumber addr
    · have zero : pageOffset addr va = 0 := by
        unfold pageOffset
        omega
      have last : ¬ pageOffset (toWord (addr + peachosHeapBlockSize)) va < count := by
        unfold pageOffset
        rw [next]
        omega
      rw [if_neg last, zero, if_pos Nat.one_pos, if_pos (Nat.succ_pos count), if_pos rfl]
    · have behind' : pageOffset addr va = pageOffset (toWord (addr + peachosHeapBlockSize)) va + 1 := by
        unfold pageOffset
        rw [next]
        omega
      rw [behind', if_neg (show ¬ pageOffset (toWord (addr + peachosHeapBlockSize)) va + 1 < 1 by omega)]
      by_cases inside : pageOffset (toWord (addr + peachosHeapBlockSize)) va < count
      · rw [if_pos inside, if_pos (by omega), if_neg (Nat.succ_ne_zero _), Nat.add_sub_cancel]
      · rw [if_neg inside, if_neg (by omega)]

/-- **The second pass succeeds** when `free_blocks` allows it and the page tables are there. -/
theorem secondPassLoop_spec {desc : PagingDesc} {paging : Set HeapRef} {ref : HeapRef} {count addr : Nat} {k : Kernel}
    (sound : MultiheapSound k desc paging) (allows : k.Defragments ref) (enough : count ≤ (k.heaps ref).freeBlocks)
    (fits : addr + count * peachosHeapBlockSize < 2 ^ 64)
    (reached : ∀ i < count, ∃ table, ReachedTable k.mem desc (pagePath (addr + i * peachosHeapBlockSize)) table) :
    ∃ k' blocks, multiheapAllocSecondPassLoop desc ref count addr k = some k' ∧ MultiheapSound k' desc paging ∧
      Defragmented k desc paging ref count addr k' blocks := by
  induction count generalizing addr k with
  | zero =>
      refine ⟨k, fun _ => 0, rfl, sound, rfl, fun _ => rfl, fun _ _ => Iff.rfl, fun _ small => absurd small (Nat.not_lt_zero _),
        fun _ small => absurd small (Nat.not_lt_zero _), fun block _ => ?_, fun _ _ _ => ⟨rfl, fun _ _ => rfl⟩, fun _ va => ?_⟩
      · rw [if_neg fun ⟨_, small, _⟩ => absurd small (Nat.not_lt_zero _)]
      · rw [if_neg (Nat.not_lt_zero _)]
  | succ count ih =>
      simp only [peachosHeapBlockSize] at fits
      obtain ⟨start, ptr, k₁, zalloc, took⟩ := tookBlock_of_free sound allows (by omega)
      obtain ⟨table, here⟩ := reached 0 (Nat.succ_pos count)
      rw [Nat.zero_mul, Nat.add_zero] at here
      obtain ⟨sound', counted, first⟩ := secondPass_step sound took allows.physical here
      rw [multiheapAllocSecondPassLoop, zalloc]
      simp only [took.positive.ne', if_false]
      generalize (pagingMap k₁ desc addr ptr (pagingIsWriteable ||| pagingIsPresent)).2 = k₂ at sound' counted first ⊢
      have allows' : k₂.Defragments ref := by
        unfold Kernel.Defragments at allows ⊢
        rwa [first.multiheap]
      by_cases last : count = 0
      · subst last
        have fits' : toWord (addr + peachosHeapBlockSize) + 0 * peachosHeapBlockSize < 2 ^ 64 := by
          rw [Nat.zero_mul, Nat.add_zero]
          exact toWord_lt _
        obtain ⟨k', blocks, runs, sound'', rest⟩ := ih sound' allows' (Nat.zero_le _) fits'
          fun i small => absurd small (Nat.not_lt_zero _)
        exact ⟨k', _, runs, sound'', first.cons rest⟩
      · have next : toWord (addr + peachosHeapBlockSize) = addr + 4096 := by
          simp only [peachosHeapBlockSize]
          exact toWord_eq (by omega) (by omega)
        have fits' : toWord (addr + peachosHeapBlockSize) + count * peachosHeapBlockSize < 2 ^ 64 := by
          rw [next]
          simp only [peachosHeapBlockSize]
          omega
        obtain ⟨k', blocks, runs, sound'', rest⟩ := ih sound' allows' (by omega) fits' fun i small => by
            obtain ⟨table, behind⟩ := reached (i + 1) (by omega)
            refine ⟨table, (first.reached _ _).mpr ?_⟩
            rw [next, show addr + 4096 + i * peachosHeapBlockSize = addr + (i + 1) * peachosHeapBlockSize by
              simp only [peachosHeapBlockSize]; omega]
            exact behind
        exact ⟨k', _, runs, sound'', first.cons rest⟩

/-! ### Selecting a heap -/

/-- A failing `heap_malloc` leaves the kernel alone. -/
theorem mallocAt_null {k : Kernel} {ref : HeapRef} {size : Nat}
    (readOnly : (k.heapState ref).ReadOnly (heapMalloc (k.heapState ref) size).2)
    (null : (heapMalloc (k.heapState ref) size).1 = 0) : k.heapMallocAt ref size = (0, k) := by
  show ((heapMalloc (k.heapState ref) size).1, k.withHeapState ref (heapMalloc (k.heapState ref) size).2) = (0, k)
  rw [withHeapState_readOnly readOnly, null]

/-- **`multiheap_alloc_paging`** leaves the kernel alone, or takes a run of virtual blocks above a heap whose
counter is large enough. -/
theorem allocPagingLoop_cases (size : Nat) (nodes : List MultiheapSingleHeap) {k : Kernel}
    (virtual : ∀ node ∈ nodes, ∀ ref, node.pagingHeap = some ref → (k.heaps ref).Sound) :
    multiheapAllocPagingLoop size nodes k = ((0, none), k) ∨
      ∃ chosen ∈ nodes, ∃ ref start, multiheapHeapAllowsPaging chosen = true ∧ chosen.pagingHeap = some ref ∧
        size / peachosHeapBlockSize ≤ (k.heaps chosen.heap).freeBlocks ∧
        Allocated (k.heapState ref) (heapBlocks size) start (k.heapMallocAt ref size).1 (heapMalloc (k.heapState ref) size).2 ∧
        multiheapAllocPagingLoop size nodes k =
          (((k.heapMallocAt ref size).1, some chosen), (k.heapMallocAt ref size).2) := by
  induction nodes with
  | nil => exact Or.inl rfl
  | cons current rest ih =>
      have later := ih fun node member => virtual node (List.mem_cons_of_mem _ member)
      have skip : (multiheapAllocPagingLoop size rest k = ((0, none), k) ∨
          ∃ chosen ∈ current :: rest, ∃ ref start, multiheapHeapAllowsPaging chosen = true ∧
            chosen.pagingHeap = some ref ∧ size / peachosHeapBlockSize ≤ (k.heaps chosen.heap).freeBlocks ∧
            Allocated (k.heapState ref) (heapBlocks size) start (k.heapMallocAt ref size).1
              (heapMalloc (k.heapState ref) size).2 ∧
            multiheapAllocPagingLoop size rest k =
              (((k.heapMallocAt ref size).1, some chosen), (k.heapMallocAt ref size).2)) :=
        later.imp_right fun ⟨chosen, member, found⟩ => ⟨chosen, List.mem_cons_of_mem _ member, found⟩
      rw [multiheapAllocPagingLoop]
      split
      · exact skip
      · rename_i allows
        rw [Bool.not_eq_true', Bool.not_eq_false] at allows
        split
        · exact skip
        · rename_i enough
          cases paging : current.pagingHeap with
          | none => exact skip
          | some ref =>
              have soundHeap : (k.heapState ref).heap.Sound := virtual current List.mem_cons_self ref paging
              rcases heapMalloc_cases soundHeap size with ⟨null, readOnly, _⟩ | ⟨start, allocated⟩
              · have same := mallocAt_null readOnly null
                simp only [same, ne_eq, not_true_eq_false, if_false]
                exact skip
              · have notNull : (k.heapMallocAt ref size).1 ≠ 0 := (allocated.pointer_pos soundHeap).ne'
                simp only [ne_eq, notNull, not_false_eq_true, if_true]
                exact Or.inr ⟨current, List.mem_cons_self, ref, start, allows, paging, Nat.not_lt.mp enough, allocated, rfl⟩

/-- A first pass that finds nothing leaves the kernel alone. -/
theorem firstPassLoop_null (size : Nat) (nodes : List MultiheapSingleHeap) {k : Kernel}
    (physical : ∀ node ∈ nodes, (k.heaps node.heap).Sound)
    (null : (multiheapAllocFirstPassLoop size nodes k).1 = 0) : (multiheapAllocFirstPassLoop size nodes k).2 = k := by
  induction nodes with
  | nil => rfl
  | cons current rest ih =>
      have soundHeap : (k.heapState current.heap).heap.Sound := physical current List.mem_cons_self
      have later := ih fun node member => physical node (List.mem_cons_of_mem _ member)
      rw [multiheapAllocFirstPassLoop] at null ⊢
      rcases heapMalloc_cases soundHeap size with ⟨failed, readOnly, _⟩ | ⟨start, allocated⟩
      · have same := mallocAt_null readOnly failed
        simp only [same, ne_eq, not_true_eq_false, if_false] at null ⊢
        exact later null
      · have notNull : (k.heapMallocAt current.heap size).1 ≠ 0 := (allocated.pointer_pos soundHeap).ne'
        simp only [ne_eq, notNull, not_false_eq_true, if_true] at null

end PeachOS
