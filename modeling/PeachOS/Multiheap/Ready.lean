/-
**`multiheap_ready` makes a multiheap that can defragment.**

The paging heaps are made one after the other: each takes blocks of the starting heap for its structures and its
block table, and the page tables of its pages are built in blocks of the heaps of the list.

* `MultiheapSound.addPaging` — a paging heap over a block table in blocks that were taken for it;
* `multiheapReadyHeap_starting` — one paging heap, with the page tables of its pages;
* `multiheapReady_prepared` — the multiheap that `multiheap_ready` returns, when its allocations succeed.
-/

import PeachOS.Multiheap.Prepared
import PeachOS.Multiheap.Addresses

namespace PeachOS

open ByteStore SpanTable FirstFit RadixTable HeapState

/-! ### Blocks of the starting heap -/

/-- **Reserved addresses**: no table uses them and no free block contains them. -/
structure Kernel.Reserved (k : Kernel) (desc : PagingDesc) (paging : Set HeapRef) (range : Set Nat) : Prop where
  tables : Disjoint (k.tables desc paging) range
  heaps : ∀ ref, k.IsPhysical ref → Disjoint (k.heaps ref).tableBytes range
  held : ∀ ref, k.IsPhysical ref → ∀ block < (k.heaps ref).table.total, typeFree ((k.heapState ref).view block) →
    Disjoint range ((k.heaps ref).blockBytes block)

section Reserve

variable {k k' : Kernel} {desc : PagingDesc} {paging : Set HeapRef} {range : Set Nat}

theorem Kernel.Reserved.mono {range' : Set Nat} (reserved : k.Reserved desc paging range) (fewer : range' ⊆ range) :
    k.Reserved desc paging range' where
  tables := Set.disjoint_of_subset_right fewer reserved.tables
  heaps := fun ref isPhysical => Set.disjoint_of_subset_right fewer (reserved.heaps ref isPhysical)
  held := fun ref isPhysical block below isFree =>
    Set.disjoint_of_subset_left fewer (reserved.held ref isPhysical block below isFree)

/-- Allocations that keep the tables keep what is reserved. -/
theorem Kernel.Reserved.kept (reserved : k.Reserved desc paging range) (allocates : k.Allocates k' Set.univ)
    (tables : k'.tables desc paging = k.tables desc paging) : k'.Reserved desc paging range where
  tables := by
    rw [tables]
    exact reserved.tables
  heaps := fun ref isPhysical => by
    rw [(allocates.heaps ref).tableBytes]
    exact reserved.heaps ref ((Kernel.IsPhysical.congr allocates.multiheap ref).mp isPhysical)
  held := fun ref isPhysical block below isFree => by
    have isPhysical' := (Kernel.IsPhysical.congr allocates.multiheap ref).mp isPhysical
    rw [(allocates.heaps ref).table] at below
    rw [(allocates.heaps ref).blockBytes]
    exact reserved.held ref isPhysical' block below (allocates.free ref isPhysical' block below isFree)

variable (sound : MultiheapSound k desc paging)

include sound

/-- **`heap_zalloc` of a physical heap.** -/
theorem zallocAt_spec {ref : HeapRef} (isPhysical : k.IsPhysical ref) {size : Nat} (word : size < 2 ^ 64)
    (notNull : (k.heapZallocAt ref size).1 ≠ 0) :
    MultiheapSound (k.heapZallocAt ref size).2 desc paging ∧ k.Allocates (k.heapZallocAt ref size).2 Set.univ ∧
      (∀ a ∈ k.tables desc paging, (k.heapZallocAt ref size).2.mem a = k.mem a) ∧
      ∃ start, k.Took (k.heapZallocAt ref size).2 ref start (heapBlocks size) (k.heapZallocAt ref size).1 := by
  have soundHeap : (k.heapState ref).heap.Sound := sound.apart.sound ref (Or.inl isPhysical)
  have cases := heapZalloc_cases soundHeap word
  have touches := touchesFree_of_allocation cases
  refine ⟨zallocAt_sound sound isPhysical word, ⟨rfl, sameHeaps_zallocAt k ref size,
    fun _ _ outside => absurd (Set.mem_univ _) outside, fun other isPhysical' block below isFree => ?_⟩,
    sound.tables_kept isPhysical touches, ?_⟩
  · by_cases here : other = ref
    · subst here
      unfold Kernel.heapZallocAt at isFree
      rw [k.view_withHeapState] at isFree
      exact (touches.free block below isFree).resolve_right id
    · rwa [Kernel.view_congr (sameHeaps_zallocAt k ref size other)
        (sound.table_kept isPhysical isPhysical' here touches) below] at isFree
  · rcases cases with ⟨null, _⟩ | ⟨start, allocated⟩
    · exact absurd null notNull
    · refine ⟨start, isPhysical, allocated.positive, allocated.inside, allocated.address,
        fun block low high => allocated.isFree low high, fun block low high isFree => ?_⟩
      have below : block < (k.heapState ref).heap.table.total := high.trans_le allocated.inside
      unfold Kernel.heapZallocAt at isFree
      rw [k.view_withHeapState, allocated.view block below] at isFree
      unfold takenFrom at isFree
      rw [if_pos ⟨low, high⟩] at isFree
      exact not_typeFree_of_entryType (entryType_mallocEntry _ _) isFree

/-- The tables are those that were there. -/
theorem Kernel.tables_kept (heaps : k.SameHeaps k') (kept : ∀ a ∈ k.tables desc paging, k'.mem a = k.mem a) :
    k'.tables desc paging = k.tables desc paging := by
  obtain ⟨_, reached, _⟩ := sound.tree.congr fun path table isTable a inside => kept a (Or.inl ⟨path, table, isTable, inside⟩)
  exact Kernel.tables_congr reached fun ref _ => heaps ref

/-- **Taken blocks are reserved.** -/
theorem Kernel.Took.reserved {ref : HeapRef} {start blocks ptr : Nat} (took : k.Took k' ref start blocks ptr)
    (allocates : k.Allocates k' Set.univ) (tables : k'.tables desc paging = k.tables desc paging) :
    k'.Reserved desc paging (Set.Ico ptr (ptr + blocks * peachosHeapBlockSize)) where
  tables := by
    rw [tables]
    exact took.tables_apart sound
  heaps := fun other isPhysical => by
    rw [(allocates.heaps other).tableBytes]
    exact took.heaps_apart sound ((Kernel.IsPhysical.congr allocates.multiheap other).mp isPhysical)
  held := fun other isPhysical block below isFree => by
    have isPhysical' := (Kernel.IsPhysical.congr allocates.multiheap other).mp isPhysical
    rw [(allocates.heaps other).table] at below
    rw [(allocates.heaps other).blockBytes]
    by_cases here : other = ref
    · subst here
      refine Set.disjoint_left.mpr fun a inside inBlock => ?_
      obtain ⟨place, low, high, inPlace⟩ := took.block inside
      by_cases same : place = block
      · subst same
        exact took.taken place low high isFree
      · exact Set.disjoint_left.mp ((k.heaps other).blockBytes_disjoint same) inPlace inBlock
    · exact Set.disjoint_of_subset (took.data sound)
        ((sound.apart.sound other (Or.inl isPhysical')).blockBytes_subset below)
        (sound.apart.blocks ref other took.physical isPhysical' (Ne.symm here)).2

end Reserve

/-! ### A new paging heap -/

/-- The kernel with a heap of virtual addresses over a cleared block table. -/
def Kernel.withPaging (k : Kernel) (ref : HeapRef) (heap : Heap) (mem : Memory) : Kernel :=
  { k with mem := mem, heaps := fun other => if other = ref then heap else k.heaps other }

section AddPaging

variable {k : Kernel} {desc : PagingDesc} {paging : Set HeapRef} (sound : MultiheapSound k desc paging)
  {ref : HeapRef} {heap : Heap} {mem : Memory} (reserved : k.Reserved desc paging heap.tableBytes)
  (notPhysical : ¬ k.IsPhysical ref) (notPaging : ref ∉ paging)
  (same : ∀ a, a ∉ heap.tableBytes → mem a = k.mem a)

include sound reserved same

/-- The page tables are not touched. -/
theorem reached_withPaging (ref : HeapRef) : TableTree (k.withPaging ref heap mem).mem desc ∧
    ∀ path table, ReachedTable (k.withPaging ref heap mem).mem desc path table ↔ ReachedTable k.mem desc path table := by
  have kept : ∀ path table, ReachedTable k.mem desc path table → ∀ a ∈ tablePage table, mem a = k.mem a :=
    fun path table isTable a inside =>
      same a (Set.disjoint_left.mp reserved.tables (Or.inl ⟨path, table, isTable, inside⟩))
  obtain ⟨tree, reached, _⟩ := sound.tree.congr kept
  exact ⟨tree, reached⟩

include notPhysical notPaging

/-- **A paging heap over reserved addresses.** -/
theorem MultiheapSound.addPaging (soundHeap : heap.Sound) :
    MultiheapSound (k.withPaging ref heap mem) desc (insert ref paging) := by
  obtain ⟨tree, reached⟩ := reached_withPaging sound reserved same ref
  have here : (k.withPaging ref heap mem).heaps ref = heap := if_pos rfl
  have others : ∀ other, k.IsPhysical other ∨ other ∈ paging →
      (k.withPaging ref heap mem).heaps other = k.heaps other := by
    intro other isHeap
    refine if_neg fun equal => ?_
    rw [equal] at isHeap
    exact isHeap.elim notPhysical notPaging
  have kept : ∀ other, k.IsPhysical other → ∀ a ∈ (k.heaps other).tableBytes, mem a = k.mem a :=
    fun other isPhysical a inside => same a (Set.disjoint_left.mp (reserved.heaps other isPhysical) inside)
  -- the new table joins the tables
  have tables : (k.withPaging ref heap mem).tables desc (insert ref paging) ⊆ k.tables desc paging ∪ heap.tableBytes := by
    rintro a (⟨path, table, isTable, inside⟩ | ⟨other, rfl | member, inside⟩)
    · exact Or.inl (Or.inl ⟨path, table, (reached path table).mp isTable, inside⟩)
    · rw [here] at inside
      exact Or.inr inside
    · rw [others other (Or.inr member)] at inside
      exact Or.inl (Or.inr ⟨other, member, inside⟩)
  -- it lies apart from the block tables of the other heaps
  have newTable : ∀ other, k.IsPhysical other ∨ other ∈ paging → Disjoint (k.heaps other).tableBytes heap.tableBytes := by
    rintro other (isPhysical | member)
    · exact reserved.heaps other isPhysical
    · exact Set.disjoint_of_subset_left (fun a inside => Or.inr ⟨other, member, inside⟩) reserved.tables
  refine ⟨⟨?_, ?_, ?_, ?_, ?_⟩, fun other allows => ?_, tree, fun other isPhysical => ?_,
    fun other member path table isTable => ?_, fun other isPhysical block below isFree => ?_⟩
  · rintro other (isPhysical | rfl | member)
    · rw [others other (Or.inl isPhysical)]
      exact sound.apart.sound other (Or.inl isPhysical)
    · rw [here]
      exact soundHeap
    · rw [others other (Or.inr member)]
      exact sound.apart.sound other (Or.inr member)
  · intro other isPhysical
    rw [others other (Or.inl isPhysical)]
    exact sound.apart.top other isPhysical
  · rintro other other' isHeap isHeap' different
    have known : ∀ ref', (k.withPaging ref heap mem).IsPhysical ref' ∨ ref' ∈ insert ref paging → ref' = ref ∨
        (k.IsPhysical ref' ∨ ref' ∈ paging) := by
      rintro ref' (isPhysical | rfl | member)
      · exact Or.inr (Or.inl isPhysical)
      · exact Or.inl rfl
      · exact Or.inr (Or.inr member)
    rcases known other isHeap with rfl | old <;> rcases known other' isHeap' with rfl | old'
    · exact absurd rfl different
    · rw [here, others other' old']
      exact (newTable other' old').symm
    · rw [here, others other old]
      exact newTable other old
    · rw [others other old, others other' old']
      exact sound.apart.tables other other' old old' different
  · intro other other' isPhysical isPhysical' different
    rw [others other (Or.inl isPhysical), others other' (Or.inl isPhysical')]
    exact sound.apart.blocks other other' isPhysical isPhysical' different
  · rintro other (rfl | member) isPhysical
    · exact notPhysical isPhysical
    · exact sound.apart.virtual other member isPhysical
  · exact Kernel.counted_kept (sound.apart.sound other (Or.inl allows.physical)) (others other (Or.inl allows.physical))
      (kept other allows.physical) (sound.counted other allows)
  · rw [others other (Or.inl isPhysical)]
    refine Set.disjoint_of_subset_left tables (Set.disjoint_union_left.mpr ⟨sound.tablesApart other isPhysical, ?_⟩)
    exact (reserved.heaps other isPhysical).symm
  · have isTable' := (reached path table).mp isTable
    rcases member with rfl | member
    · rw [here]
      exact Set.disjoint_of_subset_left (fun a inside => Or.inl ⟨path, table, isTable', inside⟩) reserved.tables
    · rw [others other (Or.inr member)]
      exact sound.pagesApart other member path table isTable'
  · rw [others other (Or.inl isPhysical)] at below ⊢
    have geometry : (k.heaps other).SameGeometry ((k.withPaging ref heap mem).heaps other) := by
      rw [others other (Or.inl isPhysical)]
      rfl
    rw [Kernel.view_congr geometry (kept other isPhysical) below] at isFree
    exact Set.disjoint_of_subset_left tables (Set.disjoint_union_left.mpr
      ⟨sound.held other isPhysical block below isFree, reserved.held other isPhysical block below isFree⟩)

end AddPaging

/-! ### The pages of a paging heap -/

/-- **The loop of `paging_map_range`**, when its tables can be allocated. -/
theorem pagingMapRangeLoop_sound {desc : PagingDesc} {paging : Set HeapRef} {flags : BitVec 32} {fuel virt phys : Nat}
    (res : Int) {k : Kernel} (sound : MultiheapSound k desc paging) (fits : virt + fuel * pagingPageSize < 2 ^ 64)
    (allocates : PagingRangeAllocates desc flags fuel virt phys k) :
    MultiheapSound (pagingMapRangeLoop desc flags fuel virt phys res k).2 desc paging ∧
      k.Allocates (pagingMapRangeLoop desc flags fuel virt phys res k).2 Set.univ ∧
      (∀ path table, ReachedTable k.mem desc path table →
        ReachedTable (pagingMapRangeLoop desc flags fuel virt phys res k).2.mem desc path table) ∧
      ∀ i < fuel, ∃ table, ReachedTable (pagingMapRangeLoop desc flags fuel virt phys res k).2.mem desc
        (pagePath (virt + i * pagingPageSize)) table := by
  induction fuel generalizing virt phys res k with
  | zero => exact ⟨sound, .refl k _, fun _ _ => id, fun i small => absurd small (Nat.not_lt_zero i)⟩
  | succ fuel ih =>
      simp only [pagingPageSize] at fits
      obtain ⟨allocatesPage, allocatesRest⟩ := allocates
      obtain ⟨fresh, sound', kept⟩ := pagingMap_sound sound phys flags allocatesPage
      obtain ⟨_, ⟨table, isTable⟩, old, _⟩ := pagingMap_tree sound.tree fresh phys flags
      have mapped : (pagingMap k desc virt phys flags).1 = 0 := rfl
      rw [pagingMapRangeLoop]
      simp only [mapped, lt_irrefl, if_false]
      generalize (pagingMap k desc virt phys flags).2 = k₁ at *
      by_cases last : fuel = 0
      · subst last
        refine ⟨sound', kept, old, fun i small => ⟨table, ?_⟩⟩
        rw [Nat.lt_one_iff.mp small, Nat.zero_mul, Nat.add_zero]
        exact isTable
      · have next : toWord (virt + pagingPageSize) = virt + 4096 := by
          simp only [pagingPageSize]
          exact toWord_eq (by omega) (by omega)
        rw [next] at allocatesRest ⊢
        obtain ⟨sound'', kept', old', pages⟩ := ih 0 sound' (by simp only [pagingPageSize]; omega) allocatesRest
        refine ⟨sound'', kept.trans kept', fun path table reached => old' _ _ (old _ _ reached), fun i small => ?_⟩
        cases i with
        | zero =>
            rw [Nat.zero_mul, Nat.add_zero]
            exact ⟨table, old' _ _ isTable⟩
        | succ i =>
            obtain ⟨table', behind⟩ := pages i (by omega)
            refine ⟨table', ?_⟩
            rw [show virt + (i + 1) * pagingPageSize = virt + 4096 + i * pagingPageSize by
              simp only [pagingPageSize]; omega]
            exact behind

/-- A created heap whose table fits its range. -/
theorem heapCreateIgnored_eq {ptr endPtr total : Nat} (aligned : ptr % peachosHeapBlockSize = 0)
    (span : endPtr = ptr + total * peachosHeapBlockSize) (bound : endPtr < 2 ^ 64) (mem : Memory) (entries : Nat) :
    heapCreateIgnored mem ptr endPtr ⟨entries, total⟩ =
      ({ table := ⟨entries, total⟩, saddr := ptr, eaddr := endPtr, totalBlocks := total, freeBlocks := total,
         usedBlocks := 0, blockAllocatedCallback := false, blockFreeCallback := false },
        memset mem entries heapBlockTableEntryFree total) := by
  have fine : (!heapValidateAlignment ptr || !heapValidateAlignment endPtr) = false := by
    unfold heapValidateAlignment
    simp only [peachosHeapBlockSize] at aligned span ⊢
    rw [decide_eq_true aligned, decide_eq_true (by omega)]
    rfl
  have valid : heapValidateTable ptr endPtr ⟨entries, total⟩ = 0 := by
    unfold heapValidateTable
    simp only [peachosHeapBlockSize] at span ⊢
    rw [toWord_sub (by omega) (by omega), if_neg (by omega)]
  unfold heapCreateIgnored heapCreate
  simp only [fine, Bool.false_eq_true, if_false, valid, lt_irrefl]

/-- The callback of a paging heap is not looked at by the tables. -/
theorem MultiheapSound.setFreeCallback {k : Kernel} {desc : PagingDesc} {paging : Set HeapRef}
    (sound : MultiheapSound k desc paging) {ref : HeapRef} (member : ref ∈ paging) :
    MultiheapSound (k.setFreeCallback ref) desc paging := by
  have notPhysical := sound.apart.virtual ref member
  have others : ∀ other, k.IsPhysical other → (k.setFreeCallback ref).heaps other = k.heaps other := by
    intro other isPhysical
    refine if_neg fun equal => ?_
    rw [equal] at isPhysical
    exact notPhysical isPhysical
  have tableBytes : ∀ other, ((k.setFreeCallback ref).heaps other).tableBytes = (k.heaps other).tableBytes := by
    intro other
    unfold Kernel.setFreeCallback
    by_cases here : other = ref
    · simp only [here]
      rfl
    · simp only [if_neg here]
  have tables : (k.setFreeCallback ref).tables desc paging = k.tables desc paging := by
    unfold Kernel.tables
    simp only [tableBytes]
    rfl
  refine ⟨⟨fun other isHeap => ?_, fun other isPhysical => ?_, fun other other' isHeap isHeap' different => ?_,
    fun other other' isPhysical isPhysical' different => ?_, sound.apart.virtual⟩, fun other allows => ?_, sound.tree,
    fun other isPhysical => ?_, fun other member' path table isTable => ?_,
    fun other isPhysical block below isFree => ?_⟩
  · have soundHeap := sound.apart.sound other isHeap
    unfold Kernel.setFreeCallback
    by_cases here : other = ref
    · subst here
      simp only [if_true]
      exact ⟨soundHeap.positive, soundHeap.aligned, soundHeap.span, soundHeap.bound, soundHeap.total_lt,
        soundHeap.tableBound, soundHeap.apart, soundHeap.total⟩
    · simp only [if_neg here]
      exact soundHeap
  · rw [others other isPhysical]
    exact sound.apart.top other isPhysical
  · rw [tableBytes, tableBytes]
    exact sound.apart.tables other other' isHeap isHeap' different
  · rw [others other isPhysical, others other' isPhysical']
    exact sound.apart.blocks other other' isPhysical isPhysical' different
  · exact Kernel.counted_kept (sound.apart.sound other (Or.inl allows.physical)) (others other allows.physical)
      (fun _ _ => rfl) (sound.counted other allows)
  · rw [tables, tableBytes]
    exact sound.tablesApart other isPhysical
  · rw [tableBytes]
    exact sound.pagesApart other member' path table isTable
  · have geometry : (k.heaps other).SameGeometry ((k.setFreeCallback ref).heaps other) := by
      rw [others other isPhysical]
      rfl
    rw [others other isPhysical] at below ⊢
    rw [Kernel.view_congr geometry (fun _ _ => rfl) below] at isFree
    rw [tables]
    exact sound.held other isPhysical block below isFree

/-! ### The multiheap on its way to being ready -/

/-- The `struct heap` of every heap lies in no free block of the starting heap. -/
def StructuresHeld (k : Kernel) (paging : Set HeapRef) : Prop :=
  ∀ address, k.IsPhysical (.allocated address) ∨ .allocated address ∈ paging →
    ∀ block < (k.heaps k.multiheap.startingHeap).table.total,
      typeFree ((k.heapState k.multiheap.startingHeap).view block) →
      address ∉ (k.heaps k.multiheap.startingHeap).blockBytes block

theorem StructuresHeld.kept {k k' : Kernel} {paging : Set HeapRef} (structures : StructuresHeld k paging)
    (allocates : k.Allocates k' Set.univ) : StructuresHeld k' paging := by
  intro address isHeap block below isFree
  have same := allocates.heaps k.multiheap.startingHeap
  rw [allocates.multiheap] at below isFree ⊢
  rw [same.table] at below
  rw [same.blockBytes]
  exact structures address (isHeap.imp_left (Kernel.IsPhysical.congr allocates.multiheap _).mp) block below
    (allocates.free _ (Or.inl rfl) block below isFree)

/-- **A multiheap on its way to being ready**, with the paging heaps that it has so far. -/
structure MultiheapStarting (k : Kernel) (desc : PagingDesc) (paging : Set HeapRef) (maxEndAddr : Nat) : Prop where
  sound : MultiheapSound k desc paging
  pages : ∀ ref ∈ paging, ∀ va ∈ (k.heaps ref).dataBytes, ∃ table, ReachedTable k.mem desc (pagePath va) table
  structures : StructuresHeld k paging
  below : (k.heaps k.multiheap.startingHeap).eaddr ≤ maxEndAddr

/-- The allocations of `multiheap_ready` for a paging heap succeed, and an `int` counts its pages. -/
def ReadyHeapSucceeds (k : Kernel) (desc : PagingDesc) (maxEndAddr : Nat) (current : MultiheapSingleHeap) : Prop :=
  let pagingHeapStartingAddress := toWord (maxEndAddr + (k.heaps current.heap).saddr)
  let pagingHeapEndingAddress := toWord (maxEndAddr + (k.heaps current.heap).eaddr)
  let table := k.heapZallocAt k.multiheap.startingHeap sizeofHeapTable
  let total := (table.2.heaps current.heap).table.total
  let entries := table.2.heapZallocAt k.multiheap.startingHeap total
  let pagingHeap := entries.2.heapZallocAt k.multiheap.startingHeap sizeofHeap
  let created := heapCreateIgnored pagingHeap.2.mem pagingHeapStartingAddress pagingHeapEndingAddress
    { entries := entries.1, total := total }
  total ≤ 2 ^ 31 ∧ table.1 ≠ 0 ∧ entries.1 ≠ 0 ∧ pagingHeap.1 ≠ 0 ∧
    PagingRangeAllocates desc 0#32 total pagingHeapStartingAddress pagingHeapStartingAddress
      (pagingHeap.2.withPaging (.allocated pagingHeap.1) created.1 created.2)

/-- The allocations of `multiheap_ready` succeed. -/
def ReadySucceeds (desc : PagingDesc) (maxEndAddr : Nat) : List MultiheapSingleHeap → Kernel → Prop
  | [], _ => True
  | current :: rest, k =>
      if multiheapHeapAllowsPaging current then
        ReadyHeapSucceeds k desc maxEndAddr current ∧
          ReadySucceeds desc maxEndAddr rest (multiheapReadyHeap k desc maxEndAddr current).2
      else ReadySucceeds desc maxEndAddr rest k

instance (k : Kernel) (desc : PagingDesc) (maxEndAddr : Nat) (current : MultiheapSingleHeap) :
    Decidable (ReadyHeapSucceeds k desc maxEndAddr current) :=
  inferInstanceAs (Decidable (_ ∧ _ ∧ _ ∧ _ ∧ _))

instance decidableReadySucceeds (desc : PagingDesc) (maxEndAddr : Nat) :
    (nodes : List MultiheapSingleHeap) → (k : Kernel) → Decidable (ReadySucceeds desc maxEndAddr nodes k)
  | [], _ => isTrue trivial
  | current :: rest, k =>
      let := decidableReadySucceeds desc maxEndAddr rest (multiheapReadyHeap k desc maxEndAddr current).2
      let := decidableReadySucceeds desc maxEndAddr rest k
      inferInstanceAs (Decidable (if multiheapHeapAllowsPaging current then _ ∧ _ else _))

section Starting

variable {k : Kernel} {desc : PagingDesc} {paging : Set HeapRef} {maxEndAddr : Nat}

/-- A block of the starting heap for a structure. -/
theorem MultiheapStarting.zalloc (starting : MultiheapStarting k desc paging maxEndAddr) {size : Nat}
    (word : size < 2 ^ 64) (notNull : (k.heapZallocAt k.multiheap.startingHeap size).1 ≠ 0) :
    MultiheapStarting (k.heapZallocAt k.multiheap.startingHeap size).2 desc paging maxEndAddr ∧
      k.Allocates (k.heapZallocAt k.multiheap.startingHeap size).2 Set.univ ∧
      (k.heapZallocAt k.multiheap.startingHeap size).2.tables desc paging = k.tables desc paging ∧
      ∃ start, k.Took (k.heapZallocAt k.multiheap.startingHeap size).2 k.multiheap.startingHeap start (heapBlocks size)
        (k.heapZallocAt k.multiheap.startingHeap size).1 := by
  obtain ⟨sound', allocates, kept, took⟩ := zallocAt_spec starting.sound (Or.inl rfl) word notNull
  generalize k.heapZallocAt k.multiheap.startingHeap size = result at *
  obtain ⟨_, reached, _⟩ := starting.sound.tree.congr fun path table isTable a inside =>
    kept a (Or.inl ⟨path, table, isTable, inside⟩)
  refine ⟨⟨sound', fun ref member va inside => ?_, starting.structures.kept allocates, ?_⟩, allocates,
    Kernel.tables_kept starting.sound allocates.heaps kept, took⟩
  · rw [(allocates.heaps ref).dataBytes] at inside
    obtain ⟨table, isTable⟩ := starting.pages ref member va inside
    exact ⟨table, (reached _ _).mpr isTable⟩
  · have same := allocates.heaps k.multiheap.startingHeap
    rw [allocates.multiheap, same]
    exact starting.below

/-- The structure of a new heap names no other heap. -/
theorem MultiheapStarting.fresh (starting : MultiheapStarting k desc paging maxEndAddr) {k' : Kernel} {start blocks ptr : Nat}
    (took : k.Took k' k.multiheap.startingHeap start blocks ptr) :
    ¬ (k.IsPhysical (.allocated ptr) ∨ .allocated ptr ∈ paging) := by
  intro isHeap
  have positive := took.positive
  have inside := took.inside
  refine starting.structures ptr isHeap start (by omega) (took.isFree start le_rfl (by omega)) ?_
  rw [took.pointer]
  exact ⟨le_rfl, Nat.lt_add_of_pos_right (by decide)⟩

/-- **The structure of a new heap is held.** -/
theorem StructuresHeld.insert {k' : Kernel} (structures : StructuresHeld k' paging) (allocates : k.Allocates k' Set.univ)
    {start blocks ptr : Nat} (took : k.Took k' k.multiheap.startingHeap start blocks ptr) :
    StructuresHeld k' (insert (.allocated ptr) paging) := by
  intro address isHeap block below isFree
  by_cases here : address = ptr
  · have same := allocates.heaps k.multiheap.startingHeap
    have positive := took.positive
    rw [allocates.multiheap] at below isFree ⊢
    rw [same.blockBytes, here, took.pointer]
    rintro ⟨low, high⟩
    have isStart : block = start := by
      simp only [peachosHeapBlockSize] at low high
      omega
    rw [isStart] at isFree
    exact took.taken start le_rfl (by omega) isFree
  · refine structures address (isHeap.imp_right fun member => ?_) block below isFree
    exact member.resolve_left fun equal => here (HeapRef.allocated.inj equal)

/-- **A paging heap with the page tables of its pages.** -/
theorem MultiheapStarting.addPaging (starting : MultiheapStarting k desc paging maxEndAddr) {ref : HeapRef} {heap : Heap}
    {mem : Memory} (reserved : k.Reserved desc paging heap.tableBytes) (fresh : ¬ (k.IsPhysical ref ∨ ref ∈ paging))
    (structures : StructuresHeld k (insert ref paging)) (same : ∀ a, a ∉ heap.tableBytes → mem a = k.mem a)
    (soundHeap : heap.Sound) (few : heap.table.total ≤ 2 ^ 31)
    (allocates : PagingRangeAllocates desc 0#32 heap.table.total heap.saddr heap.saddr (k.withPaging ref heap mem)) :
    MultiheapStarting ((pagingMapTo (k.withPaging ref heap mem) desc heap.saddr heap.saddr heap.eaddr 0#32).2.setFreeCallback
      ref) desc (insert ref paging) maxEndAddr := by
  rw [not_or] at fresh
  obtain ⟨notPhysical, notPaging⟩ := fresh
  have sound' := starting.sound.addPaging reserved notPhysical notPaging same soundHeap
  obtain ⟨_, reached⟩ := reached_withPaging starting.sound reserved same ref
  have span := soundHeap.span
  have bound := soundHeap.bound
  have here : (k.withPaging ref heap mem).heaps ref = heap := if_pos rfl
  have others : ∀ other, k.IsPhysical other ∨ other ∈ paging → (k.withPaging ref heap mem).heaps other = k.heaps other := by
    intro other isHeap
    refine if_neg fun equal => ?_
    rw [equal] at isHeap
    exact isHeap.elim notPhysical notPaging
  have structures' : StructuresHeld (k.withPaging ref heap mem) (insert ref paging) := by
    intro address isHeap block below isFree
    have start : (k.withPaging ref heap mem).heaps k.multiheap.startingHeap = k.heaps k.multiheap.startingHeap :=
      others _ (Or.inl (Or.inl rfl))
    have geometry : (k.heaps k.multiheap.startingHeap).SameGeometry
        ((k.withPaging ref heap mem).heaps k.multiheap.startingHeap) := by
      rw [start]
      rfl
    change block < ((k.withPaging ref heap mem).heaps k.multiheap.startingHeap).table.total at below
    change address ∉ ((k.withPaging ref heap mem).heaps k.multiheap.startingHeap).blockBytes block
    rw [start] at below ⊢
    refine structures address isHeap block below ?_
    have kept : ∀ a ∈ (k.heaps k.multiheap.startingHeap).tableBytes, (k.withPaging ref heap mem).mem a = k.mem a :=
      fun a inside => same a (Set.disjoint_left.mp (reserved.heaps _ (Or.inl rfl)) inside)
    rwa [← Kernel.view_congr geometry kept below]
  -- the page tables of its pages
  rw [span, show heap.saddr + heap.table.total * peachosHeapBlockSize = heap.saddr + heap.table.total * pagingPageSize from rfl,
    pagingMapTo_eq soundHeap.aligned soundHeap.aligned, pagingMapRange, Nat.min_eq_left few]
  simp only [peachosHeapBlockSize] at span
  obtain ⟨sound'', kept, old, pages⟩ := pagingMapRangeLoop_sound 0 sound'
    (by simp only [pagingPageSize]; omega) allocates
  generalize (pagingMapRangeLoop desc 0#32 heap.table.total heap.saddr heap.saddr 0 (k.withPaging ref heap mem)).2 = k' at *
  have data : ∀ other, ((k'.setFreeCallback ref).heaps other).dataBytes = (k'.heaps other).dataBytes := by
    intro other
    unfold Kernel.setFreeCallback
    by_cases equal : other = ref
    · simp only [equal]
      rfl
    · simp only [if_neg equal]
  refine ⟨sound''.setFreeCallback (Set.mem_insert _ _), fun other member va inside => ?_, ?_, ?_⟩
  · rw [data, (kept.heaps other).dataBytes] at inside
    rcases member with rfl | member
    · -- a page of the new heap
      rw [here] at inside
      have aligned := soundHeap.aligned
      obtain ⟨low, high⟩ := inside
      simp only [peachosHeapBlockSize] at aligned
      obtain ⟨table, isTable⟩ := pages ((va - heap.saddr) / 4096) (by omega)
      refine ⟨table, ?_⟩
      have samePage : pageNumber va = pageNumber (heap.saddr + (va - heap.saddr) / 4096 * pagingPageSize) := by
        unfold pageNumber
        simp only [pagingPageSize]
        congr 1
        omega
      rw [((pageNumber_eq_iff _ _).mp samePage).1]
      exact isTable
    · rw [others other (Or.inr member)] at inside
      obtain ⟨table, isTable⟩ := starting.pages other member va inside
      exact ⟨table, old _ _ ((reached _ _).mpr isTable)⟩
  · have held := structures'.kept kept
    have notStart : ¬ k'.multiheap.startingHeap = ref := fun equal => notPhysical (by
      rw [← equal, kept.multiheap]
      exact Or.inl rfl)
    have start : (k'.setFreeCallback ref).heaps k'.multiheap.startingHeap = k'.heaps k'.multiheap.startingHeap :=
      if_neg notStart
    intro address isHeap block below isFree
    change block < ((k'.setFreeCallback ref).heaps k'.multiheap.startingHeap).table.total at below
    change address ∉ ((k'.setFreeCallback ref).heaps k'.multiheap.startingHeap).blockBytes block
    change typeFree (((k'.setFreeCallback ref).heapState k'.multiheap.startingHeap).view block) at isFree
    have geometry : (k'.heaps k'.multiheap.startingHeap).SameGeometry
        ((k'.setFreeCallback ref).heaps k'.multiheap.startingHeap) := by
      rw [start]
      rfl
    rw [start] at below ⊢
    rw [Kernel.view_congr geometry (fun _ _ => rfl) below] at isFree
    exact held address isHeap block below isFree
  · have same' := kept.heaps k.multiheap.startingHeap
    have notStart : ¬ k.multiheap.startingHeap = ref := fun equal => notPhysical (equal ▸ Or.inl rfl)
    show ((k'.setFreeCallback ref).heaps k'.multiheap.startingHeap).eaddr ≤ maxEndAddr
    rw [kept.multiheap]
    show ((k'.setFreeCallback ref).heaps k.multiheap.startingHeap).eaddr ≤ maxEndAddr
    rw [show (k'.setFreeCallback ref).heaps k.multiheap.startingHeap = k'.heaps k.multiheap.startingHeap from
      if_neg notStart, same', others _ (Or.inl (Or.inl rfl))]
    exact starting.below

/-- **One paging heap of `multiheap_ready`.** -/
theorem multiheapReadyHeap_starting (starting : MultiheapStarting k desc paging maxEndAddr)
    {current : MultiheapSingleHeap} (isPhysical : k.IsPhysical current.heap) (aligned : maxEndAddr % peachosHeapBlockSize = 0)
    (low : maxEndAddr ≤ 2 ^ 52) (succeeds : ReadyHeapSucceeds k desc maxEndAddr current) :
    MultiheapStarting (multiheapReadyHeap k desc maxEndAddr current).2 desc
      (insert (multiheapReadyHeap k desc maxEndAddr current).1 paging) maxEndAddr := by
  have soundData := starting.sound.apart.sound current.heap (Or.inl isPhysical)
  have alignedData := soundData.aligned
  have span := soundData.span
  have top := starting.sound.apart.top current.heap isPhysical
  simp only [peachosHeapBlockSize] at aligned alignedData span
  unfold ReadyHeapSucceeds at succeeds
  unfold multiheapReadyHeap
  dsimp only at succeeds ⊢
  have startEq : toWord (maxEndAddr + (k.heaps current.heap).saddr) = maxEndAddr + (k.heaps current.heap).saddr :=
    toWord_eq (by omega) (by omega)
  have stopEq : toWord (maxEndAddr + (k.heaps current.heap).eaddr) =
      maxEndAddr + (k.heaps current.heap).saddr + (k.heaps current.heap).table.total * peachosHeapBlockSize := by
    simp only [peachosHeapBlockSize]
    exact toWord_eq (by omega) (by omega)
  rw [startEq, stopEq] at succeeds ⊢
  obtain ⟨few, tableOk, entriesOk, heapOk, pages⟩ := succeeds
  -- the `struct heap_table`
  obtain ⟨starting₁, allocates₁, _, _⟩ := starting.zalloc (by decide : sizeofHeapTable < 2 ^ 64) tableOk
  have totalEq : ((k.heapZallocAt k.multiheap.startingHeap sizeofHeapTable).2.heaps current.heap).table.total =
      (k.heaps current.heap).table.total := by rw [(allocates₁.heaps current.heap).table]
  have list₁ : (k.heapZallocAt k.multiheap.startingHeap sizeofHeapTable).2.multiheap = k.multiheap := rfl
  rw [totalEq] at few entriesOk heapOk pages ⊢
  generalize (k.heapZallocAt k.multiheap.startingHeap sizeofHeapTable).2 = k₁ at *
  generalize (k.heaps current.heap).table.total = total at *
  rw [← list₁] at entriesOk heapOk pages ⊢
  -- its entries
  obtain ⟨starting₂, allocates₂, tables₂, start₂, took₂⟩ := starting₁.zalloc (by omega : total < 2 ^ 64) entriesOk
  have list₂ : (k₁.heapZallocAt k₁.multiheap.startingHeap total).2.multiheap = k₁.multiheap := rfl
  have reserved₂ := took₂.reserved starting₁.sound allocates₂ tables₂
  have inside₂ := took₂.inside
  have pointer₂ := took₂.pointer
  have fits := le_heapBlocks_mul (by omega : total < 2 ^ 64) took₂.positive
  have soundStart := starting₁.sound.apart.sound _ (Or.inl (Or.inl rfl))
  have spanStart := soundStart.span
  have below := starting₁.below
  generalize k₁.heapZallocAt k₁.multiheap.startingHeap total = entries at *
  rw [← list₂] at heapOk pages ⊢
  -- the `struct heap`
  obtain ⟨starting₃, allocates₃, tables₃, start₃, took₃⟩ := starting₂.zalloc (by decide : sizeofHeap < 2 ^ 64) heapOk
  have fresh := starting₂.fresh took₃
  have structures := starting₃.structures.insert allocates₃ took₃
  have reserved₃ := reserved₂.kept allocates₃ tables₃
  have list₃ : (entries.2.heapZallocAt entries.2.multiheap.startingHeap sizeofHeap).2.multiheap = entries.2.multiheap := rfl
  generalize entries.2.heapZallocAt entries.2.multiheap.startingHeap sizeofHeap = structure_ at *
  -- the heap over them
  simp only [peachosHeapBlockSize] at pointer₂ spanStart fits
  have bound : maxEndAddr + (k.heaps current.heap).saddr + total * peachosHeapBlockSize < 2 ^ 64 := by
    simp only [peachosHeapBlockSize]
    omega
  rw [heapCreateIgnored_eq (by simp only [peachosHeapBlockSize]; omega) rfl bound] at pages ⊢
  refine starting₃.addPaging (reserved₃.mono ?_) ?_ structures ?_ ⟨?_, ?_, rfl, bound, ?_, ?_, ?_, rfl⟩ few pages
  · exact Set.Ico_subset_Ico_right (by simp only [peachosHeapBlockSize]; omega)
  · rintro (isPhysical' | member)
    · exact fresh (Or.inl ((Kernel.IsPhysical.congr list₃ _).mp isPhysical'))
    · exact fresh (Or.inr member)
  · intro a outside
    refine memset_outside ?_ _
    by_contra between
    exact outside ⟨by simp only; omega, by simp only; omega⟩
  · show 0 < maxEndAddr + (k.heaps current.heap).saddr
    have positive := soundData.positive
    omega
  · show (maxEndAddr + (k.heaps current.heap).saddr) % peachosHeapBlockSize = 0
    simp only [peachosHeapBlockSize]
    omega
  · show total < 2 ^ 51
    omega
  · show entries.1 + total ≤ 2 ^ 64
    omega
  · show entries.1 + total ≤ maxEndAddr + (k.heaps current.heap).saddr ∨ _
    omega

end Starting

/-! ### `multiheap_ready` -/

/-- The paging heaps of a list. -/
def nodePagingHeaps (nodes : List MultiheapSingleHeap) : Set HeapRef := { ref | ∃ node ∈ nodes, node.pagingHeap = some ref }

/-- **A multiheap before it is ready**: heaps that lie apart, without paging heaps, over a starting heap that ends
below the highest end address of the list. -/
structure MultiheapBooted (k : Kernel) (desc : PagingDesc) : Prop where
  sound : MultiheapSound k desc ∅
  unpaged : ∀ node ∈ k.multiheap.heaps, node.pagingHeap = none
  structures : StructuresHeld k ∅
  starting : (k.heaps k.multiheap.startingHeap).eaddr ≤ multiheapGetMaxMemoryEndAddress k

/-- The kernel in which `multiheap_ready` starts its loop. -/
def Kernel.markReady (k : Kernel) : Kernel :=
  { k with multiheap := { k.multiheap with
      flags := k.multiheap.flags ||| multiheapFlagIsReady
      maxEndDataAddr := multiheapGetMaxMemoryEndAddress k } }

/-- A property of heaps and flags holds of a node of one list when it does of the other. -/
theorem exists_node_iff {nodes nodes' : List MultiheapSingleHeap}
    (same : nodes'.map (fun node => (node.heap, node.flags)) = nodes.map fun node => (node.heap, node.flags))
    (holds : HeapRef × BitVec 32 → Prop) :
    (∃ node ∈ nodes', holds (node.heap, node.flags)) ↔ ∃ node ∈ nodes, holds (node.heap, node.flags) := by
  have listed : ∀ list : List MultiheapSingleHeap, (∃ node ∈ list, holds (node.heap, node.flags)) ↔
      ∃ entry ∈ list.map fun node => (node.heap, node.flags), holds entry := by
    intro list
    simp only [List.mem_map, exists_exists_and_eq_and]
  rw [listed nodes', listed nodes, same]

section Ready

variable {desc : PagingDesc} {maxEndAddr : Nat}

/-- **The loop of `multiheap_ready`.** -/
theorem multiheapReadyLoop_starting (aligned : maxEndAddr % peachosHeapBlockSize = 0) (low : maxEndAddr ≤ 2 ^ 52)
    (nodes : List MultiheapSingleHeap) {k : Kernel} {paging : Set HeapRef}
    (starting : MultiheapStarting k desc paging maxEndAddr) (physical : ∀ node ∈ nodes, k.IsPhysical node.heap)
    (unpaged : ∀ node ∈ nodes, node.pagingHeap = none) (succeeds : ReadySucceeds desc maxEndAddr nodes k) :
    MultiheapStarting (multiheapReadyLoop desc maxEndAddr nodes k).2 desc
        (paging ∪ nodePagingHeaps (multiheapReadyLoop desc maxEndAddr nodes k).1) maxEndAddr ∧
      (multiheapReadyLoop desc maxEndAddr nodes k).2.multiheap = k.multiheap ∧
      (multiheapReadyLoop desc maxEndAddr nodes k).1.map (fun node => (node.heap, node.flags)) =
        nodes.map fun node => (node.heap, node.flags) := by
  induction nodes generalizing k paging with
  | nil =>
      have none : nodePagingHeaps [] = ∅ := Set.eq_empty_of_forall_notMem fun ref ⟨_, member, _⟩ =>
        absurd member List.not_mem_nil
      rw [multiheapReadyLoop, none, Set.union_empty]
      exact ⟨starting, rfl, rfl⟩
  | cons current rest ih =>
      have physicalRest := fun node (member : node ∈ rest) => physical node (List.mem_cons_of_mem _ member)
      have unpagedRest := fun node (member : node ∈ rest) => unpaged node (List.mem_cons_of_mem _ member)
      rw [ReadySucceeds] at succeeds
      rw [multiheapReadyLoop]
      by_cases allows : multiheapHeapAllowsPaging current = true
      · simp only [allows, if_true] at succeeds ⊢
        have made := multiheapReadyHeap_starting starting (physical current List.mem_cons_self) aligned low succeeds.1
        have list : (multiheapReadyHeap k desc maxEndAddr current).2.multiheap = k.multiheap :=
          (pagingMapTo_kept _ _ _ _ _ _).1
        generalize multiheapReadyHeap k desc maxEndAddr current = one at *
        obtain ⟨starting', list', nodes'⟩ := ih made
          (fun node member => (Kernel.IsPhysical.congr list node.heap).mpr (physicalRest node member)) unpagedRest succeeds.2
        refine ⟨?_, list'.trans list, by rw [List.map_cons, List.map_cons, nodes']⟩
        have heads : ∀ tail, nodePagingHeaps ({ current with pagingHeap := some one.1 } :: tail) =
            insert one.1 (nodePagingHeaps tail) := by
          intro tail
          ext ref
          unfold nodePagingHeaps
          simp only [Set.mem_ofPred_eq, List.mem_cons, exists_eq_or_imp, Option.some.injEq, Set.mem_insert_iff]
          exact or_congr_left eq_comm
        rwa [heads, Set.union_insert, ← Set.insert_union]
      · simp only [allows, Bool.false_eq_true, if_false] at succeeds ⊢
        obtain ⟨starting', list', nodes'⟩ := ih starting physicalRest unpagedRest succeeds
        refine ⟨?_, list', by rw [List.map_cons, List.map_cons, nodes']⟩
        have heads : ∀ tail, nodePagingHeaps (current :: tail) = nodePagingHeaps tail := by
          intro tail
          ext ref
          unfold nodePagingHeaps
          simp only [Set.mem_ofPred_eq, List.mem_cons, exists_eq_or_imp, unpaged current List.mem_cons_self, reduceCtorEq,
            false_or]
        rwa [heads]

/-- **`multiheap_ready` makes a multiheap that can defragment**, when its allocations succeed. -/
theorem multiheapReady_prepared {k k' : Kernel} (booted : MultiheapBooted k desc)
    (succeeds : ReadySucceeds desc (multiheapGetMaxMemoryEndAddress k) k.multiheap.heaps k.markReady)
    (made : multiheapReady k (some desc) = some k') : MultiheapPrepared k' desc := by
  have aligned : multiheapGetMaxMemoryEndAddress k % peachosHeapBlockSize = 0 := by
    refine multiheapGetMaxMemoryEndAddress_of_all (fun address => address % peachosHeapBlockSize = 0) rfl fun node member => ?_
    have soundHeap := booted.sound.apart.sound node.heap (Or.inl (Kernel.physical_of_member member))
    have start := soundHeap.aligned
    have span := soundHeap.span
    simp only [peachosHeapBlockSize] at start span ⊢
    omega
  have low : multiheapGetMaxMemoryEndAddress k ≤ 2 ^ 52 :=
    multiheapGetMaxMemoryEndAddress_of_all (fun address => address ≤ 2 ^ 52) (Nat.zero_le _) fun node member =>
      booted.sound.apart.top node.heap (Kernel.physical_of_member member)
  have begun : MultiheapStarting k.markReady desc ∅ (multiheapGetMaxMemoryEndAddress k) := by
    refine ⟨booted.sound.frame (fun _ => Iff.rfl) (fun _ _ => rfl) booted.sound.counted booted.sound.tree
      (fun _ _ => Iff.rfl) fun _ _ _ _ isFree => Or.inl isFree, fun ref member => absurd member (Set.notMem_empty ref),
      booted.structures, booted.starting⟩
  obtain ⟨starting, list, nodes⟩ := multiheapReadyLoop_starting aligned low k.multiheap.heaps begun
    (fun node member => Kernel.physical_of_member member) booted.unpaged succeeds
  unfold multiheapReady at made
  simp only [Option.some.injEq] at made
  change { (multiheapReadyLoop desc (multiheapGetMaxMemoryEndAddress k) k.multiheap.heaps k.markReady).2 with
    multiheap := { (multiheapReadyLoop desc (multiheapGetMaxMemoryEndAddress k) k.multiheap.heaps k.markReady).2.multiheap with
      heaps := (multiheapReadyLoop desc (multiheapGetMaxMemoryEndAddress k) k.multiheap.heaps k.markReady).1 } } = k' at made
  generalize multiheapReadyLoop desc (multiheapGetMaxMemoryEndAddress k) k.multiheap.heaps k.markReady = result at *
  rw [Set.empty_union] at starting
  subst made
  have member : ∀ holds : HeapRef × BitVec 32 → Prop, (∃ node ∈ result.1, holds (node.heap, node.flags)) ↔
      ∃ node ∈ result.2.multiheap.heaps, holds (node.heap, node.flags) := by
    intro holds
    rw [exists_node_iff nodes, list]
    rfl
  refine ⟨?_, starting.pages⟩
  refine starting.sound.frame (fun ref => or_congr_right (member fun entry => entry.1 = ref)) (fun _ _ => rfl)
    (fun ref allows => ?_) starting.sound.tree (fun _ _ => Iff.rfl) fun _ _ _ _ isFree => Or.inl isFree
  exact starting.sound.counted ref
    ((member fun entry => entry.1 = ref ∧ (entry.2 &&& multiheapHeapFlagDefragmentWithPaging ≠ 0 : Bool) = true).mp allows)

end Ready

end PeachOS
