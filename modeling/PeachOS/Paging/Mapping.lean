/-
**Runs of `paging_map` from `paging_desc_new`.**

`PagingState` is a descriptor with the kernel it lives in and the pages that were mapped; a step is a call
of `paging_map` whose tables come fresh from the allocator (`MapsFresh`).

* `tables_of_reachable` — in every run the tables form a tree, and mapped pages have their page tables;
* `pagingMap_walk` — after any run, `paging_map` sets the leaf that the processor finds for its page, and
  the walks of all other pages are as before;
* `pagingDescNew_inHeap` — the kernel heap serves `paging_desc_new` while two blocks are spare.
-/

import PeachOS.Lib.StepRun
import PeachOS.Paging.Walk

namespace PeachOS

open ByteStore RadixTable
open SpanTable (Span)
open StepRun (Reachable)

/-! ### Runs of `paging_map` -/

/-- `sizeof(struct paging_desc)`. -/
def sizeofPagingDesc : Nat := 9

/-- `PAGING_MAP_LEVEL_4`. -/
def pagingMapLevel4 : Nat := 4

def pagingMapLevelIsValid (level : Nat) : Bool := level = pagingMapLevel4

def pagingPml4EntriesNew (k : Kernel) : Nat × Kernel :=
  kzalloc k (sizeofPagingDescEntry * pagingTotalEntriesPerTable)

/-- `paging_desc_new`; `none` for `NULL`. -/
def pagingDescNew (k : Kernel) (rootMapLevel : Nat) : Option PagingDesc × Kernel :=
  if !pagingMapLevelIsValid rootMapLevel then (none, k)
  else
    let desc := kzalloc k sizeofPagingDesc
    if desc.1 = 0 then (none, desc.2)
    else
      let pml := pagingPml4EntriesNew desc.2
      (some { pml := pml.1, level := rootMapLevel }, pml.2)

/-- A descriptor, the kernel it lives in and the pages that were mapped in it. -/
structure PagingState where
  kernel : Kernel
  desc : PagingDesc
  mapped : Set Nat

/-- A call of `paging_map`. -/
structure MapRequest where
  virt : Nat
  phys : Nat
  flags : BitVec 32

namespace PagingState

/-- A descriptor of `paging_desc_new`. -/
def Initial (σ : PagingState) : Prop :=
  ∃ k level, pagingDescNew k level = (some σ.desc, σ.kernel) ∧ FreshTable (kzalloc k sizeofPagingDesc).2 ∅ ∧
    σ.mapped = ∅

def map (σ : PagingState) (request : MapRequest) : PagingState where
  kernel := (pagingMap σ.kernel σ.desc request.virt request.phys request.flags).2
  desc := σ.desc
  mapped := insert (pageNumber request.virt) σ.mapped

/-- A call of `paging_map` whose tables come fresh from the allocator. -/
def mapStep (σ : PagingState) (request : MapRequest) (σ' : PagingState) : Prop :=
  MapsFresh σ.kernel σ.desc request.virt ∧ σ' = σ.map request

/-- **The invariant of the runs**: a tree of tables, in which the mapped pages have their page tables. -/
structure Tables (σ : PagingState) : Prop where
  tree : TableTree σ.kernel.mem σ.desc
  mapped : ∀ va, pageNumber va ∈ σ.mapped → ∃ table, ReachedTable σ.kernel.mem σ.desc (pagePath va) table

end PagingState

open PagingState

/-- A root table without entries. -/
theorem tableTree_root {mem : Memory} {desc : PagingDesc} (aligned : desc.pml % pagingPageSize = 0)
    (cleared : ∀ digit < pagingTotalEntriesPerTable, tableRead mem desc.pml digit = 0) :
    TableTree mem desc ∧ ∀ path table, ReachedTable mem desc path table → path = [] ∧ table = desc.pml := by
  have only : ∀ path table, ReachedTable mem desc path table → path = [] ∧ table = desc.pml := by
    rintro path table ⟨_, digits, walks⟩
    cases path with
    | nil =>
        rw [walk, Option.some.injEq] at walks
        exact ⟨rfl, walks.symm⟩
    | cons digit path =>
        rw [walk, cleared digit (digits digit List.mem_cons_self)] at walks
        cases walks
  refine ⟨⟨tree_of_reached fun path path' table one two => ?_, aligned, fun path table reached _ digit inside => ?_⟩,
    only⟩
  · rw [(only path table one).1, (only path' table two).1]
  · rw [(only path table reached).2]
    exact Or.inl (cleared digit inside)

/-- The memory with one more table. -/
def linkTable (mem : Memory) (table digit next : Nat) : Memory :=
  setEntryAt mem (table + sizeofPagingDescEntry * digit) (entrySet 0 (next / 2 ^ 12) true true true)

/-- **The next page becomes the next table.** -/
theorem linkTable_next {mem : Memory} {desc : PagingDesc} {path : List Nat} {table low : Nat} (digit : Nat)
    (tables : TableTree mem desc) (reached : ReachedTable mem desc path table) (above : path.length < 3)
    (inside : digit < pagingTotalEntriesPerTable)
    (inUse : ∀ path' table', ReachedTable mem desc path' table' → low ≤ table' ∧ table' ≤ table)
    (physical : table + pagingPageSize < 2 ^ 52) (cleared : ∀ a, table ≤ a → mem a = 0x00#8) :
    TableTree (linkTable mem table digit (table + pagingPageSize)) desc ∧
      ReachedTable (linkTable mem table digit (table + pagingPageSize)) desc (path ++ [digit]) (table + pagingPageSize) ∧
      (∀ path' table', ReachedTable (linkTable mem table digit (table + pagingPageSize)) desc path' table' →
        low ≤ table' ∧ table' ≤ table + pagingPageSize) ∧
      ∀ a, table + pagingPageSize ≤ a → linkTable mem table digit (table + pagingPageSize) a = 0x00#8 := by
  have aligned := tables.table_aligned reached
  have bound := (inUse _ _ reached).1
  have zero : ∀ table' ≥ table, ∀ digit', tableRead mem table' digit' = 0 := fun table' high digit' =>
    readWord_eq_zero fun offset _ => cleared _ (by omega)
  simp only [pagingPageSize, pagingTotalEntriesPerTable] at aligned inside physical ⊢
  have alignedNext : (table + 4096) % pagingPageSize = 0 := by
    simp only [pagingPageSize]
    omega
  have step := tables.link reached above inside (zero table le_rfl digit) alignedNext physical
    (fun digit' _ => zero _ (by omega) digit') fun ⟨path', reached'⟩ => absurd (inUse path' _ reached').2 (by omega)
  refine ⟨step.tables, step.reached, fun path' table' reached' => ?_, fun a high => ?_⟩
  · rcases step.only path' table' reached' with old | rfl
    · have range := inUse path' table' old
      omega
    · omega
  · refine (writeWord_outside ?_).trans (cleared a (by omega))
    simp only [sizeofPagingDescEntry]
    omega

/-- The memory with tables in the three pages behind a root. -/
def linkThree (mem : Memory) (root first second third : Nat) : Memory :=
  linkTable (linkTable (linkTable mem root first (root + pagingPageSize)) (root + pagingPageSize) second
    (root + pagingPageSize + pagingPageSize)) (root + pagingPageSize + pagingPageSize) third
    (root + pagingPageSize + pagingPageSize + pagingPageSize)

/-- **They are a path of tables**, if the memory is clear from the root on. -/
theorem linkThree_tables {mem : Memory} {desc : PagingDesc} {first second third : Nat}
    (aligned : desc.pml % pagingPageSize = 0) (physical : desc.pml + pagingPageSize + pagingPageSize + pagingPageSize < 2 ^ 52)
    (inside : first < pagingTotalEntriesPerTable ∧ second < pagingTotalEntriesPerTable ∧ third < pagingTotalEntriesPerTable)
    (cleared : ∀ a, desc.pml ≤ a → mem a = 0x00#8) :
    TableTree (linkThree mem desc.pml first second third) desc ∧
      ReachedTable (linkThree mem desc.pml first second third) desc [first, second, third]
        (desc.pml + pagingPageSize + pagingPageSize + pagingPageSize) ∧
      (∀ path table, ReachedTable (linkThree mem desc.pml first second third) desc path table →
        desc.pml ≤ table ∧ table ≤ desc.pml + pagingPageSize + pagingPageSize + pagingPageSize) ∧
      ∀ a, desc.pml + pagingPageSize + pagingPageSize + pagingPageSize ≤ a →
        linkThree mem desc.pml first second third a = 0x00#8 := by
  unfold linkThree
  obtain ⟨tree, only⟩ := tableTree_root aligned fun digit _ => readWord_eq_zero fun offset _ =>
    cleared _ ((Nat.le_add_right _ _).trans (Nat.le_add_right _ _))
  have inUse : ∀ path table, ReachedTable mem desc path table → desc.pml ≤ table ∧ table ≤ desc.pml :=
    fun path table reached => (only path table reached).2 ▸ ⟨le_rfl, le_rfl⟩
  obtain ⟨tree₁, reached₁, inUse₁, cleared₁⟩ := linkTable_next first tree tree.tree.root (by decide) inside.1 inUse
    (lt_of_le_of_lt ((Nat.le_add_right _ _).trans (Nat.le_add_right _ _)) physical) cleared
  obtain ⟨tree₂, reached₂, inUse₂, cleared₂⟩ := linkTable_next second tree₁ reached₁ (by simp) inside.2.1 inUse₁
    (lt_of_le_of_lt (Nat.le_add_right _ _) physical) cleared₁
  exact linkTable_next third tree₂ reached₂ (by simp) inside.2.2 inUse₂ physical cleared₂

/-- What `paging_desc_new` returns. -/
theorem pagingDescNew_eq {k k' : Kernel} {level : Nat} {desc : PagingDesc}
    (created : pagingDescNew k level = (some desc, k')) :
    kzalloc (kzalloc k sizeofPagingDesc).2 (sizeofPagingDescEntry * pagingTotalEntriesPerTable) = (desc.pml, k') := by
  unfold pagingDescNew at created
  split at created
  · cases created
  · dsimp only at created
    split at created
    · cases created
    · rw [Prod.mk.injEq, Option.some.injEq] at created
      rw [← created.1, ← created.2]
      rfl

/-- The root table of a new descriptor is a page of null entries. -/
theorem cleared_initial {σ : PagingState} (begun : σ.Initial) :
    σ.desc.pml % pagingPageSize = 0 ∧
      ∀ digit < pagingTotalEntriesPerTable, tableRead σ.kernel.mem σ.desc.pml digit = 0 := by
  obtain ⟨k, level, created, fresh, _⟩ := begun
  have root := pagingDescNew_eq created
  have aligned := fresh.aligned
  have cleared := fun digit (inside : digit < pagingTotalEntriesPerTable) => fresh.tableRead_fresh inside
  rw [root] at aligned cleared
  exact ⟨aligned, cleared⟩

theorem tables_initial {σ : PagingState} (begun : σ.Initial) : σ.Tables := by
  obtain ⟨aligned, cleared⟩ := cleared_initial begun
  obtain ⟨_, _, _, _, none⟩ := begun
  refine ⟨(tableTree_root aligned cleared).1, fun va member => ?_⟩
  rw [none] at member
  exact absurd member (Set.notMem_empty _)

theorem tables_mapStep {σ σ' : PagingState} {request : MapRequest} (tables : σ.Tables)
    (taken : mapStep σ request σ') : σ'.Tables := by
  obtain ⟨allocated, rfl⟩ := taken
  obtain ⟨tree, page, kept, _⟩ := pagingMap_tree tables.tree allocated request.phys request.flags
  refine ⟨tree, fun va member => ?_⟩
  rcases member with new | old
  · rw [((pageNumber_eq_iff va request.virt).mp new).1]
    exact page
  · obtain ⟨table, reached⟩ := tables.mapped va old
    exact ⟨table, kept _ _ reached⟩

/-- The tables of every run form a tree. -/
theorem tables_of_reachable {σ : PagingState} (reachable : Reachable mapStep Initial σ) : σ.Tables :=
  reachable.invariant Tables (fun _ => tables_initial) fun _ _ _ => tables_mapStep

/-- The walk to a page table that is reached. -/
theorem pageWalk_of_reached {mem : Memory} {desc : PagingDesc} (tables : TableTree mem desc) {va table : Nat}
    (reached : ReachedTable mem desc (pagePath va) table) : pageWalk mem desc va = some (pageEntry mem desc va) := by
  rw [tables.pageWalk_eq]
  unfold pageEntry leaf
  rw [reached.2.2]
  rfl

/-- A walk that ends on a leaf has reached its page table. -/
theorem reached_of_pageWalk {mem : Memory} {desc : PagingDesc} (tables : TableTree mem desc) {va leaf : Nat}
    (walks : pageWalk mem desc va = some leaf) : ∃ table, ReachedTable mem desc (pagePath va) table := by
  rw [tables.pageWalk_eq, Option.map_eq_some_iff] at walks
  obtain ⟨table, walks, _⟩ := walks
  exact ⟨table, by simp [pagePath], pagePath_digits va, walks⟩

/-! ### A kernel with eight blocks -/

/-- **What `paging_desc_new` takes from the kernel heap**, while two blocks are spare: a chain for the descriptor, and one
for its root table. -/
theorem pagingDescNew_granted {k : Kernel} {chains : Set Span} (spare : Nat) (heap : KernelHeap k chains)
    (spares : SpareBlocks k chains (spare + 2)) :
    ∃ start root ptr desc k', pagingDescNew k pagingMapLevel4 = (some desc, k') ∧
      FreshTable (kzalloc k sizeofPagingDesc).2 ∅ ∧
      Granted k chains ⟨start, 1⟩ ptr (kzalloc k sizeofPagingDesc).2 ∧
      Granted (kzalloc k sizeofPagingDesc).2 (insert ⟨start, 1⟩ chains) ⟨root, 1⟩ desc.pml k' ∧
      SpareBlocks k' (insert ⟨root, 1⟩ (insert ⟨start, 1⟩ chains)) spare ∧
      TablesInHeap k' desc (insert ⟨root, 1⟩ (insert ⟨start, 1⟩ chains)) ∧
      ∀ path table, ReachedTable k'.mem desc path table → table = desc.pml := by
  obtain ⟨start, granted, _, spares₁⟩ := kzalloc_spare (spare + 1) heap spares
    (show sizeofPagingDesc < 2 ^ 64 by decide) (by decide)
  obtain ⟨root, grantedRoot, cleared, spares₀⟩ := kzalloc_spare spare granted.heap spares₁
    (show sizeofPagingDescEntry * pagingTotalEntriesPerTable < 2 ^ 64 by norm_num) (by decide)
  have fresh : FreshTable (kzalloc k sizeofPagingDesc).2 ∅ :=
    .of_granted granted.heap (fun _ member => absurd member (Set.notMem_empty _)) grantedRoot cleared
  have succeeded : (kzalloc k sizeofPagingDesc).1 ≠ 0 := by
    rw [granted.pointer]
    exact (heap.address_pos _).ne'
  have created : pagingDescNew k pagingMapLevel4 =
      (some ⟨(pagingPml4EntriesNew (kzalloc k sizeofPagingDesc).2).1, pagingMapLevel4⟩,
        (pagingPml4EntriesNew (kzalloc k sizeofPagingDesc).2).2) := by
    unfold pagingDescNew
    rw [if_neg (by decide)]
    simp only [succeeded, if_false]
  obtain ⟨tree, only⟩ := tableTree_root
    (show (PagingDesc.mk (pagingPml4EntriesNew (kzalloc k sizeofPagingDesc).2).1 pagingMapLevel4).pml % pagingPageSize = 0
      from fresh.aligned) fun digit inside => fresh.tableRead_fresh inside
  refine ⟨start, root, _, _, _, created, fresh, granted, grantedRoot, spares₀,
    ⟨grantedRoot.heap, tree, fun path table reached => ?_⟩, fun path table reached => (only path table reached).2⟩
  rw [(only path table reached).2]
  exact ⟨_, Set.mem_insert _ _, grantedRoot.pointer.trans grantedRoot.same.address.symm⟩

/-- **The kernel heap serves `paging_desc_new`** while two blocks are spare. -/
theorem pagingDescNew_inHeap {k : Kernel} {chains : Set Span} (spare : Nat) (heap : KernelHeap k chains)
    (spares : SpareBlocks k chains (spare + 2)) :
    ∃ desc k', pagingDescNew k pagingMapLevel4 = (some desc, k') ∧
      FreshTable (kzalloc k sizeofPagingDesc).2 ∅ ∧
      ∃ chains', TablesInHeap k' desc chains' ∧ SpareBlocks k' chains' spare := by
  obtain ⟨_, _, _, desc, k', created, fresh, _, _, spares₀, inHeap, _⟩ := pagingDescNew_granted spare heap spares
  exact ⟨desc, k', created, fresh, _, inHeap, spares₀⟩

/-- A kernel whose heap has eight free blocks. -/
def eightBlocks : Kernel where
  mem := fun _ => 0x00#8
  heaps := fun _ =>
    { table := { entries := 0x1000, total := 8 }, saddr := 0x100000, eaddr := 0x108000, totalBlocks := 8,
      freeBlocks := 8, usedBlocks := 0, blockAllocatedCallback := false, blockFreeCallback := false }
  multiheap :=
    { startingHeap := .kernelMinimalHeap, heaps := [⟨.kernelMinimalHeap, none, multiheapHeapFlagExternallyOwned⟩],
      maxEndDataAddr := 0x108000, flags := multiheapFlagIsReady, totalHeaps := 1 }
  calls := []

theorem kernelHeap_eightBlocks : KernelHeap eightBlocks ∅ where
  list := ⟨_, rfl⟩
  top := by decide
  physical := by decide
  sound := ⟨by decide, by decide, by decide, by decide, by decide, by decide, by decide, by decide⟩
  decodes := .empty fun _ _ => rfl

/-- Its first descriptor: the descriptor takes the first block, the root table the second. -/
def firstDescriptor : PagingState where
  kernel := (pagingDescNew eightBlocks pagingMapLevel4).2
  desc := { pml := 0x101000, level := pagingMapLevel4 }
  mapped := ∅

theorem firstDescriptor_inHeap : firstDescriptor.Initial ∧
    ∃ chains, TablesInHeap firstDescriptor.kernel firstDescriptor.desc chains ∧
      SpareBlocks firstDescriptor.kernel chains 6 := by
  obtain ⟨desc, k', created, fresh, chains, tables, spares⟩ :=
    pagingDescNew_inHeap 6 kernelHeap_eightBlocks ⟨∅, by decide, fun _ member => absurd member (Set.notMem_empty _)⟩
  have evaluated : (pagingDescNew eightBlocks pagingMapLevel4).1 = some firstDescriptor.desc := by decide +kernel
  have descEq : desc = firstDescriptor.desc := by
    rw [created, Option.some.injEq] at evaluated
    exact evaluated
  have kernelEq : firstDescriptor.kernel = k' := congrArg Prod.snd created
  rw [← descEq, kernelEq]
  refine ⟨⟨eightBlocks, pagingMapLevel4, ?_, fresh, rfl⟩, chains, tables, spares⟩
  rw [created, ← descEq, kernelEq]

/-! ### The theorem -/

/-- **`paging_map` maps its page and no other**, after every run of `paging_map` from `paging_desc_new`.
A walk that stops at a missing table and one that ends on a null leaf fault alike: both count as null. -/
theorem pagingMap_walk {σ : PagingState} (reachable : Reachable mapStep Initial σ) (request : MapRequest)
    (allocated : MapsFresh σ.kernel σ.desc request.virt) (physical : request.phys < 2 ^ 52) :
    (∀ va, pageNumber va = pageNumber request.virt →
      ∃ leaf, pageWalk (σ.map request).kernel.mem σ.desc va = some leaf ∧
        entryAddress leaf = request.phys / 2 ^ 12 ∧
        entryPresent leaf = decide (request.flags &&& pagingIsPresent ≠ 0) ∧
        entryReadWrite leaf = decide (request.flags &&& pagingIsWriteable ≠ 0) ∧
        entryUserSupervisor leaf = decide (request.flags &&& pagingAccessFromAll ≠ 0)) ∧
      ∀ va, pageNumber va ≠ pageNumber request.virt →
        (pageWalk (σ.map request).kernel.mem σ.desc va).getD 0 = (pageWalk σ.kernel.mem σ.desc va).getD 0 ∧
        ∀ leaf, pageWalk σ.kernel.mem σ.desc va = some leaf →
          pageWalk (σ.map request).kernel.mem σ.desc va = some leaf := by
  have tables := tables_of_reachable reachable
  have tables' := tables_mapStep tables ⟨allocated, rfl⟩
  obtain ⟨_, _, kept, leaves⟩ := pagingMap_tree tables.tree allocated request.phys request.flags
  change ∀ va, pageEntry (σ.map request).kernel.mem σ.desc va = _ at leaves
  refine ⟨fun va same => ?_, fun va different => ?_⟩
  · obtain ⟨table, reached⟩ := tables'.mapped va (Or.inl same)
    refine ⟨_, pageWalk_of_reached tables'.tree reached, ?_⟩
    have set_ : pageEntry (σ.map request).kernel.mem (σ.map request).desc va =
        leafSet (pageEntry σ.kernel.mem σ.desc request.virt) request.phys request.flags :=
      (leaves va).trans (if_pos same)
    rw [set_, leafSet]
    refine ⟨?_, entryPresent_set _ _ _ _ _, entryReadWrite_set _ _ _ _ _, entryUserSupervisor_set _ _ _ _ _⟩
    rw [entryAddress_set]
    exact Nat.mod_eq_of_lt (by omega)
  · have unchanged := leaves va
    rw [if_neg different] at unchanged
    refine ⟨?_, fun leaf walks => ?_⟩
    · rw [tables.tree.getD_pageWalk, ← unchanged]
      exact tables'.tree.getD_pageWalk va
    · obtain ⟨table, reached⟩ := reached_of_pageWalk tables.tree walks
      rw [pageWalk_of_reached tables.tree reached] at walks
      rw [← walks, ← unchanged]
      exact pageWalk_of_reached tables'.tree (kept _ _ reached)

/-- The first page of a descriptor: three tables are allocated for it. -/
theorem pagingMap_walk_firstPage :
    (∃ leaf, pageWalk (firstDescriptor.map ⟨0x40000000, 0x5000, 0b011#32⟩).kernel.mem firstDescriptor.desc 0x40000fff =
        some leaf ∧ entryAddress leaf = 5 ∧ entryPresent leaf = true ∧ entryReadWrite leaf = true ∧
        entryUserSupervisor leaf = false) ∧
      (pageWalk (firstDescriptor.map ⟨0x40000000, 0x5000, 0b011#32⟩).kernel.mem firstDescriptor.desc 0x40001000).getD 0 =
        (pageWalk firstDescriptor.kernel.mem firstDescriptor.desc 0x40001000).getD 0 := by
  obtain ⟨begun, chains, tables, spares⟩ := firstDescriptor_inHeap
  have walks := pagingMap_walk (.start begun) ⟨0x40000000, 0x5000, 0b011#32⟩
    (pagingMap_inHeap 3 tables spares 0x40000000 0x5000 0b011#32).1 (by decide)
  obtain ⟨leaf, found, frame, present, writable, user⟩ := walks.1 0x40000fff (by decide)
  exact ⟨⟨leaf, found, frame, present, writable, user⟩, (walks.2 0x40001000 (by decide)).1⟩

end PeachOS
