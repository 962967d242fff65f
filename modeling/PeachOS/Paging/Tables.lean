/-
**Page tables that the kernel heap keeps apart.**

`PageTables` says that the tables of a descriptor form a radix tree (`RadixTable.Tree`): every table is a
chain of the kernel heap, held under the path of indexes that leads to it, and every link above the page
tables is present, writable and accessible from user mode. `pageEntry` is the leaf entry of the page of an
address, null when a table is missing.

* `pagingTable_spec` — one level: the table exists or a fresh one is linked, and no leaf changes;
* `pagingMap_spec` — the leaf of the mapped page is set, every other leaf is unchanged;
* `pagingMapRange_spec` — the same for a range of pages, whatever it wraps around.

All of them rely on the allocations of tables they make (`PagingMapAllocates`).
-/

import PeachOS.Kheap.Ledger
import PeachOS.Lib.RadixTable
import PeachOS.Paging.Model
import Mathlib.Data.Set.Function

namespace PeachOS

open ByteStore RadixTable
open SpanTable (Span)

/-! ### The tables of a descriptor -/

/-- The table an entry refers to. -/
def tableChild (entry : Nat) : Option Nat := if entry = 0 then none else some (entryAddress entry * 2 ^ 12)

/-- The entry of a table at an index. -/
def tableRead (mem : Memory) (table digit : Nat) : Nat := entryAt mem (table + sizeofPagingDescEntry * digit)

/-- The indexes that lead to the page table of an address. -/
def pagePath (va : Nat) : List Nat := [tableIndex va 3, tableIndex va 2, tableIndex va 1]

/-- **The leaf entry of the page of an address**, null when a table is missing. -/
def pageEntry (mem : Memory) (desc : PagingDesc) (va : Nat) : Nat :=
  leaf tableChild (tableRead mem) 0 desc.pml (pagePath va) (tableIndex va 0)

/-- The number of a page: the 36 bits that the four levels look at. -/
def pageNumber (va : Nat) : Nat := va / pagingPageSize % 2 ^ 36

section Tables

variable {Holder : Type}

/-- A table that is a chain held under a path. -/
def HeldTable (k : Kernel) (ledger : Ledger Holder) (holder : List Nat → Holder) (path : List Nat)
    (table : Nat) : Prop :=
  ∃ chain, ledger.Holds (holder path) chain ∧ table = k.address chain

/-- **The page tables of a descriptor.** -/
structure PageTables (k : Kernel) (ledger : Ledger Holder) (holder : List Nat → Holder) (desc : PagingDesc) :
    Prop where
  tree : Tree tableChild (tableRead k.mem) pagingTotalEntriesPerTable 3 (HeldTable k ledger holder) desc.pml
  links : ∀ path table, HeldTable k ledger holder path table → path.length < 3 →
    ∀ digit < pagingTotalEntriesPerTable, tableRead k.mem table digit = 0 ∨
      entryPresent (tableRead k.mem table digit) = true ∧ entryReadWrite (tableRead k.mem table digit) = true ∧
        entryUserSupervisor (tableRead k.mem table digit) = true

end Tables

theorem tableIndex_lt (va level : Nat) : tableIndex va level < pagingTotalEntriesPerTable :=
  Nat.mod_lt _ (by decide)

theorem pagePath_digits (va : Nat) : ∀ digit ∈ pagePath va, digit < pagingTotalEntriesPerTable := by
  intro digit member
  simp only [pagePath, List.mem_cons, List.not_mem_nil, or_false] at member
  rcases member with rfl | rfl | rfl <;> exact tableIndex_lt _ _

/-- Addresses of one page are those with the same indexes. -/
theorem pageNumber_eq_iff (va va' : Nat) :
    pageNumber va = pageNumber va' ↔ pagePath va = pagePath va' ∧ tableIndex va 0 = tableIndex va' 0 := by
  -- A page number has the indexes as its digits.
  have digits (a : Nat) : pageNumber a =
      tableIndex a 0 + 512 * (tableIndex a 1 + 512 * (tableIndex a 2 + 512 * tableIndex a 3)) := by
    unfold pageNumber tableIndex
    simp only [pagingPageSize, pagingTotalEntriesPerTable]
    rw [show 2 ^ 36 = 512 * (512 * (512 * 512)) by norm_num, Nat.mod_mul, Nat.mod_mul, Nat.mod_mul]
    simp only [Nat.div_div_eq_div_mul]
    norm_num
  have low (level : Nat) := And.intro (tableIndex_lt va level) (tableIndex_lt va' level)
  simp only [pagingTotalEntriesPerTable] at low
  have low₀ := low 0
  have low₁ := low 1
  have low₂ := low 2
  rw [digits, digits, pagePath, pagePath]
  simp only [List.cons.injEq, and_true]
  omega

theorem entryAt_lt (mem : Memory) (entry : Nat) : entryAt mem entry < 2 ^ 64 := by
  have bound := @readWord_lt mem entry sizeofPagingDescEntry
  unfold entryAt
  exact bound.trans_eq (by norm_num)

theorem entryAt_setEntryAt {mem : Memory} {entry value : Nat} (word : value < 2 ^ 64) :
    entryAt (setEntryAt mem entry value) entry = value :=
  readWord_writeWord (word.trans_eq (by norm_num))

/-- Entries at other places of the tables are unchanged by a write. -/
theorem entryAt_setEntryAt_apart {mem : Memory} {entry entry' value : Nat}
    (apart : entry' + sizeofPagingDescEntry ≤ entry ∨ entry + sizeofPagingDescEntry ≤ entry') :
    entryAt (setEntryAt mem entry value) entry' = entryAt mem entry' :=
  readWord_writeWord_apart apart

theorem tableChild_zero : tableChild 0 = none := rfl

/-! ### One level -/

/-- The allocation of a missing table succeeds. -/
def TableAllocated (k : Kernel) (entry : Nat) : Prop :=
  pagingNullEntry (entryAt k.mem entry) = true →
    (kzalloc k (sizeofPagingDescEntry * pagingTotalEntriesPerTable)).1 ≠ 0

section Spec

variable {Holder : Type} {k k' : Kernel} {ledger ledger' : Ledger Holder} {holder : List Nat → Holder}
  {desc : PagingDesc} {path : List Nat} {chain : Span} {digit : Nat}

/-- The entries of a live chain. -/
theorem entry_inside {chains : Set Span} (heap : KernelHeap k chains) (live : chain ∈ chains)
    (inside : digit < pagingTotalEntriesPerTable) :
    sizeofPagingDescEntry * digit + sizeofPagingDescEntry ≤ chain.len * peachosHeapBlockSize := by
  have nonempty := heap.decodes.nonempty chain live
  simp only [sizeofPagingDescEntry, peachosHeapBlockSize, pagingTotalEntriesPerTable] at inside ⊢
  omega

/-- The entries of a kept chain are kept. -/
theorem tableRead_keeps (heap : KernelHeap k ledger.chains) (live : chain ∈ ledger.chains)
    (keeps : k.Keeps k' chain) (inside : digit < pagingTotalEntriesPerTable) :
    tableRead k'.mem (k.address chain) digit = tableRead k.mem (k.address chain) digit :=
  keeps.readWord (entry_inside heap live inside)

/-- Entries of held tables but the written one are unchanged. -/
theorem tableRead_write (heap : KernelHeap k ledger.chains) (live : chain ∈ ledger.chains)
    (inside : digit < pagingTotalEntriesPerTable) (value : Nat) {other : Span} (live' : other ∈ ledger.chains)
    {digit' : Nat} (inside' : digit' < pagingTotalEntriesPerTable)
    (different : k.address other ≠ k.address chain ∨ digit' ≠ digit) :
    tableRead (setEntryAt k.mem (k.address chain + sizeofPagingDescEntry * digit) value) (k.address other) digit' =
      tableRead k.mem (k.address other) digit' := by
  refine entryAt_setEntryAt_apart ?_
  have bound := entry_inside heap live inside
  have bound' := entry_inside heap live' inside'
  by_cases same : chain = other
  · subst same
    have digits : digit' ≠ digit := different.resolve_left fun h => h rfl
    simp only [sizeofPagingDescEntry]
    omega
  · have apart := KernelHeap.bytes_disjoint (k := k) (heap.disjoint live live' same)
    by_contra overlap
    rw [not_or] at overlap
    refine Set.disjoint_left.mp apart
      (show max (k.address chain + sizeofPagingDescEntry * digit)
        (k.address other + sizeofPagingDescEntry * digit') ∈ k.bytes chain from ⟨?_, ?_⟩) ⟨?_, ?_⟩ <;>
      simp only [sizeofPagingDescEntry] at * <;> omega

/-- A held table is written by its holder. -/
theorem grown_setEntry (heap : KernelHeap k ledger.chains) (held : ledger.Holds (holder path) chain)
    (inside : digit < pagingTotalEntriesPerTable) (value : Nat) :
    Grown (Set.range holder) k ledger
      { k with mem := setEntryAt k.mem (k.address chain + sizeofPagingDescEntry * digit) value } ledger :=
  .of_write heap held (Set.mem_range_self path) fun a outside => by
    have bound := entry_inside heap held.1 inside
    refine writeWord_outside ?_
    by_contra between
    exact outside ⟨by omega, by omega⟩

variable (heap : KernelHeap k ledger.chains) (tables : PageTables k ledger holder desc)
  (injective : Function.Injective holder) (held : ledger.Holds (holder path) chain)
  (inside : digit < pagingTotalEntriesPerTable)

include heap tables injective held inside

/-- **A missing table is allocated and linked**; no leaf changes. -/
theorem pagingTable_missing (above : path.length < 3)
    (digits : ∀ other ∈ path, other < pagingTotalEntriesPerTable)
    (walks : walk tableChild (tableRead k.mem) desc.pml path = some (k.address chain))
    (null : tableRead k.mem (k.address chain) digit = 0)
    (allocated : (kzalloc k (sizeofPagingDescEntry * pagingTotalEntriesPerTable)).1 ≠ 0) :
    ∃ ledger' chain',
      Grown (Set.range holder) k ledger
        (pagingTable k (k.address chain + sizeofPagingDescEntry * digit)).2 ledger' ∧
      PageTables (pagingTable k (k.address chain + sizeofPagingDescEntry * digit)).2 ledger' holder desc ∧
      ledger'.Holds (holder (path ++ [digit])) chain' ∧
      (pagingTable k (k.address chain + sizeofPagingDescEntry * digit)).1 = k.address chain' ∧
      walk tableChild (tableRead (pagingTable k (k.address chain + sizeofPagingDescEntry * digit)).2.mem)
        desc.pml (path ++ [digit]) = some (k.address chain') ∧
      ∀ va, pageEntry (pagingTable k (k.address chain + sizeofPagingDescEntry * digit)).2.mem desc va =
        pageEntry k.mem desc va := by
  obtain ⟨start, granted, cleared⟩ := (kzalloc_cases heap
    (show sizeofPagingDescEntry * pagingTotalEntriesPerTable < 2 ^ 64 by norm_num)).resolve_left
    fun failed => allocated (by rw [failed])
  have isNull : pagingNullEntry (entryAt k.mem (k.address chain + sizeofPagingDescEntry * digit)) = true :=
    decide_eq_true null
  unfold pagingTable
  simp only [isNull, if_true]
  generalize kzalloc k (sizeofPagingDescEntry * pagingTotalEntriesPerTable) = table at granted cleared
  obtain ⟨ptr, after⟩ := table
  simp only at granted cleared ⊢
  have one : heapBlocks (sizeofPagingDescEntry * pagingTotalEntriesPerTable) = 1 := by decide
  rw [one] at granted
  set fresh : Span := ⟨start, 1⟩ with freshEq
  set ledger' := ledger.grant (some (holder (path ++ [digit]))) fresh with ledgerEq
  have pointer : ptr = k.address fresh := granted.pointer
  have same := granted.same
  -- the allocation, seen as a step of the holder of the tables
  have grown : Grown (Set.range holder) k ledger after ledger' := .of_granted heap granted ⟨_, rfl⟩
  have heap' : KernelHeap after ledger'.chains := grown.heap
  have held' : ledger'.Holds (holder path) chain := grown.holds held
  have heldFresh : ledger'.Holds (holder (path ++ [digit])) fresh := Ledger.holds_grant _ _
  have kept : ∀ other ∈ ledger.chains, ∀ place < pagingTotalEntriesPerTable,
      tableRead after.mem (k.address other) place = tableRead k.mem (k.address other) place :=
    fun other live place below => tableRead_keeps heap live (granted.kept other live) below
  have oldEntry : entryAt after.mem (k.address chain + sizeofPagingDescEntry * digit) = 0 :=
    (kept chain held.1 digit inside).trans null
  rw [oldEntry]
  set value := entrySet 0 (ptr / 2 ^ 12) true true true with valueEq
  have word : value < 2 ^ 64 := entrySet_lt (by norm_num) _ _ _ _
  -- the address of the fresh table fits the entry
  have range := heap'.bytes_in_heap heldFresh.1
  have lenEq : fresh.len = 1 := rfl
  have physical := heap'.physical
  have aligned := heap.address_aligned fresh
  rw [same.address] at range
  rw [← pointer] at aligned range
  simp only [peachosHeapBlockSize, lenEq] at aligned range
  have addressEq : entryAddress value * 2 ^ 12 = ptr := by
    rw [valueEq, entryAddress_set, Nat.mod_eq_of_lt (by omega)]
    omega
  have valueNe : value ≠ 0 := by
    have bit : entryPresent value = true := entryPresent_set _ _ _ _ _
    rintro zero
    rw [zero] at bit
    exact absurd bit (by decide)
  have link : tableChild value = some ptr := by
    unfold tableChild
    rw [if_neg valueNe, addressEq]
  have grown' := grown_setEntry heap' held' inside value
  rw [same.address] at grown'
  set mem' := setEntryAt after.mem (k.address chain + sizeofPagingDescEntry * digit) value with memEq
  have written : tableRead mem' (k.address chain) digit = value := entryAt_setEntryAt word
  have others : ∀ other ∈ ledger'.chains, ∀ place < pagingTotalEntriesPerTable,
      (k.address other ≠ k.address chain ∨ place ≠ digit) →
        tableRead mem' (k.address other) place = tableRead after.mem (k.address other) place := by
    intro other live place below different
    have unchanged := tableRead_write heap' held'.1 inside value live below
    rw [same.address, same.address] at unchanged
    exact unchanged different
  have apart : fresh.start ≠ chain.start := fun equal => by
    have inFresh := Span.start_mem granted.nonempty
    rw [equal] at inFresh
    exact Span.not_disjoint inFresh (Span.start_mem (heap.decodes.nonempty chain held.1))
      (granted.apart chain held.1)
  have addressNe : k.address fresh ≠ k.address chain := by
    unfold Kernel.address chainAddress
    simp only [peachosHeapBlockSize]
    omega
  have clearedEntries : ∀ place < pagingTotalEntriesPerTable, tableRead mem' ptr place = 0 := by
    intro place below
    rw [pointer, others fresh heldFresh.1 place below (Or.inl addressNe), ← pointer]
    refine readWord_eq_zero fun offset small => ?_
    rw [Nat.add_assoc]
    refine cleared _ (lt_min ?_ ?_) <;>
      simp only [sizeofPagingDescEntry, pagingTotalEntriesPerTable] at small below ⊢ <;> omega
  have unchanged : ∀ path' table, HeldTable k ledger holder path' table →
      ∀ place < pagingTotalEntriesPerTable, (table ≠ k.address chain ∨ place ≠ digit) →
        tableRead mem' table place = tableRead k.mem table place := by
    rintro path' table ⟨other, heldOther, rfl⟩ place below different
    rw [others other (grown.chains heldOther.1) place below different]
    exact kept other heldOther.1 place below
  have label : HeldTable k ledger holder path (k.address chain) := ⟨chain, held, rfl⟩
  have wasNull : tableChild (tableRead k.mem (k.address chain) digit) = none := by rw [null]; rfl
  have nowLinked : tableChild (tableRead mem' (k.address chain) digit) = some ptr := by rw [written, link]
  have labels : ∀ path' table, HeldTable { after with mem := mem' } ledger' holder path' table ↔
      HeldTable k ledger holder path' table ∨ path' = path ++ [digit] ∧ table = ptr := by
    intro path' table
    constructor
    · rintro ⟨other, heldOther, rfl⟩
      rcases heldOther.1 with rfl | live
      · exact Or.inr ⟨injective (heldOther.unique heldFresh), same.address.trans pointer.symm⟩
      · exact Or.inl ⟨other, ⟨live, (grown.holder other live).symm.trans heldOther.2⟩, same.address⟩
    · rintro (⟨other, heldOther, rfl⟩ | ⟨rfl, rfl⟩)
      · exact ⟨other, grown.holds heldOther, same.address.symm⟩
      · exact ⟨fresh, heldFresh, pointer.trans same.address.symm⟩
  have unlabelled : ∀ path', ¬ HeldTable k ledger holder path' ptr := by
    rintro path' ⟨other, heldOther, equal⟩
    rw [pointer] at equal
    have sameStart : fresh.start = other.start := by
      unfold Kernel.address chainAddress at equal
      simp only [peachosHeapBlockSize] at equal
      omega
    have inFresh := Span.start_mem granted.nonempty
    rw [sameStart] at inFresh
    exact Span.not_disjoint inFresh (Span.start_mem (heap.decodes.nonempty other heldOther.1))
      (granted.apart other heldOther.1)
  have tree := tables.tree.tree_link label wasNull nowLinked tableChild_zero clearedEntries unchanged
    unlabelled labels
  refine ⟨ledger', fresh, grown.trans grown', ⟨tree, ?_⟩, heldFresh, ?_, ?_, fun va => ?_⟩
  · intro path' table label' above' place below
    rcases (labels path' table).mp label' with old | ⟨_, rfl⟩
    · by_cases here : table = k.address chain ∧ place = digit
      · obtain ⟨rfl, rfl⟩ := here
        right
        show entryPresent (tableRead mem' _ _) = true ∧ entryReadWrite (tableRead mem' _ _) = true ∧
          entryUserSupervisor (tableRead mem' _ _) = true
        rw [written]
        exact ⟨entryPresent_set _ _ _ _ _, entryReadWrite_set _ _ _ _ _, entryUserSupervisor_set _ _ _ _ _⟩
      · have keptEntry := unchanged path' table old place below (by
          by_cases equal : table = k.address chain
          · exact Or.inr fun equal' => here ⟨equal, equal'⟩
          · exact Or.inl equal)
        show tableRead mem' table place = 0 ∨ entryPresent (tableRead mem' table place) = true ∧
          entryReadWrite (tableRead mem' table place) = true ∧
            entryUserSupervisor (tableRead mem' table place) = true
        rw [keptEntry]
        exact tables.links path' table old above' place below
    · exact Or.inl (clearedEntries place below)
  · show entryAddress (entryAt mem' _) * 2 ^ 12 = _
    rw [show entryAt mem' (k.address chain + sizeofPagingDescEntry * digit) = value from written, addressEq,
      pointer]
  · have onPath := tables.tree.walk_link label above unchanged digits
    rw [walks] at onPath
    rw [Tree.walk_append onPath, nowLinked, pointer]
  · exact tables.tree.leaf_link label above wasNull nowLinked tableChild_zero clearedEntries unchanged
      tables.tree.root (by simp [pagePath]) (pagePath_digits va) (tableIndex_lt va 0)

/-- **One level**: the table of an entry exists, or a fresh one is linked; no leaf changes. -/
theorem pagingTable_spec (above : path.length < 3)
    (digits : ∀ other ∈ path, other < pagingTotalEntriesPerTable)
    (walks : walk tableChild (tableRead k.mem) desc.pml path = some (k.address chain))
    (allocated : TableAllocated k (k.address chain + sizeofPagingDescEntry * digit)) :
    ∃ ledger' chain',
      Grown (Set.range holder) k ledger
        (pagingTable k (k.address chain + sizeofPagingDescEntry * digit)).2 ledger' ∧
      PageTables (pagingTable k (k.address chain + sizeofPagingDescEntry * digit)).2 ledger' holder desc ∧
      ledger'.Holds (holder (path ++ [digit])) chain' ∧
      (pagingTable k (k.address chain + sizeofPagingDescEntry * digit)).1 = k.address chain' ∧
      walk tableChild (tableRead (pagingTable k (k.address chain + sizeofPagingDescEntry * digit)).2.mem)
        desc.pml (path ++ [digit]) = some (k.address chain') ∧
      ∀ va, pageEntry (pagingTable k (k.address chain + sizeofPagingDescEntry * digit)).2.mem desc va =
        pageEntry k.mem desc va := by
  by_cases null : tableRead k.mem (k.address chain) digit = 0
  · exact pagingTable_missing heap tables injective held inside above digits walks null
      (allocated (decide_eq_true null))
  · have notNull : pagingNullEntry (entryAt k.mem (k.address chain + sizeofPagingDescEntry * digit)) = false :=
      decide_eq_false null
    have link : tableChild (tableRead k.mem (k.address chain) digit) =
        some (entryAddress (tableRead k.mem (k.address chain) digit) * 2 ^ 12) := if_neg null
    obtain ⟨chain', held', addressEq⟩ :=
      tables.tree.linked path _ ⟨chain, held, rfl⟩ above digit inside _ link
    unfold pagingTable
    simp only [notNull, Bool.false_eq_true, if_false]
    refine ⟨ledger, chain', .refl heap, tables, held', addressEq, ?_, fun _ => trivial⟩
    rw [Tree.walk_append walks, link, addressEq]

omit injective in
/-- **Writing a leaf changes the leaf of its page only.** -/
theorem pageTables_setLeaf (full : path.length = 3)
    (walks : walk tableChild (tableRead k.mem) desc.pml path = some (k.address chain))
    {value : Nat} (word : value < 2 ^ 64) :
    PageTables { k with mem := setEntryAt k.mem (k.address chain + sizeofPagingDescEntry * digit) value }
        ledger holder desc ∧
      ∀ va, pageEntry (setEntryAt k.mem (k.address chain + sizeofPagingDescEntry * digit) value) desc va =
        if pagePath va = path ∧ tableIndex va 0 = digit then value else pageEntry k.mem desc va := by
  set mem' := setEntryAt k.mem (k.address chain + sizeofPagingDescEntry * digit) value with memEq
  have label : HeldTable k ledger holder path (k.address chain) := ⟨chain, held, rfl⟩
  have unchanged : ∀ path' table, HeldTable k ledger holder path' table →
      ∀ place < pagingTotalEntriesPerTable, (table ≠ k.address chain ∨ place ≠ digit) →
        tableRead mem' table place = tableRead k.mem table place := by
    rintro path' table ⟨other, heldOther, rfl⟩ place below different
    exact tableRead_write heap held.1 inside value heldOther.1 below different
  refine ⟨⟨tables.tree.tree_leaf_write label full unchanged, fun path' table label' above place below => ?_⟩,
    fun va => ?_⟩
  · have notLeaf : table ≠ k.address chain := by
      rintro rfl
      have equal := tables.tree.unique path path' _ label label'
      rw [← equal, full] at above
      exact absurd above (lt_irrefl 3)
    show tableRead mem' table place = 0 ∨ entryPresent (tableRead mem' table place) = true ∧
      entryReadWrite (tableRead mem' table place) = true ∧ entryUserSupervisor (tableRead mem' table place) = true
    rw [unchanged path' table label' place below (Or.inl notLeaf)]
    exact tables.links path' table label' above place below
  · have three : (pagePath va).length = 3 := rfl
    by_cases here : pagePath va = path ∧ tableIndex va 0 = digit
    · rw [if_pos here]
      unfold pageEntry leaf
      rw [here.1, here.2, tables.tree.walk_leaf_write label full unchanged full.le
        (by rw [← here.1]; exact pagePath_digits va), walks]
      exact entryAt_setEntryAt word
    · rw [if_neg here]
      refine tables.tree.leaf_write label full unchanged 0 three (pagePath_digits va) (tableIndex_lt va 0) ?_
      by_cases samePath : pagePath va = path
      · exact Or.inr fun sameDigit => here ⟨samePath, sameDigit⟩
      · exact Or.inl samePath

end Spec

/-! ### Mapping a page -/

/-- The table allocations of `paging_map` succeed. -/
def PagingMapAllocates (k : Kernel) (desc : PagingDesc) (virt : Nat) : Prop :=
  let pdpt := pagingTable k (desc.pml + sizeofPagingDescEntry * tableIndex virt 3)
  let pd := pagingTable pdpt.2 (pdpt.1 + sizeofPagingDescEntry * tableIndex virt 2)
  TableAllocated k (desc.pml + sizeofPagingDescEntry * tableIndex virt 3) ∧
    TableAllocated pdpt.2 (pdpt.1 + sizeofPagingDescEntry * tableIndex virt 2) ∧
    TableAllocated pd.2 (pd.1 + sizeofPagingDescEntry * tableIndex virt 1)

theorem leafSet_lt {entry : Nat} (word : entry < 2 ^ 64) (phys : Nat) (flags : BitVec 32) :
    leafSet entry phys flags < 2 ^ 64 :=
  entrySet_lt word _ _ _ _

theorem leafSet_found_lt (mem : Memory) (entry phys : Nat) (flags : BitVec 32) :
    leafSet (entryAt mem entry) phys flags < 2 ^ 64 :=
  leafSet_lt (entryAt_lt mem entry) phys flags

section Map

variable {Holder : Type} {k : Kernel} {ledger : Ledger Holder} {holder : List Nat → Holder}
  {desc : PagingDesc} (heap : KernelHeap k ledger.chains) (tables : PageTables k ledger holder desc)
  (injective : Function.Injective holder)

include heap tables injective

/-- **`paging_map` sets the leaf of its page and no other**, when its tables can be allocated. -/
theorem pagingMap_spec {virt : Nat} (phys : Nat) (flags : BitVec 32) (allocates : PagingMapAllocates k desc virt) :
    ∃ ledger', Grown (Set.range holder) k ledger (pagingMap k desc virt phys flags).2 ledger' ∧
      PageTables (pagingMap k desc virt phys flags).2 ledger' holder desc ∧
      (pagingMap k desc virt phys flags).1 = 0 ∧
      ∀ va, pageEntry (pagingMap k desc virt phys flags).2.mem desc va =
        if pageNumber va = pageNumber virt then leafSet (pageEntry k.mem desc virt) phys flags
        else pageEntry k.mem desc va := by
  obtain ⟨allocates₃, allocates₂, allocates₁⟩ := allocates
  obtain ⟨root, heldRoot, rootEq⟩ := tables.tree.root
  unfold pagingMap
  simp only at allocates₂ allocates₁ ⊢
  rw [rootEq] at allocates₃ allocates₂ allocates₁ ⊢
  -- the page directory pointer table
  obtain ⟨ledger₃, chain₃, grown₃, tables₃, held₃, pointer₃, walks₃, leaves₃⟩ :=
    pagingTable_spec heap tables injective heldRoot (tableIndex_lt virt 3) (by decide)
      (fun _ member => absurd member List.not_mem_nil) (by rw [walk, rootEq]) allocates₃
  rw [List.nil_append] at held₃ walks₃
  generalize pagingTable k (k.address root + sizeofPagingDescEntry * tableIndex virt 3) = pdpt at *
  rw [pointer₃, ← grown₃.same.address] at allocates₂ allocates₁ ⊢
  rw [← grown₃.same.address] at walks₃
  have digits₃ : ∀ other ∈ [tableIndex virt 3], other < pagingTotalEntriesPerTable := by
    intro other member
    rw [List.mem_singleton.mp member]
    exact tableIndex_lt _ _
  -- the page directory
  obtain ⟨ledger₂, chain₂, grown₂, tables₂, held₂, pointer₂, walks₂, leaves₂⟩ :=
    pagingTable_spec grown₃.heap tables₃ injective held₃ (tableIndex_lt virt 2) (show 1 < 3 by decide) digits₃ walks₃
      allocates₂
  rw [List.singleton_append] at held₂ walks₂
  generalize pagingTable pdpt.2 (pdpt.2.address chain₃ + sizeofPagingDescEntry * tableIndex virt 2) = pd at *
  rw [pointer₂, ← grown₂.same.address] at allocates₁ ⊢
  rw [← grown₂.same.address] at walks₂
  have digits₂ : ∀ other ∈ [tableIndex virt 3, tableIndex virt 2], other < pagingTotalEntriesPerTable :=
    fun other member => pagePath_digits virt other (by
      rcases List.mem_pair.mp member with rfl | rfl <;> simp [pagePath])
  -- the page table
  obtain ⟨ledger₁, chain₁, grown₁, tables₁, held₁, pointer₁, walks₁, leaves₁⟩ :=
    pagingTable_spec grown₂.heap tables₂ injective held₂ (tableIndex_lt virt 1) (show 2 < 3 by decide) digits₂ walks₂
      allocates₁
  rw [show [tableIndex virt 3, tableIndex virt 2] ++ [tableIndex virt 1] = pagePath virt from rfl] at held₁ walks₁
  generalize pagingTable pd.2 (pd.2.address chain₂ + sizeofPagingDescEntry * tableIndex virt 1) = pt at *
  rw [pointer₁, ← grown₁.same.address]
  rw [← grown₁.same.address] at walks₁
  -- the leaf
  have leafEq : entryAt pt.2.mem (pt.2.address chain₁ + sizeofPagingDescEntry * tableIndex virt 0) =
      pageEntry k.mem desc virt := by
    rw [← leaves₃, ← leaves₂, ← leaves₁]
    unfold pageEntry leaf
    rw [walks₁]
    rfl
  have word : leafSet (pageEntry k.mem desc virt) phys flags < 2 ^ 64 := by
    rw [← leafEq]
    exact leafSet_found_lt _ _ _ _
  obtain ⟨tables₀, leaves₀⟩ := pageTables_setLeaf grown₁.heap tables₁ held₁ (tableIndex_lt virt 0) rfl walks₁ word
  rw [leafEq]
  refine ⟨ledger₁, ((grown₃.trans grown₂).trans grown₁).trans
    (grown_setEntry grown₁.heap held₁ (tableIndex_lt virt 0) _), tables₀, trivial, fun va => ?_⟩
  rw [leaves₀ va, leaves₁, leaves₂, leaves₃]
  exact if_congr (pageNumber_eq_iff va virt).symm rfl rfl

end Map

/-! ### Mapping a range -/

/-- The table allocations of the loop of `paging_map_range` succeed. -/
def PagingRangeAllocates (desc : PagingDesc) (flags : BitVec 32) : (fuel virt phys : Nat) → Kernel → Prop
  | 0, _, _, _ => True
  | fuel + 1, virt, phys, k =>
      PagingMapAllocates k desc virt ∧
        PagingRangeAllocates desc flags fuel (toWord (virt + pagingPageSize)) (toWord (phys + pagingPageSize))
          (pagingMap k desc virt phys flags).2

instance (k : Kernel) (entry : Nat) : Decidable (TableAllocated k entry) := inferInstanceAs (Decidable (_ → _))

instance (k : Kernel) (desc : PagingDesc) (virt : Nat) : Decidable (PagingMapAllocates k desc virt) :=
  inferInstanceAs (Decidable (_ ∧ _ ∧ _))

instance decidablePagingRangeAllocates (desc : PagingDesc) (flags : BitVec 32) :
    (fuel virt phys : Nat) → (k : Kernel) → Decidable (PagingRangeAllocates desc flags fuel virt phys k)
  | 0, _, _, _ => isTrue trivial
  | fuel + 1, virt, phys, k =>
      let := decidablePagingRangeAllocates desc flags fuel (toWord (virt + pagingPageSize))
        (toWord (phys + pagingPageSize)) (pagingMap k desc virt phys flags).2
      inferInstanceAs (Decidable (_ ∧ _))

/-- How many pages the page of an address is behind another one, around the end of the page numbers. -/
def pageOffset (virt va : Nat) : Nat := (pageNumber va + (2 ^ 36 - pageNumber virt)) % 2 ^ 36

theorem pageNumber_lt (va : Nat) : pageNumber va < 2 ^ 36 := Nat.mod_lt _ (by norm_num)

theorem pageNumber_next (virt : Nat) :
    pageNumber (toWord (virt + pagingPageSize)) = (pageNumber virt + 1) % 2 ^ 36 := by
  unfold pageNumber toWord
  simp only [pagingPageSize]
  omega

/-- The leaf depends on the frame number of the physical address. -/
theorem leafSet_congr {entry phys phys' : Nat} {flags : BitVec 32}
    (frames : phys / 2 ^ 12 % 2 ^ 40 = phys' / 2 ^ 12 % 2 ^ 40) :
    leafSet entry phys flags = leafSet entry phys' flags := by
  unfold leafSet entrySet
  rw [frames]

section Range

variable {Holder : Type} {holder : List Nat → Holder} {desc : PagingDesc} (injective : Function.Injective holder)

include injective

/-- **The loop of `paging_map_range` sets the leaves of its pages and no others.** -/
theorem pagingMapRangeLoop_spec {flags : BitVec 32} {fuel : Nat} (few : fuel < 2 ^ 36) {virt phys : Nat} {res : Int}
    (fine : res = 0) {k : Kernel} {ledger : Ledger Holder} (heap : KernelHeap k ledger.chains)
    (tables : PageTables k ledger holder desc) (allocates : PagingRangeAllocates desc flags fuel virt phys k) :
    ∃ ledger', Grown (Set.range holder) k ledger (pagingMapRangeLoop desc flags fuel virt phys res k).2 ledger' ∧
      PageTables (pagingMapRangeLoop desc flags fuel virt phys res k).2 ledger' holder desc ∧
      (pagingMapRangeLoop desc flags fuel virt phys res k).1 = 0 ∧
      ∀ va, pageEntry (pagingMapRangeLoop desc flags fuel virt phys res k).2.mem desc va =
        if pageOffset virt va < fuel then
          leafSet (pageEntry k.mem desc va) (phys + pageOffset virt va * pagingPageSize) flags
        else pageEntry k.mem desc va := by
  induction fuel generalizing virt phys res k ledger with
  | zero => exact ⟨ledger, .refl heap, tables, fine, fun va => by rw [if_neg (Nat.not_lt_zero _)]; rfl⟩
  | succ fuel ih =>
      obtain ⟨allocatesPage, allocatesRest⟩ := allocates
      obtain ⟨ledger₁, grown, tables', mapped, leaves⟩ :=
        pagingMap_spec heap tables injective phys flags allocatesPage
      obtain ⟨ledger₂, grown', tables'', done, leaves'⟩ := ih (by omega) mapped grown.heap tables' allocatesRest
      rw [pagingMapRangeLoop]
      simp only [mapped, lt_irrefl, if_false] at done leaves' grown' tables'' ⊢
      refine ⟨ledger₂, grown.trans grown', tables'', done, fun va => ?_⟩
      rw [leaves' va, leaves va]
      have next := pageNumber_next virt
      have bound := pageNumber_lt va
      have bound' := pageNumber_lt virt
      by_cases here : pageNumber va = pageNumber virt
      · -- the first page, which the rest of the range does not come back to
        have zero : pageOffset virt va = 0 := by
          unfold pageOffset
          omega
        have last : ¬ pageOffset (toWord (virt + pagingPageSize)) va < fuel := by
          unfold pageOffset
          rw [next]
          omega
        have sameLeaf : pageEntry k.mem desc virt = pageEntry k.mem desc va := by
          obtain ⟨samePath, sameDigit⟩ := (pageNumber_eq_iff va virt).mp here
          unfold pageEntry
          rw [samePath, sameDigit]
        rw [if_neg last, if_pos here, if_pos (by omega), zero, Nat.zero_mul, Nat.add_zero, sameLeaf]
      · have behind : pageOffset virt va = pageOffset (toWord (virt + pagingPageSize)) va + 1 := by
          unfold pageOffset
          rw [next]
          omega
        rw [if_neg here]
        by_cases inside : pageOffset (toWord (virt + pagingPageSize)) va < fuel
        · rw [if_pos inside, if_pos (by omega)]
          refine leafSet_congr ?_
          rw [behind]
          unfold toWord
          simp only [pagingPageSize]
          omega
        · rw [if_neg inside, if_neg (by omega)]

/-- **`paging_map_range` sets the leaves of at most `2 ^ 31` pages and no others.** -/
theorem pagingMapRange_spec {flags : BitVec 32} {virt phys count : Nat} {k : Kernel} {ledger : Ledger Holder}
    (heap : KernelHeap k ledger.chains) (tables : PageTables k ledger holder desc)
    (allocates : PagingRangeAllocates desc flags (min count (2 ^ 31)) virt phys k) :
    ∃ ledger', Grown (Set.range holder) k ledger (pagingMapRange k desc virt phys count flags).2 ledger' ∧
      PageTables (pagingMapRange k desc virt phys count flags).2 ledger' holder desc ∧
      (pagingMapRange k desc virt phys count flags).1 = 0 ∧
      ∀ va, pageEntry (pagingMapRange k desc virt phys count flags).2.mem desc va =
        if pageOffset virt va < min count (2 ^ 31) then
          leafSet (pageEntry k.mem desc va) (phys + pageOffset virt va * pagingPageSize) flags
        else pageEntry k.mem desc va :=
  pagingMapRangeLoop_spec injective ((min_le_right _ _).trans_lt (by norm_num)) rfl heap tables allocates

end Range

/-! ### Looking up in software -/

/-- The lookup in software fails or finds the leaf entry. -/
theorem pagingGet_cases (mem : Memory) (desc : PagingDesc) (va : Nat) :
    pagingGet mem desc va = none ∨
      ∃ entry, pagingGet mem desc va = some entry ∧ entryAt mem entry = pageEntry mem desc va := by
  unfold pagingGet
  simp only [pagingNullEntry, decide_eq_true_eq]
  split
  · exact Or.inl rfl
  · rename_i root
    split
    · exact Or.inl rfl
    · split
      · exact Or.inl rfl
      · rename_i pdpt
        split
        · exact Or.inl rfl
        · split
          · exact Or.inl rfl
          · rename_i pd
            refine Or.inr ⟨_, rfl, ?_⟩
            unfold pageEntry leaf pagePath
            simp only [RadixTable.walk, tableChild, tableRead, root, pdpt, pd, if_false]

end PeachOS
