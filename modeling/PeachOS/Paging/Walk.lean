/-
**The walk of the processor over the tables that `paging_map` builds.**

`pageWalk` follows the four levels as the processor does, by present bits. The tables of a descriptor are
those its walks reach; `TableTree` says that no two walks meet, so that a table belongs to one slot of one
table. What the allocator owes is `FreshTable`: each table it returns is page aligned, zeroed and not a
table of the descriptor, and the tables of the descriptor keep their contents.

* `pagingTable_tree` — one level: the table exists or a fresh one is linked, no leaf changes;
* `pagingMap_tree` — the leaf of the mapped page is set, every other leaf is unchanged;
* `pagingMap_inHeap` — the kernel heap keeps what the allocator owes while it has blocks to spare.
-/

import PeachOS.Paging.Tables

namespace PeachOS

open ByteStore RadixTable
open SpanTable (Span)

/-! ### The walk of the processor -/

/-- **The four-level walk**: the leaf entry, unless an entry above it is not present. -/
def pageWalk (mem : Memory) (desc : PagingDesc) (va : Nat) : Option Nat :=
  let pml4Entry := entryAt mem (desc.pml + sizeofPagingDescEntry * tableIndex va 3)
  if !entryPresent pml4Entry then none
  else
    let pdptEntry := entryAt mem (entryAddress pml4Entry * 2 ^ 12 + sizeofPagingDescEntry * tableIndex va 2)
    if !entryPresent pdptEntry then none
    else
      let pdEntry := entryAt mem (entryAddress pdptEntry * 2 ^ 12 + sizeofPagingDescEntry * tableIndex va 1)
      if !entryPresent pdEntry then none
      else some (entryAt mem (entryAddress pdEntry * 2 ^ 12 + sizeofPagingDescEntry * tableIndex va 0))

/-- A table that a walk from the root reaches. -/
abbrev ReachedTable (mem : Memory) (desc : PagingDesc) : List Nat → Nat → Prop :=
  Reached tableChild (tableRead mem) pagingTotalEntriesPerTable 3 desc.pml

/-- The bytes of a table. -/
def tablePage (table : Nat) : Set Nat := Set.Ico table (table + pagingPageSize)

/-- An entry of a table lies in its page. -/
theorem entry_in_page {table digit a : Nat} (inside : digit < pagingTotalEntriesPerTable)
    (low : table + sizeofPagingDescEntry * digit ≤ a)
    (high : a < table + sizeofPagingDescEntry * digit + sizeofPagingDescEntry) : a ∈ tablePage table := by
  simp only [sizeofPagingDescEntry, pagingTotalEntriesPerTable] at inside low high
  refine ⟨by omega, ?_⟩
  simp only [pagingPageSize]
  omega

/-- **The tables of a descriptor**: no two walks meet, and a link is present, writable and accessible. -/
structure TableTree (mem : Memory) (desc : PagingDesc) : Prop where
  tree : Tree tableChild (tableRead mem) pagingTotalEntriesPerTable 3 (ReachedTable mem desc) desc.pml
  aligned : desc.pml % pagingPageSize = 0
  links : ∀ path table, ReachedTable mem desc path table → path.length < 3 →
    ∀ digit < pagingTotalEntriesPerTable, tableRead mem table digit = 0 ∨
      entryPresent (tableRead mem table digit) = true ∧ entryReadWrite (tableRead mem table digit) = true ∧
        entryUserSupervisor (tableRead mem table digit) = true

/-- Entries of page-aligned tables but the written one are unchanged. -/
theorem tableRead_setEntry_apart {mem : Memory} {table table' digit digit' value : Nat}
    (aligned : table % pagingPageSize = 0) (aligned' : table' % pagingPageSize = 0)
    (inside : digit < pagingTotalEntriesPerTable) (inside' : digit' < pagingTotalEntriesPerTable)
    (different : table' ≠ table ∨ digit' ≠ digit) :
    tableRead (setEntryAt mem (table + sizeofPagingDescEntry * digit) value) table' digit' =
      tableRead mem table' digit' := by
  refine entryAt_setEntryAt_apart ?_
  simp only [sizeofPagingDescEntry, pagingPageSize, pagingTotalEntriesPerTable] at *
  omega

namespace TableTree

variable {mem : Memory} {desc : PagingDesc} (tables : TableTree mem desc)

include tables

/-- Every table is a page. -/
theorem table_aligned {path : List Nat} {table : Nat} (reached : ReachedTable mem desc path table) :
    table % pagingPageSize = 0 := by
  rcases List.eq_nil_or_concat path with rfl | ⟨path, digit, rfl⟩
  · obtain ⟨_, _, walks⟩ := reached
    rw [walk, Option.some.injEq] at walks
    rw [← walks]
    exact tables.aligned
  · rw [List.concat_eq_append] at reached
    obtain ⟨_, _, parent, _, entry⟩ := reached_concat.mp reached
    unfold tableChild at entry
    split at entry
    · cases entry
    · rw [← Option.some.inj entry]
      simp only [pagingPageSize]
      omega

/-- A link is present exactly when it is not null. -/
theorem entryPresent_iff {path : List Nat} {table digit : Nat} (reached : ReachedTable mem desc path table)
    (above : path.length < 3) (inside : digit < pagingTotalEntriesPerTable) :
    entryPresent (tableRead mem table digit) = true ↔ tableRead mem table digit ≠ 0 := by
  rcases tables.links path table reached above digit inside with zero | ⟨present, _⟩
  · rw [zero]
    decide
  · refine ⟨fun _ zero => ?_, fun _ => present⟩
    rw [zero] at present
    exact absurd present (by decide)

/-- **One step of the processor's walk** finds the next table of the tree. -/
theorem tableChild_eq {path : List Nat} {table digit : Nat} (reached : ReachedTable mem desc path table)
    (above : path.length < 3) (inside : digit < pagingTotalEntriesPerTable) :
    tableChild (tableRead mem table digit) =
      if !entryPresent (tableRead mem table digit) then none
      else some (entryAddress (tableRead mem table digit) * 2 ^ 12) := by
  have present := tables.entryPresent_iff reached above inside
  unfold tableChild
  by_cases null : tableRead mem table digit = 0
  · rw [if_pos null, null]
    rfl
  · rw [if_neg null, present.mpr null]
    rfl

/-- **The walk of the processor ends on the leaf of the tree.** -/
theorem pageWalk_eq (va : Nat) :
    pageWalk mem desc va =
      (walk tableChild (tableRead mem) desc.pml (pagePath va)).map fun table => tableRead mem table (tableIndex va 0) := by
  have root := reached_root tableChild (tableRead mem) pagingTotalEntriesPerTable 3 desc.pml
  have step₃ := tables.tableChild_eq root (by decide) (tableIndex_lt va 3)
  unfold pageWalk pagePath
  rw [walk, step₃]
  change (if !entryPresent (tableRead mem desc.pml (tableIndex va 3)) then none else _) = _
  by_cases present₃ : entryPresent (tableRead mem desc.pml (tableIndex va 3)) = true
  · rw [present₃] at step₃ ⊢
    have reached₂ := reached_concat.mpr ⟨by decide, tableIndex_lt va 3, _, root, step₃⟩
    have step₂ := tables.tableChild_eq reached₂ (by simp) (tableIndex_lt va 2)
    simp only [Bool.not_true, Bool.false_eq_true, if_false]
    rw [walk, step₂]
    set pdpt := entryAddress (tableRead mem desc.pml (tableIndex va 3)) * 2 ^ 12 with pdptEq
    change (if !entryPresent (tableRead mem pdpt (tableIndex va 2)) then none else _) = _
    by_cases present₂ : entryPresent (tableRead mem pdpt (tableIndex va 2)) = true
    · rw [present₂] at step₂ ⊢
      have reached₁ := reached_concat.mpr ⟨by simp, tableIndex_lt va 2, _, reached₂, step₂⟩
      have step₁ := tables.tableChild_eq reached₁ (by simp) (tableIndex_lt va 1)
      simp only [Bool.not_true, Bool.false_eq_true, if_false]
      rw [walk, step₁]
      set pd := entryAddress (tableRead mem pdpt (tableIndex va 2)) * 2 ^ 12 with pdEq
      change (if !entryPresent (tableRead mem pd (tableIndex va 1)) then none else _) = _
      by_cases present₁ : entryPresent (tableRead mem pd (tableIndex va 1)) = true
      · rw [present₁]
        rfl
      · rw [Bool.not_eq_true] at present₁
        rw [present₁]
        rfl
    · rw [Bool.not_eq_true] at present₂
      rw [present₂]
      rfl
  · rw [Bool.not_eq_true] at present₃
    rw [present₃]
    rfl

/-- The leaf that the walk of the processor ends on, null when it does not get there. -/
theorem getD_pageWalk (va : Nat) : (pageWalk mem desc va).getD 0 = pageEntry mem desc va := by
  rw [tables.pageWalk_eq]
  unfold pageEntry leaf
  cases walk tableChild (tableRead mem) desc.pml (pagePath va) <;> rfl

/-- **A write over a leaf entry** sets the leaf of its page and keeps the tables. -/
theorem setLeaf {path : List Nat} {table digit value : Nat} (reached : ReachedTable mem desc path table)
    (full : path.length = 3) (inside : digit < pagingTotalEntriesPerTable) (word : value < 2 ^ 64) :
    TableTree (setEntryAt mem (table + sizeofPagingDescEntry * digit) value) desc ∧
      (∀ path' table', ReachedTable (setEntryAt mem (table + sizeofPagingDescEntry * digit) value) desc path' table' ↔
        ReachedTable mem desc path' table') ∧
      ∀ va, pageEntry (setEntryAt mem (table + sizeofPagingDescEntry * digit) value) desc va =
        if pagePath va = path ∧ tableIndex va 0 = digit then value else pageEntry mem desc va := by
  set mem' := setEntryAt mem (table + sizeofPagingDescEntry * digit) value with memEq
  have same : ∀ path' table', ReachedTable mem desc path' table' → ∀ digit' < pagingTotalEntriesPerTable,
      (table' ≠ table ∨ digit' ≠ digit) → tableRead mem' table' digit' = tableRead mem table' digit' :=
    fun path' table' reached' digit' inside' different =>
      tableRead_setEntry_apart (tables.table_aligned reached) (tables.table_aligned reached') inside inside' different
  have reachedIff := reached_leaf_write tables.tree reached same full
  refine ⟨⟨?_, tables.aligned, ?_⟩, reachedIff, fun va => ?_⟩
  · refine tree_of_reached fun path' path'' table' one two => ?_
    exact tables.tree.unique path' path'' table' ((reachedIff _ _).mp one) ((reachedIff _ _).mp two)
  · intro path' table' reached' above digit' inside'
    have before := (reachedIff path' table').mp reached'
    have notLeaf : table' ≠ table := by
      rintro rfl
      have equal := tables.tree.unique path path' _ reached before
      rw [← equal, full] at above
      exact absurd above (lt_irrefl 3)
    rw [same path' table' before digit' inside' (Or.inl notLeaf)]
    exact tables.links path' table' before above digit' inside'
  · by_cases here : pagePath va = path ∧ tableIndex va 0 = digit
    · obtain ⟨_, _, walks⟩ := (reachedIff path table).mpr reached
      rw [if_pos here]
      unfold pageEntry leaf
      rw [here.1, here.2, walks]
      exact entryAt_setEntryAt word
    · rw [if_neg here]
      refine tables.tree.leaf_write reached full same 0 rfl (pagePath_digits va) (tableIndex_lt va 0) ?_
      exact not_and_or.mp here

/-- **Page tables that keep their contents** are the same tables with the same leaves. -/
theorem congr {mem' : Memory}
    (same : ∀ path table, ReachedTable mem desc path table → ∀ a ∈ tablePage table, mem' a = mem a) :
    TableTree mem' desc ∧
      (∀ path table, ReachedTable mem' desc path table ↔ ReachedTable mem desc path table) ∧
      ∀ va, pageEntry mem' desc va = pageEntry mem desc va := by
  have reads : ∀ path table, ReachedTable mem desc path table → ∀ digit < pagingTotalEntriesPerTable,
      tableRead mem' table digit = tableRead mem table digit := by
    intro path table reached digit inside
    refine readWord_congr fun offset small => same path table reached _ ⟨by omega, ?_⟩
    simp only [sizeofPagingDescEntry, pagingTotalEntriesPerTable, pagingPageSize] at *
    omega
  have reachedIff := reached_congr tables.tree reads
  refine ⟨⟨?_, tables.aligned, fun path table reached above digit inside => ?_⟩, reachedIff, fun va => ?_⟩
  · exact tree_of_reached fun path path' table one two =>
      tables.tree.unique path path' table ((reachedIff _ _).mp one) ((reachedIff _ _).mp two)
  · rw [reads path table ((reachedIff _ _).mp reached) digit inside]
    exact tables.links path table ((reachedIff _ _).mp reached) above digit inside
  · exact tables.tree.leaf_congr reads 0 (by simp [pagePath]) (pagePath_digits va) (tableIndex_lt va 0)

end TableTree

/-! ### What the allocator owes -/

/-- **A fresh table**: page aligned, below the end of physical memory, zeroed, and none of the tables in
use, which keep their contents. -/
structure FreshTable (k : Kernel) (inUse : Set Nat) : Prop where
  aligned : (kzalloc k (sizeofPagingDescEntry * pagingTotalEntriesPerTable)).1 % pagingPageSize = 0
  physical : (kzalloc k (sizeofPagingDescEntry * pagingTotalEntriesPerTable)).1 < 2 ^ 52
  zeroed : ∀ offset < pagingPageSize, (kzalloc k (sizeofPagingDescEntry * pagingTotalEntriesPerTable)).2.mem
    ((kzalloc k (sizeofPagingDescEntry * pagingTotalEntriesPerTable)).1 + offset) = 0#8
  unused : (kzalloc k (sizeofPagingDescEntry * pagingTotalEntriesPerTable)).1 ∉ inUse
  kept : ∀ table ∈ inUse, ∀ offset < pagingPageSize,
    (kzalloc k (sizeofPagingDescEntry * pagingTotalEntriesPerTable)).2.mem (table + offset) = k.mem (table + offset)

/-- The tables of a descriptor. -/
def tablesInUse (mem : Memory) (desc : PagingDesc) : Set Nat := { table | ∃ path, ReachedTable mem desc path table }

/-- The table behind an entry exists, or a fresh one can be had. -/
def TableOrFresh (k : Kernel) (desc : PagingDesc) (entry : Nat) : Prop :=
  pagingNullEntry (entryAt k.mem entry) = true → FreshTable k (tablesInUse k.mem desc)

/-- What the three levels of `paging_map` find. -/
def MapsFresh (k : Kernel) (desc : PagingDesc) (virt : Nat) : Prop :=
  let pdpt := pagingTable k (desc.pml + sizeofPagingDescEntry * tableIndex virt 3)
  let pd := pagingTable pdpt.2 (pdpt.1 + sizeofPagingDescEntry * tableIndex virt 2)
  TableOrFresh k desc (desc.pml + sizeofPagingDescEntry * tableIndex virt 3) ∧
    TableOrFresh pdpt.2 desc (pdpt.1 + sizeofPagingDescEntry * tableIndex virt 2) ∧
    TableOrFresh pd.2 desc (pd.1 + sizeofPagingDescEntry * tableIndex virt 1)

namespace FreshTable

variable {k : Kernel} {inUse : Set Nat} (fresh : FreshTable k inUse)

include fresh

/-- The entries of the tables in use are kept. -/
theorem tableRead_kept {table digit : Nat} (used : table ∈ inUse) (inside : digit < pagingTotalEntriesPerTable) :
    tableRead (kzalloc k (sizeofPagingDescEntry * pagingTotalEntriesPerTable)).2.mem table digit =
      tableRead k.mem table digit := by
  refine readWord_congr fun offset small => ?_
  rw [Nat.add_assoc]
  refine fresh.kept table used _ ?_
  simp only [sizeofPagingDescEntry, pagingTotalEntriesPerTable, pagingPageSize] at *
  omega

/-- The entries of the fresh table are null. -/
theorem tableRead_fresh {digit : Nat} (inside : digit < pagingTotalEntriesPerTable) :
    tableRead (kzalloc k (sizeofPagingDescEntry * pagingTotalEntriesPerTable)).2.mem
      (kzalloc k (sizeofPagingDescEntry * pagingTotalEntriesPerTable)).1 digit = 0 := by
  refine readWord_eq_zero fun offset small => ?_
  rw [Nat.add_assoc]
  refine fresh.zeroed _ ?_
  simp only [sizeofPagingDescEntry, pagingTotalEntriesPerTable, pagingPageSize] at *
  omega

end FreshTable

/-! ### One level -/

/-- **What a level of `paging_map` does**: the table at one digit more is reached, nothing else changes but
the entry that was null. -/
structure TableStep (mem mem' : Memory) (desc : PagingDesc) (path : List Nat) (table digit next : Nat) : Prop where
  tables : TableTree mem' desc
  reached : ReachedTable mem' desc (path ++ [digit]) next
  kept : ∀ path' table', ReachedTable mem desc path' table' → ReachedTable mem' desc path' table'
  only : ∀ path' table', ReachedTable mem' desc path' table' → ReachedTable mem desc path' table' ∨ table' = next
  others : ∀ path' table', ReachedTable mem desc path' table' → ∀ digit' < pagingTotalEntriesPerTable,
    (table' ≠ table ∨ digit' ≠ digit) → tableRead mem' table' digit' = tableRead mem table' digit'
  fresh : tableRead mem table digit = 0 → ∀ digit' < pagingTotalEntriesPerTable, tableRead mem' next digit' = 0
  leaves : ∀ va, pageEntry mem' desc va = pageEntry mem desc va

/-- A link refers to the table it was made for. -/
theorem tableChild_link {table : Nat} (aligned : table % pagingPageSize = 0) (physical : table < 2 ^ 52) :
    tableChild (entrySet 0 (table / 2 ^ 12) true true true) = some table := by
  have notNull : entrySet 0 (table / 2 ^ 12) true true true ≠ 0 := fun zero => by
    have present := entryPresent_set 0 (table / 2 ^ 12) true true true
    rw [zero] at present
    exact absurd present (by decide)
  unfold tableChild
  rw [if_neg notNull, entryAddress_set, Nat.mod_eq_of_lt (by omega)]
  simp only [pagingPageSize] at aligned
  rw [show table / 2 ^ 12 * 2 ^ 12 = table by omega]

/-- **A new table is linked** by an entry that was null. -/
theorem TableTree.link {mem : Memory} {desc : PagingDesc} (tables : TableTree mem desc) {path : List Nat}
    {table digit ptr : Nat} (reached : ReachedTable mem desc path table) (above : path.length < 3)
    (inside : digit < pagingTotalEntriesPerTable) (null : tableRead mem table digit = 0)
    (aligned : ptr % pagingPageSize = 0) (physical : ptr < 2 ^ 52)
    (cleared : ∀ digit' < pagingTotalEntriesPerTable, tableRead mem ptr digit' = 0)
    (unused : ptr ∉ tablesInUse mem desc) :
    TableStep mem (setEntryAt mem (table + sizeofPagingDescEntry * digit) (entrySet 0 (ptr / 2 ^ 12) true true true)) desc
      path table digit ptr := by
  have link := tableChild_link aligned physical
  set value := entrySet 0 (ptr / 2 ^ 12) true true true with valueEq
  set mem' := setEntryAt mem (table + sizeofPagingDescEntry * digit) value with memEq
  have alignedTable := tables.table_aligned reached
  have written : tableRead mem' table digit = value :=
    entryAt_setEntryAt (entrySet_lt (by norm_num) _ _ _ _)
  have notParent : ptr ≠ table := fun equal => unused ⟨path, equal ▸ reached⟩
  have others : ∀ path' table', ReachedTable mem desc path' table' → ∀ digit' < pagingTotalEntriesPerTable,
      (table' ≠ table ∨ digit' ≠ digit) → tableRead mem' table' digit' = tableRead mem table' digit' :=
    fun path' table' reached' digit' inside' different =>
      tableRead_setEntry_apart alignedTable (tables.table_aligned reached') inside inside' different
  have clearedNew : ∀ digit' < pagingTotalEntriesPerTable, tableRead mem' ptr digit' = 0 := by
    intro digit' inside'
    rw [← cleared digit' inside']
    exact tableRead_setEntry_apart alignedTable aligned inside inside' (Or.inl notParent)
  have wasNull : tableChild (tableRead mem table digit) = none := by
    rw [null]
    rfl
  have nowLinked : tableChild (tableRead mem' table digit) = some ptr := by rw [written, link]
  have reachedIff := reached_link tables.tree reached others above inside wasNull nowLinked tableChild_zero clearedNew
  have labels := tables.tree.tree_link reached wasNull nowLinked tableChild_zero clearedNew others
    (fun path' reached' => unused ⟨path', reached'⟩) reachedIff
  refine ⟨⟨labels, tables.aligned, ?_⟩, (reachedIff _ _).mpr (Or.inr ⟨rfl, rfl⟩),
    fun path' table' old => (reachedIff _ _).mpr (Or.inl old),
    fun path' table' new => ((reachedIff _ _).mp new).imp_right And.right, others, fun _ => clearedNew, fun va => ?_⟩
  · intro path' table' reached' above' digit' inside'
    rcases (reachedIff path' table').mp reached' with old | ⟨_, rfl⟩
    · by_cases here : table' = table ∧ digit' = digit
      · obtain ⟨rfl, rfl⟩ := here
        rw [written]
        exact Or.inr ⟨entryPresent_set _ _ _ _ _, entryReadWrite_set _ _ _ _ _, entryUserSupervisor_set _ _ _ _ _⟩
      · rw [others path' table' old digit' inside' (not_and_or.mp here)]
        exact tables.links path' table' old above' digit' inside'
    · exact Or.inl (clearedNew digit' inside')
  · exact tables.tree.leaf_link reached above wasNull nowLinked tableChild_zero clearedNew others
      tables.tree.root (by simp [pagePath]) (pagePath_digits va) (tableIndex_lt va 0)

section Level

variable {k : Kernel} {desc : PagingDesc} (tables : TableTree k.mem desc) {path : List Nat} {table digit : Nat}
  (reached : ReachedTable k.mem desc path table) (above : path.length < 3)
  (inside : digit < pagingTotalEntriesPerTable)

include tables reached above inside

/-- A missing table is allocated and linked. -/
theorem pagingTable_fresh (null : tableRead k.mem table digit = 0) (fresh : FreshTable k (tablesInUse k.mem desc)) :
    TableStep k.mem (pagingTable k (table + sizeofPagingDescEntry * digit)).2.mem desc path table digit
        (pagingTable k (table + sizeofPagingDescEntry * digit)).1 ∧
      (pagingTable k (table + sizeofPagingDescEntry * digit)).1 =
        (kzalloc k (sizeofPagingDescEntry * pagingTotalEntriesPerTable)).1 := by
  have isNull : pagingNullEntry (entryAt k.mem (table + sizeofPagingDescEntry * digit)) = true :=
    decide_eq_true null
  have keptRead := fun path' table' (reached' : ReachedTable k.mem desc path' table') digit' inside' =>
    @FreshTable.tableRead_kept _ _ fresh table' digit' ⟨path', reached'⟩ inside'
  have cleared := fun digit' inside' => @FreshTable.tableRead_fresh _ _ fresh digit' inside'
  have kept := fresh.kept
  have aligned := fresh.aligned
  have physical := fresh.physical
  have unused := fresh.unused
  unfold pagingTable
  simp only [isNull, if_true]
  generalize kzalloc k (sizeofPagingDescEntry * pagingTotalEntriesPerTable) = result at *
  obtain ⟨ptr, after⟩ := result
  simp only at keptRead cleared kept aligned physical unused ⊢
  have oldEntry : entryAt after.mem (table + sizeofPagingDescEntry * digit) = 0 :=
    (keptRead path table reached digit inside).trans null
  rw [oldEntry]
  -- the allocation keeps the tables
  have keptPages : ∀ path' table', ReachedTable k.mem desc path' table' → ∀ a ∈ tablePage table',
      after.mem a = k.mem a := by
    rintro path' table' reached' a ⟨low, high⟩
    have same := kept table' ⟨path', reached'⟩ (a - table') (by omega)
    rwa [Nat.add_sub_cancel' low] at same
  obtain ⟨tables', reachedIff, leaves⟩ := tables.congr keptPages
  have step := tables'.link ((reachedIff _ _).mpr reached) above inside oldEntry aligned physical cleared
    fun ⟨path', reached'⟩ => unused ⟨path', (reachedIff _ _).mp reached'⟩
  have written : tableRead (setEntryAt after.mem (table + sizeofPagingDescEntry * digit)
      (entrySet 0 (ptr / 2 ^ 12) true true true)) table digit = entrySet 0 (ptr / 2 ^ 12) true true true :=
    entryAt_setEntryAt (entrySet_lt (by norm_num) _ _ _ _)
  have pointer : entryAddress (entryAt (setEntryAt after.mem (table + sizeofPagingDescEntry * digit)
      (entrySet 0 (ptr / 2 ^ 12) true true true)) (table + sizeofPagingDescEntry * digit)) * 2 ^ 12 = ptr := by
    have link := tableChild_link aligned physical
    rw [← written] at link
    unfold tableChild at link
    split at link
    · cases link
    · exact Option.some.inj link
  show TableStep k.mem (setEntryAt after.mem (table + sizeofPagingDescEntry * digit)
      (entrySet 0 (ptr / 2 ^ 12) true true true)) desc path table digit
    (entryAddress (entryAt (setEntryAt after.mem (table + sizeofPagingDescEntry * digit)
      (entrySet 0 (ptr / 2 ^ 12) true true true)) (table + sizeofPagingDescEntry * digit)) * 2 ^ 12) ∧
    entryAddress (entryAt (setEntryAt after.mem (table + sizeofPagingDescEntry * digit)
      (entrySet 0 (ptr / 2 ^ 12) true true true)) (table + sizeofPagingDescEntry * digit)) * 2 ^ 12 = ptr
  rw [pointer]
  refine ⟨?_, rfl⟩
  exact {
    tables := step.tables
    reached := step.reached
    kept := fun path' table' old => step.kept path' table' ((reachedIff _ _).mpr old)
    only := fun path' table' new => (step.only path' table' new).imp_left (reachedIff _ _).mp
    others := fun path' table' old digit' inside' different =>
      (step.others path' table' ((reachedIff _ _).mpr old) digit' inside' different).trans
        (keptRead path' table' old digit' inside')
    fresh := fun _ => step.fresh oldEntry
    leaves := fun va => (step.leaves va).trans (leaves va) }

/-- **One level**: the table behind an entry exists, or a fresh one is linked. -/
theorem pagingTable_tree (allocated : TableOrFresh k desc (table + sizeofPagingDescEntry * digit)) :
    TableStep k.mem (pagingTable k (table + sizeofPagingDescEntry * digit)).2.mem desc path table digit
      (pagingTable k (table + sizeofPagingDescEntry * digit)).1 := by
  by_cases null : tableRead k.mem table digit = 0
  · exact (pagingTable_fresh tables reached above inside null (allocated (decide_eq_true null))).1
  · have link : tableChild (tableRead k.mem table digit) = some (entryAddress (tableRead k.mem table digit) * 2 ^ 12) :=
      if_neg null
    have notNull : pagingNullEntry (entryAt k.mem (table + sizeofPagingDescEntry * digit)) = false :=
      decide_eq_false null
    unfold pagingTable
    simp only [notNull, Bool.false_eq_true, if_false]
    exact ⟨tables, reached_concat.mpr ⟨above, inside, table, reached, link⟩, fun _ _ old => old, fun _ _ => Or.inl,
      fun _ _ _ _ _ _ => rfl, fun zero => absurd zero null, fun _ => rfl⟩

end Level

/-! ### Mapping a page -/

/-- The page table that `paging_map` ends on. -/
def pagingMapTables (k : Kernel) (desc : PagingDesc) (virt : Nat) : Nat × Kernel :=
  let pdpt := pagingTable k (desc.pml + sizeofPagingDescEntry * tableIndex virt 3)
  let pd := pagingTable pdpt.2 (pdpt.1 + sizeofPagingDescEntry * tableIndex virt 2)
  pagingTable pd.2 (pd.1 + sizeofPagingDescEntry * tableIndex virt 1)

/-- The address of the leaf entry that `paging_map` writes. -/
def leafPlace (k : Kernel) (desc : PagingDesc) (virt : Nat) : Nat :=
  (pagingMapTables k desc virt).1 + sizeofPagingDescEntry * tableIndex virt 0

/-- What `paging_map` finds there when the tables of the page exist. -/
def leafFound (k : Kernel) (desc : PagingDesc) (virt : Nat) : Nat :=
  entryAt (pagingMapTables k desc virt).2.mem (leafPlace k desc virt)

/-- **`paging_map`** edits the leaf entry that it finds. -/
theorem pagingMap_eq (k : Kernel) (desc : PagingDesc) (virt phys : Nat) (flags : BitVec 32) :
    pagingMap k desc virt phys flags =
      (0, { (pagingMapTables k desc virt).2 with
        mem := setEntryAt (pagingMapTables k desc virt).2.mem (leafPlace k desc virt)
          (leafSet (leafFound k desc virt) phys flags) }) := rfl

section Map

variable {k : Kernel} {desc : PagingDesc} (tables : TableTree k.mem desc) {virt : Nat} (allocated : MapsFresh k desc virt)

include tables allocated

/-- **The three upper levels**: the page table is reached, and no leaf has changed. -/
theorem pagingMapTables_tree : TableTree (pagingMapTables k desc virt).2.mem desc ∧
    ReachedTable (pagingMapTables k desc virt).2.mem desc (pagePath virt) (pagingMapTables k desc virt).1 ∧
    (∀ path table, ReachedTable k.mem desc path table → ReachedTable (pagingMapTables k desc virt).2.mem desc path table) ∧
    ∀ va, pageEntry (pagingMapTables k desc virt).2.mem desc va = pageEntry k.mem desc va := by
  obtain ⟨allocated₃, allocated₂, allocated₁⟩ := allocated
  have step₃ := pagingTable_tree tables tables.tree.root (by decide) (tableIndex_lt virt 3) allocated₃
  have step₂ := pagingTable_tree step₃.tables step₃.reached (by simp) (tableIndex_lt virt 2) allocated₂
  have step₁ := pagingTable_tree step₂.tables step₂.reached (by simp) (tableIndex_lt virt 1) allocated₁
  exact ⟨step₁.tables, step₁.reached, fun path table old => step₁.kept _ _ (step₂.kept _ _ (step₃.kept _ _ old)),
    fun va => (step₁.leaves va).trans ((step₂.leaves va).trans (step₃.leaves va))⟩

/-- `paging_map` finds the leaf of its page. -/
theorem leafFound_eq : leafFound k desc virt = pageEntry k.mem desc virt := by
  obtain ⟨_, reached, _, leaves⟩ := pagingMapTables_tree tables allocated
  rw [← leaves]
  unfold pageEntry leaf
  rw [reached.2.2]
  rfl

/-- **`paging_map` sets the leaf of its page and no other.** -/
theorem pagingMap_tree (phys : Nat) (flags : BitVec 32) :
    TableTree (pagingMap k desc virt phys flags).2.mem desc ∧
      (∃ table, ReachedTable (pagingMap k desc virt phys flags).2.mem desc (pagePath virt) table) ∧
      (∀ path table, ReachedTable k.mem desc path table →
        ReachedTable (pagingMap k desc virt phys flags).2.mem desc path table) ∧
      ∀ va, pageEntry (pagingMap k desc virt phys flags).2.mem desc va =
        if pageNumber va = pageNumber virt then leafSet (pageEntry k.mem desc virt) phys flags
        else pageEntry k.mem desc va := by
  obtain ⟨upper, reached, kept, leaves⟩ := pagingMapTables_tree tables allocated
  obtain ⟨tables', reachedIff, set_⟩ := upper.setLeaf reached rfl (tableIndex_lt virt 0)
    (leafSet_found_lt (pagingMapTables k desc virt).2.mem (leafPlace k desc virt) phys flags)
  rw [pagingMap_eq]
  refine ⟨tables', ⟨_, (reachedIff _ _).mpr reached⟩, fun path table old => (reachedIff _ _).mpr (kept _ _ old),
    fun va => (set_ va).trans ?_⟩
  rw [leaves, ← leafFound_eq tables allocated]
  exact if_congr (pageNumber_eq_iff va virt).symm rfl rfl

end Map

/-! ### The kernel heap as the allocator -/

/-- **The kernel heap returns fresh tables.** -/
theorem FreshTable.of_granted {k : Kernel} {chains : Set Span} (heap : KernelHeap k chains) {inUse : Set Nat}
    (held : ∀ table ∈ inUse, ∃ chain ∈ chains, table = k.address chain) {start : Nat}
    (granted : Granted k chains ⟨start, 1⟩ (kzalloc k (sizeofPagingDescEntry * pagingTotalEntriesPerTable)).1
      (kzalloc k (sizeofPagingDescEntry * pagingTotalEntriesPerTable)).2)
    (cleared : ∀ offset < min (sizeofPagingDescEntry * pagingTotalEntriesPerTable) (2 ^ 31),
      (kzalloc k (sizeofPagingDescEntry * pagingTotalEntriesPerTable)).2.mem
        ((kzalloc k (sizeofPagingDescEntry * pagingTotalEntriesPerTable)).1 + offset) = 0x00#8) :
    FreshTable k inUse where
  aligned := by
    rw [granted.pointer]
    exact heap.address_aligned _
  physical := by
    have range := granted.heap.bytes_in_heap (Set.mem_insert _ _)
    have physical := granted.heap.physical
    rw [granted.same.address, ← granted.pointer] at range
    exact (Nat.le_add_right _ _).trans_lt ((range.2.trans physical).trans_lt (by norm_num))
  zeroed := fun offset small => cleared offset (small.trans_le (by norm_num))
  unused := fun used => by
    obtain ⟨chain, live, equal⟩ := held _ used
    have sameAddress : k.address ⟨start, 1⟩ = k.address chain := granted.pointer.symm.trans equal
    have sameStart : start = chain.start := by
      unfold Kernel.address chainAddress at sameAddress
      simp only [peachosHeapBlockSize] at sameAddress
      omega
    have inNew := Span.start_mem granted.nonempty
    rw [show (Span.mk start 1).start = chain.start from sameStart] at inNew
    exact Span.not_disjoint inNew (Span.start_mem (heap.decodes.nonempty chain live)) (granted.apart chain live)
  kept := fun table used offset small => by
    obtain ⟨chain, live, rfl⟩ := held table used
    have nonempty := heap.decodes.nonempty chain live
    refine granted.kept chain live _ ⟨Nat.le_add_right _ _, ?_⟩
    simp only [pagingPageSize, peachosHeapBlockSize] at small ⊢
    omega

/-- The tables of a descriptor are chains of the kernel heap. -/
structure TablesInHeap (k : Kernel) (desc : PagingDesc) (chains : Set Span) : Prop where
  heap : KernelHeap k chains
  tree : TableTree k.mem desc
  held : ∀ path table, ReachedTable k.mem desc path table → ∃ chain ∈ chains, table = k.address chain

section InHeap

variable {k : Kernel} {desc : PagingDesc} {chains : Set Span}

theorem SpareBlocks.mono {spare more : Nat} (spares : SpareBlocks k chains (spare + more)) : SpareBlocks k chains spare := by
  obtain ⟨used, few, covers⟩ := spares
  exact ⟨used, by omega, covers⟩

/-- One level takes at most one block. -/
theorem pagingTable_inHeap (spare : Nat) (tables : TablesInHeap k desc chains) (spares : SpareBlocks k chains (spare + 1))
    {path : List Nat} {table digit : Nat} (reached : ReachedTable k.mem desc path table) (above : path.length < 3)
    (inside : digit < pagingTotalEntriesPerTable) :
    TableOrFresh k desc (table + sizeofPagingDescEntry * digit) ∧
      ∃ chains', TablesInHeap (pagingTable k (table + sizeofPagingDescEntry * digit)).2 desc chains' ∧
        SpareBlocks (pagingTable k (table + sizeofPagingDescEntry * digit)).2 chains' spare := by
  by_cases null : tableRead k.mem table digit = 0
  · obtain ⟨start, granted, cleared, spares'⟩ := kzalloc_spare spare tables.heap spares
      (show sizeofPagingDescEntry * pagingTotalEntriesPerTable < 2 ^ 64 by norm_num) (by decide)
    have held : ∀ used ∈ tablesInUse k.mem desc, ∃ chain ∈ chains, used = k.address chain :=
      fun used ⟨path', reached'⟩ => tables.held path' used reached'
    have fresh := FreshTable.of_granted tables.heap held granted cleared
    refine ⟨fun _ => fresh, insert ⟨start, 1⟩ chains, ?_⟩
    obtain ⟨step, pointer⟩ := pagingTable_fresh tables.tree reached above inside null fresh
    obtain ⟨chain, live, tableEq⟩ := tables.held path table reached
    have isNull : pagingNullEntry (entryAt k.mem (table + sizeofPagingDescEntry * digit)) = true :=
      decide_eq_true null
    -- the kernel is that of the allocation, but for the entry that is written
    obtain ⟨mem', kernelEq, outside⟩ : ∃ mem', (pagingTable k (table + sizeofPagingDescEntry * digit)).2 =
        { (kzalloc k (sizeofPagingDescEntry * pagingTotalEntriesPerTable)).2 with mem := mem' } ∧
        ∀ a, a ∉ (kzalloc k (sizeofPagingDescEntry * pagingTotalEntriesPerTable)).2.bytes chain →
          mem' a = (kzalloc k (sizeofPagingDescEntry * pagingTotalEntriesPerTable)).2.mem a := by
      unfold pagingTable
      simp only [isNull, if_true]
      refine ⟨_, rfl, fun a apart => writeWord_outside ?_⟩
      have bound := entry_inside tables.heap live inside
      rw [granted.same.bytes] at apart
      by_contra between
      refine apart ⟨?_, ?_⟩ <;> rw [← tableEq] <;> omega
    have address : ∀ other, (pagingTable k (table + sizeofPagingDescEntry * digit)).2.address other = k.address other := by
      intro other
      rw [kernelEq]
      exact granted.same.address
    refine ⟨⟨?_, step.tables, fun path' table' reached' => ?_⟩, ?_⟩
    · rw [kernelEq]
      exact granted.heap.withMem (Set.mem_insert_of_mem _ live) outside
    · rcases step.only path' table' reached' with old | new
      · obtain ⟨other, live', equal⟩ := tables.held path' table' old
        exact ⟨other, Set.mem_insert_of_mem _ live', equal.trans (address other).symm⟩
      · refine ⟨_, Set.mem_insert _ _, ?_⟩
        rw [new, pointer, address]
        exact granted.pointer
    · rw [kernelEq]
      exact spares'.congr ⟨rfl, rfl⟩
  · have notNull : pagingNullEntry (entryAt k.mem (table + sizeofPagingDescEntry * digit)) = false :=
      decide_eq_false null
    refine ⟨fun isNull => absurd (of_decide_eq_true isNull) null, chains, ?_⟩
    unfold pagingTable
    simp only [notNull, Bool.false_eq_true, if_false]
    exact ⟨tables, spares.mono⟩

/-- **The kernel heap maps pages as long as three blocks are spare for each.** -/
theorem pagingMap_inHeap (spare : Nat) (tables : TablesInHeap k desc chains) (spares : SpareBlocks k chains (spare + 3))
    (virt phys : Nat) (flags : BitVec 32) :
    MapsFresh k desc virt ∧
      ∃ chains', TablesInHeap (pagingMap k desc virt phys flags).2 desc chains' ∧
        SpareBlocks (pagingMap k desc virt phys flags).2 chains' spare := by
  unfold MapsFresh
  dsimp only
  obtain ⟨fresh₃, chains₃, tables₃, spares₃⟩ :=
    pagingTable_inHeap (spare + 2) tables spares tables.tree.tree.root (by decide) (tableIndex_lt virt 3)
  have step₃ := pagingTable_tree tables.tree tables.tree.tree.root (by decide) (tableIndex_lt virt 3) fresh₃
  obtain ⟨fresh₂, chains₂, tables₂, spares₂⟩ :=
    pagingTable_inHeap (spare + 1) tables₃ spares₃ step₃.reached (by simp) (tableIndex_lt virt 2)
  have step₂ := pagingTable_tree tables₃.tree step₃.reached (by simp) (tableIndex_lt virt 2) fresh₂
  obtain ⟨fresh₁, chains₁, tables₁, spares₁⟩ :=
    pagingTable_inHeap spare tables₂ spares₂ step₂.reached (by simp) (tableIndex_lt virt 1)
  have step₁ := pagingTable_tree tables₂.tree step₂.reached (by simp) (tableIndex_lt virt 1) fresh₁
  have mapped := (pagingMap_tree tables.tree ⟨fresh₃, fresh₂, fresh₁⟩ phys flags).1
  refine ⟨⟨fresh₃, fresh₂, fresh₁⟩, chains₁, ?_⟩
  unfold pagingMap at mapped ⊢
  dsimp only at mapped ⊢
  generalize pagingTable k (desc.pml + sizeofPagingDescEntry * tableIndex virt 3) = pdpt at *
  generalize pagingTable pdpt.2 (pdpt.1 + sizeofPagingDescEntry * tableIndex virt 2) = pd at *
  generalize pagingTable pd.2 (pd.1 + sizeofPagingDescEntry * tableIndex virt 1) = pt at *
  obtain ⟨chain, live, tableEq⟩ := tables₁.held _ _ step₁.reached
  have bound := entry_inside tables₁.heap live (tableIndex_lt virt 0)
  obtain ⟨_, reachedIff, _⟩ := step₁.tables.setLeaf step₁.reached rfl (tableIndex_lt virt 0) (leafSet_found_lt _ _ phys flags)
  refine ⟨⟨tables₁.heap.withMem live fun a apart => writeWord_outside ?_, mapped, fun path table reached => ?_⟩,
    spares₁.congr ⟨rfl, rfl⟩⟩
  · by_contra between
    refine apart ⟨?_, ?_⟩ <;> rw [← tableEq] <;> omega
  · exact tables₁.held path table ((reachedIff path table).mp reached)

end InHeap

end PeachOS
