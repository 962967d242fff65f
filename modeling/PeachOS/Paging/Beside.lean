/-
**Tables that are allocated beside other memory.**

The allocator does not give out what is in use: neither a table of the descriptor, which `MapsFresh` says, nor any other
block that the kernel holds. `MapsBeside` says both, and that the allocations succeed.

* `MapsBeside.fresh` — then the tables are fresh;
* `pagingMap_beside` — after `paging_map` no table of the descriptor is one of the other blocks;
* `mapsBeside_of_heap` — the kernel heap keeps them apart, as long as it has memory.
-/

import PeachOS.Paging.Walk

namespace PeachOS

open ByteStore RadixTable
open SpanTable (Span)

/-- A table that is missing can be had, beside some blocks. -/
def TableBeside (k : Kernel) (desc : PagingDesc) (others : Set Nat) (entry : Nat) : Prop :=
  pagingNullEntry (entryAt k.mem entry) = true →
    FreshTable k (others ∪ tablesInUse k.mem desc) ∧ (kzalloc k (sizeofPagingDescEntry * pagingTotalEntriesPerTable)).1 ≠ 0

/-- What the three levels of `paging_map` find, beside some blocks. -/
def MapsBeside (k : Kernel) (desc : PagingDesc) (virt : Nat) (others : Set Nat) : Prop :=
  let pdpt := pagingTable k (desc.pml + sizeofPagingDescEntry * tableIndex virt 3)
  let pd := pagingTable pdpt.2 (pdpt.1 + sizeofPagingDescEntry * tableIndex virt 2)
  TableBeside k desc others (desc.pml + sizeofPagingDescEntry * tableIndex virt 3) ∧
    TableBeside pdpt.2 desc others (pdpt.1 + sizeofPagingDescEntry * tableIndex virt 2) ∧
    TableBeside pd.2 desc others (pd.1 + sizeofPagingDescEntry * tableIndex virt 1)

/-- What is fresh for more blocks is fresh for fewer. -/
theorem FreshTable.mono {k : Kernel} {inUse fewer : Set Nat} (fresh : FreshTable k inUse) (subset : fewer ⊆ inUse) :
    FreshTable k fewer where
  aligned := fresh.aligned
  physical := fresh.physical
  zeroed := fresh.zeroed
  unused := fun used => fresh.unused (subset used)
  kept := fun table used => fresh.kept table (subset used)

theorem TableBeside.fresh {k : Kernel} {desc : PagingDesc} {others : Set Nat} {entry : Nat}
    (beside : TableBeside k desc others entry) : TableOrFresh k desc entry := fun null =>
  (beside null).1.mono Set.subset_union_right

theorem MapsBeside.fresh {k : Kernel} {desc : PagingDesc} {virt : Nat} {others : Set Nat}
    (beside : MapsBeside k desc virt others) : MapsFresh k desc virt :=
  ⟨beside.1.fresh, beside.2.1.fresh, beside.2.2.fresh⟩

/-- **One level** takes a table that there is, or one beside the other blocks. -/
theorem pagingTable_beside {k : Kernel} {desc : PagingDesc} (tables : TableTree k.mem desc) {path : List Nat}
    {table digit : Nat} (reached : ReachedTable k.mem desc path table) (above : path.length < 3)
    (inside : digit < pagingTotalEntriesPerTable) {others : Set Nat}
    (beside : TableBeside k desc others (table + sizeofPagingDescEntry * digit)) :
    TableStep k.mem (pagingTable k (table + sizeofPagingDescEntry * digit)).2.mem desc path table digit
        (pagingTable k (table + sizeofPagingDescEntry * digit)).1 ∧
      ∀ a ∈ tablesInUse (pagingTable k (table + sizeofPagingDescEntry * digit)).2.mem desc,
        a ∈ tablesInUse k.mem desc ∨ a ∉ others ∧ a ≠ 0 := by
  have step := pagingTable_tree tables reached above inside beside.fresh
  refine ⟨step, ?_⟩
  rintro a ⟨path', reached'⟩
  rcases step.only path' a reached' with old | new
  · exact Or.inl ⟨path', old⟩
  · by_cases null : tableRead k.mem table digit = 0
    · obtain ⟨fresh, nonnull⟩ := beside (decide_eq_true null)
      have pointer := (pagingTable_fresh tables reached above inside null (fresh.mono Set.subset_union_right)).2
      rw [new, pointer]
      exact Or.inr ⟨fun isOther => fresh.unused (Or.inl isOther), nonnull⟩
    · -- the table that the entry refers to
      have link : tableChild (tableRead k.mem table digit) = some (entryAddress (tableRead k.mem table digit) * 2 ^ 12) :=
        if_neg null
      have notNull : pagingNullEntry (entryAt k.mem (table + sizeofPagingDescEntry * digit)) = false :=
        decide_eq_false null
      unfold pagingTable at new
      simp only [notNull, Bool.false_eq_true, if_false] at new
      rw [new]
      exact Or.inl ⟨_, reached_concat.mpr ⟨above, inside, table, reached, link⟩⟩

/-- **`paging_map` takes no table from the other blocks.** -/
theorem pagingMap_beside {k : Kernel} {desc : PagingDesc} (tables : TableTree k.mem desc) {virt : Nat} {others : Set Nat}
    (beside : MapsBeside k desc virt others) (phys : Nat) (flags : BitVec 32) :
    ∀ a ∈ tablesInUse (pagingMap k desc virt phys flags).2.mem desc,
      a ∈ tablesInUse k.mem desc ∨ a ∉ others ∧ a ≠ 0 := by
  obtain ⟨beside₃, beside₂, beside₁⟩ := beside
  unfold pagingMap
  simp only at beside₂ beside₁ ⊢
  obtain ⟨step₃, taken₃⟩ := pagingTable_beside tables tables.tree.root (by decide) (tableIndex_lt virt 3) beside₃
  generalize pagingTable k (desc.pml + sizeofPagingDescEntry * tableIndex virt 3) = pdpt at *
  obtain ⟨step₂, taken₂⟩ := pagingTable_beside step₃.tables step₃.reached (by simp) (tableIndex_lt virt 2) beside₂
  generalize pagingTable pdpt.2 (pdpt.1 + sizeofPagingDescEntry * tableIndex virt 2) = pd at *
  obtain ⟨step₁, taken₁⟩ := pagingTable_beside step₂.tables step₂.reached (by simp) (tableIndex_lt virt 1) beside₁
  generalize pagingTable pd.2 (pd.1 + sizeofPagingDescEntry * tableIndex virt 1) = pt at *
  obtain ⟨_, reachedIff, _⟩ := step₁.tables.setLeaf step₁.reached rfl (tableIndex_lt virt 0) (leafSet_found_lt _ _ phys flags)
  rintro a ⟨path, reached⟩
  rcases taken₁ a ⟨path, (reachedIff path a).mp reached⟩ with inPd | new
  · rcases taken₂ a inPd with inPdpt | new
    · exact taken₃ a inPdpt
    · exact Or.inr new
  · exact Or.inr new

/-! ### The kernel heap -/

section Heap

variable {Holder : Type} {k : Kernel} {ledger : Ledger Holder} {holder : List Nat → Holder} {desc : PagingDesc}
  {others : Set Nat}

/-- A table that is allocated is a new chain. -/
theorem tableBeside_of_heap (heap : KernelHeap k ledger.chains) (tables : PageTables k ledger holder desc)
    (held : ∀ a ∈ others, ∃ chain ∈ ledger.chains, a = k.address chain) {entry : Nat}
    (allocated : TableAllocated k entry) : TableBeside k desc others entry := by
  intro null
  have nonnull := allocated null
  obtain ⟨start, granted, cleared⟩ := (kzalloc_cases heap
    (show sizeofPagingDescEntry * pagingTotalEntriesPerTable < 2 ^ 64 by norm_num)).resolve_left
    fun failed => nonnull (by rw [failed])
  rw [show heapBlocks (sizeofPagingDescEntry * pagingTotalEntriesPerTable) = 1 by decide] at granted
  have heldTables : ∀ a ∈ others ∪ tablesInUse k.mem desc, ∃ chain ∈ ledger.chains, a = k.address chain := by
    rintro a (isOther | ⟨path, short, digits, walks⟩)
    · exact held a isOther
    · obtain ⟨chain, holds, tableEq⟩ := tables.tree.walk_root short digits walks
      exact ⟨chain, holds.1, tableEq⟩
  exact ⟨FreshTable.of_granted heap heldTables granted cleared, nonnull⟩

/-- **The kernel heap allocates tables beside its other chains.** -/
theorem mapsBeside_of_heap (heap : KernelHeap k ledger.chains) (tables : PageTables k ledger holder desc)
    (injective : Function.Injective holder) (held : ∀ a ∈ others, ∃ chain ∈ ledger.chains, a = k.address chain) {virt : Nat}
    (allocates : PagingMapAllocates k desc virt) : MapsBeside k desc virt others := by
  obtain ⟨allocates₃, allocates₂, allocates₁⟩ := allocates
  obtain ⟨root, heldRoot, rootEq⟩ := tables.tree.root
  have beside₃ := tableBeside_of_heap heap tables held allocates₃
  unfold MapsBeside
  simp only at allocates₂ allocates₁ ⊢
  rw [rootEq] at beside₃ allocates₃ allocates₂ allocates₁ ⊢
  obtain ⟨ledger₃, chain₃, grown₃, tables₃, held₃, pointer₃, walks₃, _⟩ :=
    pagingTable_spec heap tables injective heldRoot (tableIndex_lt virt 3) (by decide)
      (fun _ member => absurd member List.not_mem_nil) (by rw [walk, rootEq]) allocates₃
  rw [List.nil_append] at held₃ walks₃
  generalize pagingTable k (k.address root + sizeofPagingDescEntry * tableIndex virt 3) = pdpt at *
  have known₃ : ∀ a ∈ others, ∃ chain ∈ ledger₃.chains, a = pdpt.2.address chain := fun a isOther => by
    obtain ⟨chain, live, equal⟩ := held a isOther
    exact ⟨chain, grown₃.chains live, equal.trans grown₃.same.address.symm⟩
  have beside₂ := tableBeside_of_heap grown₃.heap tables₃ known₃ allocates₂
  refine ⟨beside₃, ?_⟩
  rw [pointer₃, ← grown₃.same.address] at beside₂ allocates₂ allocates₁ ⊢
  rw [← grown₃.same.address] at walks₃
  have digits₃ : ∀ other ∈ [tableIndex virt 3], other < pagingTotalEntriesPerTable := by
    intro other member
    rw [List.mem_singleton.mp member]
    exact tableIndex_lt _ _
  obtain ⟨ledger₂, chain₂, grown₂, tables₂, _, _, _, _⟩ :=
    pagingTable_spec grown₃.heap tables₃ injective held₃ (tableIndex_lt virt 2) (show 1 < 3 by decide) digits₃ walks₃
      allocates₂
  generalize pagingTable pdpt.2 (pdpt.2.address chain₃ + sizeofPagingDescEntry * tableIndex virt 2) = pd at *
  have known₂ : ∀ a ∈ others, ∃ chain ∈ ledger₂.chains, a = pd.2.address chain := fun a isOther => by
    obtain ⟨chain, live, equal⟩ := known₃ a isOther
    exact ⟨chain, grown₂.chains live, equal.trans grown₂.same.address.symm⟩
  exact ⟨beside₂, tableBeside_of_heap grown₂.heap tables₂ known₂ allocates₁⟩

end Heap

end PeachOS
