/-
**Page tables out of spare blocks.**

While the kernel heap has blocks to spare, the tables that a range of pages needs can be allocated. And tables in the
kernel heap are the tables of a ledger: each chain is held under the path of its table, or by nobody in particular.

* `pagingMapRangeLoop_inHeap` — three blocks are enough for each page;
* `TablesInHeap.pageTables` — the ledger of the tables in the kernel heap;
* `pagingDescNew_keeps` — a new descriptor, next to the chains that there are.
-/

import PeachOS.Paging.Mapping

namespace PeachOS

open ByteStore RadixTable
open SpanTable (Span)

section Spare

variable {k : Kernel} {desc : PagingDesc} {chains : Set Span}

/-- A missing table can be allocated. -/
theorem tableAllocated_spare (spare : Nat) (tables : TablesInHeap k desc chains)
    (spares : SpareBlocks k chains (spare + 1)) (entry : Nat) : TableAllocated k entry := by
  intro _ null
  obtain ⟨start, granted, _⟩ := kzalloc_spare spare tables.heap spares
    (show sizeofPagingDescEntry * pagingTotalEntriesPerTable < 2 ^ 64 by norm_num) (by decide)
  rw [granted.pointer] at null
  exact absurd null (tables.heap.address_pos _).ne'

/-- So can the tables of a page. -/
theorem pagingMapAllocates_spare (spare : Nat) (tables : TablesInHeap k desc chains)
    (spares : SpareBlocks k chains (spare + 3)) (virt : Nat) : PagingMapAllocates k desc virt := by
  unfold PagingMapAllocates
  dsimp only
  obtain ⟨fresh₃, chains₃, tables₃, spares₃⟩ :=
    pagingTable_inHeap (spare + 2) tables spares tables.tree.tree.root (by decide) (tableIndex_lt virt 3)
  have step₃ := pagingTable_tree tables.tree tables.tree.tree.root (by decide) (tableIndex_lt virt 3) fresh₃
  obtain ⟨_, chains₂, tables₂, spares₂⟩ :=
    pagingTable_inHeap (spare + 1) tables₃ spares₃ step₃.reached (by simp) (tableIndex_lt virt 2)
  exact ⟨tableAllocated_spare (spare + 2) tables spares _, tableAllocated_spare (spare + 1) tables₃ spares₃ _,
    tableAllocated_spare spare tables₂ spares₂ _⟩

/-- **Three blocks are enough for each page of a range.** -/
theorem pagingMapRangeLoop_inHeap {flags : BitVec 32} {fuel : Nat} (spare : Nat) {virt phys : Nat} {res : Int} {k : Kernel}
    {chains : Set Span} (tables : TablesInHeap k desc chains) (spares : SpareBlocks k chains (spare + 3 * fuel)) :
    PagingRangeAllocates desc flags fuel virt phys k ∧
      ∃ chains', TablesInHeap (pagingMapRangeLoop desc flags fuel virt phys res k).2 desc chains' ∧
        SpareBlocks (pagingMapRangeLoop desc flags fuel virt phys res k).2 chains' spare := by
  induction fuel generalizing virt phys res k chains with
  | zero => exact ⟨trivial, chains, tables, spares⟩
  | succ fuel ih =>
      have allocates := pagingMapAllocates_spare (spare + 3 * fuel) tables spares virt
      obtain ⟨_, chains₁, tables₁, spares₁⟩ := pagingMap_inHeap (spare + 3 * fuel) tables spares virt phys flags
      have fine : ¬ (pagingMap k desc virt phys flags).1 < 0 := lt_irrefl 0
      obtain ⟨rest, chains₂, tables₂, spares₂⟩ := ih tables₁ spares₁
      refine ⟨⟨allocates, rest⟩, chains₂, ?_⟩
      rw [pagingMapRangeLoop, if_neg fine]
      exact ⟨tables₂, spares₂⟩

/-! ### A ledger of the tables -/

/-- **The tables in the kernel heap are held under their paths**, and its other chains are not. -/
theorem TablesInHeap.pageTables (tables : TablesInHeap k desc chains) :
    ∃ ledger : Ledger (Option (List Nat)), ledger.chains = chains ∧ PageTables k ledger some desc ∧
      ∀ chain ∈ chains, (∀ path table, ReachedTable k.mem desc path table → table ≠ k.address chain) →
        ledger.Holds none chain := by
  classical
  let isTable (start : Nat) := ∃ path table, ReachedTable k.mem desc path table ∧ table = k.address ⟨start, 1⟩
  let ledger : Ledger (Option (List Nat)) :=
    ⟨chains, fun start => if found : isTable start then some (some found.choose) else some none⟩
  have held (path : List Nat) (table : Nat) :
      HeldTable k ledger some path table ↔ ReachedTable k.mem desc path table := by
    constructor
    · rintro ⟨chain, ⟨_, holder⟩, rfl⟩
      change (if found : isTable chain.start then some (some found.choose) else some none) = some (some path) at holder
      split at holder
      case isTrue found =>
        obtain ⟨table, reached, rfl⟩ := found.choose_spec
        rw [Option.some.injEq, Option.some.injEq] at holder
        rw [← holder]
        exact reached
      case isFalse => cases holder
    · intro reached
      obtain ⟨chain, live, rfl⟩ := tables.held path table reached
      have found : isTable chain.start := ⟨path, _, reached, rfl⟩
      refine ⟨chain, ⟨live, ?_⟩, rfl⟩
      change (if found : isTable chain.start then some (some found.choose) else some none) = some (some path)
      obtain ⟨table, reached', same⟩ := found.choose_spec
      rw [dif_pos found, tables.tree.tree.unique found.choose path (k.address chain) (same ▸ reached') reached]
  have same : HeldTable k ledger some = ReachedTable k.mem desc := by
    funext path table
    exact propext (held path table)
  refine ⟨ledger, rfl, ⟨?_, ?_⟩, fun chain live other => ⟨live, ?_⟩⟩
  · rw [same]
    exact tables.tree.tree
  · rw [same]
    exact tables.tree.links
  · change (if found : isTable chain.start then some (some found.choose) else some none) = some none
    rw [dif_neg]
    rintro ⟨path, table, reached, rfl⟩
    exact other path _ reached rfl

/-! ### A new descriptor -/

/-- **The kernel heap serves `paging_desc_new` next to its other chains**, which are kept and are no tables. -/
theorem pagingDescNew_keeps (spare : Nat) (heap : KernelHeap k chains) (spares : SpareBlocks k chains (spare + 2)) :
    ∃ desc k' chains', pagingDescNew k pagingMapLevel4 = (some desc, k') ∧ k.SameHeap k' ∧
      TablesInHeap k' desc chains' ∧ SpareBlocks k' chains' spare ∧
      ∀ chain ∈ chains, chain ∈ chains' ∧ k.Keeps k' chain ∧
        ∀ path table, ReachedTable k'.mem desc path table → table ≠ k'.address chain := by
  obtain ⟨start, root, _, desc, k', created, _, granted, grantedRoot, spares₀, inHeap, only⟩ :=
    pagingDescNew_granted spare heap spares
  have same := granted.same.trans grantedRoot.same
  refine ⟨desc, k', _, created, same, inHeap, spares₀, fun chain live => ?_⟩
  have known : chain ∈ insert ⟨start, 1⟩ chains := Set.mem_insert_of_mem _ live
  refine ⟨Set.mem_insert_of_mem _ known, (granted.kept chain live).trans granted.same (grantedRoot.kept chain known),
    fun path table reached equal => ?_⟩
  -- the root is another chain
  have address : (kzalloc k sizeofPagingDesc).2.address ⟨root, 1⟩ = (kzalloc k sizeofPagingDesc).2.address chain := by
    rw [← grantedRoot.pointer, ← grantedRoot.same.address]
    exact (only path table reached).symm.trans equal
  have sameStart : root = chain.start := by
    unfold Kernel.address chainAddress at address
    simp only [peachosHeapBlockSize] at address
    omega
  have inNew := Span.start_mem grantedRoot.nonempty
  rw [show (Span.mk root 1).start = chain.start from sameStart] at inNew
  exact Span.not_disjoint inNew (Span.start_mem (heap.decodes.nonempty chain live)) (grantedRoot.apart chain known)

end Spare

end PeachOS
