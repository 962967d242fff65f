/-
**The lookup of pages in software.**

`paging_get` follows the same entries as the processor, but before it reads the entry of the address in a
page directory pointer table or a page directory it gives up if the first entry of that table is null.

* `pagingGet_eq_none_iff` — when it gives up, in any memory;
* `pagingGet_agrees_iff` — after any run of `paging_map`, it agrees with the walk of the processor at an
  address exactly if an entry on the path is null or both first entries are not;
* `pagingGet_sparse` — the first page mapped below a root entry is not found unless it lies in the first
  gigabyte of that entry.
-/

import PeachOS.Paging.Mapping

namespace PeachOS

open ByteStore RadixTable PagingState
open StepRun (Reachable)

/-! ### When the lookup gives up -/

/-- The page directory pointer table on the path of an address. -/
def pdptTable (mem : Memory) (desc : PagingDesc) (va : Nat) : Nat :=
  entryAddress (tableRead mem desc.pml (tableIndex va 3)) * 2 ^ 12

/-- The page directory on the path of an address. -/
def pdTable (mem : Memory) (desc : PagingDesc) (va : Nat) : Nat :=
  entryAddress (tableRead mem (pdptTable mem desc va) (tableIndex va 2)) * 2 ^ 12

/-- **An intermediate entry on the path of an address is null.** -/
def IntermediateNull (mem : Memory) (desc : PagingDesc) (va : Nat) : Prop :=
  tableRead mem desc.pml (tableIndex va 3) = 0 ∨ tableRead mem (pdptTable mem desc va) (tableIndex va 2) = 0 ∨
    tableRead mem (pdTable mem desc va) (tableIndex va 1) = 0

/-- The first entries of the two tables whose first entries are looked at. -/
def FirstEntriesSet (mem : Memory) (desc : PagingDesc) (va : Nat) : Prop :=
  entryAt mem (pdptTable mem desc va) ≠ 0 ∧ entryAt mem (pdTable mem desc va) ≠ 0

theorem tableRead_zero (mem : Memory) (table : Nat) : tableRead mem table 0 = entryAt mem table := rfl

/-- The lookup, table by table. -/
theorem pagingGet_eq (mem : Memory) (desc : PagingDesc) (va : Nat) :
    pagingGet mem desc va =
      if pagingNullEntry (tableRead mem desc.pml (tableIndex va 3)) then none
      else if pagingNullEntry (entryAt mem (pdptTable mem desc va)) then none
      else if pagingNullEntry (tableRead mem (pdptTable mem desc va) (tableIndex va 2)) then none
      else if pagingNullEntry (entryAt mem (pdTable mem desc va)) then none
      else if pagingNullEntry (tableRead mem (pdTable mem desc va) (tableIndex va 1)) then none
      else if pagingNullEntry (entryAt mem (pdTable mem desc va)) then none
      else some (entryAddress (tableRead mem (pdTable mem desc va) (tableIndex va 1)) * 2 ^ 12 +
        sizeofPagingDescEntry * tableIndex va 0) := rfl

theorem pagingNullEntry_iff (entry : Nat) : pagingNullEntry entry = true ↔ entry = 0 := decide_eq_true_iff

/-- **`paging_get` gives up** at a null entry on the path, and at a null first entry. -/
theorem pagingGet_eq_none_iff (mem : Memory) (desc : PagingDesc) (va : Nat) :
    pagingGet mem desc va = none ↔ IntermediateNull mem desc va ∨ ¬ FirstEntriesSet mem desc va := by
  rw [pagingGet_eq]
  unfold IntermediateNull FirstEntriesSet
  simp only [ne_eq, ← pagingNullEntry_iff]
  generalize pagingNullEntry (tableRead mem desc.pml (tableIndex va 3)) = root
  generalize pagingNullEntry (entryAt mem (pdptTable mem desc va)) = first
  generalize pagingNullEntry (tableRead mem (pdptTable mem desc va) (tableIndex va 2)) = pdpt
  generalize pagingNullEntry (entryAt mem (pdTable mem desc va)) = first'
  generalize pagingNullEntry (tableRead mem (pdTable mem desc va) (tableIndex va 1)) = pd
  cases root <;> cases first <;> cases pdpt <;> cases first' <;> cases pd <;> simp

/-! ### The lookup and the walk -/

/-- **The lookup agrees with the walk of the processor** at an address. -/
def LookupAgrees (σ : PagingState) (va : Nat) : Prop :=
  (pagingGet σ.kernel.mem σ.desc va = none ↔ IntermediateNull σ.kernel.mem σ.desc va) ∧
    (pageNumber va ∈ σ.mapped → ∃ leaf, pageWalk σ.kernel.mem σ.desc va = some leaf ∧
      pagingGetPhysicalAddress σ.kernel.mem σ.desc va = entryAddress leaf * 2 ^ 12 + va % 2 ^ 12)

section Tree

variable {mem : Memory} {desc : PagingDesc} {va table : Nat}

/-- No entry on the path to a table that is reached is null. -/
theorem not_intermediateNull (reached : ReachedTable mem desc (pagePath va) table) :
    ¬ IntermediateNull mem desc va := by
  obtain ⟨_, _, walks⟩ := reached
  unfold pagePath at walks
  rw [walk] at walks
  by_cases root : tableRead mem desc.pml (tableIndex va 3) = 0
  · rw [root, tableChild_zero] at walks
    cases walks
  · rw [show tableChild (tableRead mem desc.pml (tableIndex va 3)) = some (pdptTable mem desc va) from if_neg root] at walks
    dsimp only at walks
    rw [walk] at walks
    by_cases pdpt : tableRead mem (pdptTable mem desc va) (tableIndex va 2) = 0
    · rw [pdpt, tableChild_zero] at walks
      cases walks
    · rw [show tableChild (tableRead mem (pdptTable mem desc va) (tableIndex va 2)) = some (pdTable mem desc va) from
        if_neg pdpt] at walks
      dsimp only at walks
      rw [walk] at walks
      by_cases pd : tableRead mem (pdTable mem desc va) (tableIndex va 1) = 0
      · rw [pd, tableChild_zero] at walks
        cases walks
      · rintro (null | null | null)
        · exact root null
        · exact pdpt null
        · exact pd null

/-- What the lookup finds is the frame of the leaf and the offset in the page. -/
theorem pagingGetPhysicalAddress_eq (found : pagingGet mem desc va ≠ none) :
    pagingGetPhysicalAddress mem desc va = entryAddress (pageEntry mem desc va) * 2 ^ 12 + va % 2 ^ 12 := by
  obtain ⟨entry, foundEntry, leafEq⟩ := (pagingGet_cases mem desc va).resolve_left found
  have frame : entryAddress (pageEntry mem desc va) < 2 ^ 40 := Nat.mod_lt _ (by norm_num)
  unfold pagingGetPhysicalAddress
  rw [foundEntry]
  dsimp only
  rw [leafEq]
  exact toWord_natCast (by omega)

end Tree

/-! ### The lookup and the tables that are reached -/

section Reached

variable {mem mem' : Memory} {desc : PagingDesc}

/-- A table has a next one at the entries that are not null. -/
theorem exists_reached_concat {path : List Nat} {table digit : Nat} (reached : ReachedTable mem desc path table)
    (above : path.length < 3) (inside : digit < pagingTotalEntriesPerTable) :
    (∃ next, ReachedTable mem desc (path ++ [digit]) next) ↔ tableRead mem table digit ≠ 0 := by
  constructor
  · rintro ⟨next, reachedNext⟩ null
    obtain ⟨_, _, table', reached', entry⟩ := reached_concat.mp reachedNext
    have same : table' = table := Option.some.inj (reached'.2.2.symm.trans reached.2.2)
    rw [same, null] at entry
    cases entry
  · intro notNull
    exact ⟨_, reached_concat.mpr ⟨above, inside, table, reached, if_neg notNull⟩⟩

/-- **The lookup follows the tables that are reached**: those on the path of the address, and those behind the two
first entries. -/
theorem pagingGet_ne_none_iff (mem : Memory) (desc : PagingDesc) (va : Nat) :
    pagingGet mem desc va ≠ none ↔ (∃ table, ReachedTable mem desc (pagePath va) table) ∧
      (∃ table, ReachedTable mem desc [tableIndex va 3, 0] table) ∧
        ∃ table, ReachedTable mem desc [tableIndex va 3, tableIndex va 2, 0] table := by
  have root := reached_root tableChild (tableRead mem) pagingTotalEntriesPerTable 3 desc.pml
  have first : (0 : Nat) < pagingTotalEntriesPerTable := by decide
  rw [Ne, pagingGet_eq_none_iff, not_or, not_not]
  by_cases root₃ : tableRead mem desc.pml (tableIndex va 3) = 0
  · constructor
    · rintro ⟨notNull, _⟩
      exact absurd (Or.inl root₃) notNull
    · rintro ⟨⟨table, reached⟩, _⟩
      exact absurd (Or.inl root₃) (not_intermediateNull reached)
  have reached₂ : ReachedTable mem desc [tableIndex va 3] (pdptTable mem desc va) :=
    reached_concat.mpr ⟨by decide, tableIndex_lt va 3, _, root, if_neg root₃⟩
  by_cases pdpt : tableRead mem (pdptTable mem desc va) (tableIndex va 2) = 0
  · constructor
    · rintro ⟨notNull, _⟩
      exact absurd (Or.inr (Or.inl pdpt)) notNull
    · rintro ⟨⟨table, reached⟩, _⟩
      exact absurd (Or.inr (Or.inl pdpt)) (not_intermediateNull reached)
  have reached₁ : ReachedTable mem desc [tableIndex va 3, tableIndex va 2] (pdTable mem desc va) :=
    reached_concat.mpr ⟨by simp, tableIndex_lt va 2, _, reached₂, if_neg pdpt⟩
  rw [show pagePath va = [tableIndex va 3, tableIndex va 2] ++ [tableIndex va 1] from rfl,
    show [tableIndex va 3, 0] = [tableIndex va 3] ++ [0] from rfl,
    show [tableIndex va 3, tableIndex va 2, 0] = [tableIndex va 3, tableIndex va 2] ++ [0] from rfl,
    exists_reached_concat reached₁ (by simp) (tableIndex_lt va 1), exists_reached_concat reached₂ (by simp) first,
    exists_reached_concat reached₁ (by simp) first]
  unfold IntermediateNull FirstEntriesSet
  rw [tableRead_zero, tableRead_zero]
  simp only [root₃, pdpt, false_or]

end Reached

/-- **When the lookup agrees with the walk**, after any run of `paging_map`. -/
theorem pagingGet_agrees_iff {σ : PagingState} (reachable : Reachable mapStep Initial σ) (va : Nat) :
    LookupAgrees σ va ↔
      IntermediateNull σ.kernel.mem σ.desc va ∨ FirstEntriesSet σ.kernel.mem σ.desc va := by
  have tables := tables_of_reachable reachable
  have gaveUp := pagingGet_eq_none_iff σ.kernel.mem σ.desc va
  constructor
  · rintro ⟨agrees, _⟩
    by_contra neither
    rw [not_or] at neither
    exact neither.1 (agrees.mp (gaveUp.mpr (Or.inr neither.2)))
  · intro condition
    refine ⟨⟨fun none => ?_, fun null => gaveUp.mpr (Or.inl null)⟩, fun member => ?_⟩
    · rcases gaveUp.mp none with null | notSet
      · exact null
      · exact condition.resolve_right notSet
    · obtain ⟨table, reached⟩ := tables.mapped va member
      have notNull := not_intermediateNull reached
      refine ⟨_, pageWalk_of_reached tables.tree reached, pagingGetPhysicalAddress_eq fun none => ?_⟩
      rcases gaveUp.mp none with null | notSet
      · exact notNull null
      · exact notSet (condition.resolve_left notNull)

/-- In a descriptor without pages the lookup agrees with the walk. -/
theorem pagingGet_agrees_firstDescriptor : LookupAgrees firstDescriptor 0x40000000 :=
  (pagingGet_agrees_iff (.start firstDescriptor_inHeap.1) 0x40000000).mpr
    (Or.inl (Or.inl ((cleared_initial firstDescriptor_inHeap.1).2 _ (tableIndex_lt _ _))))

/-! ### Sparse tables -/

/-- The page directory pointer table is the one that is reached. -/
theorem pdptTable_of_reached {mem : Memory} {desc : PagingDesc} {va table : Nat}
    (reached : ReachedTable mem desc [tableIndex va 3] table) : pdptTable mem desc va = table := by
  obtain ⟨_, _, walks⟩ := reached
  rw [walk] at walks
  by_cases root : tableRead mem desc.pml (tableIndex va 3) = 0
  · rw [root, tableChild_zero] at walks
    cases walks
  · rw [show tableChild (tableRead mem desc.pml (tableIndex va 3)) = some (pdptTable mem desc va) from if_neg root] at walks
    exact Option.some.inj walks

/-- **The first page below a root entry is not found** unless it lies in the first gigabyte of the entry:
only the entry of its own gigabyte is set in the new page directory pointer table. -/
theorem pagingGet_sparse {σ : PagingState} (tables : σ.Tables) {request : MapRequest}
    (allocated : MapsFresh σ.kernel σ.desc request.virt)
    (rootNull : tableRead σ.kernel.mem σ.desc.pml (tableIndex request.virt 3) = 0)
    (sparse : tableIndex request.virt 2 ≠ 0) :
    pagingGet (σ.map request).kernel.mem σ.desc request.virt = none := by
  obtain ⟨allocated₃, allocated₂, allocated₁⟩ := allocated
  refine (pagingGet_eq_none_iff _ _ _).mpr (Or.inr fun set_ => set_.1 ?_)
  unfold PagingState.map pagingMap
  dsimp only at allocated₂ allocated₁ ⊢
  have step₃ := pagingTable_tree tables.tree tables.tree.tree.root (by decide) (tableIndex_lt request.virt 3) allocated₃
  generalize pagingTable σ.kernel (σ.desc.pml + sizeofPagingDescEntry * tableIndex request.virt 3) = pdpt at *
  have step₂ := pagingTable_tree step₃.tables step₃.reached (by simp) (tableIndex_lt request.virt 2) allocated₂
  generalize pagingTable pdpt.2 (pdpt.1 + sizeofPagingDescEntry * tableIndex request.virt 2) = pd at *
  have step₁ := pagingTable_tree step₂.tables step₂.reached (by simp) (tableIndex_lt request.virt 1) allocated₁
  generalize pagingTable pd.2 (pd.1 + sizeofPagingDescEntry * tableIndex request.virt 1) = pt at *
  have reached₂ := step₂.kept _ _ step₃.reached
  have reached₁ := step₁.kept _ _ reached₂
  -- the tables below are other tables, so the first entry stays null
  have notPd : pdpt.1 ≠ pd.1 := fun same => by
    have equal := step₂.tables.tree.unique _ _ _ reached₂ (same ▸ step₂.reached)
    simp at equal
  have notPt : pdpt.1 ≠ pt.1 := fun same => by
    have equal := step₁.tables.tree.unique _ _ _ reached₁ (same ▸ step₁.reached)
    simp at equal
  have first₃ : tableRead pdpt.2.mem pdpt.1 0 = 0 := step₃.fresh rootNull 0 (by decide)
  have first₂ : tableRead pd.2.mem pdpt.1 0 = 0 :=
    (step₂.others _ _ step₃.reached 0 (by decide) (Or.inr sparse.symm)).trans first₃
  have first₁ : tableRead pt.2.mem pdpt.1 0 = 0 :=
    (step₁.others _ _ reached₂ 0 (by decide) (Or.inl notPd)).trans first₂
  generalize valueEq : leafSet (entryAt pt.2.mem (pt.1 + sizeofPagingDescEntry * tableIndex request.virt 0)) request.phys
    request.flags = value
  have word : value < 2 ^ 64 := by
    rw [← valueEq]
    exact leafSet_lt (entryAt_lt _ _) _ _
  obtain ⟨_, reachedIff, _⟩ := step₁.tables.setLeaf step₁.reached rfl (tableIndex_lt request.virt 0) word
  have first₀ : tableRead (setEntryAt pt.2.mem (pt.1 + sizeofPagingDescEntry * tableIndex request.virt 0) value) pdpt.1 0 =
      tableRead pt.2.mem pdpt.1 0 :=
    tableRead_setEntry_apart (step₁.tables.table_aligned step₁.reached) (step₁.tables.table_aligned reached₁)
      (tableIndex_lt request.virt 0) (by decide) (Or.inl notPt)
  rw [first₁, tableRead_zero] at first₀
  rw [pdptTable_of_reached ((reachedIff _ _).mpr reached₁)]
  exact first₀

/-- The page at one gigabyte, mapped in a new descriptor. -/
def oneGigabyte : MapRequest where
  virt := 0x40000000
  phys := 0x5000
  flags := 0b011#32

theorem firstDescriptor_oneGigabyte : Reachable mapStep Initial (firstDescriptor.map oneGigabyte) ∧
    pagingGet (firstDescriptor.map oneGigabyte).kernel.mem firstDescriptor.desc oneGigabyte.virt = none ∧
    pageNumber oneGigabyte.virt ∈ (firstDescriptor.map oneGigabyte).mapped := by
  obtain ⟨begun, chains, inHeap, spares⟩ := firstDescriptor_inHeap
  have allocated := (pagingMap_inHeap 3 inHeap spares oneGigabyte.virt oneGigabyte.phys oneGigabyte.flags).1
  refine ⟨.next oneGigabyte (.start begun) ⟨allocated, rfl⟩, ?_, Set.mem_insert _ _⟩
  exact pagingGet_sparse (tables_initial begun) allocated ((cleared_initial begun).2 _ (tableIndex_lt _ _)) (by decide)

/-- **The lookup misses a mapped page.** -/
theorem lookup_misses : ¬ ∀ σ, Reachable mapStep Initial σ → ∀ va, LookupAgrees σ va := by
  intro agree
  obtain ⟨reachable, none, member⟩ := firstDescriptor_oneGigabyte
  have agrees := (agree _ reachable oneGigabyte.virt).1.mp none
  obtain ⟨table, reached⟩ := (tables_of_reachable reachable).mapped _ member
  exact not_intermediateNull reached agrees

end PeachOS
