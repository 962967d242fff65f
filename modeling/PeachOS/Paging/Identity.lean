/-
**Mapping pages to themselves.**

The allocator of a process maps the pages of an allocation to themselves, and maps them again when it frees
the allocation.

* `PageTables.frame` — who keeps the tables keeps every leaf;
* `pagingRangeAllocates_of_leaves` — a range whose leaves are set needs no new table;
* `pagingMapTo_identity` — the pages of the range are mapped to themselves, all others are unchanged.
-/

import PeachOS.Paging.Tables

namespace PeachOS

open ByteStore RadixTable
open SpanTable (Span)

variable {Holder : Type} {k k' : Kernel} {ledger ledger' : Ledger Holder} {holder : List Nat → Holder}
  {desc : PagingDesc}

/-! ### Tables that are kept -/

/-- **Page tables that are kept have the same leaves.** -/
theorem PageTables.frame (tables : PageTables k ledger holder desc) (heap : KernelHeap k ledger.chains)
    (same : k.SameHeap k')
    (holds : ∀ path chain, ledger'.Holds (holder path) chain ↔ ledger.Holds (holder path) chain)
    (keeps : ∀ path chain, ledger.Holds (holder path) chain → k.Keeps k' chain) :
    PageTables k' ledger' holder desc ∧ ∀ va, pageEntry k'.mem desc va = pageEntry k.mem desc va := by
  have labels : ∀ path table, HeldTable k' ledger' holder path table ↔ HeldTable k ledger holder path table := by
    intro path table
    unfold HeldTable
    simp only [same.address, holds]
  have reads : ∀ path table, HeldTable k ledger holder path table → ∀ digit < pagingTotalEntriesPerTable,
      tableRead k'.mem table digit = tableRead k.mem table digit := by
    rintro path table ⟨chain, held, rfl⟩ digit inside
    exact tableRead_keeps heap held.1 (keeps path chain held) inside
  refine ⟨⟨tables.tree.congr labels reads, fun path table label above digit inside => ?_⟩, fun va => ?_⟩
  · rw [reads path table ((labels _ _).mp label) digit inside]
    exact tables.links path table ((labels _ _).mp label) above digit inside
  · exact tables.tree.leaf_congr reads 0 (by simp [pagePath]) (pagePath_digits va) (tableIndex_lt va 0)

/-! ### Ranges that need no table -/

/-- A table that exists is found as it is. -/
theorem pagingTable_of_entry {entry : Nat} (exists_ : entryAt k.mem entry ≠ 0) :
    pagingTable k entry = (entryAddress (entryAt k.mem entry) * 2 ^ 12, k) := by
  have notNull : pagingNullEntry (entryAt k.mem entry) = false := decide_eq_false exists_
  unfold pagingTable
  simp only [notNull, Bool.false_eq_true, if_false]

theorem tableAllocated_of_entry {entry : Nat} (exists_ : entryAt k.mem entry ≠ 0) : TableAllocated k entry :=
  fun null => absurd (of_decide_eq_true null) exists_

/-- **A page with a leaf needs no table.** -/
theorem pagingMapAllocates_of_leaf {va : Nat} (leaf_ : pageEntry k.mem desc va ≠ 0) : PagingMapAllocates k desc va := by
  unfold pageEntry leaf pagePath at leaf_
  simp only [RadixTable.walk, tableChild, tableRead] at leaf_
  by_cases root : entryAt k.mem (desc.pml + sizeofPagingDescEntry * tableIndex va 3) = 0
  · exact absurd (by simp only [root, if_true]) leaf_
  simp only [root, if_false] at leaf_
  by_cases pdpt : entryAt k.mem (entryAddress (entryAt k.mem (desc.pml + sizeofPagingDescEntry * tableIndex va 3)) *
      2 ^ 12 + sizeofPagingDescEntry * tableIndex va 2) = 0
  · exact absurd (by simp only [pdpt, if_true]) leaf_
  simp only [pdpt, if_false] at leaf_
  unfold PagingMapAllocates
  simp only [pagingTable_of_entry root, pagingTable_of_entry pdpt]
  refine ⟨tableAllocated_of_entry root, tableAllocated_of_entry pdpt, tableAllocated_of_entry fun pd => ?_⟩
  exact absurd (by simp only [pd, if_true]) leaf_

section Range

variable (injective : Function.Injective holder) {flags : BitVec 32}

include injective

/-- **A range of pages whose leaves stay non-null needs no table.** -/
theorem pagingRangeAllocates_of_leaves {fuel : Nat} (few : fuel < 2 ^ 36) {virt phys : Nat} {k : Kernel}
    {ledger : Ledger Holder} (heap : KernelHeap k ledger.chains) (tables : PageTables k ledger holder desc)
    (leaves : ∀ va, pageOffset virt va < fuel → pageEntry k.mem desc va ≠ 0) :
    PagingRangeAllocates desc flags fuel virt phys k := by
  induction fuel generalizing virt phys k ledger with
  | zero => trivial
  | succ fuel ih =>
      have first : pageOffset virt virt = 0 := by
        have bound := pageNumber_lt virt
        unfold pageOffset
        omega
      have allocates := pagingMapAllocates_of_leaf (leaves virt (by omega))
      obtain ⟨ledger', grown, tables', _, pages⟩ := pagingMap_spec heap tables injective phys flags allocates
      refine ⟨allocates, ih (by omega) grown.heap tables' fun va inside => ?_⟩
      have next := pageNumber_next virt
      have bound := pageNumber_lt va
      have bound' := pageNumber_lt virt
      unfold pageOffset at inside
      rw [next] at inside
      rw [pages va, if_neg (by omega)]
      refine leaves va ?_
      unfold pageOffset
      omega

end Range

/-! ### Pages of an allocation -/

/-- The address of the page that an address lies in. -/
def pageBase (va : Nat) : Nat := va / pagingPageSize * pagingPageSize

/-- Below the end of the address space, the pages of a range are the pages in it. -/
theorem pageOffset_lt_iff {start pages va : Nat} (aligned : start % pagingPageSize = 0)
    (fits : start + pages * pagingPageSize ≤ 2 ^ 48) (low : va < 2 ^ 48) :
    pageOffset start va < pages ↔ start ≤ va ∧ va < start + pages * pagingPageSize := by
  unfold pageOffset pageNumber
  simp only [pagingPageSize] at aligned fits ⊢
  omega

theorem pageOffset_eq {start pages va : Nat} (aligned : start % pagingPageSize = 0)
    (fits : start + pages * pagingPageSize ≤ 2 ^ 48) (low : va < 2 ^ 48) (inside : pageOffset start va < pages) :
    start + pageOffset start va * pagingPageSize = pageBase va := by
  unfold pageOffset pageNumber at inside ⊢
  unfold pageBase
  simp only [pagingPageSize] at aligned fits inside ⊢
  omega

/-- `paging_map_to` of whole pages is `paging_map_range`. -/
theorem pagingMapTo_eq {virt start pages : Nat} (alignedVirt : virt % pagingPageSize = 0)
    (aligned : start % pagingPageSize = 0) (flags : BitVec 32) :
    pagingMapTo k desc virt start (start + pages * pagingPageSize) flags =
      pagingMapRange k desc virt start pages flags := by
  have alignedEnd : (start + pages * pagingPageSize) % pagingPageSize = 0 := by
    rw [Nat.add_mul_mod_self_right]
    exact aligned
  have above : ¬ start + pages * pagingPageSize < start := Nat.not_lt.mpr (Nat.le_add_right _ _)
  have count : (start + pages * pagingPageSize - start) / pagingPageSize = pages := by
    rw [Nat.add_sub_cancel_left]
    exact Nat.mul_div_cancel _ (by decide)
  unfold pagingMapTo
  simp only [alignedVirt, aligned, alignedEnd, above, count, ne_eq, not_true_eq_false, if_false]

section Identity

variable (injective : Function.Injective holder)

include injective

/-- **The pages of a range are mapped to themselves, and all others are unchanged.** -/
theorem pagingMapTo_identity {flags : BitVec 32} {start pages : Nat} (aligned : start % pagingPageSize = 0)
    (fits : start + pages * pagingPageSize ≤ 2 ^ 48) (heap : KernelHeap k ledger.chains)
    (tables : PageTables k ledger holder desc)
    (allocates : PagingRangeAllocates desc flags (min pages (2 ^ 31)) start start k) :
    ∃ ledger', Grown (Set.range holder) k ledger
        (pagingMapTo k desc start start (start + pages * pagingPageSize) flags).2 ledger' ∧
      PageTables (pagingMapTo k desc start start (start + pages * pagingPageSize) flags).2 ledger' holder desc ∧
      (pagingMapTo k desc start start (start + pages * pagingPageSize) flags).1 = 0 ∧
      ∀ va < 2 ^ 48,
        pageEntry (pagingMapTo k desc start start (start + pages * pagingPageSize) flags).2.mem desc va =
          if start ≤ va ∧ va < start + min pages (2 ^ 31) * pagingPageSize then
            leafSet (pageEntry k.mem desc va) (pageBase va) flags
          else pageEntry k.mem desc va := by
  rw [pagingMapTo_eq aligned aligned]
  obtain ⟨ledger', grown, tables', done, pages'⟩ := pagingMapRange_spec injective heap tables allocates
  have fits' : start + min pages (2 ^ 31) * pagingPageSize ≤ 2 ^ 48 :=
    (Nat.add_le_add_left (Nat.mul_le_mul_right _ (min_le_left _ _)) _).trans fits
  refine ⟨ledger', grown, tables', done, fun va low => ?_⟩
  rw [pages' va]
  by_cases inside : pageOffset start va < min pages (2 ^ 31)
  · rw [if_pos inside, if_pos ((pageOffset_lt_iff aligned fits' low).mp inside),
      pageOffset_eq aligned fits' low inside]
  · rw [if_neg inside, if_neg fun range => inside ((pageOffset_lt_iff aligned fits' low).mpr range)]

end Identity

/-- The frame that a leaf refers to. -/
theorem entryAddress_leafSet (entry phys : Nat) (flags : BitVec 32) :
    entryAddress (leafSet entry phys flags) = phys / 2 ^ 12 % 2 ^ 40 := entryAddress_set _ _ _ _ _

end PeachOS
