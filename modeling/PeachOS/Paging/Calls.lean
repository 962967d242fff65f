/-
**The calls that map pages, page by page.**

`paging_map_range` and `paging_map_to` map one page after the other, and `paging_map` never fails. So a call is a number
of pages, each mapped in the kernel that the pages before it left.

* `pagingMap_eq` — one page: the tables, the place of the leaf entry and what is written there;
* `MapCall.run_kernel`, `MapCall.run_result` — a call is the mapping of its pages;
* `leafFound_eq` — in a tree of tables the entry that is written over is the leaf of the page.
-/

import PeachOS.Paging.Walk

namespace PeachOS

open ByteStore RadixTable

/-! ### One page -/

/-- The leaf entry after `paging_map`. -/
theorem entryAt_leafPlace (k : Kernel) (desc : PagingDesc) (virt phys : Nat) (flags : BitVec 32) :
    entryAt (pagingMap k desc virt phys flags).2.mem (leafPlace k desc virt) =
      leafSet (leafFound k desc virt) phys flags := by
  rw [pagingMap_eq]
  exact entryAt_setEntryAt (leafSet_found_lt _ _ _ _)

/-! ### Pages in a row -/

/-- The address of a page of a range. -/
def pageAt (start : Nat) : Nat → Nat
  | 0 => start
  | i + 1 => toWord (pageAt start i + pagingPageSize)

theorem pageAt_succ (start i : Nat) : pageAt start (i + 1) = pageAt (toWord (start + pagingPageSize)) i := by
  induction i with
  | zero => simp only [pageAt]
  | succ i ih => rw [pageAt, ih, pageAt]

theorem pageNumber_pageAt (start i : Nat) : pageNumber (pageAt start i) = (pageNumber start + i) % 2 ^ 36 := by
  induction i with
  | zero => exact (Nat.mod_eq_of_lt (pageNumber_lt start)).symm
  | succ i ih =>
      rw [pageAt, pageNumber_next, ih]
      omega

/-- The pages of a range have different numbers. -/
theorem pageNumber_pageAt_ne {start i j : Nat} (before : j < i) (few : i < 2 ^ 36) :
    pageNumber (pageAt start i) ≠ pageNumber (pageAt start j) := by
  rw [pageNumber_pageAt, pageNumber_pageAt]
  have bound := pageNumber_lt start
  omega

/-- The kernel when some pages of a range have been mapped. -/
def pagesMapped (k : Kernel) (desc : PagingDesc) (virt phys : Nat) (flags : BitVec 32) : (pages : Nat) → Kernel
  | 0 => k
  | i + 1 => (pagingMap (pagesMapped k desc virt phys flags i) desc (pageAt virt i) (pageAt phys i) flags).2

/-- The first page can be taken off. -/
theorem pagesMapped_succ (k : Kernel) (desc : PagingDesc) (virt phys : Nat) (flags : BitVec 32) (i : Nat) :
    pagesMapped k desc virt phys flags (i + 1) =
      pagesMapped (pagingMap k desc virt phys flags).2 desc (toWord (virt + pagingPageSize))
        (toWord (phys + pagingPageSize)) flags i := by
  induction i with
  | zero => rfl
  | succ i ih =>
      rw [pagesMapped, ih, pageAt_succ, pageAt_succ]
      rfl

/-- **The loop of `paging_map_range`** maps its pages. -/
theorem pagingMapRangeLoop_eq (desc : PagingDesc) (flags : BitVec 32) (fuel : Nat) (virt phys : Nat) (res : Int)
    (k : Kernel) :
    pagingMapRangeLoop desc flags fuel virt phys res k =
      (if fuel = 0 then res else 0, pagesMapped k desc virt phys flags fuel) := by
  induction fuel generalizing virt phys res k with
  | zero => rfl
  | succ fuel ih =>
      have never : ¬ (pagingMap k desc virt phys flags).1 < 0 := lt_irrefl 0
      rw [pagingMapRangeLoop]
      simp only [never, if_false]
      rw [ih, pagesMapped_succ, if_neg (Nat.succ_ne_zero fuel)]
      split <;> rfl

/-! ### The three calls -/

/-- A call that maps pages. -/
inductive MapCall where
  | map (virt phys : Nat)
  | mapRange (virt phys count : Nat)
  | mapTo (virt phys physEnd : Nat)
deriving DecidableEq

namespace MapCall

def run (k : Kernel) (desc : PagingDesc) (flags : BitVec 32) : MapCall → Int × Kernel
  | map virt phys => pagingMap k desc virt phys flags
  | mapRange virt phys count => pagingMapRange k desc virt phys count flags
  | mapTo virt phys physEnd => pagingMapTo k desc virt phys physEnd flags

/-- The first virtual address. -/
def virt : MapCall → Nat
  | map virt _ | mapRange virt _ _ | mapTo virt _ _ => virt

/-- The first physical address. -/
def phys : MapCall → Nat
  | map _ phys | mapRange _ phys _ | mapTo _ phys _ => phys

/-- The addresses that `paging_map_to` accepts. -/
def Accepts (virt phys physEnd : Nat) : Prop :=
  virt % pagingPageSize = 0 ∧ phys % pagingPageSize = 0 ∧ physEnd % pagingPageSize = 0 ∧ phys ≤ physEnd

instance (virt phys physEnd : Nat) : Decidable (Accepts virt phys physEnd) := inferInstanceAs (Decidable (_ ∧ _))

/-- How many pages are mapped. -/
def pages : MapCall → Nat
  | map _ _ => 1
  | mapRange _ _ count => min count (2 ^ 31)
  | mapTo virt phys physEnd =>
      if Accepts virt phys physEnd then min ((physEnd - phys) / pagingPageSize) (2 ^ 31) else 0

/-- The kernel when some pages of the call have been mapped. -/
def after (k : Kernel) (desc : PagingDesc) (flags : BitVec 32) (call : MapCall) (i : Nat) : Kernel :=
  pagesMapped k desc call.virt call.phys flags i

theorem pages_lt (call : MapCall) : call.pages < 2 ^ 36 := by
  cases call with
  | map virt phys => exact Nat.one_lt_two_pow (by decide)
  | mapRange virt phys count => exact (min_le_right count (2 ^ 31)).trans_lt (by norm_num)
  | mapTo virt phys physEnd =>
      rw [pages]
      split
      · exact (min_le_right _ _).trans_lt (by norm_num)
      · norm_num

/-- `paging_map_to` maps a range or refuses. -/
theorem pagingMapTo_cases (k : Kernel) (desc : PagingDesc) (virt phys physEnd : Nat) (flags : BitVec 32) :
    pagingMapTo k desc virt phys physEnd flags =
      if Accepts virt phys physEnd then pagingMapRange k desc virt phys ((physEnd - phys) / pagingPageSize) flags
      else (einvarg, k) := by
  unfold pagingMapTo Accepts
  by_cases alignedVirt : virt % pagingPageSize = 0
  · by_cases alignedPhys : phys % pagingPageSize = 0
    · by_cases alignedEnd : physEnd % pagingPageSize = 0
      · by_cases order : physEnd < phys
        · simp [alignedVirt, alignedPhys, alignedEnd, order, Nat.not_le.mpr order]
        · simp [alignedVirt, alignedPhys, alignedEnd, order, Nat.not_lt.mp order]
      · simp [alignedVirt, alignedPhys, alignedEnd]
    · simp [alignedVirt, alignedPhys]
  · simp [alignedVirt]

/-- **A call maps its pages**, one after the other. -/
theorem run_kernel (k : Kernel) (desc : PagingDesc) (flags : BitVec 32) (call : MapCall) :
    (call.run k desc flags).2 = call.after k desc flags call.pages := by
  cases call with
  | map virt phys => rfl
  | mapRange virt phys count =>
      rw [run, pagingMapRange, pagingMapRangeLoop_eq]
      rfl
  | mapTo virt phys physEnd =>
      rw [run, pages, pagingMapTo_cases]
      split
      · unfold pagingMapRange
        rw [pagingMapRangeLoop_eq]
        rfl
      · rfl

/-- **A call that maps a page returns zero.** -/
theorem run_result (k : Kernel) (desc : PagingDesc) (flags : BitVec 32) (call : MapCall) (some_ : call.pages ≠ 0) :
    (call.run k desc flags).1 = 0 := by
  cases call with
  | map virt phys => rfl
  | mapRange virt phys count =>
      rw [run, pagingMapRange, pagingMapRangeLoop_eq]
      exact if_neg some_
  | mapTo virt phys physEnd =>
      rw [pages] at some_
      rw [run, pagingMapTo_cases]
      split at some_
      · next accepted =>
          rw [if_pos accepted]
          unfold pagingMapRange
          rw [pagingMapRangeLoop_eq]
          exact if_neg some_
      · exact absurd rfl some_

/-- The tables that a call needs exist, or come fresh from the allocator. -/
def Served (k : Kernel) (desc : PagingDesc) (flags : BitVec 32) (call : MapCall) : Prop :=
  ∀ i < call.pages, MapsFresh (call.after k desc flags i) desc (pageAt call.virt i)

theorem after_succ (k : Kernel) (desc : PagingDesc) (flags : BitVec 32) (call : MapCall) (i : Nat) :
    call.after k desc flags (i + 1) =
      (pagingMap (call.after k desc flags i) desc (pageAt call.virt i) (pageAt call.phys i) flags).2 := by
  rw [after, pagesMapped, after]

variable {k : Kernel} {desc : PagingDesc} {flags : BitVec 32} {call : MapCall}

/-- **While a call maps its pages**, the tables stay a tree, and the leaves of the pages to come stay what they were. -/
theorem after_tree (tables : TableTree k.mem desc) (served : call.Served k desc flags) {i : Nat} (inside : i ≤ call.pages) :
    TableTree (call.after k desc flags i).mem desc ∧
      ∀ va, (∀ j < i, pageNumber va ≠ pageNumber (pageAt call.virt j)) →
        pageEntry (call.after k desc flags i).mem desc va = pageEntry k.mem desc va := by
  induction i with
  | zero => exact ⟨tables, fun _ _ => rfl⟩
  | succ i ih =>
      obtain ⟨tree, leaves⟩ := ih (by omega)
      obtain ⟨tree', _, _, leaves'⟩ := pagingMap_tree tree (served i inside) (pageAt call.phys i) flags
      rw [after_succ]
      refine ⟨tree', fun va others => ?_⟩
      have leafEq := leaves' va
      rw [if_neg (others i (Nat.lt_succ_self i))] at leafEq
      exact leafEq.trans (leaves va fun j before => others j (by omega))

/-- **What a call writes over** is the leaf that each of its pages had before the call. -/
theorem leafFound_after (tables : TableTree k.mem desc) (served : call.Served k desc flags) {i : Nat}
    (inside : i < call.pages) :
    leafFound (call.after k desc flags i) desc (pageAt call.virt i) = pageEntry k.mem desc (pageAt call.virt i) := by
  obtain ⟨tree, leaves⟩ := after_tree tables served (Nat.le_of_lt inside)
  rw [leafFound_eq tree (served i inside)]
  exact leaves _ fun j before => pageNumber_pageAt_ne before (inside.trans call.pages_lt)

end MapCall

end PeachOS
