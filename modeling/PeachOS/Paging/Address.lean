/-
**Page arithmetic of `memory/paging/paging.c`.**

Pages have 4096 bytes. Aligning up wraps at the end of the address space, as the pointer arithmetic of
the source does; aligning down does not.
-/

import PeachOS.Machine

namespace PeachOS

/-- `PAGING_PAGE_SIZE`. -/
abbrev pagingPageSize : Nat := 4096

def pagingIsAligned (addr : Nat) : Bool := addr % pagingPageSize = 0

def pagingAlignAddress (ptr : Nat) : Nat :=
  if ptr % pagingPageSize ≠ 0 then toWord (ptr + pagingPageSize - ptr % pagingPageSize) else ptr

def pagingAlignToLowerPage (addr : Nat) : Nat := addr - addr % pagingPageSize

/-- Aligning up, away from the end of the address space. -/
theorem pagingAlignAddress_eq {ptr : Nat} (fits : ptr + 4095 < 2 ^ 64) :
    pagingAlignAddress ptr = (ptr + 4095) / 4096 * 4096 := by
  unfold pagingAlignAddress
  simp only [pagingPageSize]
  split
  · rw [toWord_of_bounds (by omega) (by omega)]
    omega
  · omega

/-- Aligning up gives a page address, whatever it wraps to. -/
theorem pagingIsAligned_alignAddress (ptr : Nat) : pagingAlignAddress ptr % pagingPageSize = 0 := by
  unfold pagingAlignAddress toWord
  simp only [pagingPageSize]
  split <;> omega

theorem pagingAlignToLowerPage_eq (addr : Nat) : pagingAlignToLowerPage addr = addr / 4096 * 4096 := by
  unfold pagingAlignToLowerPage
  simp only [pagingPageSize]
  omega

/-- The guarded alignment of `kheap_init` is the alignment. -/
theorem align_unless_aligned (addr : Nat) :
    (if pagingIsAligned addr then addr else pagingAlignAddress addr) = pagingAlignAddress addr := by
  unfold pagingIsAligned pagingAlignAddress
  by_cases aligned : addr % pagingPageSize = 0
  · rw [if_pos (decide_eq_true aligned), if_neg (not_not.mpr aligned)]
  · rw [if_neg (by simpa using aligned), if_pos aligned]

theorem lower_unless_aligned (addr : Nat) :
    (if pagingIsAligned addr then addr else pagingAlignToLowerPage addr) = addr / 4096 * 4096 := by
  rw [pagingAlignToLowerPage_eq]
  unfold pagingIsAligned
  simp only [pagingPageSize, decide_eq_true_eq]
  split <;> omega

end PeachOS
