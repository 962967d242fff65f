/-
**Rows of cells in one array.**

A grid of cells is stored row by row, and a loop over its rows and columns writes the cells one by one.

* `index_lt`, `index_inj` — each cell has an index of its own;
* `putAll_place` — what a place holds after writes that agree on it;
* `length_flatMap` — the length of blocks of one length that lie one after the other.
-/

import PeachOS.Lib.ByteStore

namespace Raster

open ByteStore

/-! ### Indices -/

section Indices

variable {width height row col row' col' : Nat}

/-- The index of a cell is below the number of cells. -/
theorem index_lt (inRows : row < height) (inCols : col < width) : row * width + col < height * width :=
  calc row * width + col < row * width + width := Nat.add_lt_add_left inCols _
    _ = (row + 1) * width := (Nat.succ_mul row width).symm
    _ ≤ height * width := Nat.mul_le_mul_right width inRows

/-- **Each cell has an index of its own.** -/
theorem index_inj (inCols : col < width) (inCols' : col' < width) :
    row * width + col = row' * width + col' ↔ row = row' ∧ col = col' := by
  refine ⟨fun same => ?_, fun same => by rw [same.1, same.2]⟩
  have rows : (row * width + col) / width = (row' * width + col') / width := by rw [same]
  have cols : (row * width + col) % width = (row' * width + col') % width := by rw [same]
  have positive : 0 < width := Nat.zero_lt_of_lt inCols
  rw [Nat.mul_comm row, Nat.mul_comm row', Nat.mul_add_div positive, Nat.mul_add_div positive, Nat.div_eq_of_lt inCols,
    Nat.div_eq_of_lt inCols'] at rows
  rw [Nat.mul_comm row, Nat.mul_comm row', Nat.mul_add_mod, Nat.mul_add_mod, Nat.mod_eq_of_lt inCols, Nat.mod_eq_of_lt inCols']
    at cols
  exact ⟨rows, cols⟩

end Indices

/-! ### Writes -/

section Writes

variable {β : Type}

/-- The store after writes, in order. -/
def putAll : (store : Store β) → (writes : List (Nat × β)) → Store β
  | store, [] => store
  | store, write :: writes => putAll (put store write.1 write.2) writes

/-- **What a place holds after writes that agree on it**: what it held, if none is to it. -/
theorem putAll_place {place : Nat} {value : β} : ∀ {writes : List (Nat × β)} {store : Store β},
    (∀ write ∈ writes, write.1 = place → write.2 = value) → (store place = value ∨ ∃ write ∈ writes, write.1 = place) →
      putAll store writes place = value := by
  intro writes
  induction writes with
  | nil =>
      intro store _ before
      rcases before with kept | ⟨write, isIn, -⟩
      · exact kept
      · exact absurd isIn List.not_mem_nil
  | cons first writes ih =>
      intro store agree before
      refine ih (fun write isIn => agree write (List.mem_cons_of_mem _ isIn)) ?_
      by_cases here : first.1 = place
      · left
        rw [← here, put_same]
        exact agree first List.mem_cons_self here
      · rw [put_other _ fun same => here same.symm]
        rcases before with kept | ⟨write, isIn, isPlace⟩
        · exact Or.inl kept
        · rcases List.mem_cons.mp isIn with rfl | isIn
          · exact absurd isPlace here
          · exact Or.inr ⟨write, isIn, isPlace⟩

end Writes

/-! ### Blocks -/

section Blocks

variable {α β : Type} {block : α → List β} {size : Nat}

/-- Blocks of one length lie one after the other. -/
theorem length_flatMap (sizes : ∀ a, (block a).length = size) (list : List α) :
    (list.flatMap block).length = list.length * size := by
  induction list with
  | nil => exact (Nat.zero_mul size).symm
  | cons first list ih => rw [List.flatMap_cons, List.length_append, sizes, ih, List.length_cons, Nat.succ_mul, Nat.add_comm]

end Blocks

end Raster
