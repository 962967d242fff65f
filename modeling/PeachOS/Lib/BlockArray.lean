/-
**Arrays of blocks of one size.**

`HoldsBlocks store base size elements` says that the elements lie one after the other from an address on, `size` values
each. What a list does to its elements, the array does by one write or one copy:

* `HoldsBlocks.congr` — the same values at any address hold the same elements;
* `HoldsBlocks.append`, `HoldsBlocks.set`, `HoldsBlocks.dropLast` — a block written behind the last one, a block written
  over another, and the last one left out;
* `HoldsBlocks.eraseIdx` — a forward copy of the blocks behind one over it.
-/

import PeachOS.Lib.ByteStore
import Mathlib.Tactic.Ring

namespace BlockArray

open ByteStore

variable {β : Type} {store store' : Store β} {base base' size : Nat} {elements : List (List β)}

/-- **The elements lie one after the other.** -/
structure HoldsBlocks (store : Store β) (base size : Nat) (elements : List (List β)) : Prop where
  sizes : ∀ element ∈ elements, element.length = size
  block : ∀ i (inside : i < elements.length), window store (base + i * size) size = elements[i]

/-- Windows with the same values. -/
theorem window_move {count : Nat} (same : ∀ offset < count, store' (base' + offset) = store (base + offset)) :
    window store' base' count = window store base count := by
  induction count generalizing base base' with
  | zero => rfl
  | succ count ih =>
      rw [window, window, show store' base' = store base from same 0 (Nat.succ_pos count)]
      congr 1
      refine ih fun offset inside => ?_
      have shifted := same (offset + 1) (by omega)
      rwa [show base' + (offset + 1) = base' + 1 + offset by omega, show base + (offset + 1) = base + 1 + offset by omega]
        at shifted

/-- **Two windows are equal when their values are.** -/
theorem window_eq_iff {count : Nat} :
    window store' base' count = window store base count ↔ ∀ offset < count, store' (base' + offset) = store (base + offset) := by
  refine ⟨fun equal => ?_, window_move⟩
  induction count generalizing base base' with
  | zero => exact fun offset inside => absurd inside (Nat.not_lt_zero offset)
  | succ count ih =>
      rw [window, window, List.cons.injEq] at equal
      intro offset inside
      cases offset with
      | zero => exact equal.1
      | succ offset =>
          have rest := ih equal.2 offset (by omega)
          rwa [show base' + 1 + offset = base' + (offset + 1) by omega, show base + 1 + offset = base + (offset + 1) by omega]
            at rest

/-- The window of a filled area. -/
theorem window_fill (store : Store β) (base count : Nat) (value : β) :
    window (fill store base value count) base count = List.replicate count value := by
  have values : ∀ count' ≤ count, ∀ start, base ≤ start → start + count' ≤ base + count →
      window (fill store base value count) start count' = List.replicate count' value := by
    intro count'
    induction count' with
    | zero => exact fun _ _ _ _ => rfl
    | succ count' ih =>
        intro le start low high
        rw [window, List.replicate_succ, fill_apply, if_pos (by omega), ih (by omega) (start + 1) (by omega) (by omega)]
  exact values count le_rfl base le_rfl le_rfl

/-- A block lies in the array. -/
theorem block_inside {i count offset : Nat} (inside : i < count) (small : offset < size) :
    i * size + offset < count * size := by
  calc i * size + offset < i * size + size := Nat.add_lt_add_left small _
    _ = (i + 1) * size := by ring
    _ ≤ count * size := Nat.mul_le_mul_right _ inside

theorem HoldsBlocks.nil (store : Store β) (base size : Nat) : HoldsBlocks store base size [] where
  sizes := fun _ member => absurd member List.not_mem_nil
  block := fun i inside => absurd inside (Nat.not_lt_zero i)

/-- **The same values hold the same elements.** -/
theorem HoldsBlocks.congr (holds : HoldsBlocks store base size elements)
    (same : ∀ offset < elements.length * size, store' (base' + offset) = store (base + offset)) :
    HoldsBlocks store' base' size elements where
  sizes := holds.sizes
  block := fun i inside => by
    rw [← holds.block i inside]
    refine window_move fun offset small => ?_
    rw [Nat.add_assoc, Nat.add_assoc]
    exact same _ (block_inside inside small)

/-- **A store holds one list of so many elements.** -/
theorem HoldsBlocks.unique {elements' : List (List β)} (holds : HoldsBlocks store base size elements)
    (holds' : HoldsBlocks store base size elements') (length : elements'.length = elements.length) : elements' = elements :=
  List.ext_getElem length fun i inside inside' => (holds'.block i inside).symm.trans (holds.block i inside')

/-- **A block behind the last one.** -/
theorem HoldsBlocks.append (holds : HoldsBlocks store base size elements) {element : List β} (sized : element.length = size)
    (written : window store (base + elements.length * size) size = element) :
    HoldsBlocks store base size (elements ++ [element]) where
  sizes := fun other member => by
    rcases List.mem_append.mp member with old | new
    · exact holds.sizes other old
    · rw [List.mem_singleton.mp new]
      exact sized
  block := fun i inside => by
    rw [List.length_append, List.length_singleton] at inside
    rcases Nat.lt_succ_iff_lt_or_eq.mp inside with old | rfl
    · rw [List.getElem_append_left old]
      exact holds.block i old
    · rw [List.getElem_append_right le_rfl]
      simpa using written

/-- **A block over another.** -/
theorem HoldsBlocks.set (holds : HoldsBlocks store base size elements) {i : Nat} {element : List β}
    (sized : element.length = size) (written : window store' (base + i * size) size = element)
    (same : ∀ offset < elements.length * size, offset < i * size ∨ i * size + size ≤ offset →
      store' (base + offset) = store (base + offset)) :
    HoldsBlocks store' base size (elements.set i element) where
  sizes := fun other member => by
    rcases List.mem_or_eq_of_mem_set member with old | rfl
    · exact holds.sizes other old
    · exact sized
  block := fun j inside => by
    rw [List.length_set] at inside
    by_cases here : i = j
    · subst here
      rw [List.getElem_set_self]
      exact written
    · rw [List.getElem_set_of_ne here, ← holds.block j inside]
      refine window_move fun offset small => ?_
      rw [Nat.add_assoc]
      refine same _ (block_inside inside small) ?_
      rcases Nat.lt_or_gt_of_ne here with after | before_
      · exact Or.inr ((Nat.succ_mul i size ▸ Nat.mul_le_mul_right size after).trans (Nat.le_add_right _ _))
      · exact Or.inl (block_inside before_ small)

/-- **The last block left out.** -/
theorem HoldsBlocks.dropLast (holds : HoldsBlocks store base size elements) :
    HoldsBlocks store base size elements.dropLast where
  sizes := fun element member => holds.sizes element (List.dropLast_subset elements member)
  block := fun i inside => by
    rw [List.getElem_dropLast]
    exact holds.block i (inside.trans_le (by rw [List.length_dropLast]; omega))

/-- **A forward copy of the blocks behind one over it** erases it. -/
theorem HoldsBlocks.eraseIdx (holds : HoldsBlocks store base size elements) {i : Nat} (inside : i < elements.length) :
    HoldsBlocks (copy store (base + i * size) (base + i * size + size) ((elements.length - i - 1) * size)) base size
      (elements.eraseIdx i) where
  sizes := fun element member => holds.sizes element (List.mem_of_mem_eraseIdx member)
  block := fun j below => by
    rw [List.length_eraseIdx_of_lt inside] at below
    rw [List.getElem_eraseIdx]
    split
    · next before_ =>
        rw [← holds.block j (by omega)]
        refine window_move fun offset small => copy_outside store (Or.inl ?_)
        rw [Nat.add_assoc]
        exact Nat.add_lt_add_left (block_inside before_ small) _
    · next after =>
        rw [← holds.block (j + 1) (by omega)]
        refine window_move fun offset small => ?_
        have within : (j - i) * size + offset < (elements.length - i - 1) * size := block_inside (by omega) small
        have place : base + j * size + offset = base + i * size + ((j - i) * size + offset) := by
          rw [show j * size = i * size + (j - i) * size by rw [← Nat.add_mul]; congr 1; omega]
          omega
        have source : base + (j + 1) * size + offset = base + i * size + size + ((j - i) * size + offset) := by
          rw [show (j + 1) * size = i * size + (j - i) * size + size by rw [← Nat.add_mul, ← Nat.succ_mul]; congr 1; omega]
          omega
        rw [place, source]
        exact copy_inside store within (Or.inl (Nat.le_add_right _ _))

end BlockArray
