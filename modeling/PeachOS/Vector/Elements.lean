/-
**The kernel vector as the list of its elements: `lib/vector/vector.c`.**

For the vectors of pointers of the graphics, the windows and the processes. A vector of them is the list of its
elements; `vector_at` and `vector_push` are the operations of lists.

* `vectorReorder` — the bubble sort of `vector_reorder`, which sorts;
* `vectorPopElement` — `vector_pop_element`, which removes the first element that is equal.
-/

import PeachOS.Lib.BubbleSort
import PeachOS.Machine

namespace PeachOS

open BubbleSort

/-- `vector_reorder`, when there is memory for the two elements that it compares. -/
def vectorReorder {α : Type} (reorderFunction : α → α → Bool) (elements : List α) : List α :=
  if elements.length < 2 then elements else passes reorderFunction (elements.length - 1) elements

/-- `vector_pop_element`: the result and the elements then. It copies elements to a temporary one, and does nothing
when there is no memory for it. -/
def vectorPopElement (memory : Bool) (elements : List Nat) (value : Nat) : Int × List Nat :=
  if memory = false then (enomem, elements)
  else if value ∈ elements then (0, elements.erase value)
  else (eio, elements)

/-- With memory, an element is removed. -/
theorem vectorPopElement_elements (elements : List Nat) (value : Nat) :
    (vectorPopElement true elements value).2 = elements.erase value := by
  unfold vectorPopElement
  rw [if_neg (by simp)]
  split
  · rfl
  · next missing => exact (List.erase_of_not_mem missing).symm

section Reorder

variable {α : Type} {reorderFunction : α → α → Bool}

/-- A vector of fewer than two elements needs no pass. -/
theorem vectorReorder_eq (elements : List α) :
    vectorReorder reorderFunction elements = passes reorderFunction (elements.length - 1) elements := by
  unfold vectorReorder
  split
  · next few => rw [show elements.length - 1 = 0 by omega]; rfl
  · rfl

theorem vectorReorder_perm (elements : List α) : (vectorReorder reorderFunction elements).Perm elements := by
  rw [vectorReorder_eq]
  exact passes_perm _ _

/-- **`vector_reorder` sorts.** -/
theorem vectorReorder_sorted (order : IsOrder reorderFunction) (elements : List α) :
    Sorted reorderFunction (vectorReorder reorderFunction elements) := by
  rw [vectorReorder_eq]
  exact passes_sorted order elements

theorem vectorReorder_of_sorted {elements : List α} (sorted : Sorted reorderFunction elements) :
    vectorReorder reorderFunction elements = elements := by
  rw [vectorReorder_eq]
  exact passes_of_sorted _ _ sorted

/-- **`vector_reorder` is stable.** -/
theorem vectorReorder_keeps {x y : α} (below : reorderFunction x y = false) (elements : List α)
    (before : [x, y].Sublist elements) : [x, y].Sublist (vectorReorder reorderFunction elements) := by
  rw [vectorReorder_eq]
  exact passes_keeps below _ _ before

/-- **An element that was raised above all others becomes the last one.** -/
theorem vectorReorder_raised (order : IsOrder reorderFunction) (before : List α) (raised : α) (above : List α)
    (sorted : Sorted reorderFunction (before ++ above))
    (exceeded : ∀ x ∈ before ++ above, reorderFunction raised x = true) :
    vectorReorder reorderFunction (before ++ raised :: above) = before ++ (above ++ [raised]) := by
  rw [vectorReorder_eq, List.length_append, List.length_cons, ← Nat.add_assoc, Nat.add_sub_cancel]
  exact passes_raised order before raised above sorted (fun x isIn => exceeded x (List.mem_append_left _ isIn))
    fun x isIn => exceeded x (List.mem_append_right _ isIn)

end Reorder

end PeachOS
