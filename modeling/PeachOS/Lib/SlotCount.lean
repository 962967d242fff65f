/-
**Counting the slots of an array that hold a value.**

An array of `size` slots is a function from its indexes to what they hold, if anything. `slotCount` is the
number of slots that hold a value, as a reference count keeps it; `slotCount_write` is what one write does to
the count of each value.
-/

import Mathlib.Algebra.BigOperators.Group.Finset.Basic

namespace SlotCount

variable {α : Type}

/-- A slot that is written. -/
def write (slots : Nat → Option α) (index : Nat) (value : α) : Nat → Option α := fun other =>
  if other = index then some value else slots other

theorem write_self (slots : Nat → Option α) (index : Nat) (value : α) : write slots index value index = some value :=
  if_pos rfl

theorem write_other {slots : Nat → Option α} {index other : Nat} (value : α) (different : other ≠ index) :
    write slots index value other = slots other := if_neg different

variable [DecidableEq α]

/-- How many of the slots hold a value. -/
def slotCount (size : Nat) (slots : Nat → Option α) (value : α) : Nat :=
  ∑ index ∈ Finset.range size, if slots index = some value then 1 else 0

theorem slotCount_empty (size : Nat) (value : α) : slotCount size (fun _ => none) value = 0 :=
  Finset.sum_eq_zero fun _ _ => if_neg (by simp)

/-- **One write**: the count of the value that is overwritten falls, that of the new one rises. -/
theorem slotCount_write {size index : Nat} (inside : index < size) (slots : Nat → Option α) (value other : α) :
    slotCount size (write slots index value) other + (if slots index = some other then 1 else 0) =
      slotCount size slots other + (if value = other then 1 else 0) := by
  have isSlot : index ∈ Finset.range size := Finset.mem_range.mpr inside
  have rest : ∑ i ∈ (Finset.range size).erase index, (if write slots index value i = some other then 1 else 0) =
      ∑ i ∈ (Finset.range size).erase index, if slots i = some other then 1 else 0 := by
    refine Finset.sum_congr rfl fun i isOther => ?_
    rw [write_other value (Finset.ne_of_mem_erase isOther)]
  unfold slotCount
  rw [← Finset.add_sum_erase _ _ isSlot, rest, write_self,
    ← Finset.add_sum_erase _ (fun i => if slots i = some other then 1 else 0) isSlot]
  simp only [Option.some.injEq]
  omega

/-- A count is zero when no slot holds the value. -/
theorem slotCount_eq_zero_iff {size : Nat} {slots : Nat → Option α} {value : α} :
    slotCount size slots value = 0 ↔ ∀ index < size, slots index ≠ some value := by
  unfold slotCount
  rw [Finset.sum_eq_zero_iff]
  constructor
  · intro zero index inside holds
    have := zero index (Finset.mem_range.mpr inside)
    rw [if_pos holds] at this
    exact one_ne_zero this
  · intro noSlot index isSlot
    exact if_neg (noSlot index (Finset.mem_range.mp isSlot))

end SlotCount
