/-
**Scattered writes.**

`scatter` writes values one by one, each to a place of its own. A transfer through a list of pages is one, whose places follow
the pages.

* `scatter_outside` — what is no place of a value is unchanged;
* `scatter_inside` — when the places are consecutive, the values lie there one after the other.
-/

import PeachOS.Lib.ByteStore

namespace ByteStore

variable {β : Type}

/-- Write the value of each number below `count` to its place, in order. -/
def scatter (store : Store β) (place : Nat → Nat) (value : Nat → β) : Nat → Store β
  | 0 => store
  | count + 1 => put (scatter store place value count) (place count) (value count)

variable {store : Store β} {place : Nat → Nat} {value : Nat → β} {count : Nat}

theorem scatter_outside {other : Nat} (outside : ∀ i < count, place i ≠ other) :
    scatter store place value count other = store other := by
  induction count with
  | zero => rfl
  | succ count ih =>
      rw [scatter, put_other _ (outside count (Nat.lt_succ_self count)).symm]
      exact ih fun i below => outside i (below.trans (Nat.lt_succ_self count))

/-- **Values at consecutive places.** -/
theorem scatter_inside {base i : Nat} (places : ∀ i < count, place i = base + i) (below : i < count) :
    scatter store place value count (base + i) = value i := by
  induction count with
  | zero => exact absurd below (Nat.not_lt_zero i)
  | succ count ih =>
      rw [scatter, places count (Nat.lt_succ_self count)]
      rcases Nat.lt_succ_iff_lt_or_eq.mp below with earlier | last
      · rw [put_other _ (by omega)]
        exact ih (fun i below => places i (below.trans (Nat.lt_succ_self count))) earlier
      · rw [last, put_same]

end ByteStore
