/-
**First fit: the lowest run of free blocks, found by one scan.**

`IsFirstRun free total len start` says that the `len` blocks from `start` on are free, lie below
`total`, and that no lower start has the same property. A scan from block zero that counts how many
free blocks it has just seen finds it: `Scanned free len block count` is what such a scan knows on
reaching `block`, and

* `Scanned.blocked`, `Scanned.extend` — what one more block does to it;
* `Scanned.found` — the block that completes the count completes the first run;
* `Scanned.exhausted` — a scan that never completes the count proves that there is no run.
-/

import Mathlib.Order.Nat
import Mathlib.Tactic.Common

namespace FirstFit

/-- The `len` blocks from `start` on lie below `total` and are free. -/
def IsRun (free : Nat → Prop) (total len start : Nat) : Prop :=
  start + len ≤ total ∧ ∀ offset < len, free (start + offset)

/-- The lowest run. -/
def IsFirstRun (free : Nat → Prop) (total len start : Nat) : Prop :=
  IsRun free total len start ∧ ∀ lower < start, ¬ IsRun free total len lower

variable {free : Nat → Prop} {total len block count start : Nat}

/-- There is only one lowest run. -/
theorem IsFirstRun.unique {other : Nat} (first : IsFirstRun free total len start)
    (first' : IsFirstRun free total len other) : start = other := by
  rcases Nat.lt_trichotomy start other with below | same | above
  · exact absurd first.1 (first'.2 start below)
  · exact same
  · exact absurd first'.1 (first.2 other above)

/-- **What a scan knows on reaching a block**: the last `count` blocks are free, the block before
them is not, and no run ends at or below this block. -/
structure Scanned (free : Nat → Prop) (len block count : Nat) : Prop where
  low : count ≤ block
  short : count < len
  tail : ∀ offset < count, free (block - count + offset)
  edge : count < block → ¬ free (block - count - 1)
  none : ∀ start, start + len ≤ block → ¬ ∀ offset < len, free (start + offset)

theorem Scanned.initial (positive : 0 < len) : Scanned free len 0 0 where
  low := le_rfl
  short := positive
  tail := fun _ inside => absurd inside (Nat.not_lt_zero _)
  edge := fun inside => absurd inside (Nat.not_lt_zero _)
  none := fun start inside _ => by omega

/-- A block that is not free starts the count again. -/
theorem Scanned.blocked (scanned : Scanned free len block count) (taken : ¬ free block) :
    Scanned free len (block + 1) 0 where
  low := Nat.zero_le _
  short := Nat.zero_lt_of_lt scanned.short
  tail := fun _ inside => absurd inside (Nat.not_lt_zero _)
  edge := fun _ => by simpa using taken
  none := fun start inside all => by
    by_cases ends : start + len ≤ block
    · exact scanned.none start ends all
    · -- a run that ends here contains the block that is not free
      have here := all (block - start) (by have := scanned.short; omega)
      rw [show start + (block - start) = block by have := scanned.short; omega] at here
      exact taken here

/-- A free block adds to the count. -/
theorem Scanned.extend (scanned : Scanned free len block count) (isFree : free block)
    (short : count + 1 < len) : Scanned free len (block + 1) (count + 1) where
  low := Nat.succ_le_succ scanned.low
  short := short
  tail := fun offset inside => by
    have low := scanned.low
    rw [show block + 1 - (count + 1) + offset = block - count + offset by omega]
    by_cases last : offset = count
    · rw [last, show block - count + count = block by omega]
      exact isFree
    · exact scanned.tail offset (by omega)
  edge := fun inside => by
    have edge := scanned.edge (by omega)
    rwa [show block + 1 - (count + 1) - 1 = block - count - 1 by omega]
  none := fun start inside all => by
    by_cases ends : start + len ≤ block
    · exact scanned.none start ends all
    · -- a run that ends here reaches back over the edge of the counted blocks
      have back := all (block - count - 1 - start) (by omega)
      rw [show start + (block - count - 1 - start) = block - count - 1 by omega] at back
      exact scanned.edge (by omega) back

/-- **The block that completes the count completes the first run.** -/
theorem Scanned.found (scanned : Scanned free len block count) (isFree : free block)
    (full : count + 1 = len) (inside : block < total) :
    IsFirstRun free total len (block - count) := by
  have low := scanned.low
  refine ⟨⟨by omega, fun offset below => ?_⟩, fun lower under run => ?_⟩
  · by_cases last : offset = count
    · rw [last, show block - count + count = block by omega]
      exact isFree
    · exact scanned.tail offset (by omega)
  · exact scanned.none lower (by omega) run.2

/-- **A scan that reaches the end without completing the count has seen no run.** -/
theorem Scanned.exhausted (scanned : Scanned free len total count) (start : Nat) :
    ¬ IsRun free total len start :=
  fun run => scanned.none start run.1 run.2

end FirstFit
