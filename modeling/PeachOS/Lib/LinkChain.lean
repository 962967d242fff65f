/-
**Blocks that are chained by links.**

A block links to the next one, or to none. `walk` follows the links from a first block; `valueAt` reads the
concatenation of the blocks of a chain, all of one size, at an offset.
-/

import Mathlib.Data.Option.Basic
import Mathlib.Logic.Function.Iterate
import Mathlib.Tactic.Ring

namespace LinkChain

variable {Block Value : Type}

/-- The block that some links lead to, if all of them are there. -/
def walk (next : Block → Option Block) : (first : Block) → (links : Nat) → Option Block
  | first, 0 => some first
  | first, links + 1 =>
      match next first with
      | none => none
      | some second => walk next second links

section Walks

variable {next next' : Block → Option Block} {first : Block}

theorem walk_zero (next : Block → Option Block) (first : Block) : walk next first 0 = some first := by
  rw [walk]

/-- One more link, behind the others. -/
theorem walk_succ (links : Nat) : walk next first (links + 1) = (walk next first links).bind next := by
  induction links generalizing first with
  | zero =>
      rw [walk_zero, Option.bind_some, walk]
      cases next first with
      | none => rfl
      | some second => exact walk_zero next second
  | succ links hyp =>
      rw [walk, walk]
      cases next first with
      | none => rfl
      | some second => exact hyp

/-- Behind the end of a chain is nothing. -/
theorem walk_ended {links later : Nat} (ended : walk next first links = none) (order : links ≤ later) :
    walk next first later = none := by
  induction later, order using Nat.le_induction with
  | base => exact ended
  | succ later _ hyp => rw [walk_succ, hyp, Option.bind_none]

theorem walk_before {links before : Nat} {block : Block} (reached : walk next first links = some block)
    (order : before ≤ links) : ∃ block', walk next first before = some block' := by
  rw [← Option.isSome_iff_exists, Option.isSome_iff_ne_none]
  intro ended
  rw [walk_ended ended order] at reached
  cases reached

/-- Two chains over the same links meet the same blocks. -/
theorem walk_same (same : ∀ block second second', next block = some second → next' block = some second' → second = second')
    (links : Nat) : ∀ {block block' : Block}, walk next first links = some block → walk next' first links = some block' →
    block = block' := by
  induction links with
  | zero =>
      intro block block' reached reached'
      rw [walk_zero, Option.some.injEq] at reached reached'
      rw [← reached, reached']
  | succ links hyp =>
      intro block block' reached reached'
      rw [walk_succ, Option.bind_eq_some_iff] at reached reached'
      obtain ⟨middle, before, link⟩ := reached
      obtain ⟨middle', before', link'⟩ := reached'
      rw [← hyp before before'] at link'
      exact same middle block block' link link'

/-- **Links that are followed as long as they have a property.** -/
theorem walk_guarded_iff (link : Block → Block) (p : Block → Prop) [DecidablePred p] (links : Nat) {reached : Block} :
    walk (fun block => if p (link block) then some (link block) else none) first links = some reached ↔
      (∀ i < links, p (link^[i + 1] first)) ∧ link^[links] first = reached := by
  induction links generalizing first with
  | zero =>
      rw [walk_zero, Option.some.injEq]
      exact ⟨fun same => ⟨fun i inside => absurd inside (Nat.not_lt_zero i), same⟩, fun both => both.2⟩
  | succ links hyp =>
      rw [walk]
      by_cases holds : p (link first)
      · rw [if_pos holds]
        refine hyp.trans (and_congr_left fun _ => ⟨fun rest i inside => ?_, fun all i inside => all (i + 1) (by omega)⟩)
        cases i with
        | zero => exact holds
        | succ i => exact rest i (by omega)
      · rw [if_neg holds]
        exact iff_of_false (fun isNone => by cases isNone) fun both => holds (both.1 0 (Nat.succ_pos links))

end Walks

/-! ### Reading a chain -/

/-- The value at an offset of the concatenated blocks. -/
def valueAt (next : Block → Option Block) (size : Nat) (data : Block → Nat → Value) (first : Block) (offset : Nat) :
    Option Value :=
  (walk next first (offset / size)).map fun block => data block (offset % size)

/-- The rest of the block of an offset. -/
theorem offset_near {size offset k : Nat} (inside : offset % size + k < size) :
    (offset + k) / size = offset / size ∧ (offset + k) % size = offset % size + k := by
  have parts := Nat.div_add_mod offset size
  have sum : offset + k = (offset % size + k) + size * (offset / size) := by omega
  have positive : 0 < size := by omega
  rw [sum, Nat.add_mul_div_left _ _ positive, Nat.div_eq_of_lt inside, Nat.zero_add, Nat.add_mul_mod_self_left,
    Nat.mod_eq_of_lt inside]
  exact ⟨rfl, rfl⟩

end LinkChain
