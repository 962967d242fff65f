/-
**Objects that are allocated, read and freed.**

`settle live uses` goes through some uses of objects: an object is allocated when it is not live, and read and freed only when
it is. It returns the objects that are live behind them, or `none` for the first use that is not allowed.

* `settle_append` — one list of uses after the other;
* `settle_frame` — objects that are not used stay as they are.
-/

import Mathlib.Data.Finset.Basic
import Mathlib.Data.Finset.Lattice.Lemmas

namespace Ledger

variable {Obj : Type}

/-- A use of an object. -/
inductive Use (Obj : Type) where
  | alloc (object : Obj)
  | read (object : Obj)
  | free (object : Obj)
deriving DecidableEq

/-- The object that is used. -/
def Use.object : Use Obj → Obj
  | .alloc object => object
  | .read object => object
  | .free object => object

variable [DecidableEq Obj]

/-- **The objects that are live behind some uses**, if all of these are allowed. -/
def settle : (live : Finset Obj) → List (Use Obj) → Option (Finset Obj)
  | live, [] => some live
  | live, .alloc object :: uses => if object ∈ live then none else settle (insert object live) uses
  | live, .read object :: uses => if object ∈ live then settle live uses else none
  | live, .free object :: uses => if object ∈ live then settle (live.erase object) uses else none

theorem settle_nil (live : Finset Obj) : settle live [] = some live := rfl

theorem settle_alloc {live : Finset Obj} {object : Obj} (fresh : object ∉ live) (uses : List (Use Obj)) :
    settle live (.alloc object :: uses) = settle (insert object live) uses := if_neg fresh

theorem settle_read {live : Finset Obj} {object : Obj} (isLive : object ∈ live) (uses : List (Use Obj)) :
    settle live (.read object :: uses) = settle live uses := if_pos isLive

/-- What was freed cannot be read. -/
theorem settle_dangling {live : Finset Obj} {object : Obj} (freed : object ∉ live) (uses : List (Use Obj)) :
    settle live (.read object :: uses) = none := if_neg freed

theorem settle_append (first second : List (Use Obj)) : ∀ live : Finset Obj,
    settle live (first ++ second) = (settle live first).bind fun live' => settle live' second := by
  induction first with
  | nil => exact fun _ => rfl
  | cons use first ih =>
      intro live
      cases use with
      | alloc object =>
          rw [List.cons_append, settle, settle]
          split
          · rfl
          · exact ih _
      | read object =>
          rw [List.cons_append, settle, settle]
          split
          · exact ih _
          · rfl
      | free object =>
          rw [List.cons_append, settle, settle]
          split
          · exact ih _
          · rfl

/-- **Objects that are not used** stay live. -/
theorem settle_frame {frame : Finset Obj} (uses : List (Use Obj)) : ∀ {live : Finset Obj},
    (∀ use ∈ uses, use.object ∉ frame) → settle (live ∪ frame) uses = (settle live uses).map fun live' => live' ∪ frame := by
  induction uses with
  | nil => exact fun _ => rfl
  | cons use uses ih =>
      intro live untouched
      obtain ⟨outside, others⟩ := List.forall_mem_cons.mp untouched
      have same : use.object ∈ live ∪ frame ↔ use.object ∈ live := by
        rw [Finset.mem_union]
        exact or_iff_left outside
      cases use with
      | alloc object =>
          change object ∉ frame at outside
          change object ∈ live ∪ frame ↔ object ∈ live at same
          rw [settle, settle]
          by_cases isLive : object ∈ live
          · rw [if_pos (same.mpr isLive), if_pos isLive, Option.map_none]
          · rw [if_neg (mt same.mp isLive), if_neg isLive, ← Finset.insert_union]
            exact ih others
      | read object =>
          change object ∈ live ∪ frame ↔ object ∈ live at same
          rw [settle, settle]
          by_cases isLive : object ∈ live
          · rw [if_pos (same.mpr isLive), if_pos isLive]
            exact ih others
          · rw [if_neg (mt same.mp isLive), if_neg isLive, Option.map_none]
      | free object =>
          change object ∉ frame at outside
          change object ∈ live ∪ frame ↔ object ∈ live at same
          rw [settle, settle]
          by_cases isLive : object ∈ live
          · have others' : (live ∪ frame).erase object = live.erase object ∪ frame := by
              rw [Finset.erase_union_distrib, Finset.erase_eq_of_notMem outside]
            rw [if_pos (same.mpr isLive), if_pos isLive, others']
            exact ih others
          · rw [if_neg (mt same.mp isLive), if_neg isLive, Option.map_none]

end Ledger
