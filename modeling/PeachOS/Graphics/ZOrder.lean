/-
**The order in which children are painted: `graphics_set_z_index`, `window_bring_to_top`.**

Each change of a z index is followed by a sort of the parent's children, and a graphics is brought to the top by an
index above the one of the screen's last child.

* `graphicsSetZIndex_sorted` — after a change the children of the parent are sorted;
* `windowBringToTop_raised` — a child of the screen becomes the last one, and the others keep their order;
* `zOrder_run` — so it is in every run of fewer than `2 ^ 31` calls, where no index overflows.
-/

import PeachOS.Graphics.Tree
import PeachOS.Lib.StepRun
import Mathlib.Data.List.Perm.Subperm

namespace PeachOS

open BubbleSort StepRun

namespace GraphicsStore

variable {σ σ' : GraphicsStore}

/-! ### Sorting by z index -/

theorem graphicsReorder_iff (σ : GraphicsStore) (first second : Nat) :
    σ.graphicsReorder first second = false ↔ (σ.nodes first).zIndex.toNat ≤ (σ.nodes second).zIndex.toNat := by
  unfold graphicsReorder
  rw [decide_eq_false_iff_not, gt_iff_lt, BitVec.lt_def, not_lt]

theorem graphicsReorder_isOrder (σ : GraphicsStore) : IsOrder σ.graphicsReorder where
  total first second above := by
    rw [graphicsReorder_iff]
    exact (not_le.mp ((σ.graphicsReorder_iff first second).not.mp (by rw [above]; exact Bool.noConfusion))).le
  trans first second third below below' := by
    rw [graphicsReorder_iff] at below below' ⊢
    exact below.trans below'

/-- Sorting only looks at the z indices of the elements. -/
theorem sorted_congr {children : List Nat}
    (same : ∀ child ∈ children, (σ'.nodes child).zIndex = (σ.nodes child).zIndex)
    (sorted : Sorted σ.graphicsReorder children) : Sorted σ'.graphicsReorder children := by
  refine List.Pairwise.imp_of_mem (fun isIn isIn' below => ?_) sorted
  unfold graphicsReorder at below ⊢
  rwa [same _ isIn, same _ isIn']

/-- The children of every graphics are sorted. -/
def SortedChildren (σ : GraphicsStore) : Prop :=
  ∀ graphics ∈ σ.live, Sorted σ.graphicsReorder (σ.nodes graphics).children

theorem reorderChildren_zIndex (σ : GraphicsStore) (graphics other : Nat) :
    ((σ.reorderChildren graphics).nodes other).zIndex = (σ.nodes other).zIndex := by
  unfold reorderChildren
  by_cases isIt : other = graphics
  · rw [isIt, setChildren_self]
  · rw [setChildren_of_ne isIt]

theorem graphicsSetZIndex_zIndex (σ : GraphicsStore) (graphics : Nat) (zIndex : BitVec 32) (other : Nat) :
    ((σ.graphicsSetZIndex graphics zIndex).nodes other).zIndex =
      if other = graphics then zIndex else (σ.nodes other).zIndex := by
  have written : ((σ.setNode graphics { σ.nodes graphics with zIndex := zIndex }).nodes other).zIndex =
      if other = graphics then zIndex else (σ.nodes other).zIndex := by
    split
    · next isIt => rw [isIt, setNode_self]
    · next isNot => rw [setNode_of_ne isNot]
  unfold graphicsSetZIndex
  dsimp only
  split
  · rw [reorderChildren_zIndex, written]
  · exact written

/-- The children of all but the parent stay as they are; those of the parent are sorted by the new indices. -/
theorem graphicsSetZIndex_children (σ : GraphicsStore) (graphics : Nat) (zIndex : BitVec 32) (other : Nat) :
    ((σ.graphicsSetZIndex graphics zIndex).nodes other).children =
      if other = (σ.nodes graphics).parent ∧ other ≠ 0 then
        vectorReorder (σ.graphicsSetZIndex graphics zIndex).graphicsReorder (σ.nodes other).children
      else (σ.nodes other).children := by
  have written : ∀ other, ((σ.setNode graphics { σ.nodes graphics with zIndex := zIndex }).nodes other).children =
      (σ.nodes other).children := by
    intro other
    by_cases isIt : other = graphics
    · rw [isIt, setNode_self]
    · rw [setNode_of_ne isIt]
  have parent : ((σ.setNode graphics { σ.nodes graphics with zIndex := zIndex }).nodes graphics).parent =
      (σ.nodes graphics).parent := by rw [setNode_self]
  by_cases hasParent : (σ.nodes graphics).parent = 0
  · rw [if_neg (fun isParent => isParent.2 (isParent.1.trans hasParent))]
    unfold graphicsSetZIndex
    dsimp only
    rw [parent, if_neg (not_not.mpr hasParent), written]
  · have sorts : σ.graphicsSetZIndex graphics zIndex =
        (σ.setNode graphics { σ.nodes graphics with zIndex := zIndex }).reorderChildren (σ.nodes graphics).parent := by
      unfold graphicsSetZIndex
      dsimp only
      rw [parent, if_pos hasParent]
    have order : (σ.graphicsSetZIndex graphics zIndex).graphicsReorder =
        (σ.setNode graphics { σ.nodes graphics with zIndex := zIndex }).graphicsReorder := by
      funext first second
      unfold graphicsReorder
      rw [sorts, reorderChildren_zIndex, reorderChildren_zIndex]
    rw [order, sorts]
    unfold reorderChildren
    by_cases isParent : other = (σ.nodes graphics).parent
    · rw [if_pos ⟨isParent, isParent ▸ hasParent⟩, isParent, setChildren_self]
      dsimp only
      rw [written]
    · rw [if_neg (fun both => isParent both.1), setChildren_of_ne isParent, written]

/-- **After a change of a z index all children are sorted**, when those of the other graphics were. -/
theorem graphicsSetZIndex_sorted (linked : σ.Linked) {graphics : Nat} (zIndex : BitVec 32)
    (others : ∀ other ∈ σ.live, other ≠ (σ.nodes graphics).parent →
      Sorted σ.graphicsReorder (σ.nodes other).children) : (σ.graphicsSetZIndex graphics zIndex).SortedChildren := by
  intro other isLive
  rw [(SameTree.graphicsSetZIndex σ graphics zIndex).live] at isLive
  rw [graphicsSetZIndex_children]
  split
  · exact vectorReorder_sorted (graphicsReorder_isOrder _) _
  · next notBoth =>
      have isNot : other ≠ (σ.nodes graphics).parent :=
        fun isParent => notBoth ⟨isParent, fun null => linked.nonnull (null ▸ isLive)⟩
      refine sorted_congr (fun child isChild => ?_) (others other isLive isNot)
      have childParent := (linked.child other isLive child isChild).2
      rw [graphicsSetZIndex_zIndex, if_neg fun same => isNot (childParent.symm.trans (by rw [same]))]

/-- A new graphics is sorted in among its siblings. -/
theorem SortedChildren.create (sorted : σ.SortedChildren) (linked : σ.Linked) {newGraphics sourceGraphics : Nat}
    (fresh : newGraphics ∉ σ.live) (sourceLive : sourceGraphics ∈ σ.live) (x y width height : BitVec 64)
    (flags : BitVec 32) :
    (σ.graphicsInfoCreateRelative newGraphics sourceGraphics x y width height flags).2.SortedChildren := by
  obtain refused | ⟨nonnull, _, pixels, created⟩ :=
    graphicsInfoCreateRelative_cases σ newGraphics sourceGraphics x y width height flags
  · rw [refused]
    exact sorted
  · dsimp only at created
    rw [created]
    have different : newGraphics ≠ sourceGraphics := fun same => fresh (same ▸ sourceLive)
    refine graphicsSetZIndex_sorted (linked.attach fresh nonnull sourceLive rfl rfl) _ fun other isLive isNot => ?_
    have isNot : other ≠ sourceGraphics := fun same => isNot (by rw [attach_new different]; exact same)
    rcases List.mem_cons.mp isLive with rfl | isLive
    · rw [attach_new different]
      exact List.Pairwise.nil
    · have isOld : other ≠ newGraphics := fun same => fresh (same ▸ isLive)
      rw [attach_other isOld isNot]
      refine sorted_congr (fun child isChild => ?_) (sorted other isLive)
      obtain ⟨childLive, childParent⟩ := linked.child other isLive child isChild
      have childOld : child ≠ newGraphics := fun same => fresh (same ▸ childLive)
      by_cases isSource : child = sourceGraphics
      · rw [isSource, attach_source different]
      · rw [attach_other childOld isSource]

/-! ### Bringing to the top -/

/-- **A child of the screen is brought to the top**: it becomes the last child, its z index is above the others', and
they keep their order. -/
structure RaisedToTop (σ : GraphicsStore) (rootGraphics : Nat) (σ' : GraphicsStore) : Prop where
  last : (σ'.nodes σ.screen).children = (σ.nodes σ.screen).children.erase rootGraphics ++ [rootGraphics]
  above : ∀ child ∈ (σ.nodes σ.screen).children, child ≠ rootGraphics →
    (σ'.nodes child).zIndex < (σ'.nodes rootGraphics).zIndex

/-- The last of sorted children has the largest z index. -/
theorem zIndex_le_last {children : List Nat} (sorted : Sorted σ.graphicsReorder children) {last : Nat}
    (isLast : children.getLast? = some last) :
    ∀ child ∈ children, (σ.nodes child).zIndex.toNat ≤ (σ.nodes last).zIndex.toNat := by
  obtain ⟨rest, rfl⟩ := List.getLast?_eq_some_iff.mp isLast
  intro child isChild
  rcases List.mem_append.mp isChild with inRest | isLast
  · exact (graphicsReorder_iff σ child last).mp
      ((List.pairwise_append.mp sorted).2.2 child inRest last List.mem_cons_self)
  · rw [List.mem_singleton.mp isLast]

/-- The z index that brings to the top, while it does not overflow. -/
theorem windowBringToTop_eq (linked : σ.Linked) {last : Nat} (isLast : (σ.nodes σ.screen).children.getLast? = some last)
    (rootGraphics : Nat) :
    σ.windowBringToTop rootGraphics = σ.graphicsSetZIndex rootGraphics ((σ.nodes last).zIndex + 1) := by
  have isChild : last ∈ (σ.nodes σ.screen).children := List.mem_of_getLast? isLast
  have nonnull : last ≠ 0 :=
    fun null => linked.nonnull (null ▸ (linked.child _ linked.screenLive last isChild).1)
  have narrowed : (((σ.nodes last).zIndex.setWidth 64 + 1).setWidth 32) = (σ.nodes last).zIndex + 1 := by
    apply BitVec.eq_of_toNat_eq
    simp only [BitVec.toNat_setWidth, BitVec.toNat_add, show (1 : BitVec 64).toNat = 1 from rfl,
      show (1 : BitVec 32).toNat = 1 from rfl]
    omega
  unfold windowBringToTop
  rw [isLast]
  dsimp only
  rw [if_pos nonnull, narrowed]

/-- **`window_bring_to_top` raises a child of the screen**, when the largest z index is not the largest number. -/
theorem windowBringToTop_raised (linked : σ.Linked) (sorted : σ.SortedChildren) {rootGraphics : Nat}
    (isChild : rootGraphics ∈ (σ.nodes σ.screen).children)
    (small : ∀ child ∈ (σ.nodes σ.screen).children, (σ.nodes child).zIndex.toNat < 2 ^ 32 - 1) :
    RaisedToTop σ rootGraphics (σ.windowBringToTop rootGraphics) := by
  obtain ⟨last, isLast⟩ : ∃ last, (σ.nodes σ.screen).children.getLast? = some last :=
    Option.ne_none_iff_exists'.mp fun none => by
      rw [List.getLast?_eq_none_iff.mp none] at isChild
      exact List.not_mem_nil isChild
  have largest := zIndex_le_last (sorted _ linked.screenLive) isLast
  have lastSmall := small last (List.mem_of_getLast? isLast)
  have raisedZ : ((σ.nodes last).zIndex + 1).toNat = (σ.nodes last).zIndex.toNat + 1 := by
    rw [BitVec.toNat_add]
    exact Nat.mod_eq_of_lt (by change _ + 1 < _; omega)
  have rootParent : (σ.nodes rootGraphics).parent = σ.screen := (linked.child _ linked.screenLive _ isChild).2
  have screenNonnull : σ.screen ≠ 0 := fun null => linked.nonnull (null ▸ linked.screenLive)
  rw [windowBringToTop_eq linked isLast]
  have above : ∀ child ∈ (σ.nodes σ.screen).children, child ≠ rootGraphics →
      ((σ.graphicsSetZIndex rootGraphics ((σ.nodes last).zIndex + 1)).nodes child).zIndex <
        ((σ.graphicsSetZIndex rootGraphics ((σ.nodes last).zIndex + 1)).nodes rootGraphics).zIndex := by
    intro child isOther isNot
    rw [graphicsSetZIndex_zIndex, graphicsSetZIndex_zIndex, if_neg isNot, if_pos rfl, BitVec.lt_def, raisedZ]
    exact Nat.lt_succ_of_le (largest child isOther)
  refine ⟨?_, above⟩
  rw [graphicsSetZIndex_children, if_pos ⟨rootParent.symm, screenNonnull⟩]
  obtain ⟨before, after, parts⟩ := List.append_of_mem isChild
  have distinct := linked.childrenDistinct _ linked.screenLive
  rw [parts] at distinct
  obtain ⟨_, afterDistinct, apart⟩ := List.nodup_append.mp distinct
  have notBefore : rootGraphics ∉ before := fun isBefore => apart _ isBefore _ List.mem_cons_self rfl
  have notAfter : rootGraphics ∉ after := (List.nodup_cons.mp afterDistinct).1
  have isOther : ∀ child ∈ before ++ after, child ∈ (σ.nodes σ.screen).children ∧ child ≠ rootGraphics := by
    intro child isIn
    rw [parts]
    rcases List.mem_append.mp isIn with isBefore | isAfter
    · exact ⟨List.mem_append_left _ isBefore, fun same => notBefore (same ▸ isBefore)⟩
    · exact ⟨List.mem_append_right _ (List.mem_cons_of_mem _ isAfter), fun same => notAfter (same ▸ isAfter)⟩
  have rest : Sorted (σ.graphicsSetZIndex rootGraphics ((σ.nodes last).zIndex + 1)).graphicsReorder
      (before ++ after) := by
    refine sorted_congr (σ := σ) (fun child isIn => ?_) ?_
    · rw [graphicsSetZIndex_zIndex, if_neg (isOther child isIn).2]
    · have whole := sorted _ linked.screenLive
      rw [parts] at whole
      exact whole.sublist (List.Sublist.append (List.Sublist.refl before) (List.sublist_cons_self _ _))
  rw [parts, vectorReorder_raised (graphicsReorder_isOrder _) before rootGraphics after rest, List.erase_append_right _
    notBefore, List.erase_cons_head, List.append_assoc]
  intro child isIn
  obtain ⟨isChild, isNot⟩ := isOther child isIn
  exact decide_eq_true (above child isChild isNot)

/-! ### Freeing a graphics without children -/

theorem SortedChildren.freeOwn (sorted : σ.SortedChildren) {graphicsIn : Nat} :
    (σ.freeOwn graphicsIn).SortedChildren := by
  intro other isLive
  have wasLive : other ∈ σ.live := by
    rw [freeOwn_live] at isLive
    split at isLive
    · exact isLive
    · exact List.mem_of_mem_erase isLive
  refine sorted_congr (σ := σ) (fun child _ => by rw [freeOwn_nodes]) ?_
  rw [freeOwn_nodes]
  dsimp only
  split
  · exact (sorted other wasLive).sublist List.erase_sublist
  · exact sorted other wasLive

end GraphicsStore

/-! ### Runs -/

open GraphicsStore

/-- A call that changes the tree or the order of children. -/
inductive ZOrderCall where
  | create (newGraphics sourceGraphics : Nat) (x y width height : BitVec 64) (flags : BitVec 32)
  | setZIndex (graphics : Nat) (zIndex : BitVec 32)
  | bringToTop (rootGraphics : Nat)
  | free (graphicsIn : Nat)

/-- The graphics, and how many calls were made. -/
structure ZOrderRun where
  store : GraphicsStore
  calls : Nat

namespace ZOrderRun

variable {ρ ρ' : ZOrderRun}

/-- There is the screen only. -/
def Initial (ρ : ZOrderRun) : Prop :=
  ρ.store.live = [ρ.store.screen] ∧ ρ.store.screen ≠ 0 ∧ (ρ.store.nodes ρ.store.screen).parent = 0 ∧
    (ρ.store.nodes ρ.store.screen).children = [] ∧ ρ.calls = 0

/-- **One call** for graphics that exist. New memory is not in use; what is freed has no children. -/
def step (ρ : ZOrderRun) (call : ZOrderCall) (ρ' : ZOrderRun) : Prop :=
  ρ'.calls = ρ.calls + 1 ∧
    match call with
    | .create newGraphics sourceGraphics x y width height flags =>
        newGraphics ∉ ρ.store.live ∧ sourceGraphics ∈ ρ.store.live ∧
          ρ'.store = (ρ.store.graphicsInfoCreateRelative newGraphics sourceGraphics x y width height flags).2
    | .setZIndex graphics zIndex =>
        graphics ∈ ρ.store.live ∧ zIndex.toNat < 2 ^ 31 ∧ ρ'.store = ρ.store.graphicsSetZIndex graphics zIndex
    | .bringToTop rootGraphics =>
        rootGraphics ∈ ρ.store.live ∧ ρ'.store = ρ.store.windowBringToTop rootGraphics
    | .free graphicsIn =>
        graphicsIn ∈ ρ.store.live ∧ (ρ.store.nodes graphicsIn).children = [] ∧
          ∃ fuel, graphicsInfoFree fuel ρ.store graphicsIn = some ρ'.store

/-- **Every vector of children** is sorted by ascending z index, and holds the live graphics below its graphics, each
once. -/
structure Ordered (ρ : ZOrderRun) : Prop where
  sorted : ∀ graphics ∈ ρ.store.live, (ρ.store.nodes graphics).children.Pairwise fun first second =>
    (ρ.store.nodes first).zIndex ≤ (ρ.store.nodes second).zIndex
  holds : ∀ graphics ∈ ρ.store.live, ∀ child,
    child ∈ (ρ.store.nodes graphics).children ↔ child ∈ ρ.store.live ∧ (ρ.store.nodes child).parent = graphics
  once : ∀ graphics ∈ ρ.store.live, (ρ.store.nodes graphics).children.Nodup

/-- What fewer than `2 ^ 31` calls keep: no z index is larger than the number of calls allows. -/
structure Kept (ρ : ZOrderRun) : Prop where
  tree : ρ.store.Tree
  sorted : ρ.store.SortedChildren
  few : ρ.store.live.length ≤ ρ.calls + 1
  small : ∀ graphics ∈ ρ.store.live, graphics ≠ ρ.store.screen →
    (ρ.store.nodes graphics).zIndex.toNat < 2 ^ 31 + ρ.calls

theorem Initial.kept (begins : ρ.Initial) : ρ.Kept := by
  obtain ⟨live, nonnull, parent, childless, none⟩ := begins
  have only : ∀ {graphics}, graphics ∈ ρ.store.live → graphics = ρ.store.screen := by
    intro graphics isLive
    rw [live] at isLive
    exact List.mem_singleton.mp isLive
  refine ⟨Tree.alone live nonnull parent childless, fun graphics isLive => ?_, ?_, ?_⟩
  · rw [only isLive, childless]
    exact List.Pairwise.nil
  · rw [live, List.length_singleton]; exact Nat.le_add_left _ _
  · exact fun graphics isLive isNot => absurd (only isLive) isNot

/-- The z index that brings to the top grows by one. -/
theorem Kept.bringToTop_zIndex (kept : ρ.Kept) (few : ρ.calls < 2 ^ 31) (rootGraphics : Nat) :
    ∃ zIndex : BitVec 32, ρ.store.windowBringToTop rootGraphics = ρ.store.graphicsSetZIndex rootGraphics zIndex ∧
      zIndex.toNat < 2 ^ 31 + (ρ.calls + 1) := by
  cases isLast : (ρ.store.nodes ρ.store.screen).children.getLast? with
  | none =>
      refine ⟨1, ?_, ?_⟩
      · unfold GraphicsStore.windowBringToTop
        rw [isLast]
        rfl
      · change 1 < _
        omega
  | some last =>
      refine ⟨_, windowBringToTop_eq kept.tree.toLinked isLast rootGraphics, ?_⟩
      obtain ⟨lastLive, lastParent⟩ :=
        (kept.tree.children _ kept.tree.screenLive last).mp (List.mem_of_getLast? isLast)
      have notScreen : last ≠ ρ.store.screen :=
        fun same => kept.tree.notSelf _ kept.tree.screenLive (same ▸ lastParent)
      have small := kept.small last lastLive notScreen
      rw [BitVec.toNat_add]
      exact (Nat.mod_le _ _).trans_lt (by change _ + 1 < _; omega)

/-- A change of a z index that is not too large. -/
theorem Kept.setZIndex (kept : ρ.Kept) {graphics : Nat} {zIndex : BitVec 32}
    (small : zIndex.toNat < 2 ^ 31 + (ρ.calls + 1)) :
    Kept ⟨ρ.store.graphicsSetZIndex graphics zIndex, ρ.calls + 1⟩ := by
  have same := SameTree.graphicsSetZIndex ρ.store graphics zIndex
  refine ⟨kept.tree.sameTree same,
    graphicsSetZIndex_sorted kept.tree.toLinked zIndex fun other isLive _ => kept.sorted other isLive,
    ?_, ?_⟩
  · rw [same.live]
    exact kept.few.trans (Nat.le_succ _)
  · intro other isLive isNot
    dsimp only at isLive isNot ⊢
    rw [same.live] at isLive
    rw [same.screen] at isNot
    rw [graphicsSetZIndex_zIndex]
    split
    · exact small
    · exact (kept.small other isLive isNot).trans (by omega)

/-- A call that changes nothing. -/
theorem Kept.later (kept : ρ.Kept) : Kept ⟨ρ.store, ρ.calls + 1⟩ :=
  ⟨kept.tree, kept.sorted, kept.few.trans (Nat.le_succ _),
    fun graphics isLive isNot => (kept.small graphics isLive isNot).trans (Nat.lt_succ_self _)⟩

/-- A new graphics: its z index is the number of its siblings. -/
theorem Kept.create (kept : ρ.Kept) {newGraphics sourceGraphics : Nat} (fresh : newGraphics ∉ ρ.store.live)
    (sourceLive : sourceGraphics ∈ ρ.store.live) (x y width height : BitVec 64) (flags : BitVec 32) :
    Kept ⟨(ρ.store.graphicsInfoCreateRelative newGraphics sourceGraphics x y width height flags).2, ρ.calls + 1⟩ := by
  have tree := kept.tree.create fresh sourceLive x y width height flags
  have sorted := kept.sorted.create kept.tree.toLinked fresh sourceLive x y width height flags
  obtain refused | ⟨nonnull, _, pixels, created⟩ :=
    graphicsInfoCreateRelative_cases ρ.store newGraphics sourceGraphics x y width height flags
  · rw [refused]
    exact kept.later
  · dsimp only at created
    rw [created] at tree sorted ⊢
    have different : newGraphics ≠ sourceGraphics := fun same => fresh (same ▸ sourceLive)
    have siblings : (ρ.store.nodes sourceGraphics).children.length ≤ ρ.store.live.length :=
      (List.subperm_of_subset (kept.tree.childrenDistinct _ sourceLive)
        fun child isChild => ((kept.tree.children _ sourceLive child).mp isChild).1).length_le
    have few := kept.few
    refine ⟨tree, sorted, ?_, fun graphics isLive isNot => ?_⟩
    · rw [(SameTree.graphicsSetZIndex _ _ _).live]
      exact Nat.succ_le_succ few
    · dsimp only at isLive isNot ⊢
      rw [(SameTree.graphicsSetZIndex _ _ _).live] at isLive
      rw [(SameTree.graphicsSetZIndex _ _ _).screen] at isNot
      rw [graphicsSetZIndex_zIndex, attach_source different]
      dsimp only
      rw [List.length_append, List.length_singleton]
      split
      · rw [BitVec.toNat_ofNat]
        exact (Nat.mod_le _ _).trans_lt (by omega)
      · next isOld =>
          have wasLive : graphics ∈ ρ.store.live := List.mem_of_ne_of_mem isOld isLive
          have small := kept.small graphics wasLive isNot
          by_cases isSource : graphics = sourceGraphics
          · rw [isSource] at small ⊢
            rw [attach_source different]
            exact small.trans (Nat.lt_succ_self _)
          · rw [attach_other isOld isSource]
            exact small.trans (Nat.lt_succ_self _)

/-- A graphics without children that goes. -/
theorem Kept.free (kept : ρ.Kept) {graphicsIn : Nat} (isLive : graphicsIn ∈ ρ.store.live)
    (childless : (ρ.store.nodes graphicsIn).children = []) : Kept ⟨ρ.store.freeOwn graphicsIn, ρ.calls + 1⟩ := by
  have subset : ∀ other ∈ (ρ.store.freeOwn graphicsIn).live, other ∈ ρ.store.live := by
    intro other otherLive
    rw [freeOwn_live] at otherLive
    split at otherLive
    · exact otherLive
    · exact List.mem_of_mem_erase otherLive
  refine ⟨kept.tree.freeOwn isLive childless, kept.sorted.freeOwn, ?_, fun other otherLive isNot => ?_⟩
  · have fewer : (ρ.store.freeOwn graphicsIn).live.length ≤ ρ.store.live.length := by
      rw [freeOwn_live]
      split
      · exact le_rfl
      · exact List.erase_sublist.length_le
    exact fewer.trans (kept.few.trans (Nat.le_succ _))
  · dsimp only at isNot ⊢
    rw [freeOwn_screen] at isNot
    rw [freeOwn_nodes]
    exact (kept.small other (subset other otherLive) isNot).trans (Nat.lt_succ_self _)

/-- **One call**, as long as there are few. -/
theorem Kept.step (kept : ρ.Kept) {call : ZOrderCall} (taken : ρ.step call ρ') (few : ρ.calls < 2 ^ 31) : ρ'.Kept := by
  obtain ⟨store, calls⟩ := ρ'
  obtain ⟨rfl, taken⟩ := taken
  cases call with
  | create newGraphics sourceGraphics x y width height flags =>
      obtain ⟨fresh, sourceLive, rfl⟩ := taken
      exact kept.create fresh sourceLive x y width height flags
  | setZIndex graphics zIndex =>
      obtain ⟨_, small, rfl⟩ := taken
      exact kept.setZIndex (small.trans_le (Nat.le_add_right _ _))
  | bringToTop rootGraphics =>
      obtain ⟨_, rfl⟩ := taken
      obtain ⟨zIndex, same, small⟩ := kept.bringToTop_zIndex few rootGraphics
      rw [same]
      exact kept.setZIndex small
  | free graphicsIn =>
      obtain ⟨isLive, childless, fuel, freed⟩ := taken
      have nonnull : graphicsIn ≠ 0 := fun null => kept.tree.nonnull (null ▸ isLive)
      dsimp only at freed
      rw [graphicsInfoFree_childless nonnull childless freed]
      exact kept.free isLive childless

theorem Kept.ordered (kept : ρ.Kept) : ρ.Ordered where
  sorted graphics isLive := (kept.sorted graphics isLive).imp fun below => (graphicsReorder_iff _ _ _).mp below
  holds := kept.tree.children
  once := kept.tree.childrenDistinct

/-- A run keeps this while it is short enough. -/
theorem kept_of_reachable (reached : Reachable step Initial ρ) (few : ρ.calls < 2 ^ 31) : ρ.Kept := by
  refine reached.invariant (fun ρ => ρ.calls < 2 ^ 31 → ρ.Kept) (fun ρ begins _ => begins.kept) ?_ few
  intro ρ call ρ' kept taken few
  have fewBefore : ρ.calls < 2 ^ 31 := by
    have counted := taken.1
    omega
  exact (kept fewBefore).step taken fewBefore

end ZOrderRun

open ZOrderRun

/-- **In every run of fewer than `2 ^ 31` calls** the children are ordered, and bringing a child of the screen to the
top raises it above the others. -/
theorem zOrder_run (ρ : ZOrderRun) (reached : Reachable step Initial ρ) (few : ρ.calls < 2 ^ 31) :
    ρ.Ordered ∧ ∀ rootGraphics ∈ (ρ.store.nodes ρ.store.screen).children,
      RaisedToTop ρ.store rootGraphics (ρ.store.windowBringToTop rootGraphics) := by
  have kept := kept_of_reachable reached few
  refine ⟨kept.ordered, fun rootGraphics isChild => windowBringToTop_raised kept.tree.toLinked kept.sorted isChild ?_⟩
  intro child isChild
  obtain ⟨childLive, childParent⟩ := (kept.tree.children _ kept.tree.screenLive child).mp isChild
  have notScreen : child ≠ ρ.store.screen := fun same => kept.tree.notSelf _ kept.tree.screenLive (same ▸ childParent)
  have small := kept.small child childLive notScreen
  omega

/-- **The first of two graphics** is brought to the top. -/
theorem zOrder_run_two : Ordered ⟨tinyScreenTwo, 2⟩ ∧
    RaisedToTop tinyScreenTwo 0x2000 (tinyScreenTwo.windowBringToTop 0x2000) := by
  have start : Reachable step Initial ⟨tinyScreen, 0⟩ := .start ⟨rfl, by decide, rfl, rfl, rfl⟩
  have one : Reachable step Initial ⟨tinyScreenOne, 1⟩ :=
    .next (.create 0x2000 0x1000 0 0 4 4 graphicsFlagDoNotCopyPixels) start ⟨rfl, by decide, by decide, rfl⟩
  have reached : Reachable step Initial ⟨tinyScreenTwo, 2⟩ :=
    .next (.create 0x3000 0x1000 2 2 4 4 graphicsFlagDoNotCopyPixels) one ⟨rfl, by decide, by decide, rfl⟩
  exact ⟨(zOrder_run _ reached (by decide)).1, (zOrder_run _ reached (by decide)).2 0x2000 (by decide)⟩

end PeachOS
