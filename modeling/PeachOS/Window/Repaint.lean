/-
**The framebuffer after a move: `window_position_set`.**

Moving a window redraws a part of the screen and then the window. Where a strip of the old rectangle is enough, two strips
are redrawn, and where one would be larger than the window, the old rectangle. Either way it is what the move uncovers,
without what the window covers again.

* `mem_repaintRegions_iff` — what is redrawn of the screen is the old rectangle without the new one;
* `ShiftedToTop.pictures` — the window is drawn last and shifted, all else is as before;
* `moveAccesses_after` — the framebuffer after a move, at each index of the screen;
* `windowPositionSet_painted_iff` — the framebuffer is again what `graphics_redraw_all` paints exactly when the window leaves
  no ghost: at no position of both rectangles the moved window is clear and the window as it was is still seen.
-/

import PeachOS.Graphics.Pictures
import PeachOS.Window.Stack

namespace PeachOS

open Layers GraphicsStore

/-! ### What is redrawn -/

/-- A region of the screen. -/
structure ScreenRegion where
  x : BitVec 32
  y : BitVec 32
  width : BitVec 32
  height : BitVec 32

/-- The positions of a region. -/
def ScreenRegion.rect (region : ScreenRegion) : Rect where
  left := region.x.toNat
  top := region.y.toNat
  right := region.x.toNat + region.width.toNat
  bottom := region.y.toNat + region.height.toNat

/-- `x_redraw_x` and `y_redraw_y`: where a strip begins, from the gap between the old position and the new one, an `int`. -/
def redrawStart (oldScreen starting size : BitVec 32) : BitVec 32 :=
  let gap := oldScreen - starting
  if 0 ≤ gap.toInt then starting + size else starting + gap

/-- `x_redraw_width` and `y_redraw_height`: the gap without its sign. -/
def redrawSize (oldScreen starting : BitVec 32) : BitVec 32 :=
  let gap := oldScreen - starting
  if 0 ≤ gap.toInt then gap else -gap

/-- The regions of the screen that `window_position_set` redraws, from the old position and the root at the new one. -/
def repaintRegions (oldScreenX oldScreenY : BitVec 32) (root : GraphicsInfo) : List ScreenRegion :=
  let xRedrawX := redrawStart oldScreenX root.startingX root.width
  let xRedrawWidth := redrawSize oldScreenX root.startingX
  let xRedrawY := oldScreenY
  let xRedrawHeight := root.height
  let yRedrawX := oldScreenX
  let yRedrawWidth := root.width
  let yRedrawY := redrawStart oldScreenY root.startingY root.height
  let yRedrawHeight := redrawSize oldScreenY root.startingY
  if xRedrawWidth > root.width ∨ xRedrawHeight > root.height ∨ yRedrawWidth > root.width ∨ yRedrawHeight > root.height then
    [⟨oldScreenX, oldScreenY, root.width, root.height⟩]
  else [⟨xRedrawX, xRedrawY, xRedrawWidth, xRedrawHeight⟩, ⟨yRedrawX, yRedrawY, yRedrawWidth, yRedrawHeight⟩]

/-- The positions that an `int` has room for. -/
def Rect.signedPlane : Rect := ⟨0, 0, 2 ^ 31 - 1, 2 ^ 31 - 1⟩

theorem Rect.signedPlane_within : Rect.signedPlane.Within Rect.plane := ⟨le_rfl, le_rfl, by decide, by decide⟩

section Side

variable {oldScreen starting size : BitVec 32}

/-- The sign of a gap. -/
theorem gap_nonneg_iff (before : oldScreen.toNat < 2 ^ 31) (after : starting.toNat < 2 ^ 31) :
    0 ≤ (oldScreen - starting).toInt ↔ starting.toNat ≤ oldScreen.toNat := by
  rw [BitVec.toInt_eq_toNat_cond, BitVec.toNat_sub]
  constructor <;> intro sign <;> split at * <;> omega

/-- The length of a strip is the distance. -/
theorem redrawSize_toNat (before : oldScreen.toNat < 2 ^ 31) (after : starting.toNat < 2 ^ 31) :
    (redrawSize oldScreen starting).toNat =
      (oldScreen.toNat - starting.toNat) + (starting.toNat - oldScreen.toNat) := by
  unfold redrawSize
  dsimp only
  by_cases back : starting.toNat ≤ oldScreen.toNat
  · rw [if_pos ((gap_nonneg_iff before after).mpr back), BitVec.toNat_sub]
    omega
  · rw [if_neg (mt (gap_nonneg_iff before after).mp back), BitVec.toNat_neg, BitVec.toNat_sub]
    omega

/-- A strip begins at the end of the new side, or at the old one. -/
theorem redrawStart_toNat (before : oldScreen.toNat < 2 ^ 31) (after : starting.toNat + size.toNat < 2 ^ 31) :
    (redrawStart oldScreen starting size).toNat =
      if starting.toNat ≤ oldScreen.toNat then starting.toNat + size.toNat else oldScreen.toNat := by
  have sign := @gap_nonneg_iff oldScreen starting before (by omega)
  unfold redrawStart
  dsimp only
  by_cases back : starting.toNat ≤ oldScreen.toNat
  · rw [if_pos (sign.mpr back), if_pos back, BitVec.toNat_add]
    omega
  · rw [if_neg (mt sign.mp back), if_neg back, BitVec.toNat_add, BitVec.toNat_sub]
    omega

/-- **A strip that is not longer than the side** is the old side without the new one. -/
theorem strip_iff (before : oldScreen.toNat + size.toNat < 2 ^ 31) (after : starting.toNat + size.toNat < 2 ^ 31)
    (short : (redrawSize oldScreen starting).toNat ≤ size.toNat) (x : Nat) :
    ((redrawStart oldScreen starting size).toNat ≤ x ∧
        x < (redrawStart oldScreen starting size).toNat + (redrawSize oldScreen starting).toNat) ↔
      (oldScreen.toNat ≤ x ∧ x < oldScreen.toNat + size.toNat) ∧
        ¬ (starting.toNat ≤ x ∧ x < starting.toNat + size.toNat) := by
  rw [redrawSize_toNat (by omega) (by omega)] at short ⊢
  rw [redrawStart_toNat (by omega) after]
  split <;> omega

end Side

section Regions

variable {old root : GraphicsInfo}

/-- The regions that are redrawn do not wrap. -/
theorem repaintRegions_small (sameWidth : root.width = old.width) (sameHeight : root.height = old.height)
    (before : old.rect.Within Rect.signedPlane) (after : root.rect.Within Rect.signedPlane) :
    ∀ region ∈ repaintRegions old.startingX old.startingY root,
      region.x.toNat + region.width.toNat < 2 ^ 32 ∧ region.y.toNat + region.height.toNat < 2 ^ 32 := by
  obtain ⟨-, -, right, bottom⟩ := before
  obtain ⟨-, -, right', bottom'⟩ := after
  simp only [GraphicsInfo.rect, Rect.signedPlane] at right bottom right' bottom'
  rw [← sameWidth] at right
  rw [← sameHeight] at bottom
  unfold repaintRegions
  dsimp only
  split
  · intro region isRegion
    rw [List.mem_singleton.mp isRegion]
    exact ⟨by dsimp only; omega, by dsimp only; omega⟩
  · next strips =>
      have startX := @redrawStart_toNat old.startingX root.startingX root.width (by omega) (by omega)
      have startY := @redrawStart_toNat old.startingY root.startingY root.height (by omega) (by omega)
      have sizeX := @redrawSize_toNat old.startingX root.startingX (by omega) (by omega)
      have sizeY := @redrawSize_toNat old.startingY root.startingY (by omega) (by omega)
      intro region isRegion
      rcases List.mem_cons.mp isRegion with rfl | isSecond
      · dsimp only
        rw [startX, sizeX]
        exact ⟨by split <;> omega, by omega⟩
      · rw [List.mem_singleton.mp isSecond]
        dsimp only
        rw [startY, sizeY]
        exact ⟨by omega, by split <;> omega⟩

/-- **What is redrawn of the screen is the old rectangle without the new one.** -/
theorem mem_repaintRegions_iff (sameWidth : root.width = old.width) (sameHeight : root.height = old.height)
    (before : old.rect.Within Rect.signedPlane) (after : root.rect.Within Rect.signedPlane) (q : Nat × Nat) :
    (∃ region ∈ repaintRegions old.startingX old.startingY root, q ∈ region.rect.area) ↔
      q ∈ old.rect.area ∧ q ∉ root.rect.area := by
  obtain ⟨-, -, right, bottom⟩ := before
  obtain ⟨-, -, right', bottom'⟩ := after
  simp only [GraphicsInfo.rect, Rect.signedPlane] at right bottom right' bottom'
  rw [← sameWidth] at right
  rw [← sameHeight] at bottom
  have sizeX := @redrawSize_toNat old.startingX root.startingX (by omega) (by omega)
  have sizeY := @redrawSize_toNat old.startingY root.startingY (by omega) (by omega)
  unfold repaintRegions Rect.area GraphicsInfo.rect ScreenRegion.rect
  dsimp only
  rw [← sameWidth, ← sameHeight]
  split
  · next apart =>
      -- Then the rectangles have no position in common.
      have apart : root.width.toNat < (redrawSize old.startingX root.startingX).toNat ∨
          root.height.toNat < (redrawSize old.startingY root.startingY).toNat := by
        rcases apart with wide | same | same | high
        · exact Or.inl wide
        · exact absurd same (BitVec.lt_irrefl _)
        · exact absurd same (BitVec.lt_irrefl _)
        · exact Or.inr high
      rw [sizeX, sizeY] at apart
      simp only [List.mem_singleton, exists_eq_left]
      change _ ∧ _ ↔ (_ ∧ _) ∧ ¬ (_ ∧ _)
      omega
  · next strips =>
      obtain ⟨short, -, -, low⟩ : _ ∧ _ ∧ _ ∧ _ := by simpa only [not_or] using strips
      have columns := @strip_iff old.startingX root.startingX root.width (by omega) (by omega) (BitVec.not_lt.mp short) q.1
      have rows := @strip_iff old.startingY root.startingY root.height (by omega) (by omega) (BitVec.not_lt.mp low) q.2
      simp only [List.mem_cons, List.not_mem_nil, or_false, exists_eq_or_imp, exists_eq_left]
      change (_ ∧ _) ∨ (_ ∧ _) ↔ (_ ∧ _) ∧ ¬ (_ ∧ _)
      rw [columns, rows]
      constructor
      · rintro (⟨⟨column, beside⟩, row⟩ | ⟨column, row, beside⟩)
        · exact ⟨⟨column, row⟩, fun covered => beside covered.1⟩
        · exact ⟨⟨column, row⟩, fun covered => beside covered.2⟩
      · rintro ⟨⟨column, row⟩, uncovered⟩
        by_cases inside : root.startingX.toNat ≤ q.1 ∧ q.1 < root.startingX.toNat + root.width.toNat
        · exact Or.inr ⟨column, row, fun below => uncovered ⟨inside, below⟩⟩
        · exact Or.inl ⟨⟨column, inside⟩, row⟩

end Regions

/-! ### The trees before and after -/

namespace GraphicsStore

variable {σ σ' : GraphicsStore} {rootGraphics : Nat} {dx dy : BitVec 32}

/-- The tree of a graphics. It is not deeper than there are graphics. -/
def picture (σ : GraphicsStore) (g : Nat) : Option GraphicsTree := treeOf σ.live.length σ g

/-- More fuel finds the same tree. -/
theorem treeOf_more {fuel g : Nat} {tree : GraphicsTree} (found : treeOf fuel σ g = some tree) :
    treeOf (fuel + 1) σ g = some tree := by
  induction fuel generalizing g tree with
  | zero => exact absurd found (Option.some_ne_none _).symm
  | succ fuel ih =>
      obtain ⟨trees, each, rfl⟩ := Option.map_eq_some_iff.mp found
      exact Option.map_eq_some_iff.mpr ⟨trees, mapM_more _ (fun _ _ _ => ih) each, rfl⟩

/-- **A child of the screen was brought to the top and shifted**, with all below it. The rest is as before. -/
structure ShiftedToTop (σ : GraphicsStore) (rootGraphics : Nat) (dx dy : BitVec 32) (σ' : GraphicsStore) : Prop where
  live : σ'.live = σ.live
  screen : σ'.screen = σ.screen
  screenInfo : (σ'.nodes σ.screen).info = (σ.nodes σ.screen).info
  last : (σ'.nodes σ.screen).children = (σ.nodes σ.screen).children.erase rootGraphics ++ [rootGraphics]
  own : ∀ g, Below σ rootGraphics g →
    (σ'.nodes g).children = (σ.nodes g).children ∧ (σ'.nodes g).info = (σ.nodes g).info.shift dx dy
  others : ∀ g, g ≠ σ.screen → ¬ Below σ rootGraphics g →
    (σ'.nodes g).children = (σ.nodes g).children ∧ (σ'.nodes g).info = (σ.nodes g).info

/-- What is below another child of the screen is neither the screen nor below this one. -/
theorem Linked.below_sibling (linked : σ.Linked) (isChild : rootGraphics ∈ (σ.nodes σ.screen).children) {sibling g : Nat}
    (isSibling : sibling ∈ (σ.nodes σ.screen).children) (different : sibling ≠ rootGraphics) (below : Below σ sibling g) :
    g ≠ σ.screen ∧ ¬ Below σ rootGraphics g := by
  have siblingLive := (linked.child _ linked.screenLive sibling isSibling).1
  have rootLive := (linked.child _ linked.screenLive rootGraphics isChild).1
  constructor
  · rintro rfl
    exact linked.child_notScreen linked.screenLive isSibling (linked.eq_screen_of_below siblingLive below)
  · intro belowRoot
    induction below with
    | self => exact linked.siblings_apart linked.screenLive isChild isSibling different belowRoot
    | @child g child above isGrandchild ih =>
        rcases (belowRoot.held linked rootLive).2 with rfl | ⟨belowParent, -⟩
        · exact linked.siblings_apart linked.screenLive isSibling isChild different.symm (.child above isGrandchild)
        · rw [(linked.child g (above.held linked siblingLive).1 child isGrandchild).2] at belowParent
          exact ih belowParent

theorem mapM_append_some {find : Nat → Option GraphicsTree} {first second : List Nat} {firstTrees secondTrees : List GraphicsTree}
    (foundFirst : first.mapM find = some firstTrees) (foundSecond : second.mapM find = some secondTrees) :
    (first ++ second).mapM find = some (firstTrees ++ secondTrees) := by
  rw [List.mapM_append, foundFirst, foundSecond]
  rfl

/-- **The two pictures of the screen**, with the moved child somewhere before, and on top after. -/
theorem ShiftedToTop.pictures (moved : ShiftedToTop σ rootGraphics dx dy σ') (linked : σ.Linked)
    (isChild : rootGraphics ∈ (σ.nodes σ.screen).children) :
    ∃ before own after,
      σ.picture rootGraphics = some own ∧ own.info = (σ.nodes rootGraphics).info ∧
      ((σ.nodes σ.screen).children.erase rootGraphics).mapM σ.picture = some (before ++ after) ∧
      σ.picture σ.screen = some (.node (σ.nodes σ.screen).info (before ++ own :: after)) ∧
      σ'.picture rootGraphics = some (own.shift dx dy) ∧
      σ'.picture σ'.screen = some (.node (σ.nodes σ.screen).info (before ++ after ++ [own.shift dx dy])) := by
  obtain ⟨fuel, isFuel⟩ : ∃ fuel, σ.live.length = fuel + 1 :=
    ⟨σ.live.length - 1, by have := List.length_pos_of_mem linked.screenLive; omega⟩
  obtain ⟨first, second, parts⟩ := List.append_of_mem isChild
  have distinct := linked.childrenDistinct _ linked.screenLive
  rw [parts] at distinct
  obtain ⟨-, secondDistinct, apart⟩ := List.nodup_append.mp distinct
  have notFirst : rootGraphics ∉ first := fun isIn => apart _ isIn _ List.mem_cons_self rfl
  have notSecond : rootGraphics ∉ second := (List.nodup_cons.mp secondDistinct).1
  have rest : (σ.nodes σ.screen).children.erase rootGraphics = first ++ second := by
    rw [parts, List.erase_append_right _ notFirst, List.erase_cons_head]
  -- Every child has a tree with less fuel than the screen's.
  have each : ∀ child ∈ (σ.nodes σ.screen).children,
      ∃ tree, treeOf fuel σ child = some tree ∧ tree.info = (σ.nodes child).info := by
    intro child isIn
    refine treeOf_returns linked (linked.child _ linked.screenLive child isIn).1 ?_
    have lower := linked.rank linked.screenLive isIn
    have upper := List.idxOf_lt_length_of_mem linked.screenLive
    omega
  have same : ∀ child ∈ (σ.nodes σ.screen).children, child ≠ rootGraphics → treeOf fuel σ' child = treeOf fuel σ child := by
    intro child isIn different
    refine treeOf_same fun g below => ?_
    obtain ⟨notScreen, notBelow⟩ := linked.below_sibling isChild isIn different below
    exact moved.others g notScreen notBelow
  obtain ⟨own, foundOwn, ownInfo⟩ := each rootGraphics isChild
  have shifted : treeOf fuel σ' rootGraphics = some (own.shift dx dy) := by
    rw [@treeOf_map σ σ' (GraphicsInfo.shift dx dy) fuel rootGraphics moved.own, foundOwn]
    rfl
  have inFirst : ∀ child ∈ first, child ∈ (σ.nodes σ.screen).children ∧ child ≠ rootGraphics := fun child isIn =>
    ⟨parts ▸ List.mem_append_left _ isIn, fun isRoot => notFirst (isRoot ▸ isIn)⟩
  have inSecond : ∀ child ∈ second, child ∈ (σ.nodes σ.screen).children ∧ child ≠ rootGraphics := fun child isIn =>
    ⟨parts ▸ List.mem_append_right _ (List.mem_cons_of_mem _ isIn), fun isRoot => notSecond (isRoot ▸ isIn)⟩
  have trees : ∀ children : List Nat, (∀ child ∈ children, child ∈ (σ.nodes σ.screen).children ∧ child ≠ rootGraphics) →
      ∃ found, children.mapM (treeOf fuel σ) = some found ∧ children.mapM (treeOf fuel σ') = some found := by
    intro children areOthers
    obtain ⟨found, isFound⟩ := treesOf_returns fun child isIn => (each child (areOthers child isIn).1).imp fun _ both => both.1
    exact ⟨found, isFound, mapM_more _ (fun child isIn _ isOwn =>
      (same child (areOthers child isIn).1 (areOthers child isIn).2).trans isOwn) isFound⟩
  obtain ⟨before, foundBefore, foundBefore'⟩ := trees first inFirst
  obtain ⟨after, foundAfter, foundAfter'⟩ := trees second inSecond
  have foundRest := mapM_append_some foundBefore foundAfter
  have foundRest' := mapM_append_some foundBefore' foundAfter'
  have ownList : [rootGraphics].mapM (treeOf fuel σ') = some [own.shift dx dy] := by
    rw [List.mapM_cons, shifted]
    rfl
  have ownSecond : (rootGraphics :: second).mapM (treeOf fuel σ) = some (own :: after) := by
    rw [List.mapM_cons, foundOwn, foundAfter]
    rfl
  unfold picture
  rw [moved.live, moved.screen, isFuel, rest]
  refine ⟨before, own, after, treeOf_more foundOwn, ownInfo, mapM_more _ (fun _ _ _ => treeOf_more) foundRest, ?_,
    treeOf_more shifted, ?_⟩
  · refine Option.map_eq_some_iff.mpr ⟨_, ?_, rfl⟩
    rw [parts]
    exact mapM_append_some foundBefore ownSecond
  · rw [treeOf, moved.screenInfo, moved.last, rest]
    exact Option.map_eq_some_iff.mpr ⟨_, mapM_append_some foundRest' ownList, rfl⟩

/-- The children after a root was written and brought to the top: only those of the screen are in another order. -/
theorem raisedRoot_children (linked : σ.Linked) (isChild : rootGraphics ∈ (σ.nodes σ.screen).children)
    (position : BitVec 64 × BitVec 64) {g : Nat} (notScreen : g ≠ σ.screen) :
    (((σ.placeRoot rootGraphics position).windowBringToTop rootGraphics).nodes g).children = (σ.nodes g).children := by
  have parent : ((σ.placeRoot rootGraphics position).nodes rootGraphics).parent = σ.screen :=
    ((placeRoot_links σ rootGraphics position).parent _).trans (linked.child _ linked.screenLive _ isChild).2
  unfold windowBringToTop
  dsimp only
  rw [graphicsSetZIndex_children, parent, if_neg fun both => notScreen both.1, placeRoot_children]

/-- **A root that was written, brought to the top and recalculated** is shifted, with all below it. -/
theorem shiftedToTop_of_recalculated (linked : σ.Linked) (sorted : σ.SortedChildren) (placed : σ.AllPlaced)
    (originX : (σ.nodes σ.screen).info.startingX = 0) (originY : (σ.nodes σ.screen).info.startingY = 0)
    (isChild : rootGraphics ∈ (σ.nodes σ.screen).children)
    (small : ∀ child ∈ (σ.nodes σ.screen).children, (σ.nodes child).zIndex.toNat < 2 ^ 32 - 1)
    {position : BitVec 64 × BitVec 64}
    (done : Recalculated ((σ.placeRoot rootGraphics position).windowBringToTop rootGraphics) rootGraphics σ') :
    ShiftedToTop σ rootGraphics (position.1.setWidth 32 - (σ.nodes rootGraphics).info.startingX)
      (position.2.setWidth 32 - (σ.nodes rootGraphics).info.startingY) σ' := by
  obtain ⟨rootLive, rootParent⟩ := linked.child _ linked.screenLive _ isChild
  have notScreen : rootGraphics ≠ σ.screen := linked.child_notScreen linked.screenLive isChild
  have written := placeRoot_links σ rootGraphics position
  have raised := SameTree.windowBringToTop (σ.placeRoot rootGraphics position) rootGraphics
  have links := written.trans raised.links
  have screen := links.screen
  have isRaised : RaisedToTop (σ.placeRoot rootGraphics position) rootGraphics
      ((σ.placeRoot rootGraphics position).windowBringToTop rootGraphics) := by
    refine windowBringToTop_raised (linked.sameLinks written) (fun g isLive => ?_) ?_ fun child isIn => ?_
    · rw [placeRoot_children]
      exact sorted_congr (fun child _ => placeRoot_zIndex _ _ _ child) (sorted g (written.live ▸ isLive))
    · rw [placeRoot_children, written.screen]
      exact isChild
    · rw [placeRoot_children, written.screen] at isIn
      rw [placeRoot_zIndex]
      exact small child isIn
  have children : ∀ g, g ≠ σ.screen → (σ'.nodes g).children = (σ.nodes g).children := by
    intro g isNot
    rw [(done.moved.nodes g).moved]
    exact raisedRoot_children linked isChild position isNot
  have info : ∀ g, (σ'.nodes g).info = { ((σ.placeRoot rootGraphics position).nodes g).info with
      startingX := (σ'.nodes g).info.startingX, startingY := (σ'.nodes g).info.startingY } := by
    intro g
    nth_rewrite 1 [(done.moved.nodes g).moved]
    dsimp only
    rw [(raised.nodes g).info]
  have screenInfo : (σ'.nodes σ.screen).info = (σ.nodes σ.screen).info := by
    have same := congrArg GraphicsNode.info done.screen
    rwa [screen, (raised.nodes σ.screen).info, placeRoot_of_ne notScreen.symm] at same
  refine ⟨done.moved.live.trans links.live, done.moved.screen.trans screen, screenInfo, ?_, fun g below => ?_,
    fun g isNot notBelow => ⟨children g isNot, ?_⟩⟩
  · have same := congrArg GraphicsNode.children done.screen
    rw [screen] at same
    have last := isRaised.last
    rw [written.screen, placeRoot_children] at last
    exact same.trans last
  · -- The way down from the root carries the displacement along.
    have isNotScreen : g ≠ σ.screen := by
      rintro rfl
      exact notScreen (linked.eq_screen_of_below rootLive below)
    refine ⟨children g isNotScreen, ?_⟩
    have belowRaised := below.of_sameLinks links
    induction below with
    | self =>
        have placed := done.placed rootGraphics (screen.symm ▸ notScreen) .self
        have parent := done.moved.links.parent rootGraphics
        rw [links.parent, rootParent] at parent
        have node : (σ.placeRoot rootGraphics position).nodes rootGraphics = _ := setNode_self _ _ _
        rw [info, placed.x, placed.y, parent, screenInfo, originX, originY, done.moved.relativeX, done.moved.relativeY,
          (raised.nodes _).relativeX, (raised.nodes _).relativeY, node]
        unfold GraphicsInfo.shift
        rw [GraphicsInfo.mk.injEq]
        refine ⟨rfl, rfl, rfl, rfl, rfl, rfl, ?_, ?_, rfl⟩ <;> bv_omega
    | @child parent g above isGrandchild ih =>
        obtain ⟨parentLive, -⟩ := above.held linked rootLive
        obtain ⟨isLive, isParent⟩ := linked.child parent parentLive g isGrandchild
        have parentNotScreen : parent ≠ σ.screen := by
          rintro rfl
          exact notScreen (linked.eq_screen_of_below rootLive above)
        have notRoot : g ≠ rootGraphics := by
          rintro rfl
          exact parentNotScreen (isParent.symm.trans rootParent)
        have parentInfo := ih parentNotScreen (above.of_sameLinks links)
        have before := placed g isLive isNotScreen
        have after := done.placed g (screen.symm ▸ isNotScreen) belowRaised
        have sameParent := done.moved.links.parent g
        rw [links.parent, isParent] at sameParent
        rw [info, after.x, after.y, sameParent, parentInfo, done.moved.relativeX, done.moved.relativeY,
          (raised.nodes g).relativeX, (raised.nodes g).relativeY, placeRoot_of_ne notRoot]
        unfold GraphicsInfo.shift
        rw [before.x, before.y, isParent, GraphicsInfo.mk.injEq]
        exact ⟨rfl, rfl, rfl, rfl, rfl, rfl, (BitVec.add_assoc _ _ _).symm, (BitVec.add_assoc _ _ _).symm, rfl⟩
  · have isNotRoot : g ≠ rootGraphics := fun same => notBelow (same ▸ .self)
    rw [done.others g fun below => notBelow (below.of_sameLinks links.symm), (raised.nodes g).info, placeRoot_of_ne isNotRoot]

end GraphicsStore

/-! ### The pixels -/

section Pixels

variable {screen : GraphicsInfo} {before after : List GraphicsTree} {own : GraphicsTree} {dx dy : BitVec 32}

open Classical in
/-- **Regions of the screen that are redrawn** one after the other: what is in two of them is not changed by the second. -/
theorem redrawRegions_after (addressed : screen.Addressed) (isScreen : screen.IsScreen) {children : List GraphicsTree}
    (nested : AllNestedIn children Rect.plane) {regions : List ScreenRegion}
    (small : ∀ region ∈ regions, region.x.toNat + region.width.toNat < 2 ^ 32 ∧ region.y.toNat + region.height.toNat < 2 ^ 32)
    (framebuffer : Framebuffer) (index : Nat) :
    framebuffer.afterAll screen (regions.flatMap fun region =>
        graphicsRedrawRegion screen (.node screen children) region.x region.y region.width region.height) index =
      if screen.position index ∈ screen.screenRect.area ∧ ∃ region ∈ regions, screen.position index ∈ region.rect.area then
        (GraphicsTree.node screen children).layers.draw (screen.position index) (framebuffer index)
      else framebuffer index := by
  have stamp := (GraphicsTree.node screen children).layers.draw_stamp (GraphicsTree.layers_stamps _) (screen.position index)
  induction regions generalizing framebuffer with
  | nil => exact (if_neg fun ⟨_, _, isIn, _⟩ => List.not_mem_nil isIn).symm
  | cons region regions ih =>
      obtain ⟨columns, rows⟩ := small region List.mem_cons_self
      have once : _ = if screen.position index ∈ screen.screenRect.area ∧
        screen.position index ∈ region.rect.area then _ else _ :=
        redrawRegion_root addressed isScreen nested columns rows framebuffer index
      rw [List.flatMap_cons, afterAll_append, ih fun other isOther => small other (List.mem_cons_of_mem _ isOther), once]
      by_cases shown : screen.position index ∈ screen.screenRect.area
      · by_cases inFirst : screen.position index ∈ region.rect.area
        · rw [if_pos (And.intro shown inFirst), stamp.twice, ite_self, if_pos]
          exact ⟨shown, region, List.mem_cons_self, inFirst⟩
        · rw [if_neg (not_and_of_not_right _ inFirst)]
          refine if_congr (and_congr_right fun _ => ?_) rfl rfl
          rw [List.exists_mem_cons_iff, or_iff_right inFirst]
      · rw [if_neg (not_and_of_not_left _ shown), if_neg (not_and_of_not_left _ shown), if_neg (not_and_of_not_left _ shown)]

/-- The picture with one tree on top. -/
theorem draw_onTop (screen : GraphicsInfo) (rest : List GraphicsTree) (top : GraphicsTree) (q : Nat × Nat)
    (v : FramebufferPixel) :
    (GraphicsTree.node screen (rest ++ [top])).layers.draw q v =
      top.layers.draw q ((GraphicsTree.node screen rest).layers.draw q v) := by
  change drawAll (layersAll (rest ++ [top])) q _ = top.layers.draw q (drawAll (layersAll rest) q _)
  rw [layersAll_append, drawAll_append]
  rfl

/-- The picture without a tree that is clear. -/
theorem draw_without {own : GraphicsTree} {q : Nat × Nat} (clear : Clear (own.layers.draw q)) (screen : GraphicsInfo)
    (before after : List GraphicsTree) (v : FramebufferPixel) :
    (GraphicsTree.node screen (before ++ own :: after)).layers.draw q v =
      (GraphicsTree.node screen (before ++ after)).layers.draw q v := by
  change drawAll (layersAll (before ++ own :: after)) q _ = drawAll (layersAll (before ++ after)) q _
  rw [layersAll_append, layersAll_append, drawAll_append, drawAll_append]
  exact congrArg (drawAll (layersAll after) q) (clear _)

/-- A graphics draws nothing beside its rectangle. -/
theorem clear_outside {tree : GraphicsTree} {outer : Rect} (nested : tree.NestedIn outer) {q : Nat × Nat}
    (outside : q ∉ tree.info.rect.area) : Clear (tree.layers.draw q) := by
  rw [← tree.layers_area] at outside
  exact tree.layers.draw_outside nested.layers outside

theorem allNestedIn_append {first second : List GraphicsTree} {outer : Rect} :
    AllNestedIn (first ++ second) outer ↔ AllNestedIn first outer ∧ AllNestedIn second outer := by
  induction first with
  | nil => exact (true_and _).symm.to_iff
  | cons child children ih =>
      change child.NestedIn outer ∧ AllNestedIn (children ++ second) outer ↔ (child.NestedIn outer ∧ _) ∧ _
      rw [ih, and_assoc]

/-- What a move draws: the regions of the screen with the window on top, and then the window. -/
def moveAccesses (screen : GraphicsInfo) (rest : List GraphicsTree) (own moved : GraphicsTree) : List PixelAccess :=
  ((repaintRegions own.info.startingX own.info.startingY moved.info).flatMap fun region =>
    graphicsRedrawRegion screen (.node screen (rest ++ [moved])) region.x region.y region.width region.height) ++
      graphicsRedraw screen moved

section Move

variable (addressed : screen.Addressed) (isScreen : screen.IsScreen)
  (nested : AllNestedIn (before ++ own :: after) Rect.signedPlane)
  (target : (own.shift dx dy).info.rect.Within Rect.signedPlane)

include nested target

/-- The moved tree and the others are on the plane. -/
theorem moved_nested : own.NestedIn Rect.signedPlane ∧ (own.shift dx dy).NestedIn Rect.plane ∧
    AllNestedIn (before ++ after ++ [own.shift dx dy]) Rect.plane := by
  have widen : ∀ {trees : List GraphicsTree}, AllNestedIn trees Rect.signedPlane → AllNestedIn trees Rect.plane := by
    intro trees
    induction trees with
    | nil => exact id
    | cons tree trees ih =>
        intro both
        cases tree
        exact ⟨⟨both.1.1.trans Rect.signedPlane_within, both.1.2⟩, ih both.2⟩
  obtain ⟨nestedBefore, nestedOwn, nestedAfter⟩ := allNestedIn_append.mp nested
  have nestedMoved : (own.shift dx dy).NestedIn Rect.plane := own.shift_nestedIn nestedOwn Rect.signedPlane_within
    (target.trans Rect.signedPlane_within) ⟨le_rfl, le_rfl, le_rfl, le_rfl⟩
  exact ⟨nestedOwn, nestedMoved,
    allNestedIn_append.mpr ⟨allNestedIn_append.mpr ⟨widen nestedBefore, widen nestedAfter⟩, nestedMoved, trivial⟩⟩

include addressed isScreen

open Classical in
/-- **The framebuffer after a move**, at a position of the screen: where the window was and is not any more, the new picture;
elsewhere the old pixel. And the window over it. -/
theorem moveAccesses_after (framebuffer : Framebuffer) {index : Nat}
    (shown : screen.position index ∈ screen.screenRect.area) :
    framebuffer.afterAll screen (moveAccesses screen (before ++ after) own (own.shift dx dy)) index =
      (own.shift dx dy).layers.draw (screen.position index)
        (if screen.position index ∈ own.info.rect.area ∧ screen.position index ∉ (own.shift dx dy).info.rect.area then
          (GraphicsTree.node screen (before ++ after ++ [own.shift dx dy])).layers.draw (screen.position index)
            (framebuffer index)
        else framebuffer index) := by
  obtain ⟨nestedOwn, nestedMoved, nestedAll⟩ := moved_nested nested target
  have size : (own.shift dx dy).info.width = own.info.width ∧ (own.shift dx dy).info.height = own.info.height := by
    rw [GraphicsTree.shift, GraphicsTree.mapInfo_info]
    exact ⟨rfl, rfl⟩
  have uncovered := mem_repaintRegions_iff size.1 size.2 nestedOwn.within target (screen.position index)
  unfold moveAccesses
  rw [afterAll_append, redraw_after addressed _ (nestedMoved.onPlane ⟨le_rfl, le_rfl, le_rfl, le_rfl⟩), paintIn_of_mem shown,
    redrawRegions_after addressed isScreen nestedAll (repaintRegions_small size.1 size.2 nestedOwn.within target)]
  refine congrArg _ (if_congr ?_ rfl rfl)
  exact (and_iff_right shown).trans uncovered

/-- **The new picture is on the screen exactly when the move leaves no ghost.** -/
theorem moveAccesses_painted_iff {framebuffer : Framebuffer}
    (painted : framebuffer.afterAll screen (graphicsRedraw screen (.node screen (before ++ own :: after))) = framebuffer) :
    (framebuffer.afterAll screen (moveAccesses screen (before ++ after) own (own.shift dx dy))).afterAll screen
        (graphicsRedraw screen (.node screen (before ++ after ++ [own.shift dx dy]))) =
          framebuffer.afterAll screen (moveAccesses screen (before ++ after) own (own.shift dx dy)) ↔
      ∀ index, screen.position index ∈ screen.screenRect.area → screen.position index ∈ own.info.rect.area →
        screen.position index ∈ (own.shift dx dy).info.rect.area →
          Clear ((own.shift dx dy).layers.draw (screen.position index)) →
            (GraphicsTree.node screen (before ++ after)).layers.draw (screen.position index) (framebuffer index) =
              framebuffer index := by
  have ⟨nestedOwn, _, nestedAll⟩ := moved_nested nested target
  have onPlane : ∀ children, AllOnPlane children → (GraphicsTree.node screen children).OnPlane := fun children all =>
    ⟨isScreen.rect ▸ screen.screenRect_within, all⟩
  have wide : Rect.plane.Within Rect.plane := ⟨le_rfl, le_rfl, le_rfl, le_rfl⟩
  rw [funext_iff]
  refine forall_congr' fun index => ?_
  rw [redraw_after addressed _ (onPlane _ (allNestedIn_onPlane wide nestedAll))]
  by_cases shown : screen.position index ∈ screen.screenRect.area
  · have was := congrFun painted index
    rw [redraw_after addressed _ (onPlane _ (allNestedIn_onPlane Rect.signedPlane_within nested)), paintIn_of_mem shown] at was
    rw [paintIn_of_mem shown, moveAccesses_after addressed isScreen nested target framebuffer shown, draw_onTop, draw_onTop,
      imp_iff_right shown]
    have stampRest := (GraphicsTree.node screen (before ++ after)).layers.draw_stamp (GraphicsTree.layers_stamps _)
      (screen.position index)
    have stampMoved := (own.shift dx dy).layers.draw_stamp (GraphicsTree.layers_stamps _) (screen.position index)
    by_cases inOld : screen.position index ∈ own.info.rect.area
    · by_cases inNew : screen.position index ∈ (own.shift dx dy).info.rect.area
      · -- Old and new: the window is drawn over the old pixel.
        rw [if_neg fun both => both.2 inNew, imp_iff_right inOld, imp_iff_right inNew]
        exact repaint_iff stampMoved _
      · -- Uncovered: the new picture was drawn.
        rw [if_pos ⟨inOld, inNew⟩]
        exact iff_of_true (repainted stampRest stampMoved _) fun _ isIn => absurd isIn inNew
    · -- The window as it was did not draw here.
      rw [if_neg fun both => inOld both.1]
      rw [draw_without (clear_outside nestedOwn inOld)] at was
      exact iff_of_true ((repaint_iff stampMoved _).mpr fun _ => was) fun isIn => absurd isIn inOld
  · rw [paintIn_of_notMem shown]
    exact iff_of_true rfl fun isShown => absurd isShown shown

end Move

end Pixels

/-! ### The move -/

namespace WindowSystem

variable {ω ω' : WindowSystem} {window : Nat} {newX newY : BitVec 64} {framebuffer : Framebuffer}

/-- `graphics_redraw_all`. -/
def graphicsRedrawAll (ω : WindowSystem) : Option (List PixelAccess) :=
  (ω.store.picture ω.store.screen).map (graphicsRedraw ω.screenInfo)

/-- **The framebuffer is what `graphics_redraw_all` paints**: painting it again changes nothing. -/
def Painted (ω : WindowSystem) (framebuffer : Framebuffer) : Prop :=
  ∃ accesses, ω.graphicsRedrawAll = some accesses ∧ framebuffer.afterAll ω.screenInfo accesses = framebuffer

/-- `window_position_set`, with what it draws. -/
def windowPositionSetDrawn (fuel : Nat) (ω : WindowSystem) (window : Nat) (newX newY : BitVec 64) (framebuffer : Framebuffer) :
    Option (WindowSystem × Framebuffer) :=
  let oldScreenX := (ω.root window).startingX
  let oldScreenY := (ω.root window).startingY
  (ω.windowPositionSet fuel window newX newY).bind fun ω =>
    (ω.store.picture ω.store.screen).bind fun screen =>
      (ω.store.picture (ω.windows window).rootGraphics).map fun root =>
        let uncovered := (repaintRegions oldScreenX oldScreenY root.info).flatMap fun region =>
          graphicsRedrawRegion ω.screenInfo screen region.x region.y region.width region.height
        (ω, framebuffer.afterAll ω.screenInfo (uncovered ++ graphicsRedraw ω.screenInfo root))

/-- The root of a window at the position that `window_position_set` sets. -/
def movedRoot (ω : WindowSystem) (window : Nat) (newX newY : BitVec 64) : GraphicsInfo :=
  ω.rootAt window (windowPosition ω.screenInfo (ω.windows window) newX newY)

/-- **The screen with its windows**: the screen's graphics is as large as the screen and at the origin, its children and what
is below them are in their places, one inside the other, and sorted. -/
structure Laid (ω : WindowSystem) : Prop where
  linked : ω.store.Linked
  sorted : ω.store.SortedChildren
  placed : ω.store.AllPlaced
  addressed : ω.screenInfo.Addressed
  isScreen : ω.screenInfo.IsScreen
  nested : ∀ child ∈ (ω.store.nodes ω.store.screen).children, ∀ tree, ω.store.picture child = some tree →
    tree.NestedIn Rect.signedPlane
  zIndex : ∀ child ∈ (ω.store.nodes ω.store.screen).children, (ω.store.nodes child).zIndex.toNat < 2 ^ 32 - 1

/-- **The move leaves no ghost**: at a position of the old rectangle and of the new one where the moved window is clear, the
pixel is that of the other windows and the screen. -/
def NoGhost (ω : WindowSystem) (window : Nat) (newX newY : BitVec 64) (framebuffer : Framebuffer) : Prop :=
  ∀ own others, ω.store.picture (ω.windows window).rootGraphics = some own →
    ((ω.store.nodes ω.store.screen).children.erase (ω.windows window).rootGraphics).mapM ω.store.picture = some others →
      ∀ index, ω.screenInfo.position index ∈ ω.screenInfo.screenRect.area →
        ω.screenInfo.position index ∈ (ω.root window).rect.area →
          ω.screenInfo.position index ∈ (ω.movedRoot window newX newY).rect.area →
            Clear ((own.shift ((ω.movedRoot window newX newY).startingX - (ω.root window).startingX)
              ((ω.movedRoot window newX newY).startingY - (ω.root window).startingY)).layers.draw
                (ω.screenInfo.position index)) →
              (GraphicsTree.node ω.screenInfo others).layers.draw (ω.screenInfo.position index) (framebuffer index) =
                framebuffer index

/-- The displacement of a move takes the root to where it is placed. -/
theorem shift_movedRoot (ω : WindowSystem) (window : Nat) (newX newY : BitVec 64) :
    (ω.root window).shift ((ω.movedRoot window newX newY).startingX - (ω.root window).startingX)
      ((ω.movedRoot window newX newY).startingY - (ω.root window).startingY) = ω.movedRoot window newX newY := by
  unfold GraphicsInfo.shift
  rw [GraphicsInfo.mk.injEq]
  refine ⟨rfl, rfl, rfl, rfl, rfl, rfl, ?_, ?_, rfl⟩
  · rw [BitVec.add_comm, BitVec.sub_add_cancel]
  · rw [BitVec.add_comm, BitVec.sub_add_cancel]

/-- **The memory after a move**: the window is on top and shifted, the rest is as before. -/
theorem Laid.shiftedToTop (laid : ω.Laid) {fuel : Nat}
    (rootChild : (ω.windows window).rootGraphics ∈ (ω.store.nodes ω.store.screen).children)
    (done : ω.windowPositionSet fuel window newX newY = some ω') :
    ShiftedToTop ω.store (ω.windows window).rootGraphics ((ω.movedRoot window newX newY).startingX - (ω.root window).startingX)
      ((ω.movedRoot window newX newY).startingY - (ω.root window).startingY) ω'.store :=
  shiftedToTop_of_recalculated laid.linked laid.sorted laid.placed laid.isScreen.originX laid.isScreen.originY rootChild
    laid.zIndex (windowPositionSet_recalculated laid.linked
      (.inr (laid.linked.held_child laid.linked.screenLive rootChild)) done)

/-- **One move**: what it draws, and when that is the new picture. -/
theorem Laid.drawn (laid : ω.Laid) {fuel : Nat}
    (rootChild : (ω.windows window).rootGraphics ∈ (ω.store.nodes ω.store.screen).children)
    (target : (ω.movedRoot window newX newY).rect.Within Rect.signedPlane) (painted : ω.Painted framebuffer)
    (done : ω.windowPositionSet fuel window newX newY = some ω') :
    ∃ framebuffer', ω.windowPositionSetDrawn fuel window newX newY framebuffer = some (ω', framebuffer') ∧
      (ω'.Painted framebuffer' ↔ ω.NoGhost window newX newY framebuffer) := by
  have moved := laid.shiftedToTop rootChild done
  obtain ⟨before, own, after, foundOwn, ownInfo, foundRest, foundScreen, foundOwn', foundScreen'⟩ :=
    moved.pictures laid.linked rootChild
  have sameRoot : (ω'.windows window).rootGraphics = (ω.windows window).rootGraphics := by
    rw [(windowPositionSet_cases done).2.1, Function.update_self]
  have screenInfo : ω'.screenInfo = ω.screenInfo := by
    unfold WindowSystem.screenInfo
    rw [moved.screen, moved.screenInfo]
  have ownInfo : own.info = ω.root window := ownInfo
  have movedInfo : (own.shift ((ω.movedRoot window newX newY).startingX - (ω.root window).startingX)
      ((ω.movedRoot window newX newY).startingY - (ω.root window).startingY)).info = ω.movedRoot window newX newY := by
    rw [GraphicsTree.shift, GraphicsTree.mapInfo_info, ownInfo]
    exact ω.shift_movedRoot window newX newY
  -- The children are those of the picture.
  have nested : AllNestedIn (before ++ own :: after) Rect.signedPlane := by
    have foundOthers : ∀ (children : List Nat) (trees : List GraphicsTree), children.mapM ω.store.picture = some trees →
        (∀ child ∈ children, child ∈ (ω.store.nodes ω.store.screen).children) → AllNestedIn trees Rect.signedPlane := by
      intro children
      induction children with
      | nil =>
          intro trees found _
          obtain rfl := Option.some.inj found
          trivial
      | cons child children ih =>
          intro trees found areChildren
          rw [List.mapM_cons] at found
          obtain ⟨tree, first, rest⟩ := Option.bind_eq_some_iff.mp found
          obtain ⟨others, later, same⟩ := Option.bind_eq_some_iff.mp rest
          obtain rfl := Option.some.inj same
          exact ⟨laid.nested child (areChildren child List.mem_cons_self) tree first,
            ih others later fun other isOther => areChildren other (List.mem_cons_of_mem _ isOther)⟩
    have rest := foundOthers _ _ foundRest fun child isIn => List.mem_of_mem_erase isIn
    obtain ⟨nestedBefore, nestedAfter⟩ := allNestedIn_append.mp rest
    exact allNestedIn_append.mpr ⟨nestedBefore, laid.nested _ rootChild own foundOwn, nestedAfter⟩
  have was : framebuffer.afterAll ω.screenInfo
      (graphicsRedraw ω.screenInfo (.node ω.screenInfo (before ++ own :: after))) = framebuffer := by
    obtain ⟨accesses, isAll, same⟩ := painted
    unfold graphicsRedrawAll at isAll
    rw [foundScreen] at isAll
    obtain rfl := Option.some.inj isAll
    exact same
  have pixels := moveAccesses_painted_iff laid.addressed laid.isScreen nested (movedInfo.symm ▸ target) was
  refine ⟨framebuffer.afterAll ω.screenInfo (moveAccesses ω.screenInfo (before ++ after) own
    (own.shift ((ω.movedRoot window newX newY).startingX - (ω.root window).startingX)
      ((ω.movedRoot window newX newY).startingY - (ω.root window).startingY))), ?_, ?_⟩
  · unfold windowPositionSetDrawn moveAccesses
    dsimp only
    rw [done, Option.bind_some, foundScreen', Option.bind_some, sameRoot, foundOwn', screenInfo, ← ownInfo]
    rfl
  · unfold Painted graphicsRedrawAll
    rw [foundScreen', screenInfo]
    constructor
    · rintro ⟨accesses, isAll, same⟩ own' others foundOwn'' foundRest' index shown inOld inNew clear
      obtain rfl := Option.some.inj isAll
      obtain rfl := Option.some.inj (foundOwn.symm.trans foundOwn'')
      obtain rfl := Option.some.inj (foundRest.symm.trans foundRest')
      exact pixels.mp same index shown (ownInfo.symm ▸ inOld) (movedInfo.symm ▸ inNew) clear
    · intro noGhost
      refine ⟨_, rfl, pixels.mpr fun index shown inOld inNew clear => ?_⟩
      exact noGhost own _ foundOwn foundRest index shown (ownInfo ▸ inOld) (movedInfo ▸ inNew) clear

end WindowSystem

open WindowSystem

/-- A red pixel, and the color that is not drawn. -/
def redPixel : FramebufferPixel := ⟨0x00#8, 0x00#8, 0xff#8, 0x00#8⟩

def keyPixel : FramebufferPixel := ⟨0x00#8, 0xff#8, 0x00#8, 0x00#8⟩

/-- A line of four pixels with a graphics of two, of which the left one is not drawn. -/
def lineStore : GraphicsStore :=
  let created := ((graphicsSetup 0x1000 ⟨4, 1, 4, List.replicate 4 blackPixel, 0, 0, 0, 0, blackPixel⟩).graphicsInfoCreateRelative
    0x2000 0x1000 0 0 2 1 graphicsFlagDoNotCopyPixels).2
  let node := created.nodes 0x2000
  created.setNode 0x2000 { node with info := { node.info with pixels := [keyPixel, redPixel], transparencyKey := keyPixel } }

/-- A window with this graphics as its root. -/
def lineWindows : WindowSystem :=
  { tinyWindows lineStore with windows := fun _ => ⟨0x2000, 0, 0x2000, ⟨0, 0, 0, 0⟩, 2, 1, 0, 0, 0⟩ }

/-- What the line shows. -/
def lineFramebuffer : Framebuffer := Function.update (fun _ => blackPixel) 1 redPixel

theorem lineWindows_laid : lineWindows.Laid where
  linked := by
    have created := @Linked.create (graphicsSetup 0x1000 ⟨4, 1, 4, List.replicate 4 blackPixel, 0, 0, 0, 0, blackPixel⟩) 0x2000
      0x1000 (graphicsSetup_tree (by decide) _).toLinked (by decide) (by decide) 0 0 2 1 graphicsFlagDoNotCopyPixels
    refine created.sameLinks ⟨fun g => ?_, fun g => ?_, rfl, rfl⟩ <;> by_cases isIt : g = 0x2000
    · subst isIt
      rfl
    · exact congrArg GraphicsNode.parent (setNode_of_ne isIt _ _)
    · subst isIt
      exact List.Perm.refl _
    · exact (congrArg GraphicsNode.children (setNode_of_ne isIt _ _)).symm ▸ List.Perm.refl _
  sorted := by
    show ∀ g ∈ [0x2000, 0x1000], List.Pairwise _ (lineStore.nodes g).children
    decide
  placed := by
    show ∀ g ∈ [0x2000, 0x1000], g ≠ 0x1000 → Placed lineStore g
    intro g isIn notScreen
    obtain rfl : g = 0x2000 := by simpa [notScreen] using isIn
    exact ⟨by decide, by decide⟩
  addressed := ⟨by decide, by decide⟩
  isScreen := ⟨rfl, rfl, rfl, rfl⟩
  nested := by
    intro child isIn tree found
    obtain rfl := List.mem_singleton.mp isIn
    obtain rfl := Option.some.inj found
    exact ⟨⟨Nat.zero_le _, Nat.zero_le _, by decide, by decide⟩, trivial⟩
  zIndex := by decide

theorem lineWindows_painted : lineWindows.Painted lineFramebuffer := by
  refine ⟨_, rfl, funext fun index => ?_⟩
  rcases index with _ | _ | _ | _ | index <;> rfl

end PeachOS
