/-
**The picture of the graphics in memory.**

The tree that `graphics_redraw` and `graphics_redraw_region` go through, in two memories. A graphics that is moved with
all below it is a tree whose absolute positions are shifted.

* `treeOf_map` — the tree of a memory whose nodes have changed in one way;
* `GraphicsTree.shift_nestedIn` — a shifted tree is nested when its own rectangle does not wrap;
* `layers_stamps` — graphics stamp;
* `redrawRegion_root` — a region of the screen is redrawn as the whole screen is, also where windows hang over its edge.
-/

import PeachOS.Graphics.HitTest
import PeachOS.Lib.Repaint

namespace PeachOS

open Layers GraphicsStore

/-! ### Trees in memory -/

mutual

/-- A tree with other graphics. -/
def GraphicsTree.mapInfo (change : GraphicsInfo → GraphicsInfo) : GraphicsTree → GraphicsTree
  | .node g children => .node (change g) (mapInfoAll change children)

/-- The same for the children. -/
def mapInfoAll (change : GraphicsInfo → GraphicsInfo) : List GraphicsTree → List GraphicsTree
  | [] => []
  | child :: children => child.mapInfo change :: mapInfoAll change children

end

theorem mapInfoAll_eq (change : GraphicsInfo → GraphicsInfo) (children : List GraphicsTree) :
    mapInfoAll change children = children.map (GraphicsTree.mapInfo change) := by
  induction children with
  | nil => rfl
  | cons child children ih =>
      rw [mapInfoAll, ih]
      rfl

mutual

/-- Nothing changes. -/
theorem GraphicsTree.mapInfo_id : ∀ tree : GraphicsTree, tree.mapInfo id = tree
  | .node g children => by
      unfold GraphicsTree.mapInfo
      rw [mapInfoAll_id children]
      rfl

theorem mapInfoAll_id : ∀ children : List GraphicsTree, mapInfoAll id children = children
  | [] => rfl
  | child :: children => by
      unfold mapInfoAll
      rw [child.mapInfo_id, mapInfoAll_id children]

end

theorem GraphicsTree.mapInfo_info (change : GraphicsInfo → GraphicsInfo) (tree : GraphicsTree) :
    (tree.mapInfo change).info = change tree.info := by
  cases tree
  rfl

namespace GraphicsStore

variable {σ σ' : GraphicsStore}

theorem treeOf_succ (fuel : Nat) (σ : GraphicsStore) (g : Nat) :
    treeOf (fuel + 1) σ g = ((σ.nodes g).children.mapM (treeOf fuel σ)).map (.node (σ.nodes g).info) := rfl

/-- Children whose trees have changed in one way. -/
theorem mapM_map {find find' : Nat → Option GraphicsTree} {change : GraphicsTree → GraphicsTree} (children : List Nat)
    (each : ∀ child ∈ children, find' child = (find child).map change) :
    children.mapM find' = (children.mapM find).map (List.map change) := by
  induction children with
  | nil => rfl
  | cons child children ih =>
      rw [List.mapM_cons, List.mapM_cons, each child List.mem_cons_self,
        ih fun other isOther => each other (List.mem_cons_of_mem _ isOther)]
      cases find child with
      | none => rfl
      | some tree =>
          cases children.mapM find with
          | none => rfl
          | some trees => rfl

/-- **A memory whose nodes have changed in one way**, below a graphics. -/
theorem treeOf_map {change : GraphicsInfo → GraphicsInfo} {fuel top : Nat}
    (same : ∀ g, Below σ top g → (σ'.nodes g).children = (σ.nodes g).children ∧ (σ'.nodes g).info = change (σ.nodes g).info) :
    treeOf fuel σ' top = (treeOf fuel σ top).map (GraphicsTree.mapInfo change) := by
  induction fuel generalizing top with
  | zero => rfl
  | succ fuel ih =>
      obtain ⟨children, info⟩ := same top .self
      rw [treeOf_succ, treeOf_succ, children, info, mapM_map (σ.nodes top).children fun child isChild =>
        ih fun g below => same g (.trans (.child .self isChild) below)]
      cases (σ.nodes top).children.mapM (treeOf fuel σ) with
      | none => rfl
      | some trees =>
          show some _ = some _
          rw [GraphicsTree.mapInfo, mapInfoAll_eq]

/-- The same nodes are the same tree. -/
theorem treeOf_same {fuel top : Nat}
    (same : ∀ g, Below σ top g → (σ'.nodes g).children = (σ.nodes g).children ∧ (σ'.nodes g).info = (σ.nodes g).info) :
    treeOf fuel σ' top = treeOf fuel σ top := by
  rw [@treeOf_map σ σ' id fuel top same]
  cases treeOf fuel σ top with
  | none => rfl
  | some tree =>
      show some _ = some _
      rw [tree.mapInfo_id]

/-- The trees of some children. -/
theorem treesOf_returns {find : Nat → Option GraphicsTree} {children : List Nat}
    (each : ∀ child ∈ children, ∃ tree, find child = some tree) : ∃ trees, children.mapM find = some trees := by
  induction children with
  | nil => exact ⟨[], rfl⟩
  | cons child children rest =>
      obtain ⟨own, first⟩ := each child List.mem_cons_self
      obtain ⟨trees, later⟩ := rest fun other isOther => each other (List.mem_cons_of_mem _ isOther)
      exact ⟨own :: trees, by rw [List.mapM_cons, first, later]; rfl⟩

/-- There is a tree below a graphics that exists. -/
theorem treeOf_returns (linked : σ.Linked) {fuel g : Nat} (isLive : g ∈ σ.live) (enough : σ.live.idxOf g < fuel) :
    ∃ tree, treeOf fuel σ g = some tree ∧ tree.info = (σ.nodes g).info := by
  induction fuel generalizing g with
  | zero => exact absurd enough (Nat.not_lt_zero _)
  | succ fuel ih =>
      have each : ∀ child ∈ (σ.nodes g).children, ∃ tree, treeOf fuel σ child = some tree := by
        intro child isChild
        have lower := linked.rank isLive isChild
        obtain ⟨tree, found, -⟩ := ih (linked.child g isLive child isChild).1 (by omega)
        exact ⟨tree, found⟩
      obtain ⟨trees, found⟩ := treesOf_returns each
      exact ⟨_, Option.map_eq_some_iff.mpr ⟨trees, found, rfl⟩, rfl⟩

end GraphicsStore

/-! ### A shifted tree -/

/-- A graphics at another position of the screen. -/
def GraphicsInfo.shift (dx dy : BitVec 32) (g : GraphicsInfo) : GraphicsInfo :=
  { g with startingX := g.startingX + dx, startingY := g.startingY + dy }

/-- A tree at another position of the screen. -/
def GraphicsTree.shift (dx dy : BitVec 32) (tree : GraphicsTree) : GraphicsTree := tree.mapInfo (GraphicsInfo.shift dx dy)

section Shift

variable {dx dy : BitVec 32}

/-- A rectangle in another one stays in it when both are shifted, and the outer one does not wrap. -/
theorem shift_within {g outer : GraphicsInfo} (within : g.rect.Within outer.rect) (before : outer.rect.Within Rect.plane)
    (after : (outer.shift dx dy).rect.Within Rect.plane) : (g.shift dx dy).rect.Within (outer.shift dx dy).rect := by
  obtain ⟨left, top, right, bottom⟩ := within
  have rightBefore := before.right
  have bottomBefore := before.bottom
  have rightAfter := after.right
  have bottomAfter := after.bottom
  simp only [GraphicsInfo.rect, GraphicsInfo.shift, Rect.plane] at *
  constructor <;> dsimp only <;> bv_omega

mutual

/-- **A shifted tree is nested** when its own rectangle does not wrap. -/
theorem GraphicsTree.shift_nestedIn : ∀ {tree : GraphicsTree} {outer outer' : Rect}, tree.NestedIn outer →
    outer.Within Rect.plane → (tree.shift dx dy).info.rect.Within outer' → outer'.Within Rect.plane →
      (tree.shift dx dy).NestedIn outer'
  | .node _ _, _, _, nested, onPlane, placed, onPlane' =>
      ⟨placed, shiftAll_nestedIn nested.2 (nested.1.trans onPlane) (placed.trans onPlane')⟩

theorem shiftAll_nestedIn : ∀ {children : List GraphicsTree} {outer : GraphicsInfo}, AllNestedIn children outer.rect →
    outer.rect.Within Rect.plane → (outer.shift dx dy).rect.Within Rect.plane →
      AllNestedIn (mapInfoAll (GraphicsInfo.shift dx dy) children) (outer.shift dx dy).rect
  | [], _, _, _, _ => trivial
  | child :: _, outer, nested, before, after => by
      refine ⟨child.shift_nestedIn nested.1 before ?_ after, shiftAll_nestedIn nested.2 before after⟩
      rw [GraphicsTree.shift, GraphicsTree.mapInfo_info]
      exact shift_within nested.1.within before after

end

end Shift

/-! ### Layers -/

/-- A graphics leaves a position, or stamps its pixel. -/
theorem GraphicsInfo.paint_stamp (g : GraphicsInfo) (q : Nat × Nat) : Stamp (g.paint q) := by
  by_cases transparent : g.Transparent (.ofNat 32 q.1 - g.startingX) (.ofNat 32 q.2 - g.startingY)
  · exact Or.inl fun v => if_pos transparent
  · exact Or.inr ⟨_, fun v => if_neg transparent⟩

mutual

/-- **Graphics stamp.** -/
theorem GraphicsTree.layers_stamps : ∀ tree : GraphicsTree, tree.layers.Stamps
  | .node g children => ⟨g.paint_stamp, layersAll_stamp children⟩

theorem layersAll_stamp : ∀ children : List GraphicsTree, AllStamp (layersAll children)
  | [] => trivial
  | child :: children => ⟨child.layers_stamps, layersAll_stamp children⟩

end

theorem layersAll_append (first second : List GraphicsTree) :
    layersAll (first ++ second) = layersAll first ++ layersAll second := by
  induction first with
  | nil => rfl
  | cons child children ih =>
      show child.layers :: layersAll (children ++ second) = _
      rw [ih]
      rfl

/-- The children of the screen are nested on the plane, each of them in itself. -/
theorem layersAll_nestedIn_plane {children : List GraphicsTree} (nested : AllNestedIn children Rect.plane) :
    Layers.NestedIn (layersAll children) Rect.plane.area := layersAll_nested nested

/-- A graphics at the origin, as large as the screen. -/
structure GraphicsInfo.IsScreen (screen : GraphicsInfo) : Prop where
  width : screen.width = screen.horizontalResolution
  height : screen.height = screen.verticalResolution
  originX : screen.startingX = 0
  originY : screen.startingY = 0

theorem GraphicsInfo.IsScreen.rect {screen : GraphicsInfo} (isScreen : screen.IsScreen) : screen.rect = screen.screenRect := by
  unfold GraphicsInfo.rect GraphicsInfo.screenRect
  rw [isScreen.width, isScreen.height, isScreen.originX, isScreen.originY, Rect.mk.injEq]
  exact ⟨rfl, rfl, Nat.zero_add _, Nat.zero_add _⟩

open Classical in
/-- **A region of the screen is redrawn as the whole screen is**, and all else is unchanged. -/
theorem redrawRegion_root {screen : GraphicsInfo} (addressed : screen.Addressed) (isScreen : screen.IsScreen)
    {children : List GraphicsTree} (nested : AllNestedIn children Rect.plane) {x y width height : BitVec 32}
    (columns : x.toNat + width.toNat < 2 ^ 32) (rows : y.toNat + height.toNat < 2 ^ 32) (framebuffer : Framebuffer)
    (index : Nat) :
    framebuffer.afterAll screen (graphicsRedrawRegion screen (.node screen children) x y width height) index =
      if screen.position index ∈ screen.screenRect.area ∩ (Rect.mk x.toNat y.toNat (x.toNat + width.toNat)
          (y.toNat + height.toNat)).area then
        (GraphicsTree.node screen children).layers.draw (screen.position index) (framebuffer index)
      else framebuffer index := by
  have onPlane : (GraphicsTree.node screen children).OnPlane :=
    ⟨isScreen.rect ▸ screen.screenRect_within, allNestedIn_onPlane ⟨le_rfl, le_rfl, le_rfl, le_rfl⟩ nested⟩
  have clip : (GraphicsTree.node screen children).info.region x y width height =
      Rect.mk x.toNat y.toNat (x.toNat + width.toNat) (y.toNat + height.toNat) := by
    show screen.region x y width height = _
    unfold GraphicsInfo.region
    rw [isScreen.originX, isScreen.originY, Rect.mk.injEq]
    exact ⟨Nat.zero_add _, Nat.zero_add _, congrArg (· + _) (Nat.zero_add _), congrArg (· + _) (Nat.zero_add _)⟩
  rw [redrawRegion_after addressed _ onPlane columns rows, clip]
  by_cases shown : screen.position index ∈ screen.screenRect.area
  · rw [paintIn_of_mem shown]
    unfold GraphicsTree.layers
    rw [drawWithin_root (layersAll_nestedIn_plane nested), isScreen.rect]
    refine if_congr ?_ rfl rfl
    exact and_comm
  · rw [paintIn_of_notMem shown, if_neg fun inside => shown inside.1]

end PeachOS
