/-
**Redrawing a region is redrawing, in the region: `graphics_redraw_region`, `graphics_redraw`.**

A tree of graphics is a tree of layers over the positions of the screen. `graphics_redraw` is the plain painter of
these layers and `graphics_redraw_region` the clipped one, as far as the screen goes: a window may hang over its edge.

* `redraw_after`, `redrawRegion_after` — the two functions refine the two painters;
* `redrawRegion_refines` — a region is redrawn as the whole is, and all else is unchanged.
-/

import PeachOS.Graphics.Region
import PeachOS.Lib.Layers

namespace PeachOS

open Layers

/-! ### Rectangles -/

/-- A rectangle of the screen, without its right and bottom sides. -/
structure Rect where
  left : Nat
  top : Nat
  right : Nat
  bottom : Nat

/-- The positions in a rectangle. -/
def Rect.area (r : Rect) : Set (Nat × Nat) := { q | (r.left ≤ q.1 ∧ q.1 < r.right) ∧ r.top ≤ q.2 ∧ q.2 < r.bottom }

/-- One rectangle lies inside another one. -/
structure Rect.Within (inner outer : Rect) : Prop where
  left : outer.left ≤ inner.left
  top : outer.top ≤ inner.top
  right : inner.right ≤ outer.right
  bottom : inner.bottom ≤ outer.bottom

theorem Rect.Within.trans {r s t : Rect} (first : r.Within s) (second : s.Within t) : r.Within t :=
  ⟨second.left.trans first.left, second.top.trans first.top, first.right.trans second.right,
    first.bottom.trans second.bottom⟩

theorem Rect.Within.area {inner outer : Rect} (within : inner.Within outer) : inner.area ⊆ outer.area :=
  fun _ found => ⟨⟨within.left.trans found.1.1, found.1.2.trans_le within.right⟩,
    within.top.trans found.2.1, found.2.2.trans_le within.bottom⟩

/-- The positions that a `uint32_t` has room for. A window may hang over the edge of the screen. -/
def Rect.plane : Rect := ⟨0, 0, 2 ^ 32 - 1, 2 ^ 32 - 1⟩

namespace GraphicsInfo

/-- The absolute rectangle of a graphics. -/
def rect (g : GraphicsInfo) : Rect where
  left := g.startingX.toNat
  top := g.startingY.toNat
  right := g.startingX.toNat + g.width.toNat
  bottom := g.startingY.toNat + g.height.toNat

/-- The absolute rectangle of a region. -/
def region (g : GraphicsInfo) (localX localY width height : BitVec 32) : Rect where
  left := g.startingX.toNat + localX.toNat
  top := g.startingY.toNat + localY.toNat
  right := g.startingX.toNat + localX.toNat + width.toNat
  bottom := g.startingY.toNat + localY.toNat + height.toNat

/-- The rectangle of the screen. -/
def screenRect (screen : GraphicsInfo) : Rect := ⟨0, 0, screen.horizontalResolution.toNat, screen.verticalResolution.toNat⟩

/-- The screen lies on the plane. -/
theorem screenRect_within (screen : GraphicsInfo) : screen.screenRect.Within Rect.plane where
  left := Nat.zero_le _
  top := Nat.zero_le _
  right := Nat.le_sub_one_of_lt screen.horizontalResolution.isLt
  bottom := Nat.le_sub_one_of_lt screen.verticalResolution.isLt

/-- What a graphics shows at a position, over what is there. -/
def paint (g : GraphicsInfo) (q : Nat × Nat) (old : FramebufferPixel) : FramebufferPixel :=
  let x := .ofNat 32 q.1 - g.startingX
  let y := .ofNat 32 q.2 - g.startingY
  if g.Transparent x y then old else g.pixelAt (g.pixelIndex x y)

/-- **The framebuffer of a screen**: its lines do not overlap, and an index does not wrap. -/
structure Addressed (screen : GraphicsInfo) : Prop where
  wide : screen.horizontalResolution.toNat ≤ screen.pixelsPerScanline.toNat
  indexed : screen.verticalResolution.toNat * screen.pixelsPerScanline.toNat ≤ 2 ^ 32

/-- The position of an index of the framebuffer. -/
def position (screen : GraphicsInfo) (index : Nat) : Nat × Nat :=
  (index % screen.pixelsPerScanline.toNat, index / screen.pixelsPerScanline.toNat)

end GraphicsInfo

mutual

/-- The layers of a tree. -/
def GraphicsTree.layers : GraphicsTree → Layer (Nat × Nat) FramebufferPixel
  | .node g children => .node g.rect.area g.paint (layersAll children)

/-- The layers of the children. -/
def layersAll : List GraphicsTree → List (Layer (Nat × Nat) FramebufferPixel)
  | [] => []
  | child :: children => child.layers :: layersAll children

end

mutual

/-- The rectangle of a tree lies inside another one, and that of each child inside its parent's. -/
def GraphicsTree.NestedIn : GraphicsTree → Rect → Prop
  | .node g children, outer => g.rect.Within outer ∧ AllNestedIn children g.rect

/-- The same for the children. -/
def AllNestedIn : List GraphicsTree → Rect → Prop
  | [], _ => True
  | child :: children, outer => child.NestedIn outer ∧ AllNestedIn children outer

end

mutual

/-- Every rectangle of a tree lies on the plane. -/
def GraphicsTree.OnPlane : GraphicsTree → Prop
  | .node g children => g.rect.Within Rect.plane ∧ AllOnPlane children

/-- The same for the children. -/
def AllOnPlane : List GraphicsTree → Prop
  | [] => True
  | child :: children => child.OnPlane ∧ AllOnPlane children

end

/-- A tree is part of another one: the tree itself, or a part of a child. -/
inductive GraphicsTree.IsIn (tree : GraphicsTree) : GraphicsTree → Prop where
  | self : IsIn tree tree
  | child {g : GraphicsInfo} {children : List GraphicsTree} {c : GraphicsTree} (isChild : c ∈ children)
      (isIn : IsIn tree c) : IsIn tree (.node g children)

theorem GraphicsTree.layers_area (tree : GraphicsTree) : tree.layers.area = tree.info.rect.area := by
  cases tree
  rfl

theorem GraphicsTree.NestedIn.within {tree : GraphicsTree} {outer : Rect} (nested : tree.NestedIn outer) :
    tree.info.rect.Within outer := by
  cases tree
  exact nested.1

theorem AllNestedIn.of_mem {children : List GraphicsTree} {outer : Rect} (nested : AllNestedIn children outer)
    {c : GraphicsTree} (isChild : c ∈ children) : c.NestedIn outer := by
  induction children with
  | nil => exact absurd isChild List.not_mem_nil
  | cons child children ih =>
      rcases List.mem_cons.mp isChild with rfl | isChild
      · exact nested.1
      · exact ih nested.2 isChild

/-- A part of a nested tree is nested, inside the rectangle the tree is in. -/
theorem GraphicsTree.IsIn.nested {tree root : GraphicsTree} (isIn : tree.IsIn root) {outer : Rect}
    (nested : root.NestedIn outer) : ∃ inner, inner.Within outer ∧ tree.NestedIn inner := by
  induction isIn generalizing outer with
  | self => exact ⟨outer, ⟨le_rfl, le_rfl, le_rfl, le_rfl⟩, nested⟩
  | child isChild _ ih =>
      obtain ⟨inner, within, nestedIn⟩ := ih (nested.2.of_mem isChild)
      exact ⟨inner, within.trans nested.1, nestedIn⟩

mutual

/-- Nested graphics are nested layers. -/
theorem GraphicsTree.NestedIn.layers {outer : Rect} : ∀ {tree : GraphicsTree}, tree.NestedIn outer → tree.layers.Nested
  | .node _ _, nested => layersAll_nested nested.2

theorem layersAll_nested {outer : Rect} : ∀ {children : List GraphicsTree}, AllNestedIn children outer →
    Layers.NestedIn (layersAll children) outer.area
  | [], _ => trivial
  | child :: _, nested => ⟨child.layers_area ▸ nested.1.within.area, nested.1.layers, layersAll_nested nested.2⟩

end

mutual

/-- Graphics that are nested on the plane are on the plane. -/
theorem GraphicsTree.NestedIn.onPlane {outer : Rect} (onPlane : outer.Within Rect.plane) :
    ∀ {tree : GraphicsTree}, tree.NestedIn outer → tree.OnPlane
  | .node _ _, nested => ⟨nested.1.trans onPlane, allNestedIn_onPlane (nested.1.trans onPlane) nested.2⟩

theorem allNestedIn_onPlane {outer : Rect} (onPlane : outer.Within Rect.plane) :
    ∀ {children : List GraphicsTree}, AllNestedIn children outer → AllOnPlane children
  | [], _ => trivial
  | _ :: _, nested => ⟨nested.1.onPlane onPlane, allNestedIn_onPlane onPlane nested.2⟩

end

theorem GraphicsTree.OnPlane.within {tree : GraphicsTree} (onPlane : tree.OnPlane) : tree.info.rect.Within Rect.plane := by
  cases tree
  exact onPlane.1

/-! ### The framebuffer after a list of accesses -/

section After

variable {screen : GraphicsInfo}

theorem afterAll_append (framebuffer : Framebuffer) (first second : List PixelAccess) :
    framebuffer.afterAll screen (first ++ second) = (framebuffer.afterAll screen first).afterAll screen second :=
  List.foldl_append

/-- An index that is not written keeps its pixel. -/
theorem afterAll_unwritten {accesses : List PixelAccess} {index : Nat} (framebuffer : Framebuffer)
    (unwritten : ∀ x y p, .write x y p ∈ accesses → framebufferIndex screen x y ≠ index) :
    framebuffer.afterAll screen accesses index = framebuffer index := by
  induction accesses generalizing framebuffer with
  | nil => rfl
  | cons access accesses ih =>
      have others := ih (framebuffer.after screen access) fun x y p found => unwritten x y p (List.mem_cons_of_mem _ found)
      refine others.trans ?_
      cases access with
      | read g _ => rfl
      | write x y p => exact Function.update_of_ne (unwritten x y p List.mem_cons_self).symm _ _

/-- An index that is written with one pixel only has that pixel. -/
theorem afterAll_written {accesses : List PixelAccess} {index : Nat} {p : FramebufferPixel} (framebuffer : Framebuffer)
    (written : ∃ x y, .write x y p ∈ accesses ∧ framebufferIndex screen x y = index)
    (only : ∀ x y p', .write x y p' ∈ accesses → framebufferIndex screen x y = index → p' = p) :
    framebuffer.afterAll screen accesses index = p := by
  induction accesses generalizing framebuffer with
  | nil =>
      obtain ⟨x, y, found, _⟩ := written
      exact absurd found List.not_mem_nil
  | cons access accesses ih =>
      change (framebuffer.after screen access).afterAll screen accesses index = p
      by_cases later : ∃ x y, .write x y p ∈ accesses ∧ framebufferIndex screen x y = index
      · exact ih _ later fun x y p' found => only x y p' (List.mem_cons_of_mem _ found)
      · obtain ⟨x, y, found, same⟩ := written
        have now : access = .write x y p := by
          rcases List.mem_cons.mp found with now | found
          · exact now.symm
          · exact absurd ⟨x, y, found, same⟩ later
        rw [afterAll_unwritten]
        · rw [now, ← same]
          exact Function.update_self _ _ _
        · intro x' y' p' found' same'
          obtain rfl := only x' y' p' (List.mem_cons_of_mem _ found') same'
          exact later ⟨x', y', found', same'⟩

/-- **A position of the screen has one index.** -/
theorem framebufferIndex_iff (addressed : screen.Addressed) {x y : BitVec 32} (column : x < screen.horizontalResolution)
    (row : y < screen.verticalResolution) {index : Nat} :
    framebufferIndex screen x y = index ↔ screen.position index = (x.toNat, y.toNat) := by
  have columnNat : x.toNat < screen.pixelsPerScanline.toNat := Nat.lt_of_lt_of_le column addressed.wide
  have rowNat : y.toNat + 1 ≤ screen.verticalResolution.toNat := row
  have below : y.toNat * screen.pixelsPerScanline.toNat + x.toNat < 2 ^ 32 :=
    calc _ < (y.toNat + 1) * screen.pixelsPerScanline.toNat := by
          rw [Nat.add_mul, Nat.one_mul]
          exact Nat.add_lt_add_left columnNat _
      _ ≤ screen.verticalResolution.toNat * screen.pixelsPerScanline.toNat := Nat.mul_le_mul_right _ rowNat
      _ ≤ 2 ^ 32 := addressed.indexed
  have noWrap : framebufferIndex screen x y = y.toNat * screen.pixelsPerScanline.toNat + x.toNat := by
    unfold framebufferIndex
    rw [BitVec.toNat_add, BitVec.toNat_mul, Nat.mod_add_mod, Nat.mod_eq_of_lt below]
  rw [noWrap, GraphicsInfo.position, Prod.mk.injEq]
  constructor
  · rintro rfl
    refine ⟨by rw [Nat.mul_add_mod', Nat.mod_eq_of_lt columnNat], ?_⟩
    rw [Nat.add_comm, Nat.add_mul_div_right _ _ (by omega), Nat.div_eq_of_lt columnNat, Nat.zero_add]
  · rintro ⟨inLine, line⟩
    rw [← inLine, ← line, Nat.mul_comm]
    exact Nat.div_add_mod _ _

end After

/-! ### One paste -/

section Paste

variable {screen g : GraphicsInfo} {srcX srcY width height : BitVec 32}

/-- The sides of a region on the plane are sums that do not wrap. -/
theorem sizeFits_of_within (columns : srcX.toNat + width.toNat ≤ g.width.toNat)
    (rows : srcY.toNat + height.toNat ≤ g.height.toNat) (onPlane : g.rect.Within Rect.plane) :
    SizeFits g.width srcX width g.startingX ∧ SizeFits g.height srcY height g.startingY := by
  have right := onPlane.right
  have bottom := onPlane.bottom
  simp only [GraphicsInfo.rect, Rect.plane] at right bottom
  exact ⟨⟨columns, by omega⟩, ⟨rows, by omega⟩⟩

section Side

variable {edge limit src size start : BitVec 32} (fits : SizeFits limit src size start)

include fits

/-- A place of one side that is pasted is on the side and before the edge, and is read from behind the start. -/
theorem onSide_of_pasted (onScreen : start + src < edge) {k : Nat}
    (pasted : k < (pastedExtent edge limit src size (start + src)).toNat) :
    ((start.toNat + src.toNat ≤ (start + src + .ofNat 32 k).toNat ∧
        (start + src + .ofNat 32 k).toNat < start.toNat + src.toNat + size.toNat) ∧
      0 ≤ (start + src + .ofNat 32 k).toNat ∧ (start + src + .ofNat 32 k).toNat < edge.toNat) ∧
      start + src + .ofNat 32 k - start = src + .ofNat 32 k := by
  rw [fits.pastedExtent onScreen] at pasted
  have placed := fits.placed
  have low : (start + src).toNat = start.toNat + src.toNat := BitVec.toNat_add_of_lt (by omega)
  have place : (start + src + .ofNat 32 k).toNat = start.toNat + src.toNat + k := by
    rw [BitVec.toNat_add, BitVec.toNat_ofNat, low, Nat.add_mod_mod, Nat.mod_eq_of_lt (by omega)]
  rw [place]
  refine ⟨⟨⟨by omega, by omega⟩, by omega, by omega⟩, ?_⟩
  rw [BitVec.add_assoc, BitVec.add_comm, BitVec.add_sub_cancel]

/-- A place on the side and before the edge is pasted. -/
theorem pasted_of_onSide {x : BitVec 32}
    (onSide : start.toNat + src.toNat ≤ x.toNat ∧ x.toNat < start.toNat + src.toNat + size.toNat)
    (before_ : x.toNat < edge.toNat) : start + src < edge ∧ ∃ k < (pastedExtent edge limit src size (start + src)).toNat,
      start + src + .ofNat 32 k = x ∧ src + .ofNat 32 k = x - start := by
  have placed := fits.placed
  have low : (start + src).toNat = start.toNat + src.toNat := BitVec.toNat_add_of_lt (by omega)
  have onScreen : start + src < edge := BitVec.lt_def.mpr (by omega)
  have place : start + src + .ofNat 32 (x.toNat - (start.toNat + src.toNat)) = x := by
    apply BitVec.eq_of_toNat_eq
    rw [BitVec.toNat_add, BitVec.toNat_ofNat, low, Nat.add_mod_mod, Nat.add_sub_cancel' onSide.1, Nat.mod_eq_of_lt x.isLt]
  refine ⟨onScreen, x.toNat - (start.toNat + src.toNat), ?_, place, ?_⟩
  · rw [fits.pastedExtent onScreen]
    omega
  · rw [BitVec.eq_sub_iff_add_eq, BitVec.add_comm, ← BitVec.add_assoc, place]

end Side

variable (columns : SizeFits g.width srcX width g.startingX) (rows : SizeFits g.height srcY height g.startingY)

include columns rows

/-- **The writes of a paste**: the pixels of the region that are on the screen and not transparent. -/
theorem write_mem_paste_iff {x y : BitVec 32} {p : FramebufferPixel} :
    .write x y p ∈ graphicsPastePixelsToFramebuffer screen g srcX srcY width height (g.startingX + srcX)
        (g.startingY + srcY) ↔
      (x.toNat, y.toNat) ∈ (g.region srcX srcY width height).area ∩ screen.screenRect.area ∧
        ¬ g.Transparent (x - g.startingX) (y - g.startingY) ∧
          p = g.pixelAt (g.pixelIndex (x - g.startingX) (y - g.startingY)) := by
  rw [mem_paste_iff]
  constructor
  · rintro ⟨⟨onScreenX, onScreenY⟩, ly, below, lx, before, pasted⟩
    obtain ⟨⟨sideX, edgeX⟩, sourceX⟩ := onSide_of_pasted columns onScreenX before
    obtain ⟨⟨sideY, edgeY⟩, sourceY⟩ := onSide_of_pasted rows onScreenY below
    have written := (List.mem_cons.mp pasted).resolve_left PixelAccess.noConfusion
    split at written
    · exact absurd written List.not_mem_nil
    · rename_i drawn
      obtain ⟨rfl, rfl, rfl⟩ := PixelAccess.write.inj (List.mem_singleton.mp written)
      rw [sourceX, sourceY]
      exact ⟨⟨⟨sideX, sideY⟩, edgeX, edgeY⟩, drawn, rfl⟩
  · rintro ⟨⟨⟨sideX, sideY⟩, ⟨_, right⟩, _, bottom⟩, drawn, rfl⟩
    obtain ⟨onScreenX, lx, before, placeX, sourceX⟩ := pasted_of_onSide columns sideX right
    obtain ⟨onScreenY, ly, below, placeY, sourceY⟩ := pasted_of_onSide rows sideY bottom
    refine ⟨⟨onScreenX, onScreenY⟩, ly, below, lx, before, ?_⟩
    rw [placeX, placeY, sourceX, sourceY]
    unfold pastePixel
    refine List.mem_cons_of_mem _ ?_
    rw [if_neg drawn]
    exact List.mem_singleton_self _

/-- **The framebuffer after a paste**: what is on the screen of the region is painted. -/
theorem paste_after (addressed : screen.Addressed) (framebuffer : Framebuffer) (index : Nat) :
    framebuffer.afterAll screen (graphicsPastePixelsToFramebuffer screen g srcX srcY width height
        (g.startingX + srcX) (g.startingY + srcY)) index =
      paintIn screen.screenRect.area (paintIn (g.region srcX srcY width height).area g.paint) (screen.position index)
        (framebuffer index) := by
  have writes {x y : BitVec 32} {p : FramebufferPixel} :=
    @write_mem_paste_iff screen g srcX srcY width height columns rows x y p
  have placed {x y : BitVec 32} (onScreen : (x.toNat, y.toNat) ∈ screen.screenRect.area) :
      framebufferIndex screen x y = index ↔ screen.position index = (x.toNat, y.toNat) :=
    framebufferIndex_iff addressed onScreen.1.2 onScreen.2.2
  by_cases inside : screen.position index ∈ (g.region srcX srcY width height).area ∩ screen.screenRect.area
  · have limits := inside.2
    have limitX := screen.horizontalResolution.isLt
    have limitY := screen.verticalResolution.isLt
    have column : (screen.position index).1 < 2 ^ 32 := limits.1.2.trans limitX
    have row : (screen.position index).2 < 2 ^ 32 := limits.2.2.trans limitY
    have exact : screen.position index = ((BitVec.ofNat 32 (screen.position index).1).toNat,
        (BitVec.ofNat 32 (screen.position index).2).toNat) := by
      rw [BitVec.toNat_ofNat, BitVec.toNat_ofNat, Nat.mod_eq_of_lt column, Nat.mod_eq_of_lt row]
    rw [paintIn_of_mem inside.2, paintIn_of_mem inside.1, GraphicsInfo.paint]
    have same {x y : BitVec 32} (found : screen.position index = (x.toNat, y.toNat)) :
        x = .ofNat 32 (screen.position index).1 ∧ y = .ofNat 32 (screen.position index).2 := by
      rw [found, BitVec.ofNat_toNat, BitVec.ofNat_toNat, BitVec.setWidth_eq, BitVec.setWidth_eq]
      exact ⟨rfl, rfl⟩
    split
    · rename_i transparent
      refine afterAll_unwritten framebuffer fun x y p found => ?_
      obtain ⟨within, drawn, _⟩ := writes.mp found
      rw [Ne, placed within.2]
      intro isHere
      obtain ⟨rfl, rfl⟩ := same isHere
      exact drawn transparent
    · rename_i drawn
      have within := inside
      rw [exact] at within
      refine afterAll_written framebuffer ⟨_, _, writes.mpr ⟨within, drawn, rfl⟩, (placed within.2).mpr exact⟩ ?_
      intro x y p found isHere
      obtain ⟨within, _, pixel⟩ := writes.mp found
      obtain ⟨rfl, rfl⟩ := same ((placed within.2).mp isHere)
      exact pixel
  · have unpainted : paintIn screen.screenRect.area (paintIn (g.region srcX srcY width height).area g.paint)
        (screen.position index) (framebuffer index) = framebuffer index := by
      by_cases onScreen : screen.position index ∈ screen.screenRect.area
      · rw [paintIn_of_mem onScreen, paintIn_of_notMem fun inRegion => inside ⟨inRegion, onScreen⟩]
      · rw [paintIn_of_notMem onScreen]
    rw [unpainted]
    refine afterAll_unwritten framebuffer fun x y p found isHere => inside ?_
    obtain ⟨within, _⟩ := writes.mp found
    rw [(placed within.2).mp isHere]
    exact within

end Paste

/-! ### Regions -/

/-- **A region that is clipped to its graphics** is the part of the region that lies in the graphics. -/
theorem region_clip {g : GraphicsInfo} {localX localY width height : BitVec 32}
    (columns : localX.toNat + width.toNat < 2 ^ 32) (rows : localY.toNat + height.toNat < 2 ^ 32)
    (left : localX < g.width) (top : localY < g.height) :
    (g.region localX localY (regionSize g.width localX width) (regionSize g.height localY height)).area =
      (g.region localX localY width height).area ∩ g.rect.area := by
  have clipped {limit first size : BitVec 32} (noWrap : first.toNat + size.toNat < 2 ^ 32) (inside : first < limit) :
      first.toNat + (regionSize limit first size).toNat = min (first.toNat + size.toNat) limit.toNat := by
    unfold regionSize
    split <;> bv_omega
  have right := clipped columns left
  have bottom := clipped rows top
  ext ⟨x, y⟩
  simp only [Rect.area, GraphicsInfo.region, GraphicsInfo.rect, Set.mem_inter_iff, Set.mem_ofPred_eq]
  omega

section Side

variable {start extent first last : BitVec 32} (noWrap : start.toNat + extent.toNat < 2 ^ 32)

include noWrap

/-- One side of an intersection. -/
theorem side_intersection (meets : minOf (start + extent) last > maxOf start first) (x : Nat) :
    (start.toNat + (maxOf start first - start).toNat ≤ x ∧
        x < start.toNat + (maxOf start first - start).toNat +
          (minOf (start + extent) last - maxOf start first).toNat) ↔
      (first.toNat ≤ x ∧ x < last.toNat) ∧ start.toNat ≤ x ∧ x < start.toNat + extent.toNat := by
  have right : (minOf (start + extent) last).toNat = min (start.toNat + extent.toNat) last.toNat := by
    unfold minOf
    split <;> bv_omega
  have left : (maxOf start first).toNat = max start.toNat first.toNat := by
    unfold maxOf
    split <;> bv_omega
  have order : (maxOf start first).toNat < (minOf (start + extent) last).toNat := meets
  have offset : start.toNat + (maxOf start first - start).toNat = max start.toNat first.toNat := by
    rw [BitVec.toNat_sub_of_le (BitVec.le_def.mpr (by omega)), left]
    omega
  have size : (minOf (start + extent) last - maxOf start first).toNat =
      min (start.toNat + extent.toNat) last.toNat - max start.toNat first.toNat := by
    rw [BitVec.toNat_sub_of_le (BitVec.le_def.mpr order.le), left, right]
  rw [offset, size]
  omega

/-- Sides that do not meet have no place in common. -/
theorem side_disjoint (beside : ¬ minOf (start + extent) last > maxOf start first) (x : Nat) :
    ¬ ((first.toNat ≤ x ∧ x < last.toNat) ∧ start.toNat ≤ x ∧ x < start.toNat + extent.toNat) := by
  unfold minOf maxOf at beside
  split at beside <;> split at beside <;> bv_omega

end Side

section Intersection

variable {child : GraphicsInfo} {left top right bottom : BitVec 32}
  (childRight : child.startingX.toNat + child.width.toNat < 2 ^ 32)
  (childBottom : child.startingY.toNat + child.height.toNat < 2 ^ 32)

include childRight childBottom

/-- The intersection of a child with a region, as a region of the child. -/
theorem region_intersection (meetsX : minOf (child.startingX + child.width) right > maxOf child.startingX left)
    (meetsY : minOf (child.startingY + child.height) bottom > maxOf child.startingY top) :
    (child.region (maxOf child.startingX left - child.startingX) (maxOf child.startingY top - child.startingY)
        (minOf (child.startingX + child.width) right - maxOf child.startingX left)
        (minOf (child.startingY + child.height) bottom - maxOf child.startingY top)).area =
      (Rect.mk left.toNat top.toNat right.toNat bottom.toNat).area ∩ child.rect.area := by
  ext ⟨x, y⟩
  exact (and_congr (side_intersection childRight meetsX x) (side_intersection childBottom meetsY y)).trans and_and_and_comm

/-- A region that does not meet a child. -/
theorem region_disjoint (beside : ¬ (minOf (child.startingX + child.width) right > maxOf child.startingX left ∧
      minOf (child.startingY + child.height) bottom > maxOf child.startingY top)) :
    (Rect.mk left.toNat top.toNat right.toNat bottom.toNat).area ∩ child.rect.area = ∅ := by
  refine Set.eq_empty_of_forall_notMem ?_
  rintro ⟨x, y⟩ ⟨inRegion, inChild⟩
  rcases not_and_or.mp beside with beside | beside
  · exact side_disjoint childRight beside x ⟨inRegion.1, inChild.1⟩
  · exact side_disjoint childBottom beside y ⟨inRegion.2, inChild.2⟩

end Intersection

/-! ### The two painters -/

section Painters

variable {screen : GraphicsInfo}

/-- `graphics_redraw_only` paints the area of the graphics. -/
theorem redrawOnly_after (addressed : screen.Addressed) {g : GraphicsInfo} (onPlane : g.rect.Within Rect.plane)
    (framebuffer : Framebuffer) (index : Nat) :
    framebuffer.afterAll screen (graphicsRedrawOnly screen g) index =
      paintIn screen.screenRect.area (paintIn g.rect.area g.paint) (screen.position index) (framebuffer index) := by
  obtain ⟨columns, rows⟩ : SizeFits g.width 0 g.width g.startingX ∧ SizeFits g.height 0 g.height g.startingY :=
    sizeFits_of_within (Nat.zero_add _).le (Nat.zero_add _).le onPlane
  have paste := paste_after columns rows addressed framebuffer index
  rw [show g.startingX + 0 = g.startingX from BitVec.add_zero _,
    show g.startingY + 0 = g.startingY from BitVec.add_zero _] at paste
  exact paste

mutual

/-- **`graphics_redraw` is the plain painter**, on the screen. -/
theorem redraw_after (addressed : screen.Addressed) : ∀ (tree : GraphicsTree), tree.OnPlane →
    ∀ (framebuffer : Framebuffer) (index : Nat),
      framebuffer.afterAll screen (graphicsRedraw screen tree) index =
        paintIn screen.screenRect.area tree.layers.draw (screen.position index) (framebuffer index)
  | .node g children, onPlane, framebuffer, index => by
      unfold graphicsRedraw GraphicsTree.layers
      rw [afterAll_append, redrawChildren_after addressed children onPlane.2, redrawOnly_after addressed onPlane.1,
        paintIn_paintIn]
      rfl

/-- `graphics_redraw_children` paints one layer after the other. -/
theorem redrawChildren_after (addressed : screen.Addressed) : ∀ (children : List GraphicsTree), AllOnPlane children →
    ∀ (framebuffer : Framebuffer) (index : Nat),
      framebuffer.afterAll screen (graphicsRedrawChildren screen children) index =
        paintIn screen.screenRect.area (drawAll (layersAll children)) (screen.position index) (framebuffer index)
  | [], _, _, _ => (ite_self _).symm
  | child :: children, onPlane, framebuffer, index => by
      unfold graphicsRedrawChildren layersAll
      rw [afterAll_append, redrawChildren_after addressed children onPlane.2, redraw_after addressed child onPlane.1,
        paintIn_paintIn]
      rfl

end

mutual

/-- **`graphics_redraw_region` is the clipped painter**, on the screen, for a region that does not wrap. -/
theorem redrawRegion_after (addressed : screen.Addressed) : ∀ (tree : GraphicsTree), tree.OnPlane →
    ∀ {localX localY width height : BitVec 32},
      localX.toNat + width.toNat < 2 ^ 32 → localY.toNat + height.toNat < 2 ^ 32 →
        ∀ (framebuffer : Framebuffer) (index : Nat),
          framebuffer.afterAll screen (graphicsRedrawRegion screen tree localX localY width height) index =
            paintIn screen.screenRect.area
              (tree.layers.drawWithin (tree.info.region localX localY width height).area) (screen.position index)
              (framebuffer index)
  | .node g children, onPlane, localX, localY, width, height, columns, rows, framebuffer, index => by
      unfold graphicsRedrawRegion
      by_cases behind : localX ≥ g.width ∨ localY ≥ g.height
      · have beside : (g.region localX localY width height).area ∩ g.rect.area = ∅ := by
          refine Set.eq_empty_of_forall_notMem ?_
          rintro ⟨x, y⟩ ⟨⟨⟨left, _⟩, top, _⟩, ⟨_, before⟩, _, below⟩
          simp only [GraphicsInfo.region, GraphicsInfo.rect] at left before top below
          rcases behind with behind | behind <;> bv_omega
        have nothing : (GraphicsTree.node g children).layers.drawWithin (g.region localX localY width height).area =
            fun _ v => v := by
          funext p v
          exact Layer.drawWithin_of_disjoint _ beside p v
        rw [if_pos behind]
        show framebuffer index = paintIn _ (Layer.drawWithin _ _) _ _
        rw [show (GraphicsTree.node g children).info = g from rfl, nothing]
        exact (ite_self _).symm
      · have left : localX < g.width := by bv_omega
        have top : localY < g.height := by bv_omega
        have right := onPlane.1.right
        have bottom := onPlane.1.bottom
        simp only [GraphicsInfo.rect, Rect.plane] at right bottom
        have sizeX : SizeFits g.width localX (regionSize g.width localX width) g.startingX :=
          regionSize_fits left columns (by omega)
        have sizeY : SizeFits g.height localY (regionSize g.height localY height) g.startingY :=
          regionSize_fits top rows (by omega)
        have absolute : Rect.mk (g.startingX + localX).toNat (g.startingY + localY).toNat
            (g.startingX + localX + regionSize g.width localX width).toNat
            (g.startingY + localY + regionSize g.height localY height).toNat =
              g.region localX localY (regionSize g.width localX width) (regionSize g.height localY height) := by
          have placedX := sizeX.placed
          have placedY := sizeY.placed
          unfold GraphicsInfo.region
          rw [Rect.mk.injEq]
          refine ⟨?_, ?_, ?_, ?_⟩ <;> bv_omega
        rw [if_neg behind]
        change framebuffer.afterAll screen (graphicsPastePixelsToFramebuffer screen g localX localY
          (regionSize g.width localX width) (regionSize g.height localY height) (g.startingX + localX)
          (g.startingY + localY) ++ graphicsRedrawRegionChildren screen children (g.startingX + localX)
            (g.startingY + localY) (g.startingX + localX + regionSize g.width localX width)
            (g.startingY + localY + regionSize g.height localY height)) index = _
        rw [afterAll_append, redrawRegionChildren_after addressed children onPlane.2,
          paste_after sizeX sizeY addressed, absolute, region_clip columns rows left top, paintIn_paintIn]
        rfl

/-- The children are painted in the same clip. -/
theorem redrawRegionChildren_after (addressed : screen.Addressed) : ∀ (children : List GraphicsTree), AllOnPlane children →
    ∀ {left top right bottom : BitVec 32} (framebuffer : Framebuffer) (index : Nat),
      framebuffer.afterAll screen (graphicsRedrawRegionChildren screen children left top right bottom) index =
        paintIn screen.screenRect.area
          (drawAllWithin (layersAll children) (Rect.mk left.toNat top.toNat right.toNat bottom.toNat).area)
          (screen.position index) (framebuffer index)
  | [], _, _, _, _, _, _, _ => (ite_self _).symm
  | child :: children, onPlane, left, top, right, bottom, framebuffer, index => by
      unfold graphicsRedrawRegionChildren layersAll
      have childRight : child.info.startingX.toNat + child.info.width.toNat < 2 ^ 32 :=
        Nat.lt_of_le_pred (by norm_num) onPlane.1.within.right
      have childBottom : child.info.startingY.toNat + child.info.height.toNat < 2 ^ 32 :=
        Nat.lt_of_le_pred (by norm_num) onPlane.1.within.bottom
      have own : framebuffer.afterAll screen
          (if minOf (child.info.startingX + child.info.width) right > maxOf child.info.startingX left ∧
              minOf (child.info.startingY + child.info.height) bottom > maxOf child.info.startingY top then
            graphicsRedrawRegion screen child (maxOf child.info.startingX left - child.info.startingX)
              (maxOf child.info.startingY top - child.info.startingY)
              (minOf (child.info.startingX + child.info.width) right - maxOf child.info.startingX left)
              (minOf (child.info.startingY + child.info.height) bottom - maxOf child.info.startingY top)
          else []) index =
            paintIn screen.screenRect.area
              (child.layers.drawWithin (Rect.mk left.toNat top.toNat right.toNat bottom.toNat).area)
              (screen.position index) (framebuffer index) := by
        split
        · rename_i meets
          have sameClip : (child.info.region (maxOf child.info.startingX left - child.info.startingX)
              (maxOf child.info.startingY top - child.info.startingY)
              (minOf (child.info.startingX + child.info.width) right - maxOf child.info.startingX left)
              (minOf (child.info.startingY + child.info.height) bottom - maxOf child.info.startingY top)).area ∩
                child.layers.area =
              (Rect.mk left.toNat top.toNat right.toNat bottom.toNat).area ∩ child.layers.area := by
            rw [child.layers_area, region_intersection childRight childBottom meets.1 meets.2, Set.inter_assoc,
              Set.inter_self]
          rw [redrawRegion_after addressed child onPlane.1
            ((sizeFits_intersection meets.1).inside.trans_lt child.info.width.isLt)
            ((sizeFits_intersection meets.2).inside.trans_lt child.info.height.isLt), Layer.drawWithin_congr _ sameClip]
        · rename_i beside
          have nothing : child.layers.drawWithin (Rect.mk left.toNat top.toNat right.toNat bottom.toNat).area =
              fun _ v => v := by
            funext p v
            refine Layer.drawWithin_of_disjoint _ ?_ p v
            rw [child.layers_area]
            exact region_disjoint childRight childBottom beside
          rw [nothing]
          exact (ite_self _).symm
      rw [afterAll_append, redrawRegionChildren_after addressed children onPlane.2, own, paintIn_paintIn]
      rfl

end

end Painters

/-- **A region is redrawn as the whole is, and all else is unchanged**, when rectangles are nested and on the screen. -/
theorem redrawRegion_refines {screen : GraphicsInfo} (addressed : screen.Addressed) {root : GraphicsTree}
    (nested : root.NestedIn screen.screenRect) {tree : GraphicsTree} (isIn : tree.IsIn root)
    (localX localY width height : BitVec 32) (columns : localX.toNat + width.toNat < 2 ^ 32)
    (rows : localY.toNat + height.toNat < 2 ^ 32) (framebuffer : Framebuffer) (index : Nat) :
    (screen.position index ∈ (tree.info.region localX localY width height).area ∩ tree.info.rect.area →
      framebuffer.afterAll screen (graphicsRedrawRegion screen tree localX localY width height) index =
        framebuffer.afterAll screen (graphicsRedraw screen tree) index) ∧
    (screen.position index ∉ (tree.info.region localX localY width height).area ∩ tree.info.rect.area →
      framebuffer.afterAll screen (graphicsRedrawRegion screen tree localX localY width height) index =
        framebuffer index) := by
  obtain ⟨outer, onScreen, nested⟩ := isIn.nested nested
  have onPlane := nested.onPlane (onScreen.trans screen.screenRect_within)
  rw [redrawRegion_after addressed tree onPlane columns rows, redraw_after addressed tree onPlane]
  by_cases shown : screen.position index ∈ screen.screenRect.area
  · rw [paintIn_of_mem shown, paintIn_of_mem shown, drawWithin_eq nested.layers]
    constructor
    · intro inside
      rw [if_pos inside.1]
    · intro outside
      split
      · rename_i inRegion
        refine tree.layers.draw_outside nested.layers (fun inArea => outside ⟨inRegion, ?_⟩) _
        rwa [tree.layers_area] at inArea
      · rfl
  · rw [paintIn_of_notMem shown, paintIn_of_notMem shown]
    exact ⟨fun _ => rfl, fun _ => rfl⟩

/-- The screen with the small body on it. -/
def smallScreen : GraphicsTree := .node screenGraphics [smallTree]

/-- **A corner of the small body** is redrawn as the whole body is. -/
theorem redrawRegion_refines_corner :
    Framebuffer.afterAll screenGraphics (fun _ => blackPixel)
        (graphicsRedrawRegion screenGraphics smallTree 0 0 50 50) 215350 =
      Framebuffer.afterAll screenGraphics (fun _ => blackPixel) (graphicsRedraw screenGraphics smallTree) 215350 := by
  have addressed : screenGraphics.Addressed := ⟨by decide, by decide⟩
  have nested : smallScreen.NestedIn screenGraphics.screenRect :=
    ⟨⟨by decide, by decide, by decide, by decide⟩, ⟨⟨by decide, by decide, by decide, by decide⟩, trivial⟩, trivial⟩
  exact (redrawRegion_refines addressed nested (.child List.mem_cons_self .self) 0 0 50 50 (by decide) (by decide)
    (fun _ => blackPixel) 215350).1
      ⟨⟨⟨by decide, by decide⟩, by decide, by decide⟩, ⟨by decide, by decide⟩, by decide, by decide⟩

end PeachOS
