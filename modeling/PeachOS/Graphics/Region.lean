/-
**The accesses of a redraw: `graphics_redraw_region`.**

A region of a child is an intersection of rectangles, whose ends do not wrap; so below the graphics of the call
everything fits. The region of the call itself comes from user mode.

* `redrawRegionChildren_inside` — the children are always redrawn inside their arrays and the screen;
* `redrawRegion_iff` — so is the graphics of the call exactly when the rectangle it pastes fits;
* `regionFits_of_bounds` — it fits when its ends do not wrap;
* `redrawRegion_outside` — a width of -1 is read outside the array.
-/

import PeachOS.Graphics.Paste

namespace PeachOS

/-- An access is inside the pixel array, or on the screen. -/
def PixelAccess.Inside (screen : GraphicsInfo) : PixelAccess → Prop
  | .read g index => index < g.pixels.length
  | .write x y _ => x < screen.horizontalResolution ∧ y < screen.verticalResolution

mutual

/-- Every graphics of the tree has the array of its sizes. -/
def GraphicsTree.Sized : GraphicsTree → Prop
  | .node g children => g.Sized ∧ SizedAll children

/-- The same for the children. -/
def SizedAll : List GraphicsTree → Prop
  | [] => True
  | child :: children => child.Sized ∧ SizedAll children

end

/-! ### One paste -/

/-- The columns, or rows, that are pasted onto the screen: the clipped difference of the clipped ends. -/
def pastedExtent (screenLimit limit src size dst : BitVec 32) : BitVec 32 :=
  clipEnd screenLimit (dst + (clipEnd limit (src + size) - src)) - dst

theorem clipEnd_toNat (limit last : BitVec 32) : (clipEnd limit last).toNat = min last.toNat limit.toNat := by
  unfold clipEnd
  split <;> bv_omega

theorem pastedExtent_eq_zero {screenLimit limit src size dst : BitVec 32} (onScreen : dst < screenLimit)
    (none : clipEnd limit (src + size) - src = 0) : pastedExtent screenLimit limit src size dst = 0 := by
  unfold pastedExtent clipEnd
  unfold clipEnd at none
  rw [none, show dst + 0 = dst from BitVec.add_zero dst, if_neg (by bv_omega), BitVec.sub_self]
  rfl

section Paste

variable {screen g : GraphicsInfo} {srcX srcY width height dstAbsX dstAbsY : BitVec 32}

/-- **The accesses of a paste** are those of the pixels in its extents. -/
theorem mem_paste_iff {access : PixelAccess} :
    access ∈ graphicsPastePixelsToFramebuffer screen g srcX srcY width height dstAbsX dstAbsY ↔
      (dstAbsX < screen.horizontalResolution ∧ dstAbsY < screen.verticalResolution) ∧
        ∃ ly < (pastedExtent screen.verticalResolution g.height srcY height dstAbsY).toNat,
          ∃ lx < (pastedExtent screen.horizontalResolution g.width srcX width dstAbsX).toNat,
            access ∈ pastePixel g (srcX + .ofNat 32 lx) (srcY + .ofNat 32 ly) (dstAbsX + .ofNat 32 lx)
              (dstAbsY + .ofNat 32 ly) := by
  unfold graphicsPastePixelsToFramebuffer
  dsimp only
  by_cases onScreen : dstAbsX < screen.horizontalResolution ∧ dstAbsY < screen.verticalResolution
  · have notOff : ¬ (dstAbsX ≥ screen.horizontalResolution ∨ dstAbsY ≥ screen.verticalResolution) := by
      bv_omega
    rw [if_neg notOff]
    by_cases none : clipEnd g.width (srcX + width) - srcX = 0 ∨ clipEnd g.height (srcY + height) - srcY = 0
    · rw [if_pos none]
      refine iff_of_false List.not_mem_nil ?_
      rintro ⟨_, ly, bottom, lx, right, _⟩
      rcases none with none | none
      · rw [pastedExtent_eq_zero onScreen.1 none] at right
        exact absurd right (Nat.not_lt_zero lx)
      · rw [pastedExtent_eq_zero onScreen.2 none] at bottom
        exact absurd bottom (Nat.not_lt_zero ly)
    · rw [if_neg none]
      change _ ∈ (if pastedExtent screen.horizontalResolution g.width srcX width dstAbsX = 0 ∨
        pastedExtent screen.verticalResolution g.height srcY height dstAbsY = 0 then [] else _) ↔ _
      by_cases empty : pastedExtent screen.horizontalResolution g.width srcX width dstAbsX = 0 ∨
          pastedExtent screen.verticalResolution g.height srcY height dstAbsY = 0
      · rw [if_pos empty]
        refine iff_of_false List.not_mem_nil ?_
        rintro ⟨_, ly, bottom, lx, right, _⟩
        rcases empty with empty | empty
        · rw [empty] at right
          exact absurd right (Nat.not_lt_zero lx)
        · rw [empty] at bottom
          exact absurd bottom (Nat.not_lt_zero ly)
      · rw [if_neg empty]
        simp only [List.mem_flatMap, List.mem_range, onScreen, and_self, true_and]
        rfl
  · have off : dstAbsX ≥ screen.horizontalResolution ∨ dstAbsY ≥ screen.verticalResolution := by bv_omega
    rw [if_pos off, ite_self]
    exact iff_of_false List.not_mem_nil fun found => onScreen found.1

/-- A size that fits: its ends do not wrap. -/
structure SizeFits (limit src size start : BitVec 32) : Prop where
  inside : src.toNat + size.toNat ≤ limit.toNat
  placed : start.toNat + src.toNat + size.toNat < 2 ^ 32

/-- A size that fits is clipped by the edge of the screen only. -/
theorem SizeFits.pastedExtent {screenLimit limit src size start : BitVec 32} (fits : SizeFits limit src size start)
    (onScreen : start + src < screenLimit) :
    (pastedExtent screenLimit limit src size (start + src)).toNat =
      min (start.toNat + src.toNat + size.toNat) screenLimit.toNat - (start.toNat + src.toNat) := by
  obtain ⟨inside, placed⟩ := fits
  have placedEq : (start + src).toNat = start.toNat + src.toNat := BitVec.toNat_add_of_lt (by omega)
  have within : clipEnd limit (src + size) - src = size := by
    rw [clipEnd, if_neg (by bv_omega)]
    bv_omega
  unfold PeachOS.pastedExtent
  rw [within, BitVec.toNat_sub_of_le, clipEnd_toNat, BitVec.toNat_add_of_lt, placedEq]
  · omega
  · rw [BitVec.le_def, clipEnd_toNat, BitVec.toNat_add_of_lt]
    · bv_omega
    · omega

/-- **A paste that fits** is inside the array and on the screen. -/
theorem paste_inside (sized : g.Sized) (columns : SizeFits g.width srcX width g.startingX)
    (rows : SizeFits g.height srcY height g.startingY) :
    ∀ access ∈ graphicsPastePixelsToFramebuffer screen g srcX srcY width height (g.startingX + srcX)
      (g.startingY + srcY), access.Inside screen := by
  intro access found
  obtain ⟨⟨onScreenX, onScreenY⟩, ly, bottom, lx, right, pasted⟩ := mem_paste_iff.mp found
  rw [columns.pastedExtent onScreenX] at right
  rw [rows.pastedExtent onScreenY] at bottom
  obtain ⟨insideX, placedX⟩ := columns
  obtain ⟨insideY, placedY⟩ := rows
  rcases List.mem_cons.mp pasted with rfl | written
  · change g.pixelIndex _ _ < g.pixels.length
    rw [sized]
    exact pixelIndex_lt_size (by bv_omega) (by bv_omega)
  · split at written
    · exact absurd written List.not_mem_nil
    · obtain rfl := List.mem_singleton.mp written
      exact ⟨by bv_omega, by bv_omega⟩

end Paste

/-! ### The children -/

/-- **An intersection** of a child with a region fits into the child. -/
theorem sizeFits_intersection {start extent first last : BitVec 32}
    (meets : minOf (start + extent) last > maxOf start first) :
    SizeFits extent (maxOf start first - start) (minOf (start + extent) last - maxOf start first) start := by
  unfold minOf maxOf at *
  constructor <;> (split at meets <;> split at meets <;> simp only [*, if_true, if_false] <;> bv_omega)

mutual

/-- **A region that fits** is redrawn inside the arrays and the screen. -/
theorem redrawRegion_inside {screen : GraphicsInfo} : ∀ (tree : GraphicsTree) {localX localY width height : BitVec 32},
    tree.Sized → SizeFits tree.info.width localX width tree.info.startingX →
      SizeFits tree.info.height localY height tree.info.startingY →
        ∀ access ∈ graphicsRedrawRegion screen tree localX localY width height, access.Inside screen
  | .node g children, localX, localY, width, height, sized, columns, rows => by
      intro access found
      unfold graphicsRedrawRegion at found
      split at found
      · exact absurd found List.not_mem_nil
      · have noClipX : ¬ localX + width > g.width := by
          obtain ⟨inside, placed⟩ := columns
          simp only [GraphicsTree.info] at inside placed
          bv_omega
        have noClipY : ¬ localY + height > g.height := by
          obtain ⟨inside, placed⟩ := rows
          simp only [GraphicsTree.info] at inside placed
          bv_omega
        simp only [if_neg noClipX, if_neg noClipY] at found
        rcases List.mem_append.mp found with own | below
        · exact paste_inside sized.1 columns rows access own
        · exact redrawRegionChildren_inside children sized.2 access below

/-- **The children are always redrawn inside**, whatever the region is. -/
theorem redrawRegionChildren_inside {screen : GraphicsInfo} : ∀ (children : List GraphicsTree)
    {left top right bottom : BitVec 32}, SizedAll children →
      ∀ access ∈ graphicsRedrawRegionChildren screen children left top right bottom, access.Inside screen
  | [], _, _, _, _, _ => fun _ found => absurd found List.not_mem_nil
  | child :: children, left, top, right, bottom, sized => by
      intro access found
      unfold graphicsRedrawRegionChildren at found
      rcases List.mem_append.mp found with own | others
      · split at own
        · rename_i meets
          exact redrawRegion_inside child sized.1 (sizeFits_intersection meets.1) (sizeFits_intersection meets.2)
            access own
        · exact absurd own List.not_mem_nil
      · exact redrawRegionChildren_inside children sized.2 access others

end

/-! ### The graphics of the call -/

/-- The size of a region after the clip to the graphics: `if (local + size > limit) size = limit - local`. -/
def regionSize (limit first size : BitVec 32) : BitVec 32 := if first + size > limit then limit - first else size

/-- A size that is clipped to the graphics fits, when no end wraps. -/
theorem regionSize_fits {limit first size start : BitVec 32} (inside : first < limit)
    (noWrap : first.toNat + size.toNat < 2 ^ 32) (placed : start.toNat + limit.toNat < 2 ^ 32) :
    SizeFits limit first (regionSize limit first size) start := by
  unfold regionSize
  constructor <;> split <;> bv_omega

section Call

variable (screen g : GraphicsInfo) (localX localY width height : BitVec 32)

/-- The columns that the graphics of the call pastes. -/
def regionColumns : BitVec 32 :=
  pastedExtent screen.horizontalResolution g.width localX (regionSize g.width localX width) (g.startingX + localX)

/-- The rows that the graphics of the call pastes. -/
def regionRows : BitVec 32 :=
  pastedExtent screen.verticalResolution g.height localY (regionSize g.height localY height) (g.startingY + localY)

/-- **The region of the call fits**: it starts behind the graphics or off the screen, so that nothing is pasted; or
each row that is pasted lies inside the pixel array, and the pixels that fall off the screen are transparent. -/
def RegionFits : Prop :=
  localX < g.width → localY < g.height →
    g.startingX + localX < screen.horizontalResolution → g.startingY + localY < screen.verticalResolution →
      ∀ ly < (regionRows screen g localY height).toNat,
        (regionColumns screen g localX width = 0 ∨ 2 ^ 32 ≤ g.pixels.length ∨
          g.pixelIndex localX (localY + .ofNat 32 ly) + (regionColumns screen g localX width).toNat ≤
            g.pixels.length) ∧
        ∀ lx < (regionColumns screen g localX width).toNat,
          (g.startingX + localX + .ofNat 32 lx < screen.horizontalResolution ∧
            g.startingY + localY + .ofNat 32 ly < screen.verticalResolution) ∨
          g.Transparent (localX + .ofNat 32 lx) (localY + .ofNat 32 ly)

end Call

variable {screen : GraphicsInfo}

/-- The accesses of one pixel are inside. -/
theorem pastePixel_inside_iff {g : GraphicsInfo} {srcX srcY dstAbsX dstAbsY : BitVec 32} :
    (∀ access ∈ pastePixel g srcX srcY dstAbsX dstAbsY, access.Inside screen) ↔
      g.pixelIndex srcX srcY < g.pixels.length ∧
        ((dstAbsX < screen.horizontalResolution ∧ dstAbsY < screen.verticalResolution) ∨ g.Transparent srcX srcY) := by
  unfold pastePixel
  dsimp only
  rw [List.forall_mem_cons]
  refine and_congr Iff.rfl ?_
  by_cases transparent : g.Transparent srcX srcY
  · rw [if_pos transparent]
    exact iff_of_true (fun _ found => absurd found List.not_mem_nil) (Or.inr transparent)
  · rw [if_neg transparent, List.forall_mem_singleton]
    exact (or_iff_left transparent).symm

/-- **A redraw of a region is inside the arrays and the screen exactly when the region of the call fits.** -/
theorem redrawRegion_inside_iff (tree : GraphicsTree) (sized : tree.Sized)
    (localX localY width height : BitVec 32) :
    (∀ access ∈ graphicsRedrawRegion screen tree localX localY width height, access.Inside screen) ↔
      RegionFits screen tree.info localX localY width height := by
  obtain ⟨g, children⟩ := tree
  unfold graphicsRedrawRegion RegionFits
  dsimp only [GraphicsTree.info]
  by_cases behind : localX ≥ g.width ∨ localY ≥ g.height
  · rw [if_pos behind]
    refine iff_of_true (fun _ found => absurd found List.not_mem_nil) fun left top => ?_
    rcases behind with behind | behind <;> bv_omega
  · rw [if_neg behind]
    have left : localX < g.width := by bv_omega
    have top : localY < g.height := by bv_omega
    simp only [List.forall_mem_append]
    rw [and_iff_left (redrawRegionChildren_inside children sized.2)]
    simp only [mem_paste_iff, left, top, true_implies]
    have row (y : BitVec 32) := @consecutive_inside _ g.pixels.length
      (regionColumns screen g localX width).toNat (pixelIndex_lt g localX y)
    have zero : (regionColumns screen g localX width).toNat = 0 ↔ regionColumns screen g localX width = 0 :=
      ⟨fun none => BitVec.eq_of_toNat_eq none, fun none => none ▸ rfl⟩
    simp only [zero, ← pixelIndex_add] at row
    simp only [← row, ← imp_and, ← forall_and]
    constructor
    · intro inside onScreenX onScreenY ly bottom lx right
      exact pastePixel_inside_iff.mp fun access found => inside access ⟨⟨onScreenX, onScreenY⟩, ly, bottom, lx, right, found⟩
    · rintro fits access ⟨⟨onScreenX, onScreenY⟩, ly, bottom, lx, right, found⟩
      exact pastePixel_inside_iff.mpr (fits onScreenX onScreenY ly bottom lx right) access found

/-- A region whose ends do not wrap, of a graphics that does not wrap, fits. -/
theorem regionFits_of_bounds {g : GraphicsInfo} (sized : g.Sized) {localX localY width height : BitVec 32}
    (columns : localX.toNat + width.toNat < 2 ^ 32) (rows : localY.toNat + height.toNat < 2 ^ 32)
    (right : g.startingX.toNat + g.width.toNat < 2 ^ 32) (bottom : g.startingY.toNat + g.height.toNat < 2 ^ 32) :
    RegionFits screen g localX localY width height := by
  refine (redrawRegion_inside_iff (.node g []) ⟨sized, trivial⟩ localX localY width height).mp fun access found => ?_
  unfold graphicsRedrawRegion at found
  split at found
  · exact absurd found List.not_mem_nil
  · rename_i inside
    have found := (List.mem_append.mp found).resolve_right List.not_mem_nil
    exact paste_inside sized (regionSize_fits (by bv_omega) columns right) (regionSize_fits (by bv_omega) rows bottom)
      access found

/-- **A redraw of a region is inside the arrays and the screen exactly when the region of the call fits**, and so it
is when no end wraps. -/
theorem redrawRegion_iff (tree : GraphicsTree) (sized : tree.Sized) (localX localY width height : BitVec 32) :
    ((∀ access ∈ graphicsRedrawRegion screen tree localX localY width height, access.Inside screen) ↔
      RegionFits screen tree.info localX localY width height) ∧
    (localX.toNat + width.toNat < 2 ^ 32 → localY.toNat + height.toNat < 2 ^ 32 →
      tree.info.startingX.toNat + tree.info.width.toNat < 2 ^ 32 →
        tree.info.startingY.toNat + tree.info.height.toNat < 2 ^ 32 →
          ∀ access ∈ graphicsRedrawRegion screen tree localX localY width height, access.Inside screen) := by
  refine ⟨redrawRegion_inside_iff tree sized localX localY width height, fun columns rows right bottom => ?_⟩
  have own : tree.info.Sized := by
    cases tree with
    | node g children => exact sized.1
  exact (redrawRegion_inside_iff tree sized localX localY width height).mpr
    (regionFits_of_bounds own columns rows right bottom)

/-- The graphics of a screen of 1024 by 768 pixels. -/
def screenGraphics : GraphicsInfo where
  horizontalResolution := 1024
  verticalResolution := 768
  pixelsPerScanline := 1024
  pixels := List.replicate 786432 blackPixel
  width := 1024
  height := 768
  startingX := 0
  startingY := 0
  transparencyKey := blackPixel

/-- The small body has no children. -/
def smallTree : GraphicsTree := .node smallBody []

theorem smallTree_sized : smallTree.Sized := ⟨smallBody_sized, trivial⟩

/-- **A corner of the small body** is redrawn inside its array and the screen. -/
theorem redrawRegion_corner :
    smallTree.Sized ∧ ∀ access ∈ graphicsRedrawRegion screenGraphics smallTree 90 90 20 20, access.Inside screenGraphics :=
  ⟨smallTree_sized,
    (redrawRegion_iff smallTree smallTree_sized 90 90 20 20).2 (by decide) (by decide) (by decide) (by decide)⟩

/-- **A width of -1** in the last row of the small body is read outside its array. -/
theorem redrawRegion_outside :
    smallTree.Sized ∧
      ¬ ∀ access ∈ graphicsRedrawRegion screenGraphics smallTree 99 99 (-1) 1, access.Inside screenGraphics := by
  refine ⟨smallTree_sized, fun inside => ?_⟩
  have fits := (redrawRegion_inside_iff smallTree smallTree_sized 99 99 (-1) 1).mp inside
    (by decide) (by decide) (by decide) (by decide) 0 (by decide)
  have entries : smallTree.info.pixels.length = 10000 := List.length_replicate
  rw [entries] at fits
  exact absurd fits.1 (by decide)

end PeachOS
