/-
**Pasting into pixels: `graphics_paste_pixels_to_pixels`.**

Reads are always inside the source, since `graphics_pixel_get` checks its position. Writes are not checked.

* `paste_inside_iff` — the destination is accessed inside its array exactly when each row of the clipped rectangle is;
* `graphicsPaste_iff` — the same, with the pastes of `graphics_info_create_relative`;
* `graphicsPaste_outside` — a graphics right of a source that is narrower than the screen is created with writes
  outside its array.
-/

import PeachOS.Graphics.Model

namespace PeachOS

/-! ### Consecutive indices -/

theorem pixelIndex_lt (g : GraphicsInfo) (x y : BitVec 32) : g.pixelIndex x y < 2 ^ 32 := BitVec.isLt _

/-- Neighbours in a row have consecutive indices, as long as these do not wrap. -/
theorem pixelIndex_add (g : GraphicsInfo) (x y : BitVec 32) (lx : Nat) :
    g.pixelIndex (x + .ofNat 32 lx) y = (g.pixelIndex x y + lx) % 2 ^ 32 := by
  unfold GraphicsInfo.pixelIndex
  rw [← BitVec.add_assoc, BitVec.toNat_add, BitVec.toNat_ofNat, Nat.add_mod_mod]

/-- A position inside has an index inside. -/
theorem pixelIndex_lt_size {g : GraphicsInfo} {x y : BitVec 32} (column : x < g.width) (row : y < g.height) :
    g.pixelIndex x y < g.width.toNat * g.height.toNat := by
  have columnNat : x.toNat < g.width.toNat := column
  have rowNat : y.toNat + 1 ≤ g.height.toNat := row
  calc g.pixelIndex x y ≤ y.toNat * g.width.toNat + x.toNat := by
        unfold GraphicsInfo.pixelIndex
        rw [BitVec.toNat_add, BitVec.toNat_mul, Nat.mod_add_mod]
        exact Nat.mod_le _ _
    _ < (y.toNat + 1) * g.width.toNat := by
        rw [Nat.add_mul, Nat.one_mul]
        exact Nat.add_lt_add_left columnNat _
    _ ≤ g.width.toNat * g.height.toNat := by
        rw [Nat.mul_comm g.width.toNat]
        exact Nat.mul_le_mul_right _ rowNat

/-- **Consecutive indices** that wrap at `2 ^ 32` stay inside an array exactly when they do not reach its end, or it
has an entry for every index. -/
theorem consecutive_inside {start size : Nat} (count : Nat) (low : start < 2 ^ 32) :
    (∀ l < count, (start + l) % 2 ^ 32 < size) ↔ count = 0 ∨ 2 ^ 32 ≤ size ∨ start + count ≤ size := by
  constructor
  · intro inside
    by_contra outside
    obtain ⟨some, rest⟩ := not_or.mp outside
    obtain ⟨small, beyond⟩ := not_or.mp rest
    by_cases wraps : start + count ≤ 2 ^ 32
    · have last := inside (count - 1) (by omega)
      omega
    · have last := inside (2 ^ 32 - 1 - start) (by omega)
      omega
  · intro fits l before
    rcases fits with none | whole | fits <;> omega

/-! ### The loops -/

/-- A loop that appends to a list. -/
theorem foldl_appends {σ β γ : Type} (log : σ → List γ) (step : σ → β → σ) (new : β → List γ)
    (appends : ∀ s b, log (step s b) = log s ++ new b) (items : List β) (s : σ) :
    log (items.foldl step s) = log s ++ items.flatMap new := by
  induction items generalizing s with
  | nil => rw [List.foldl_nil, List.flatMap_nil, List.append_nil]
  | cons item items ih => rw [List.foldl_cons, ih, appends, List.flatMap_cons, List.append_assoc]

section Loops

variable (graphicsInfoIn graphicsInfoOut : GraphicsInfo) (srcX srcY width height dstX dstY flags : BitVec 32)

/-- `final_w`: the columns that are pasted. -/
def finalWidth : BitVec 32 := clipEnd graphicsInfoIn.width (srcX + width) - srcX

/-- `final_h`: the rows that are pasted. -/
def finalHeight : BitVec 32 := clipEnd graphicsInfoIn.height (srcY + height) - srcY

/-- The source is read where `graphics_pixel_get` reads. -/
theorem paste_sourceReads :
    (graphicsPastePixelsToPixels graphicsInfoIn graphicsInfoOut srcX srcY width height dstX dstY flags).sourceReads =
      (List.range (finalWidth graphicsInfoIn srcX width).toNat).flatMap fun lx =>
        (List.range (finalHeight graphicsInfoIn srcY height).toNat).flatMap fun ly =>
          (graphicsPixelGet graphicsInfoIn (srcX + .ofNat 32 lx) (srcY + .ofNat 32 ly)).1 := by
  unfold graphicsPastePixelsToPixels
  dsimp only
  rw [foldl_appends PixelPaste.sourceReads _ (fun lx =>
    (List.range (finalHeight graphicsInfoIn srcY height).toNat).flatMap fun ly =>
      (graphicsPixelGet graphicsInfoIn (srcX + .ofNat 32 lx) (srcY + .ofNat 32 ly)).1)]
  · rw [List.nil_append]
    rfl
  · intro paste lx
    exact foldl_appends PixelPaste.sourceReads _ _ (fun _ _ => rfl) _ _

/-- The destination is accessed at every pixel. -/
theorem paste_destinationAccesses :
    (graphicsPastePixelsToPixels graphicsInfoIn graphicsInfoOut srcX srcY width height dstX dstY
      flags).destinationAccesses =
      (List.range (finalWidth graphicsInfoIn srcX width).toNat).flatMap fun lx =>
        (List.range (finalHeight graphicsInfoIn srcY height).toNat).flatMap fun ly =>
          [graphicsInfoOut.pixelIndex (dstX + .ofNat 32 lx) (dstY + .ofNat 32 ly)] := by
  unfold graphicsPastePixelsToPixels
  dsimp only
  rw [foldl_appends PixelPaste.destinationAccesses _ (fun lx =>
    (List.range (finalHeight graphicsInfoIn srcY height).toNat).flatMap fun ly =>
      [graphicsInfoOut.pixelIndex (dstX + .ofNat 32 lx) (dstY + .ofNat 32 ly)])]
  · rw [List.nil_append]
    rfl
  · intro paste lx
    exact foldl_appends PixelPaste.destinationAccesses _ _ (fun _ _ => rfl) _ _

/-- **The rows fit**: each row that is pasted lies inside the pixel array of the destination. -/
def RowsFit : Prop :=
  ∀ ly < (finalHeight graphicsInfoIn srcY height).toNat,
    finalWidth graphicsInfoIn srcX width = 0 ∨ 2 ^ 32 ≤ graphicsInfoOut.pixels.length ∨
      graphicsInfoOut.pixelIndex dstX (dstY + .ofNat 32 ly) + (finalWidth graphicsInfoIn srcX width).toNat ≤
        graphicsInfoOut.pixels.length

end Loops

/-- Reads and writes are inside the pixel arrays. -/
def PixelPaste.Inside (paste : PixelPaste) (graphicsInfoIn graphicsInfoOut : GraphicsInfo) : Prop :=
  (∀ index ∈ paste.sourceReads, index < graphicsInfoIn.pixels.length) ∧
    ∀ index ∈ paste.destinationAccesses, index < graphicsInfoOut.pixels.length

/-- `graphics_pixel_get` reads inside. -/
theorem graphicsPixelGet_inside {g : GraphicsInfo} (sized : g.Sized) (x y : BitVec 32) :
    ∀ index ∈ (graphicsPixelGet g x y).1, index < g.pixels.length := by
  intro index read
  unfold graphicsPixelGet at read
  split at read
  · rename_i checked
    obtain rfl := List.mem_singleton.mp read
    unfold graphicsBoundsCheck at checked
    simp only [ge_iff_le, Bool.not_eq_eq_eq_not, Bool.not_true, Bool.or_eq_false_iff, decide_eq_false_iff_not,
      BitVec.not_le] at checked
    rw [sized]
    exact pixelIndex_lt_size checked.1.2 checked.2
  · exact absurd read List.not_mem_nil

/-- **A paste is inside the arrays exactly when its rows fit.** -/
theorem paste_inside_iff {graphicsInfoIn : GraphicsInfo} (graphicsInfoOut : GraphicsInfo)
    (sized : graphicsInfoIn.Sized) (srcX srcY width height dstX dstY flags : BitVec 32) :
    (graphicsPastePixelsToPixels graphicsInfoIn graphicsInfoOut srcX srcY width height dstX dstY flags).Inside
        graphicsInfoIn graphicsInfoOut ↔
      RowsFit graphicsInfoIn graphicsInfoOut srcX srcY width height dstX dstY := by
  have row (y : BitVec 32) := @consecutive_inside _ graphicsInfoOut.pixels.length
    (finalWidth graphicsInfoIn srcX width).toNat (pixelIndex_lt graphicsInfoOut dstX y)
  have zero : (finalWidth graphicsInfoIn srcX width).toNat = 0 ↔ finalWidth graphicsInfoIn srcX width = 0 :=
    ⟨fun none => BitVec.eq_of_toNat_eq none, fun none => none ▸ rfl⟩
  simp only [zero] at row
  unfold PixelPaste.Inside RowsFit
  rw [paste_sourceReads, paste_destinationAccesses]
  constructor
  · rintro ⟨_, inside⟩ ly bottom
    refine (row _).mp fun lx right => ?_
    rw [← pixelIndex_add]
    refine inside _ (List.mem_flatMap.mpr ⟨lx, List.mem_range.mpr right, ?_⟩)
    exact List.mem_flatMap.mpr ⟨ly, List.mem_range.mpr bottom, List.mem_singleton_self _⟩
  · intro fits
    constructor
    · intro index read
      obtain ⟨lx, _, read⟩ := List.mem_flatMap.mp read
      obtain ⟨ly, _, read⟩ := List.mem_flatMap.mp read
      exact graphicsPixelGet_inside sized _ _ index read
    · intro index accessed
      obtain ⟨lx, right, accessed⟩ := List.mem_flatMap.mp accessed
      obtain ⟨ly, bottom, accessed⟩ := List.mem_flatMap.mp accessed
      rw [List.mem_singleton.mp accessed, pixelIndex_add]
      exact (row _).mpr (fits ly (List.mem_range.mp bottom)) lx (List.mem_range.mp right)

/-- A rectangle that lies in the destination has rows that fit. -/
theorem rowsFit_of_rectangle {graphicsInfoIn graphicsInfoOut : GraphicsInfo} (sized : graphicsInfoOut.Sized)
    {srcX srcY width height dstX dstY : BitVec 32}
    (columns : dstX.toNat + (finalWidth graphicsInfoIn srcX width).toNat ≤ graphicsInfoOut.width.toNat)
    (rows : dstY.toNat + (finalHeight graphicsInfoIn srcY height).toNat ≤ graphicsInfoOut.height.toNat) :
    RowsFit graphicsInfoIn graphicsInfoOut srcX srcY width height dstX dstY := by
  intro ly bottom
  refine Or.inr (Or.inr ?_)
  have row : (dstY + .ofNat 32 ly).toNat ≤ dstY.toNat + ly := by
    rw [BitVec.toNat_add, BitVec.toNat_ofNat, Nat.add_mod_mod]
    exact Nat.mod_le _ _
  have index : graphicsInfoOut.pixelIndex dstX (dstY + .ofNat 32 ly) ≤
      (dstY.toNat + ly) * graphicsInfoOut.width.toNat + dstX.toNat := by
    unfold GraphicsInfo.pixelIndex
    rw [BitVec.toNat_add, BitVec.toNat_mul, Nat.mod_add_mod]
    exact (Nat.mod_le _ _).trans (Nat.add_le_add_right (Nat.mul_le_mul_right _ row) _)
  rw [sized]
  calc _ ≤ (dstY.toNat + ly) * graphicsInfoOut.width.toNat + dstX.toNat +
          (finalWidth graphicsInfoIn srcX width).toNat := Nat.add_le_add_right index _
    _ ≤ (dstY.toNat + ly) * graphicsInfoOut.width.toNat + graphicsInfoOut.width.toNat := by
        rw [Nat.add_assoc]
        exact Nat.add_le_add_left columns _
    _ = (dstY.toNat + ly + 1) * graphicsInfoOut.width.toNat := by rw [Nat.add_mul _ 1, Nat.one_mul]
    _ ≤ graphicsInfoOut.width.toNat * graphicsInfoOut.height.toNat := by
        rw [Nat.mul_comm graphicsInfoOut.width.toNat]
        exact Nat.mul_le_mul_right _ (by omega)

/-! ### Creating a graphics -/

/-- What `graphics_info_create_relative` reads is inside the source, and what it writes inside the new array. -/
def CreateInside (sourceGraphics : GraphicsInfo) (x y width height : BitVec 64) (flags : BitVec 32) : Prop :=
  ∀ created paste, graphicsInfoCreateRelative sourceGraphics x y width height flags = some (created, paste) →
    paste.Inside sourceGraphics (newGraphics sourceGraphics x y width height)

/-- The rows that `graphics_info_create_relative` pastes fit into the new array. -/
def CreateFits (sourceGraphics : GraphicsInfo) (x y width height : BitVec 64) : Prop :=
  RowsFit sourceGraphics (newGraphics sourceGraphics x y width height) (x.setWidth 32) (y.setWidth 32)
    (width.setWidth 32) (height.setWidth 32) 0 0

/-- The creations of a program pass no flags. -/
theorem create_inside_iff {sourceGraphics : GraphicsInfo} (sized : sourceGraphics.Sized)
    {x y width height : BitVec 64} (accepted : createAccepts sourceGraphics x y width height 0) :
    CreateInside sourceGraphics x y width height 0 ↔ CreateFits sourceGraphics x y width height := by
  have paste := paste_inside_iff (newGraphics sourceGraphics x y width height) sized (x.setWidth 32) (y.setWidth 32)
    (width.setWidth 32) (height.setWidth 32) 0 0 graphicsFlagDoNotOverwriteTransparentPixels
  unfold CreateInside CreateFits graphicsInfoCreateRelative
  rw [if_pos accepted, ← paste]
  constructor
  · intro inside
    exact inside _ _ rfl
  · rintro inside created paste same
    obtain ⟨rfl, rfl⟩ := Prod.mk.inj (Option.some.inj same)
    exact inside

/-- **Pastes into pixels are inside the arrays exactly when their rows fit**, for every paste and for every graphics
that a program can have created. -/
theorem graphicsPaste_iff (graphicsInfoIn : GraphicsInfo) (sized : graphicsInfoIn.Sized) :
    (∀ (graphicsInfoOut : GraphicsInfo) (srcX srcY width height dstX dstY flags : BitVec 32), graphicsInfoOut.Sized →
      ((graphicsPastePixelsToPixels graphicsInfoIn graphicsInfoOut srcX srcY width height dstX dstY flags).Inside
          graphicsInfoIn graphicsInfoOut ↔
        RowsFit graphicsInfoIn graphicsInfoOut srcX srcY width height dstX dstY)) ∧
    ∀ x y width height : BitVec 64, createAccepts graphicsInfoIn x y width height 0 →
      (CreateInside graphicsInfoIn x y width height 0 ↔ CreateFits graphicsInfoIn x y width height) := by
  constructor
  · intro graphicsInfoOut srcX srcY width height dstX dstY flags _
    exact paste_inside_iff graphicsInfoOut sized srcX srcY width height dstX dstY flags
  · intro x y width height accepted
    exact create_inside_iff sized accepted

/-- The body of a small window on a screen of 1024 by 768 pixels. -/
def smallBody : GraphicsInfo where
  horizontalResolution := 1024
  verticalResolution := 768
  pixelsPerScanline := 1024
  pixels := List.replicate 10000 blackPixel
  width := 100
  height := 100
  startingX := 300
  startingY := 200
  transparencyKey := blackPixel

theorem smallBody_sized : smallBody.Sized := List.length_replicate

/-- **A rectangle inside the body** is copied inside its array. -/
theorem graphicsPaste_inside : CreateInside smallBody 10 20 30 40 0 := by
  refine ((graphicsPaste_iff smallBody smallBody_sized).2 10 20 30 40 (by decide)).mpr ?_
  have created : (newGraphics smallBody 10 20 30 40).Sized := List.length_replicate
  exact rowsFit_of_rectangle created (by decide) (by decide)

/-- **A rectangle right of the body, but on the screen**, is accepted and written outside its array. -/
theorem graphicsPaste_outside :
    smallBody.Sized ∧ createAccepts smallBody 200 0 10 10 0 ∧ ¬ CreateInside smallBody 200 0 10 10 0 := by
  have accepted : createAccepts smallBody 200 0 10 10 0 := by decide
  refine ⟨smallBody_sized, accepted, fun inside => ?_⟩
  have fits := (create_inside_iff smallBody_sized accepted).mp inside 0 (by decide)
  have entries : (newGraphics smallBody 200 0 10 10).pixels.length = 100 := List.length_replicate
  rw [entries] at fits
  exact absurd fits (by decide)

end PeachOS
