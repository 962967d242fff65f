/-
**Drawing pixels: `graphics_draw_pixel` and the loops that call it.**

A draw outside the graphics, or in the ignored colour, does nothing. What an entry of the pixel array holds after many draws is
told by those that go to it.

* `drawPixels_drawn` — positions that are drawn in one colour;
* `drawEach_pixelAt` — an entry after draws that agree on it.
-/

import PeachOS.Graphics.Paste

namespace PeachOS

/-! ### The code -/

/-- `graphics_draw_pixel`, where no colour is ignored. -/
def graphicsDrawPixel (g : GraphicsInfo) (x y : BitVec 32) (pixel : FramebufferPixel) : GraphicsInfo :=
  if x < g.width ∧ y < g.height then { g with pixels := g.pixels.set (g.pixelIndex x y) pixel } else g

/-- The positions of the loops of `graphics_draw_rect`. -/
def rectPositions (x y : BitVec 32) (width height : BitVec 64) : List (BitVec 32 × BitVec 32) :=
  let xEnd := x + width.setWidth 32
  let yEnd := y + height.setWidth 32
  (List.range (xEnd.toNat - x.toNat)).flatMap fun lx =>
    (List.range (yEnd.toNat - y.toNat)).map fun ly => (x + .ofNat 32 lx, y + .ofNat 32 ly)

/-- `graphics_draw_rect`. -/
def graphicsDrawRect (g : GraphicsInfo) (x y : BitVec 32) (width height : BitVec 64) (pixelColor : FramebufferPixel) :
    GraphicsInfo :=
  (rectPositions x y width height).foldl (fun g position => graphicsDrawPixel g position.1 position.2 pixelColor) g

/-- `graphics_draw_pixel`, with the ignored colour. Black is none. -/
def graphicsDrawPixelIgnoring (ignoreColor : FramebufferPixel) (g : GraphicsInfo) (x y : BitVec 32) (pixel : FramebufferPixel) :
    GraphicsInfo :=
  if ignoreColor ≠ blackPixel ∧ ignoreColor = pixel then g else graphicsDrawPixel g x y pixel

/-- A call of `graphics_draw_pixel`. -/
structure PixelDraw where
  x : BitVec 32
  y : BitVec 32
  pixel : FramebufferPixel
deriving DecidableEq

/-- Calls, one after the other. -/
def drawEach (ignoreColor : FramebufferPixel) : (g : GraphicsInfo) → (draws : List PixelDraw) → GraphicsInfo
  | g, [] => g
  | g, draw :: draws => drawEach ignoreColor (graphicsDrawPixelIgnoring ignoreColor g draw.x draw.y draw.pixel) draws

/-! ### One colour -/

/-- What a draw changes: the pixels, and only to the colour. -/
structure DrawnIn (g : GraphicsInfo) (pixelColor : FramebufferPixel) (g' : GraphicsInfo) : Prop where
  same : g' = { g with pixels := g'.pixels }
  length : g'.pixels.length = g.pixels.length
  kept : ∀ i, g.pixelAt i = pixelColor → g'.pixelAt i = pixelColor

theorem DrawnIn.refl (g : GraphicsInfo) (pixelColor : FramebufferPixel) : DrawnIn g pixelColor g := ⟨rfl, rfl, fun _ is => is⟩

theorem DrawnIn.trans {g g' g'' : GraphicsInfo} {pixelColor : FramebufferPixel} (first : DrawnIn g pixelColor g')
    (second : DrawnIn g' pixelColor g'') : DrawnIn g pixelColor g'' := by
  refine ⟨?_, second.length.trans first.length, fun i is => second.kept i (first.kept i is)⟩
  rw [second.same, first.same]

theorem pixelAt_set {pixels : List FramebufferPixel} {index i : Nat} (inside : index < pixels.length) (pixel : FramebufferPixel) :
    (pixels.set index pixel).getD i blackPixel = if i = index then pixel else pixels.getD i blackPixel := by
  rw [List.getD_eq_getElem?_getD, List.getD_eq_getElem?_getD, List.getElem?_set]
  by_cases same : i = index
  · rw [same, if_pos rfl, if_pos inside, if_pos rfl, Option.getD_some]
  · rw [if_neg (Ne.symm same), if_neg same]

/-- **One pixel**, which has the colour then if it is in the graphics. -/
theorem drawPixel_drawn {g : GraphicsInfo} (sized : g.Sized) (x y : BitVec 32) (pixelColor : FramebufferPixel) :
    DrawnIn g pixelColor (graphicsDrawPixel g x y pixelColor) ∧
      (x < g.width → y < g.height → (graphicsDrawPixel g x y pixelColor).pixelAt (g.pixelIndex x y) = pixelColor) := by
  unfold graphicsDrawPixel
  by_cases inside : x < g.width ∧ y < g.height
  · rw [if_pos inside]
    have inArray : g.pixelIndex x y < g.pixels.length := by
      rw [sized]
      exact pixelIndex_lt_size inside.1 inside.2
    refine ⟨⟨rfl, List.length_set, fun i is => ?_⟩, fun _ _ => ?_⟩
    · unfold GraphicsInfo.pixelAt at is ⊢
      rw [pixelAt_set inArray]
      split
      · rfl
      · exact is
    · exact (pixelAt_set inArray pixelColor).trans (if_pos rfl)
  · rw [if_neg inside]
    exact ⟨DrawnIn.refl g pixelColor, fun column row => absurd ⟨column, row⟩ inside⟩

theorem DrawnIn.sized {g g' : GraphicsInfo} {pixelColor : FramebufferPixel} (drawn : DrawnIn g pixelColor g') (sized : g.Sized) :
    g'.Sized := by
  unfold GraphicsInfo.Sized at sized ⊢
  rw [drawn.length, sized, drawn.same]

/-- **Some pixels**, which all have the colour then. -/
theorem drawPixels_drawn (positions : List (BitVec 32 × BitVec 32)) (pixelColor : FramebufferPixel) :
    ∀ {g : GraphicsInfo}, g.Sized →
    DrawnIn g pixelColor (positions.foldl (fun g position => graphicsDrawPixel g position.1 position.2 pixelColor) g) ∧
      ∀ position ∈ positions, position.1 < g.width → position.2 < g.height →
        (positions.foldl (fun g position => graphicsDrawPixel g position.1 position.2 pixelColor) g).pixelAt
          (g.pixelIndex position.1 position.2) = pixelColor := by
  induction positions with
  | nil => exact fun {g} _ => ⟨DrawnIn.refl g pixelColor, fun position isIn => absurd isIn List.not_mem_nil⟩
  | cons first positions ih =>
      intro g sized
      obtain ⟨drawn, own⟩ := drawPixel_drawn sized first.1 first.2 pixelColor
      rw [List.foldl_cons]
      generalize graphicsDrawPixel g first.1 first.2 pixelColor = next at drawn own ⊢
      obtain ⟨drawnRest, others⟩ := ih (drawn.sized sized)
      have sameIndex : next.pixelIndex = g.pixelIndex := by
        rw [drawn.same]
        rfl
      have sameWidth : next.width = g.width := by rw [drawn.same]
      have sameHeight : next.height = g.height := by rw [drawn.same]
      rw [sameIndex, sameWidth, sameHeight] at others
      refine ⟨drawn.trans drawnRest, fun position isIn column row => ?_⟩
      rcases List.mem_cons.mp isIn with rfl | isIn
      · exact drawnRest.kept _ (own column row)
      · exact others position isIn column row

/-- All positions of a graphics are drawn by a rectangle of its size. -/
theorem mem_rectPositions {width height : BitVec 64} {x y : BitVec 32} (column : x < width.setWidth 32)
    (row : y < height.setWidth 32) : (x, y) ∈ rectPositions 0 0 width height := by
  unfold rectPositions
  rw [show (0 : BitVec 32) = 0#32 from rfl]
  refine List.mem_flatMap.mpr ⟨x.toNat, List.mem_range.mpr ?_, List.mem_map.mpr ⟨y.toNat, List.mem_range.mpr ?_, ?_⟩⟩
  · rw [BitVec.zero_add]
    exact column
  · rw [BitVec.zero_add]
    exact row
  · rw [BitVec.zero_add, BitVec.zero_add, BitVec.ofNat_toNat, BitVec.ofNat_toNat, BitVec.setWidth_eq, BitVec.setWidth_eq]

/-! ### Many draws -/

/-- **A draw goes to an entry** of the array: its colour is not ignored, and its position is in the graphics. -/
def PixelDraw.To (ignoreColor : FramebufferPixel) (g : GraphicsInfo) (index : Nat) (draw : PixelDraw) : Prop :=
  ¬ (ignoreColor ≠ blackPixel ∧ ignoreColor = draw.pixel) ∧ draw.x < g.width ∧ draw.y < g.height ∧
    g.pixelIndex draw.x draw.y = index

section Draws

variable {ignoreColor : FramebufferPixel} {g : GraphicsInfo}

/-- Nothing but pixels changes. -/
theorem drawIgnoring_frame (draw : PixelDraw) :
    ∃ pixels, graphicsDrawPixelIgnoring ignoreColor g draw.x draw.y draw.pixel = { g with pixels := pixels } ∧
      pixels.length = g.pixels.length := by
  unfold graphicsDrawPixelIgnoring graphicsDrawPixel
  split
  · exact ⟨g.pixels, rfl, rfl⟩
  · split
    · exact ⟨_, rfl, List.length_set⟩
    · exact ⟨g.pixels, rfl, rfl⟩

/-- **An entry after one draw.** -/
theorem drawIgnoring_pixelAt (sized : g.Sized) {index : Nat} (draw : PixelDraw) :
    (draw.To ignoreColor g index → (graphicsDrawPixelIgnoring ignoreColor g draw.x draw.y draw.pixel).pixelAt index =
    draw.pixel) ∧
      (¬ draw.To ignoreColor g index →
        (graphicsDrawPixelIgnoring ignoreColor g draw.x draw.y draw.pixel).pixelAt index = g.pixelAt index) := by
  unfold graphicsDrawPixelIgnoring graphicsDrawPixel PixelDraw.To
  by_cases ignored : ignoreColor ≠ blackPixel ∧ ignoreColor = draw.pixel
  · rw [if_pos ignored]
    exact ⟨fun goes => absurd ignored goes.1, fun _ => rfl⟩
  rw [if_neg ignored]
  by_cases inside : draw.x < g.width ∧ draw.y < g.height
  · have inArray : g.pixelIndex draw.x draw.y < g.pixels.length := by
      rw [sized]
      exact pixelIndex_lt_size inside.1 inside.2
    rw [if_pos inside]
    unfold GraphicsInfo.pixelAt
    rw [pixelAt_set inArray]
    refine ⟨fun goes => if_pos goes.2.2.2.symm, fun notTo => if_neg fun here => notTo ⟨ignored, inside.1, inside.2, here.symm⟩⟩
  · rw [if_neg inside]
    exact ⟨fun goes => absurd ⟨goes.2.1, goes.2.2.1⟩ inside, fun _ => rfl⟩

/-- **An entry after draws that agree on it.** -/
theorem drawEach_pixelAt {index : Nat} {value : FramebufferPixel} : ∀ {draws : List PixelDraw} {g : GraphicsInfo}, g.Sized →
    (∀ draw ∈ draws, draw.To ignoreColor g index → draw.pixel = value) →
      (g.pixelAt index = value ∨ ∃ draw ∈ draws, draw.To ignoreColor g index) →
        (drawEach ignoreColor g draws).pixelAt index = value := by
  intro draws
  induction draws with
  | nil =>
      intro g _ _ before
      rcases before with kept | ⟨draw, isIn, -⟩
      · exact kept
      · exact absurd isIn List.not_mem_nil
  | cons first draws ih =>
      intro g sized agree before
      obtain ⟨drawn, notDrawn⟩ := drawIgnoring_pixelAt sized first
      obtain ⟨pixels, frame, length⟩ := @drawIgnoring_frame ignoreColor g first
      rw [frame] at drawn notDrawn
      rw [drawEach, frame]
      have sized' : GraphicsInfo.Sized { g with pixels := pixels } := length.trans sized
      refine ih sized' (fun draw isIn goes => agree draw (List.mem_cons_of_mem _ isIn) goes) ?_
      by_cases here : first.To ignoreColor g index
      · exact Or.inl ((drawn here).trans (agree first List.mem_cons_self here))
      · rcases before with kept | ⟨draw, isIn, goes⟩
        · exact Or.inl ((notDrawn here).trans kept)
        · rcases List.mem_cons.mp isIn with rfl | isIn
          · exact absurd goes here
          · exact Or.inr ⟨draw, isIn, goes⟩

end Draws

end PeachOS
