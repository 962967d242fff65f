/-
**Graphics: `graphics/graphics.c`.**

A `uint32_t` is a `BitVec 32`, so that sums, differences and products wrap as they do in the source. What a function
does to pixels is the list of its accesses, in order.

* `graphicsPastePixelsToFramebuffer` pastes onto the screen; `graphicsRedraw` and `graphicsRedrawRegion` paste a
  graphics and those below it;
* `graphicsPastePixelsToPixels` pastes into the pixels of another graphics; `graphicsInfoCreateRelative` makes a
  graphics from another one.

The children of a graphics are those of its vector that are no null pointers.
-/

import PeachOS.Machine

namespace PeachOS

/-- `struct framebuffer_pixel`. -/
structure FramebufferPixel where
  blue : Byte
  green : Byte
  red : Byte
  reserved : Byte
deriving DecidableEq

/-- The pixel of zeros. As a transparency key it means that there is none. -/
def blackPixel : FramebufferPixel := ⟨0x00#8, 0x00#8, 0x00#8, 0x00#8⟩

/-- `struct graphics_info`; `pixels` are the entries of its pixel array. -/
structure GraphicsInfo where
  horizontalResolution : BitVec 32
  verticalResolution : BitVec 32
  pixelsPerScanline : BitVec 32
  pixels : List FramebufferPixel
  width : BitVec 32
  height : BitVec 32
  startingX : BitVec 32
  startingY : BitVec 32
  transparencyKey : FramebufferPixel
deriving DecidableEq

namespace GraphicsInfo

/-- The pixel array has `width * height` entries. -/
def Sized (g : GraphicsInfo) : Prop := g.pixels.length = g.width.toNat * g.height.toNat

/-- The index of a pixel in the array. -/
def pixelIndex (g : GraphicsInfo) (x y : BitVec 32) : Nat := (y * g.width + x).toNat

/-- The entry of an index. -/
def pixelAt (g : GraphicsInfo) (index : Nat) : FramebufferPixel := g.pixels.getD index blackPixel

/-- There is a transparency key, and a pixel equals it. -/
def Transparent (g : GraphicsInfo) (x y : BitVec 32) : Prop :=
  g.transparencyKey ≠ blackPixel ∧ g.pixelAt (g.pixelIndex x y) = g.transparencyKey

instance (g : GraphicsInfo) (x y : BitVec 32) : Decidable (g.Transparent x y) :=
  inferInstanceAs (Decidable (_ ∧ _))

end GraphicsInfo

/-- A graphics with its `children`, in the order of the vector. -/
inductive GraphicsTree where
  | node (g : GraphicsInfo) (children : List GraphicsTree)

/-- The graphics of a tree. -/
def GraphicsTree.info : GraphicsTree → GraphicsInfo
  | .node g _ => g

/-- An access to a pixel. -/
inductive PixelAccess where
  /-- `g->pixels[index]` is read. -/
  | read (g : GraphicsInfo) (index : Nat)
  /-- The framebuffer is written at a position of the screen. -/
  | write (x y : BitVec 32) (pixel : FramebufferPixel)
deriving DecidableEq

/-! ### Pasting onto the screen -/

/-- An end that is clipped: `if (end > limit) end = limit`. -/
def clipEnd (limit last : BitVec 32) : BitVec 32 := if last > limit then limit else last

/-- One pixel of `graphics_paste_pixels_to_framebuffer`. A pixel that equals the transparency key is not drawn. -/
def pastePixel (srcInfo : GraphicsInfo) (srcX srcY dstAbsX dstAbsY : BitVec 32) : List PixelAccess :=
  let index := srcInfo.pixelIndex srcX srcY
  .read srcInfo index ::
    if srcInfo.Transparent srcX srcY then [] else [.write dstAbsX dstAbsY (srcInfo.pixelAt index)]

/-- `graphics_paste_pixels_to_framebuffer`. -/
def graphicsPastePixelsToFramebuffer (screen srcInfo : GraphicsInfo)
    (srcX srcY width height dstAbsX dstAbsY : BitVec 32) : List PixelAccess :=
  let srcXEnd := clipEnd srcInfo.width (srcX + width)
  let srcYEnd := clipEnd srcInfo.height (srcY + height)
  let finalW := srcXEnd - srcX
  let finalH := srcYEnd - srcY
  if finalW = 0 ∨ finalH = 0 then []
  else if dstAbsX ≥ screen.horizontalResolution ∨ dstAbsY ≥ screen.verticalResolution then []
  else
    let dstXEnd := clipEnd screen.horizontalResolution (dstAbsX + finalW)
    let dstYEnd := clipEnd screen.verticalResolution (dstAbsY + finalH)
    let clippedW := dstXEnd - dstAbsX
    let clippedH := dstYEnd - dstAbsY
    if clippedW = 0 ∨ clippedH = 0 then []
    else
      (List.range clippedH.toNat).flatMap fun ly =>
        (List.range clippedW.toNat).flatMap fun lx =>
          pastePixel srcInfo (srcX + .ofNat 32 lx) (srcY + .ofNat 32 ly)
            (dstAbsX + .ofNat 32 lx) (dstAbsY + .ofNat 32 ly)

/-- `graphics_redraw_only`. -/
def graphicsRedrawOnly (screen g : GraphicsInfo) : List PixelAccess :=
  graphicsPastePixelsToFramebuffer screen g 0 0 g.width g.height g.startingX g.startingY

mutual

/-- `graphics_redraw`. -/
def graphicsRedraw (screen : GraphicsInfo) : GraphicsTree → List PixelAccess
  | .node g children => graphicsRedrawOnly screen g ++ graphicsRedrawChildren screen children

/-- `graphics_redraw_children`. -/
def graphicsRedrawChildren (screen : GraphicsInfo) : List GraphicsTree → List PixelAccess
  | [] => []
  | child :: children => graphicsRedraw screen child ++ graphicsRedrawChildren screen children

end

/-- `MAX`. -/
def maxOf (a b : BitVec 32) : BitVec 32 := if a > b then a else b

/-- `MIN`. -/
def minOf (a b : BitVec 32) : BitVec 32 := if a < b then a else b

mutual

/-- `graphics_redraw_region`. -/
def graphicsRedrawRegion (screen : GraphicsInfo) :
    GraphicsTree → (localX localY width height : BitVec 32) → List PixelAccess
  | .node g children, localX, localY, width, height =>
    if localX ≥ g.width ∨ localY ≥ g.height then []
    else
      let width := if localX + width > g.width then g.width - localX else width
      let height := if localY + height > g.height then g.height - localY else height
      let dstAbsX := g.startingX + localX
      let dstAbsY := g.startingY + localY
      graphicsPastePixelsToFramebuffer screen g localX localY width height dstAbsX dstAbsY ++
        graphicsRedrawRegionChildren screen children dstAbsX dstAbsY (dstAbsX + width) (dstAbsY + height)

/-- The loop of `graphics_redraw_region` over the children, with the region in absolute positions. -/
def graphicsRedrawRegionChildren (screen : GraphicsInfo) :
    List GraphicsTree → (left top right bottom : BitVec 32) → List PixelAccess
  | [], _, _, _, _ => []
  | child :: children, left, top, right, bottom =>
    let childAbsLeft := child.info.startingX
    let childAbsTop := child.info.startingY
    let childAbsRight := child.info.startingX + child.info.width
    let childAbsBottom := child.info.startingY + child.info.height
    let intersectLeft := maxOf childAbsLeft left
    let intersectTop := maxOf childAbsTop top
    let intersectRight := minOf childAbsRight right
    let intersectBottom := minOf childAbsBottom bottom
    (if intersectRight > intersectLeft ∧ intersectBottom > intersectTop then
      graphicsRedrawRegion screen child (intersectLeft - childAbsLeft) (intersectTop - childAbsTop)
        (intersectRight - intersectLeft) (intersectBottom - intersectTop)
    else []) ++ graphicsRedrawRegionChildren screen children left top right bottom

end

/-! ### The framebuffer -/

/-- The framebuffer, by index. -/
abbrev Framebuffer := Nat → FramebufferPixel

/-- The index of a position of the screen in the framebuffer. -/
def framebufferIndex (screen : GraphicsInfo) (x y : BitVec 32) : Nat := (y * screen.pixelsPerScanline + x).toNat

/-- The framebuffer after an access. -/
def Framebuffer.after (screen : GraphicsInfo) (framebuffer : Framebuffer) : PixelAccess → Framebuffer
  | .read _ _ => framebuffer
  | .write x y pixel => Function.update framebuffer (framebufferIndex screen x y) pixel

/-- The framebuffer after a list of accesses. -/
def Framebuffer.afterAll (screen : GraphicsInfo) (framebuffer : Framebuffer) (accesses : List PixelAccess) :
    Framebuffer :=
  accesses.foldl (Framebuffer.after screen) framebuffer

/-! ### Pasting into pixels -/

/-- `graphics_bounds_check`. The comparisons with the width and the height are unsigned. -/
def graphicsBoundsCheck (g : GraphicsInfo) (x y : BitVec 32) : Bool :=
  !(x.toInt < 0 || y.toInt < 0 || x ≥ g.width || y ≥ g.height)

/-- What `graphics_paste_pixels_to_pixels` has read and written: the indices into the source, those into the
destination, and the pixels of the destination. -/
structure PixelPaste where
  sourceReads : List Nat
  destinationAccesses : List Nat
  pixels : List FramebufferPixel

/-- `GRAPHICS_FLAG_ALLOW_OUT_OF_BOUNDS`. -/
def graphicsFlagAllowOutOfBounds : BitVec 32 := 0b00000001#32

/-- `GRAPHICS_FLAG_DO_NOT_COPY_PIXELS`. -/
def graphicsFlagDoNotCopyPixels : BitVec 32 := 0b00001000#32

/-- `GRAPHICS_FLAG_DO_NOT_OVERWRITE_TRANSPARENT_PIXELS`. -/
def graphicsFlagDoNotOverwriteTransparentPixels : BitVec 32 := 0b00010000#32

/-- `graphics_pixel_get`: the indices it reads, and the pixel, black when the position is out of bounds. -/
def graphicsPixelGet (g : GraphicsInfo) (x y : BitVec 32) : List Nat × FramebufferPixel :=
  if graphicsBoundsCheck g x y then ([g.pixelIndex x y], g.pixelAt (g.pixelIndex x y)) else ([], blackPixel)

/-- The body of the loops of `graphics_paste_pixels_to_pixels`. The test of `dx` and `dy` guards the look at the
existing pixel only, not the write. -/
def pasteToPixels (graphicsInfoIn graphicsInfoOut : GraphicsInfo) (srcX srcY dx dy : BitVec 32) (flags : BitVec 32)
    (paste : PixelPaste) : PixelPaste :=
  let (reads, pixel) := graphicsPixelGet graphicsInfoIn srcX srcY
  let index := graphicsInfoOut.pixelIndex dx dy
  let kept := dx < graphicsInfoOut.width ∧ dy < graphicsInfoOut.height ∧
    flags &&& graphicsFlagDoNotOverwriteTransparentPixels ≠ 0 ∧ graphicsInfoOut.transparencyKey ≠ blackPixel ∧
    paste.pixels.getD index blackPixel = graphicsInfoOut.transparencyKey
  { sourceReads := paste.sourceReads ++ reads
    destinationAccesses := paste.destinationAccesses ++ [index]
    pixels := if kept then paste.pixels else paste.pixels.set index pixel }

/-- `graphics_paste_pixels_to_pixels`. -/
def graphicsPastePixelsToPixels (graphicsInfoIn graphicsInfoOut : GraphicsInfo)
    (srcX srcY width height dstX dstY flags : BitVec 32) : PixelPaste :=
  let finalW := clipEnd graphicsInfoIn.width (srcX + width) - srcX
  let finalH := clipEnd graphicsInfoIn.height (srcY + height) - srcY
  (List.range finalW.toNat).foldl
    (fun paste lx => (List.range finalH.toNat).foldl
      (fun paste ly => pasteToPixels graphicsInfoIn graphicsInfoOut (srcX + .ofNat 32 lx) (srcY + .ofNat 32 ly)
        (dstX + .ofNat 32 lx) (dstY + .ofNat 32 ly) flags paste) paste)
    ⟨[], [], graphicsInfoOut.pixels⟩

/-- The test of `graphics_info_create_relative`: the new rectangle ends inside the one of the source, whose sizes
are its resolutions. -/
def createAccepts (sourceGraphics : GraphicsInfo) (x y width height : BitVec 64) (flags : BitVec 32) : Prop :=
  let parentX := sourceGraphics.startingX.setWidth 64
  let parentY := sourceGraphics.startingY.setWidth 64
  flags &&& graphicsFlagAllowOutOfBounds ≠ 0 ∨
    (parentX + x + width ≤ parentX + sourceGraphics.horizontalResolution.setWidth 64 ∧
      parentY + y + height ≤ parentY + sourceGraphics.verticalResolution.setWidth 64)

instance (sourceGraphics : GraphicsInfo) (x y width height : BitVec 64) (flags : BitVec 32) :
    Decidable (createAccepts sourceGraphics x y width height flags) :=
  inferInstanceAs (Decidable (_ ∨ _))

/-- The new graphics of `graphics_info_create_relative` before pixels are copied. -/
def newGraphics (sourceGraphics : GraphicsInfo) (x y width height : BitVec 64) : GraphicsInfo where
  horizontalResolution := sourceGraphics.horizontalResolution
  verticalResolution := sourceGraphics.verticalResolution
  pixelsPerScanline := sourceGraphics.pixelsPerScanline
  pixels := List.replicate (width.setWidth 32 * height.setWidth 32).toNat blackPixel
  width := width.setWidth 32
  height := height.setWidth 32
  startingX := (sourceGraphics.startingX.setWidth 64 + x).setWidth 32
  startingY := (sourceGraphics.startingY.setWidth 64 + y).setWidth 32
  transparencyKey := blackPixel

/-- `graphics_info_create_relative`, when there is memory: the new graphics with the pixels it then has, and what
it read and wrote for them. -/
def graphicsInfoCreateRelative (sourceGraphics : GraphicsInfo) (x y width height : BitVec 64) (flags : BitVec 32) :
    Option (GraphicsInfo × PixelPaste) :=
  if createAccepts sourceGraphics x y width height flags then
    let created := newGraphics sourceGraphics x y width height
    let paste :=
      if flags &&& graphicsFlagDoNotCopyPixels = 0 then
        graphicsPastePixelsToPixels sourceGraphics created (x.setWidth 32) (y.setWidth 32) created.width
          created.height 0 0 graphicsFlagDoNotOverwriteTransparentPixels
      else ⟨[], [], created.pixels⟩
    some ({ created with pixels := paste.pixels }, paste)
  else none

end PeachOS
