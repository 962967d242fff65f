/-
**Drawing a character of a font that was loaded from an image.**

The bits of a character are set by one loop and tested by another. Where the bits of a cell fill its bytes, each pixel of each
cell has a bit of its own, and the pixels that are drawn are the lit ones of the cell.

* `markAll_bit` — a bit of the data is set when it was marked;
* `lit_packed_iff` — the bit that is tested for a pixel is set when the pixel of the image is lit;
* `fontDraw_packed` — what a character changes in its target.
-/

import PeachOS.Graphics.Draw
import PeachOS.Graphics.FontImage

namespace PeachOS

open ByteStore Raster

/-! ### The code -/

/-- The calls of `graphics_draw_pixel` for pixels of a glyph. -/
def glyphDraws (fontColor : FramebufferPixel) (pixels : List TerminalPixel) : List PixelDraw :=
  pixels.map fun
    | .glyph x y | .background x y => ⟨.ofNat 32 x, .ofNat 32 y, fontColor⟩

/-- `font_draw_from_index`: its target then. -/
def fontDrawTo (ignoreColor : FramebufferPixel) (g : GraphicsInfo) (font : Font) (screenX screenY indexCharacter : Int)
    (fontColor : FramebufferPixel) : GraphicsInfo :=
  drawEach ignoreColor g (glyphDraws fontColor (fontDrawFromIndex font screenX screenY indexCharacter))

/-! ### Bits -/

/-- The bit that a mark sets. -/
theorem mark_bit {bit mark : Nat} (inByte : bit < 8) : (1#8 <<< mark).getLsbD bit = decide (bit = mark) := by
  rw [BitVec.getLsbD_shiftLeft, BitVec.getLsbD_one]
  by_cases before : bit < mark
  · simp [before, Nat.ne_of_lt before]
  · simp only [inByte, before, decide_true, decide_false, Bool.not_false, Bool.true_and]
    exact decide_eq_decide.mpr (by omega)

/-- **A bit of the data is set** when it was, or when it was marked. -/
theorem markAll_bit {address bit : Nat} (inByte : bit < 8) : ∀ {marks : List (Nat × Nat)} {data : Store Byte},
    (markAll data marks address).getLsbD bit = true ↔ (data address).getLsbD bit = true ∨ (address, bit) ∈ marks := by
  intro marks
  induction marks with
  | nil => simp [markAll]
  | cons mark marks ih =>
      intro data
      rw [markAll, ih, List.mem_cons]
      by_cases here : address = mark.1
      · rw [here, put_same, BitVec.getLsbD_or, mark_bit inByte, Bool.or_eq_true, decide_eq_true_eq, Prod.ext_iff]
        tauto
      · rw [put_other _ here, Prod.ext_iff]
        tauto

/-! ### Lit pixels -/

section Packed

variable {image : Image} {pixelWidth pixelHeight yOffsetPerCharacter row col x y : Nat} (bounds : ImageBounds image)

include bounds

/-- The bit of the data that is tested for a pixel, where nothing wraps. -/
theorem lit_packed (inRows : row < image.height / pixelHeight) (inCols : col < image.width / pixelWidth) (inX : x < pixelWidth)
    (inY : y < pixelHeight) :
    (packedFont image pixelWidth pixelHeight yOffsetPerCharacter).lit ((row * (image.width / pixelWidth) + col : Nat) : Int) x y =
      ((packedFont image pixelWidth pixelHeight yOffsetPerCharacter).characterData
        (fontMark image pixelWidth pixelHeight row col x y).1).getLsbD (fontMark image pixelWidth pixelHeight row col x y).2 := by
  have index := index_lt inRows inCols
  have fewer := cells_fewer image pixelWidth pixelHeight
  have cells := cells_le image pixelWidth pixelHeight
  have one : 1 ≤ image.height / pixelHeight * (image.width / pixelWidth) := by omega
  have first := Nat.mul_le_mul_right (pixelWidth * pixelHeight) one
  have bit := index_lt inY inX
  obtain ⟨-, -, area⟩ := bounds
  rw [Nat.mul_comm pixelHeight] at bit
  unfold Font.lit fontMark charactersPerRow bytesPerCharacter
  dsimp only
  rw [toWord_natCast (show row * (image.width / pixelWidth) < 2 ^ 64 by omega),
    toWord_natCast (show row * (image.width / pixelWidth) + col < 2 ^ 64 by omega),
    toWord_natCast (show y * pixelWidth < 2 ^ 64 by omega)]
  rfl

/-- **The bit that is tested for a pixel** is set exactly when the pixel of the image is lit and not above the offset. -/
theorem lit_packed_iff (fills : 8 ∣ pixelWidth * pixelHeight) (inRows : row < image.height / pixelHeight)
    (inCols : col < image.width / pixelWidth) (inX : x < pixelWidth) (inY : y < pixelHeight) :
    (packedFont image pixelWidth pixelHeight yOffsetPerCharacter).lit ((row * (image.width / pixelWidth) + col : Nat) : Int) x y =
        true ↔
      yOffsetPerCharacter ≤ y ∧ (cellPixel image pixelWidth pixelHeight row col x y).Lit := by
  obtain ⟨bytes, isBytes⟩ := fills
  have character : totalRequiredBytes (pixelWidth * pixelHeight) = bytes := by
    have bounds := totalRequiredBytes_bounds (pixelWidth * pixelHeight)
    omega
  have data : (packedFont image pixelWidth pixelHeight yOffsetPerCharacter).characterData =
      markAll (fun _ => 0x00#8) (fontMarks image pixelWidth pixelHeight yOffsetPerCharacter) := rfl
  have clear : (0x00#8).getLsbD ((y * pixelWidth + x) % 8) = true ↔ False := by simp
  rw [lit_packed bounds inRows inCols inX inY, fontMark_eq bounds inRows inCols inX inY, data,
    markAll_bit (Nat.mod_lt _ (by decide)), clear, false_or, mem_fontMarks bounds]
  constructor
  · rintro ⟨row', inRows', col', inCols', x', inX', y', inY', low, lit, same⟩
    rw [character, Prod.mk.injEq] at same
    -- A bit of the data is one bit of one character.
    have bit := index_lt inY inX
    have bit' := index_lt inY' inX'
    rw [Nat.mul_comm pixelHeight, isBytes] at bit bit'
    have sameBit : (row * (image.width / pixelWidth) + col) * (8 * bytes) + (y * pixelWidth + x) =
        (row' * (image.width / pixelWidth) + col') * (8 * bytes) + (y' * pixelWidth + x') := by
      rw [Nat.mul_left_comm _ 8, Nat.mul_left_comm _ 8]
      omega
    obtain ⟨sameCell, samePixel⟩ := (index_inj bit bit').mp sameBit
    obtain ⟨rfl, rfl⟩ := (index_inj inCols inCols').mp sameCell
    obtain ⟨rfl, rfl⟩ := (index_inj inX inX').mp samePixel
    exact ⟨low, lit⟩
  · rintro ⟨low, lit⟩
    exact ⟨row, inRows, col, inCols, x, inX, y, inY, low, lit, rfl⟩

end Packed

/-! ### The drawn pixels -/

/-- A pixel of the cell with some index that is drawn to an entry of the target. -/
def CellDrawnTo (image : Image) (pixelWidth pixelHeight yOffsetPerCharacter index : Nat) (g : GraphicsInfo)
    (screenX screenY : Nat)
    (entry : Nat) : Prop :=
  ∃ x < pixelWidth, ∃ y < pixelHeight, yOffsetPerCharacter ≤ y ∧
    (cellPixel image pixelWidth pixelHeight (index / (image.width / pixelWidth)) (index % (image.width / pixelWidth)) x y).Lit ∧
      screenX + x < g.width.toNat ∧ screenY + y < g.height.toNat ∧
        entry = g.pixelIndex (.ofNat 32 (screenX + x)) (.ofNat 32 (screenY + y))

/-- The calls that draw a glyph. -/
theorem mem_glyphDraws {font : Font} {screenX screenY index : Int} {fontColor : FramebufferPixel} {draw : PixelDraw}
    (drawn : ¬ toWord index > font.characterCount) :
    draw ∈ glyphDraws fontColor (fontDrawFromIndex font screenX screenY index) ↔
      ∃ x < font.bitsWidthPerCharacter, ∃ y < font.bitsHeightPerCharacter, font.lit index x y = true ∧
        draw = ⟨.ofNat 32 (toUInt32 (toWord (screenX + x))), .ofNat 32 (toUInt32 (toWord (screenY + y))), fontColor⟩ := by
  unfold glyphDraws fontDrawFromIndex
  rw [if_neg drawn]
  simp only [List.mem_map, List.mem_flatMap, List.mem_filter, List.mem_range]
  constructor
  · rintro ⟨pixel, ⟨x, inX, y, ⟨inY, lit⟩, rfl⟩, rfl⟩
    exact ⟨x, inX, y, inY, lit, rfl⟩
  · rintro ⟨x, inX, y, inY, lit, rfl⟩
    exact ⟨_, ⟨x, inX, y, ⟨inY, lit⟩, rfl⟩, rfl⟩

/-- A position on the screen, as the pixel gets it. -/
theorem screen_position {start size pixel limit : Nat} (inSize : pixel < size) (small : size < 2 ^ 31) (isInt : start < 2 ^ 31)
    (isWidth : limit < 2 ^ 32) :
    toUInt32 (toWord ((start : Int) + (pixel : Int))) = start + pixel ∧
      (BitVec.ofNat 32 (start + pixel) < BitVec.ofNat 32 limit ↔ start + pixel < limit) := by
  constructor
  · rw [← Nat.cast_add, toWord_natCast (by omega), toUInt32_natCast (by omega)]
  · rw [BitVec.lt_def, BitVec.toNat_ofNat, BitVec.toNat_ofNat, Nat.mod_eq_of_lt (by omega), Nat.mod_eq_of_lt isWidth]

/-- The font that the kernel gets from an image. -/
theorem fontLoad_font {image : Image} {pixelWidth pixelHeight yOffsetPerCharacter : Nat} (wide : 0 < pixelWidth)
    (tall : 0 < pixelHeight) {load : FontLoad} {font : Font}
    (isLoad : fontLoadFromImage image pixelWidth pixelHeight yOffsetPerCharacter true true = some load)
    (isFont : load.font = some font) : font = packedFont image pixelWidth pixelHeight yOffsetPerCharacter := by
  unfold fontLoadFromImage at isLoad
  rw [if_neg (by omega), if_neg (by decide), Option.some.injEq] at isLoad
  rw [← isLoad, fontFill, if_pos rfl, Option.some.injEq] at isFont
  exact isFont.symm

section Drawn

variable {image : Image} (bounds : ImageBounds image) {pixelWidth pixelHeight yOffsetPerCharacter index : Nat}
  {g : GraphicsInfo} {screenX screenY entry : Nat} {fontColor : FramebufferPixel}

include bounds

/-- **The draws that go to an entry** are those of the pixels of the cell. -/
theorem glyphDraws_to_iff (fills : 8 ∣ pixelWidth * pixelHeight)
    (few : image.height / pixelHeight * (image.width / pixelWidth) ≤ 255)
    (isCell : index < image.height / pixelHeight * (image.width / pixelWidth)) (intX : screenX < 2 ^ 31)
    (intY : screenY < 2 ^ 31) :
    (∃ draw ∈ glyphDraws fontColor
        (fontDrawFromIndex (packedFont image pixelWidth pixelHeight yOffsetPerCharacter) screenX screenY (index : Nat)),
      draw.To blackPixel g entry) ↔
      CellDrawnTo image pixelWidth pixelHeight yOffsetPerCharacter index g screenX screenY entry := by
  have someCols : 0 < image.width / pixelWidth := Nat.pos_of_mul_pos_left (Nat.zero_lt_of_lt isCell)
  have inRows : index / (image.width / pixelWidth) < image.height / pixelHeight :=
    Nat.div_lt_of_lt_mul (by rwa [Nat.mul_comm])
  have inCols : index % (image.width / pixelWidth) < image.width / pixelWidth := Nat.mod_lt _ someCols
  have isIndex : index / (image.width / pixelWidth) * (image.width / pixelWidth) + index % (image.width / pixelWidth) =
      index := by
    rw [Nat.mul_comm]
    exact Nat.div_add_mod _ _
  have numbered : (packedFont image pixelWidth pixelHeight yOffsetPerCharacter).characterCount =
      min 255 (image.height / pixelHeight * (image.width / pixelWidth)) := fontTotalCharacters_eq bounds
  have drawn : ¬ toWord (index : Nat) > (packedFont image pixelWidth pixelHeight yOffsetPerCharacter).characterCount := by
    rw [numbered, toWord_natCast (by omega)]
    omega
  have lit := fun {x y : Nat} => @lit_packed_iff image pixelWidth pixelHeight yOffsetPerCharacter _ _ x y bounds fills
    inRows inCols
  rw [isIndex] at lit
  have narrow : pixelWidth < 2 ^ 31 := by
    have inImage := Nat.div_mul_le_self image.width pixelWidth
    have first := Nat.mul_le_mul_right pixelWidth someCols
    have wide := bounds.wide
    omega
  have low : pixelHeight < 2 ^ 31 := by
    have inImage := Nat.div_mul_le_self image.height pixelHeight
    have first := Nat.mul_le_mul_right pixelHeight (Nat.zero_lt_of_lt inRows)
    have high := bounds.high
    omega
  have place : ∀ {x y : Nat}, x < pixelWidth → y < pixelHeight →
      ((⟨.ofNat 32 (toUInt32 (toWord ((screenX : Int) + (x : Int)))), .ofNat 32 (toUInt32 (toWord ((screenY : Int) + (y : Int)))),
        fontColor⟩ : PixelDraw).To blackPixel g entry ↔ screenX + x < g.width.toNat ∧ screenY + y < g.height.toNat ∧
          entry = g.pixelIndex (.ofNat 32 (screenX + x)) (.ofNat 32 (screenY + y))) := by
    intro x y inX inY
    obtain ⟨isX, insideX⟩ := screen_position inX narrow intX g.width.isLt
    obtain ⟨isY, insideY⟩ := screen_position inY low intY g.height.isLt
    unfold PixelDraw.To
    rw [isX, isY]
    rw [BitVec.ofNat_toNat, BitVec.setWidth_eq] at insideX insideY
    rw [insideX, insideY]
    exact ⟨fun goes => ⟨goes.2.1, goes.2.2.1, goes.2.2.2.symm⟩,
      fun goes => ⟨fun ignored => ignored.1 rfl, goes.1, goes.2.1, goes.2.2.symm⟩⟩
  constructor
  · rintro ⟨draw, isDraw, goes⟩
    obtain ⟨x, inX, y, inY, isLit, rfl⟩ := (mem_glyphDraws drawn).mp isDraw
    obtain ⟨notAbove, isLit⟩ := (lit inX inY).mp isLit
    exact ⟨x, inX, y, inY, notAbove, isLit, (place inX inY).mp goes⟩
  · rintro ⟨x, inX, y, inY, notAbove, isLit, goes⟩
    exact ⟨_, (mem_glyphDraws drawn).mpr ⟨x, inX, y, inY, (lit inX inY).mpr ⟨notAbove, isLit⟩, rfl⟩, (place inX inY).mpr goes⟩

end Drawn

/-- **A character of a loaded font draws the lit pixels of its cell**, where they are in the target, and nothing else. -/
theorem fontDraw_packed {image : Image} (loaded : LoadedImage image) {pixelWidth pixelHeight yOffsetPerCharacter : Nat}
    (wide : 0 < pixelWidth) (tall : 0 < pixelHeight) (fills : 8 ∣ pixelWidth * pixelHeight)
    (few : image.height / pixelHeight * (image.width / pixelWidth) ≤ 255) {load : FontLoad} {font : Font}
    (isLoad : fontLoadFromImage image pixelWidth pixelHeight yOffsetPerCharacter true true = some load)
    (isFont : load.font = some font) {index : Nat}
    (isCell : index < image.height / pixelHeight * (image.width / pixelWidth)) {g : GraphicsInfo} (sized : g.Sized)
    {screenX screenY : Nat} (intX : screenX < 2 ^ 31) (intY : screenY < 2 ^ 31) (fontColor : FramebufferPixel)
    (entry : Nat) :
    (CellDrawnTo image pixelWidth pixelHeight yOffsetPerCharacter index g screenX screenY entry →
      (fontDrawTo blackPixel g font screenX screenY index fontColor).pixelAt entry = fontColor) ∧
    (¬ CellDrawnTo image pixelWidth pixelHeight yOffsetPerCharacter index g screenX screenY entry →
      (fontDrawTo blackPixel g font screenX screenY index fontColor).pixelAt entry = g.pixelAt entry) := by
  have colored : ∀ draw ∈ glyphDraws fontColor (fontDrawFromIndex font screenX screenY index), draw.pixel = fontColor := by
    intro draw isDraw
    obtain ⟨pixel, -, rfl⟩ := List.mem_map.mp isDraw
    cases pixel with
    | glyph x y => rfl
    | background x y => rfl
  rw [fontLoad_font wide tall isLoad isFont] at colored ⊢
  have goes := @glyphDraws_to_iff image loaded.bounds pixelWidth pixelHeight yOffsetPerCharacter index g screenX screenY entry
    fontColor fills few isCell intX intY
  constructor
  · exact fun cell => drawEach_pixelAt sized (fun draw isDraw _ => colored draw isDraw) (Or.inr (goes.mpr cell))
  · exact fun notCell => drawEach_pixelAt sized (fun draw isDraw to' => absurd (goes.mp ⟨draw, isDraw, to'⟩) notCell) (Or.inl rfl)

/-- One cell of a row of pixels, of which one is lit. -/
def dotCell : BmpEncoding where
  width := 8
  height := 1
  pixel := fun _ col => if col = 3 then ⟨0xFF#8, 0xFF#8, 0xFF#8, 0x00#8⟩ else clearPixel
  topDown := true
  bfSize := 78
  bfReserved := 0
  biSize := 40
  biPlanes := 1
  biRest := List.replicate 20 0x00#8
  rest_length := zeroRest_length
  gap := []
  padding := fun _ _ => 0x00#8

/-- A black target of two rows. -/
def dotTarget : GraphicsInfo := ⟨8, 2, 8, List.replicate 16 blackPixel, 8, 2, 0, 0, blackPixel⟩

/-- The lit pixel of the cell is drawn, in the second row of the target. -/
theorem fontDraw_packed_dot :
    (fontDrawTo blackPixel dotTarget (packedFont (encodedImage dotCell) 8 1 0) 1 1 0 ⟨0xFF#8, 0x00#8, 0x00#8, 0x00#8⟩).pixelAt
      12 = ⟨0xFF#8, 0x00#8, 0x00#8, 0x00#8⟩ := by
  obtain ⟨loaded, width, height, pixels⟩ := @encodedImage_loaded dotCell (by decide) (by decide) (by
    rw [dotCell.bmpEncode_length]
    decide)
  have drawn := @fontDraw_packed (encodedImage dotCell) loaded 8 1 0 (by decide) (by decide) (by decide)
    (by rw [width, height]; decide) _ _ rfl rfl 0 (by rw [width, height]; decide) dotTarget rfl 1 1 (by decide) (by decide)
    ⟨0xFF#8, 0x00#8, 0x00#8, 0x00#8⟩ 12
  refine drawn.1 ⟨3, by decide, 0, by decide, by decide, ?_, by decide, by decide, by decide⟩
  have lit : (⟨0xFF#8, 0xFF#8, 0xFF#8, 0x00#8⟩ : ImagePixelData).Lit := by decide
  have pixel := pixels 0 (by decide) 3 (by decide)
  unfold cellPixel
  rw [width, show 0 / (dotCell.width / 8) = 0 from rfl, show 0 % (dotCell.width / 8) = 0 from rfl]
  rw [show (0 * 1 + 0) * dotCell.width + (0 * 8 + 3) = 0 * dotCell.width + 3 from rfl, pixel]
  exact lit

end PeachOS
