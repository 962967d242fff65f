/-
**Loading a font from an image: `font_load_from_image` of `graphics/font.c`, and its copy in the library for programs.**

The data is sized for the bits of 255 characters at most. It is filled for all characters of the image, each of which starts at
a byte of its own. A character is drawn if its index is at most their number.

* `readsFit_of_dvd` — which characters fit when the bits of a character fill its bytes;
* `fontLoad_inside_iff` — when a font is loaded and drawn inside its data.
-/

import PeachOS.Graphics.BmpDecode
import PeachOS.Graphics.Terminal

namespace PeachOS

open ByteStore Raster

/-! ### The code -/

/-- `graphics_image_get_pixel`. -/
def graphicsImageGetPixel (image : Image) (x y : Int) : ImagePixelData := image.data (toUInt32 (toUInt32 (y * image.width) + x))

/-- A pixel that is not black. -/
def ImagePixelData.Lit (pixel : ImagePixelData) : Prop := pixel.R ≠ 0x00#8 ∨ pixel.B ≠ 0x00#8 ∨ pixel.G ≠ 0x00#8

instance (pixel : ImagePixelData) : Decidable pixel.Lit := inferInstanceAs (Decidable (_ ∨ _ ∨ _))

/-- The bytes that hold some bits. -/
def totalRequiredBytes (bits : Nat) : Nat := bits / 8 + if bits % 8 ≠ 0 then 1 else 0

/-- What loading a font does: the bytes of its data, the bits it sets, each as a byte and its bit, and the font. -/
structure FontLoad where
  room : Nat
  marks : List (Nat × Nat)
  font : Option Font

section Code

variable (image : Image) (pixelWidth pixelHeight yOffsetPerCharacter : Nat)

/-- `characters_per_row`. -/
def charactersPerRow : Nat := image.width / pixelWidth

/-- `total_rows`. -/
def fontTotalRows : Nat := image.height / pixelHeight

/-- `total_characters`, capped. -/
def fontTotalCharacters : Nat := min 255 (toWord (fontTotalRows image pixelHeight * charactersPerRow image pixelWidth : Nat))

/-- `total_required_bytes_for_character_set`. -/
def characterSetBytes : Nat :=
  totalRequiredBytes (toWord (toWord (fontTotalCharacters image pixelWidth pixelHeight * pixelWidth : Nat) * pixelHeight : Nat))

/-- `total_required_bytes_per_character`. -/
def bytesPerCharacter : Nat := totalRequiredBytes (toWord (pixelWidth * pixelHeight : Nat))

/-- The pixel of the image for a pixel of a cell. -/
def fontPixel (row col x y : Nat) : ImagePixelData :=
  graphicsImageGetPixel image (toInt32 (toWord (toWord (col * pixelWidth : Nat) + x : Nat)))
    (toInt32 (toWord (toWord (row * pixelHeight : Nat) + y : Nat)))

/-- `byte_index`, and the bit of `bit_mask`. -/
def fontMark (row col x y : Nat) : Nat × Nat :=
  let characterIndex := toWord (toWord (row * charactersPerRow image pixelWidth : Nat) + col : Nat)
  let charOffset := toWord (characterIndex * bytesPerCharacter pixelWidth pixelHeight : Nat)
  let bitIndex := toWord (toWord (y * pixelWidth : Nat) + x : Nat)
  (toWord (charOffset + bitIndex / 8 : Nat), bitIndex % 8)

/-- The rows and columns of the loops, which count with an `int`. -/
def fontCells : List (Nat × Nat) :=
  (List.range (min (fontTotalRows image pixelHeight) (2 ^ 31))).flatMap fun row =>
    (List.range (min (charactersPerRow image pixelWidth) (2 ^ 31))).map fun col => (row, col)

/-- The loops: the bits that they set. -/
def fontMarks : List (Nat × Nat) :=
  (fontCells image pixelWidth pixelHeight).flatMap fun cell =>
    (List.range pixelWidth).flatMap fun x =>
      ((List.range' yOffsetPerCharacter (pixelHeight - yOffsetPerCharacter)).filter fun y =>
          decide (fontPixel image pixelWidth pixelHeight cell.1 cell.2 x y).Lit).map fun y =>
        fontMark image pixelWidth pixelHeight cell.1 cell.2 x y

/-- `character_data[byte_index] |= bit_mask`, for each mark. -/
def markAll : (data : Store Byte) → (marks : List (Nat × Nat)) → Store Byte
  | data, [] => data
  | data, mark :: marks => markAll (put data mark.1 (data mark.1 ||| (1#8 <<< mark.2))) marks

/-- The font of the data. -/
def packedFont : Font where
  characterCount := fontTotalCharacters image pixelWidth pixelHeight
  characterData := markAll (fun _ => 0x00#8) (fontMarks image pixelWidth pixelHeight yOffsetPerCharacter)
  bitsWidthPerCharacter := pixelWidth
  bitsHeightPerCharacter := pixelHeight
  subtractFromAsciiCharIndexForDrawing := 32#8

/-- The loops and `font_create`, with data of some bytes. -/
def fontFill (room : Nat) (fontAllocated : Bool) : FontLoad where
  room := room
  marks := fontMarks image pixelWidth pixelHeight yOffsetPerCharacter
  font := if fontAllocated then some (packedFont image pixelWidth pixelHeight yOffsetPerCharacter) else none

/-- `font_load_from_image`, once the image is loaded. It does not survive a division by zero. -/
def fontLoadFromImage (dataAllocated fontAllocated : Bool) : Option FontLoad :=
  if pixelWidth = 0 ∨ pixelHeight = 0 then none
  else if !dataAllocated then some ⟨0, [], none⟩
  else
    some (fontFill image pixelWidth pixelHeight yOffsetPerCharacter
      (characterSetBytes image pixelWidth pixelHeight) fontAllocated)

/-- `font_load_from_image_file` of the library for programs, once the image is loaded: a null pointer is not checked. -/
def guilibFontLoadFromImageFile (dataAllocated fontAllocated : Bool) : Option FontLoad :=
  if pixelWidth = 0 ∨ pixelHeight = 0 then none
  else
    some (fontFill image pixelWidth pixelHeight yOffsetPerCharacter
      (if dataAllocated then toWord (1 * characterSetBytes image pixelWidth pixelHeight : Nat) else 0) fontAllocated)

end Code

/-- The bytes of `character_data` that `font_draw_from_index` reads, in both copies. -/
def fontDrawReads (font : Font) (indexCharacter : Int) : List Nat :=
  if toWord indexCharacter > font.characterCount then []
  else
    (List.range font.bitsWidthPerCharacter).flatMap fun (x : Nat) =>
      (List.range font.bitsHeightPerCharacter).map fun (y : Nat) =>
        let charOffset := toWord (toWord indexCharacter * font.totalRequiredBytesPerCharacter : Nat)
        let bitIndex := toWord (y * font.bitsWidthPerCharacter + x : Nat)
        toWord (charOffset + bitIndex / 8 : Nat)

/-- The index that `font_draw` passes on. -/
def fontDrawIndex (font : Font) (character : Int) : Int :=
  toInt32 (character - font.subtractFromAsciiCharIndexForDrawing.toNat)

/-- **The data of a font is written and read inside its bytes**, at the loading and at the drawing of a character. -/
def FontLoad.Inside (load : FontLoad) (character : Int) : Prop :=
  (∀ mark ∈ load.marks, mark.1 < load.room) ∧
    ∀ font ∈ load.font, ∀ index ∈ fontDrawReads font (fontDrawIndex font character), index < load.room

/-- **An image as `graphics_image_load` gives it**, in the kernel or in a program: decoded from a file, whose size has 32 bits. -/
def LoadedImage (image : Image) : Prop :=
  ∃ (bytes : Int → Byte) (size : Nat) (imageAllocated : Bool) (dataAllocated : Nat → Bool), size < 2 ^ 32 ∧
    ((bmpImgLoad bytes size imageAllocated dataAllocated).image = some image ∨
      (guilibBmpImgLoad bytes size imageAllocated dataAllocated).image = some image)

/-! ### Sizes -/

/-- The pixel of the image for a pixel of a cell, where nothing wraps. -/
def cellPixel (image : Image) (pixelWidth pixelHeight row col x y : Nat) : ImagePixelData :=
  image.data ((row * pixelHeight + y) * image.width + (col * pixelWidth + x))

/-- The bytes of the data. -/
def fontRoom (image : Image) (pixelWidth pixelHeight : Nat) : Nat :=
  totalRequiredBytes (min 255 (image.height / pixelHeight * (image.width / pixelWidth)) * (pixelWidth * pixelHeight))

/-- The sizes of a loaded image. -/
structure ImageBounds (image : Image) : Prop where
  wide : image.width < 2 ^ 31
  high : image.height < 2 ^ 31
  area : 3 * (image.height * image.width) < 2 ^ 32

theorem LoadedImage.bounds {image : Image} (loaded : LoadedImage image) : ImageBounds image := by
  obtain ⟨bytes, size, imageAllocated, dataAllocated, small, loaded⟩ := loaded
  have sizes : ∃ width height, BmpSized bytes width height ∧ image.width = width ∧ image.height = height ∧
      bfOffbits bytes + height * bmpRow width ≤ size := by
    rcases loaded with kernel | program
    · exact imgLoad_image (fun _ _ => rfl) kernel
    · exact imgLoad_image calloc_asks program
  obtain ⟨width, height, sized, isWidth, isHeight, fits⟩ := sizes
  refine ⟨by rw [isWidth]; exact sized.wide_lt, by rw [isHeight]; exact sized.high_lt, ?_⟩
  have row : height * (3 * width) ≤ height * bmpRow width := Nat.mul_le_mul_left _ (bmpRow_bounds width).1
  rw [isWidth, isHeight]
  rw [Nat.mul_left_comm] at row
  omega

theorem totalRequiredBytes_bounds (bits : Nat) : bits ≤ 8 * totalRequiredBytes bits ∧ 8 * totalRequiredBytes bits < bits + 8 := by
  unfold totalRequiredBytes
  split <;> omega

section Cells

variable {image : Image} {pixelWidth pixelHeight row col x y : Nat}

/-- **The cells lie in the image.** -/
theorem cells_le (image : Image) (pixelWidth pixelHeight : Nat) :
    image.height / pixelHeight * (image.width / pixelWidth) * (pixelWidth * pixelHeight) ≤ image.height * image.width :=
  calc image.height / pixelHeight * (image.width / pixelWidth) * (pixelWidth * pixelHeight)
      = image.height / pixelHeight * pixelHeight * (image.width / pixelWidth * pixelWidth) := by ring
    _ ≤ image.height * image.width := Nat.mul_le_mul (Nat.div_mul_le_self _ _) (Nat.div_mul_le_self _ _)

theorem cells_fewer (image : Image) (pixelWidth pixelHeight : Nat) :
    image.height / pixelHeight * (image.width / pixelWidth) ≤ image.height * image.width :=
  Nat.mul_le_mul (Nat.div_le_self _ _) (Nat.div_le_self _ _)

/-- A pixel of a cell is a pixel of the image. -/
theorem cell_inside {size cell index pixel : Nat} (inCells : index < size / cell) (inCell : pixel < cell) :
    index * cell + pixel < size :=
  (index_lt inCells inCell).trans_le (Nat.div_mul_le_self size cell)

variable (bounds : ImageBounds image)

include bounds

theorem fontPixel_eq (inRows : row < image.height / pixelHeight) (inCols : col < image.width / pixelWidth) (inX : x < pixelWidth)
    (inY : y < pixelHeight) :
    fontPixel image pixelWidth pixelHeight row col x y = cellPixel image pixelWidth pixelHeight row col x y := by
  have absX := cell_inside inCols inX
  have absY := cell_inside inRows inY
  have index := index_lt absY absX
  obtain ⟨wide, high, area⟩ := bounds
  unfold fontPixel cellPixel graphicsImageGetPixel
  rw [toWord_natCast (show col * pixelWidth < 2 ^ 64 by omega), toWord_natCast (show col * pixelWidth + x < 2 ^ 64 by omega),
    toWord_natCast (show row * pixelHeight < 2 ^ 64 by omega), toWord_natCast (show row * pixelHeight + y < 2 ^ 64 by omega),
    toInt32_of_bounds (by omega) (by omega), toInt32_of_bounds (by omega) (by omega), ← Nat.cast_mul,
    toUInt32_natCast (by omega), ← Nat.cast_add, toUInt32_natCast (by omega)]

/-- The characters are counted without a wrap. -/
theorem fontTotalCharacters_eq : fontTotalCharacters image pixelWidth pixelHeight =
    min 255 (image.height / pixelHeight * (image.width / pixelWidth)) := by
  obtain ⟨-, -, area⟩ := bounds
  have fewer := cells_fewer image pixelWidth pixelHeight
  unfold fontTotalCharacters fontTotalRows charactersPerRow
  rw [toWord_natCast (by omega)]

/-- The bytes of the data are counted without a wrap. -/
theorem characterSetBytes_eq : characterSetBytes image pixelWidth pixelHeight = fontRoom image pixelWidth pixelHeight := by
  have cells := cells_le image pixelWidth pixelHeight
  have capped := Nat.mul_le_mul_right (pixelWidth * pixelHeight)
    (Nat.min_le_right 255 (image.height / pixelHeight * (image.width / pixelWidth)))
  unfold characterSetBytes fontRoom
  rw [fontTotalCharacters_eq bounds]
  obtain ⟨-, -, area⟩ := bounds
  rcases Nat.eq_zero_or_pos pixelHeight with none | some
  · rw [none, Nat.div_zero, Nat.zero_mul, Nat.min_zero, Nat.zero_mul, Nat.zero_mul]
    rfl
  · generalize min 255 (image.height / pixelHeight * (image.width / pixelWidth)) = count at capped ⊢
    have inRow : count * pixelWidth ≤ count * pixelWidth * pixelHeight := Nat.le_mul_of_pos_right _ some
    rw [← Nat.mul_assoc] at capped ⊢
    rw [toWord_natCast (show count * pixelWidth < 2 ^ 64 by omega), toWord_natCast (by omega)]

/-- The bits of a character are counted without a wrap, where there is one. -/
theorem bytesPerCharacter_eq (inRows : row < image.height / pixelHeight) (inCols : col < image.width / pixelWidth) :
    toWord (pixelWidth * pixelHeight : Nat) = pixelWidth * pixelHeight := by
  have cells := cells_le image pixelWidth pixelHeight
  have one : 1 ≤ image.height / pixelHeight * (image.width / pixelWidth) :=
    Nat.mul_pos (Nat.zero_lt_of_lt inRows) (Nat.zero_lt_of_lt inCols)
  have first := Nat.mul_le_mul_right (pixelWidth * pixelHeight) one
  obtain ⟨-, -, area⟩ := bounds
  exact toWord_natCast (by omega)

/-- **The byte and the bit of a pixel**, where nothing wraps. -/
theorem fontMark_eq (inRows : row < image.height / pixelHeight) (inCols : col < image.width / pixelWidth) (inX : x < pixelWidth)
    (inY : y < pixelHeight) : fontMark image pixelWidth pixelHeight row col x y =
      ((row * (image.width / pixelWidth) + col) * totalRequiredBytes (pixelWidth * pixelHeight) + (y * pixelWidth + x) / 8,
        (y * pixelWidth + x) % 8) := by
  have cells := cells_le image pixelWidth pixelHeight
  have index := index_lt inRows inCols
  have bit := index_lt inY inX
  have bytes := totalRequiredBytes_bounds (pixelWidth * pixelHeight)
  have upTo := Nat.mul_le_mul_right (pixelWidth * pixelHeight) index
  rw [Nat.succ_mul] at upTo
  have inBits : (row * (image.width / pixelWidth) + col) * totalRequiredBytes (pixelWidth * pixelHeight) ≤
      (row * (image.width / pixelWidth) + col) * (pixelWidth * pixelHeight) := Nat.mul_le_mul_left _ (by omega)
  have fewer := cells_fewer image pixelWidth pixelHeight
  unfold fontMark charactersPerRow bytesPerCharacter
  rw [bytesPerCharacter_eq bounds inRows inCols]
  obtain ⟨-, -, area⟩ := bounds
  rw [Nat.mul_comm pixelHeight] at bit
  dsimp only
  rw [toWord_natCast (show row * (image.width / pixelWidth) < 2 ^ 64 by omega),
    toWord_natCast (show row * (image.width / pixelWidth) + col < 2 ^ 64 by omega),
    toWord_natCast (show (row * (image.width / pixelWidth) + col) * totalRequiredBytes
      (pixelWidth * pixelHeight) < 2 ^ 64 by omega),
    toWord_natCast (show y * pixelWidth < 2 ^ 64 by omega), toWord_natCast (show y * pixelWidth + x < 2 ^ 64 by omega),
    toWord_natCast (by omega)]

/-! ### What fits -/

/-- **The bits that a font needs for its lit pixels fit its data**: each is among those from the first byte of its character
on. -/
def FontMarksFit (image : Image) (pixelWidth pixelHeight yOffsetPerCharacter room : Nat) : Prop :=
  ∀ row < image.height / pixelHeight, ∀ col < image.width / pixelWidth, ∀ x < pixelWidth, ∀ y < pixelHeight,
    yOffsetPerCharacter ≤ y → (cellPixel image pixelWidth pixelHeight row col x y).Lit → y * pixelWidth + x <
      8 * (room - (row * (image.width / pixelWidth) + col) * totalRequiredBytes (pixelWidth * pixelHeight))

/-- **The bytes of a character that is drawn fit its data.** -/
def FontReadsFit (image : Image) (pixelWidth pixelHeight room : Nat) (index : Int) : Prop :=
  index < 0 ∨ (min 255 (image.height / pixelHeight * (image.width / pixelWidth)) : Nat) < index ∨
    index < (min 255 (image.height / pixelHeight * (image.width / pixelWidth)) : Nat) ∧
      (index.toNat + 1) * totalRequiredBytes (pixelWidth * pixelHeight) ≤ room

/-- The marks are those of the lit pixels. -/
theorem mem_fontMarks {yOffsetPerCharacter : Nat} {mark : Nat × Nat} :
    mark ∈ fontMarks image pixelWidth pixelHeight yOffsetPerCharacter ↔
      ∃ row < image.height / pixelHeight, ∃ col < image.width / pixelWidth, ∃ x < pixelWidth, ∃ y < pixelHeight,
        yOffsetPerCharacter ≤ y ∧ (cellPixel image pixelWidth pixelHeight row col x y).Lit ∧
          mark = ((row * (image.width / pixelWidth) + col) * totalRequiredBytes (pixelWidth * pixelHeight) +
            (y * pixelWidth + x) / 8, (y * pixelWidth + x) % 8) := by
  have fewRows : image.height / pixelHeight < 2 ^ 31 := (Nat.div_le_self _ _).trans_lt bounds.high
  have fewCols : image.width / pixelWidth < 2 ^ 31 := (Nat.div_le_self _ _).trans_lt bounds.wide
  unfold fontMarks fontCells fontTotalRows
  rw [Nat.min_eq_left (Nat.le_of_lt fewRows),
    Nat.min_eq_left (show charactersPerRow image pixelWidth ≤ 2 ^ 31 from Nat.le_of_lt fewCols)]
  simp only [List.mem_flatMap, List.mem_map, List.mem_filter, List.mem_range, List.mem_range'_1, decide_eq_true_eq]
  constructor
  · rintro ⟨cell, ⟨row, inRows, col, inCols, rfl⟩, x, inX, y, ⟨⟨low, high⟩, lit⟩, rfl⟩
    have inY : y < pixelHeight := by omega
    rw [fontPixel_eq bounds inRows inCols inX inY] at lit
    exact ⟨row, inRows, col, inCols, x, inX, y, inY, low, lit, fontMark_eq bounds inRows inCols inX inY⟩
  · rintro ⟨row, inRows, col, inCols, x, inX, y, inY, low, lit, rfl⟩
    rw [← fontPixel_eq bounds inRows inCols inX inY] at lit
    exact ⟨(row, col), ⟨row, inRows, col, inCols, rfl⟩, x, inX, y, ⟨⟨low, by omega⟩, lit⟩,
      fontMark_eq bounds inRows inCols inX inY⟩

theorem marks_inside_iff {yOffsetPerCharacter room : Nat} :
    (∀ mark ∈ fontMarks image pixelWidth pixelHeight yOffsetPerCharacter, mark.1 < room) ↔
      FontMarksFit image pixelWidth pixelHeight yOffsetPerCharacter room := by
  constructor
  · intro inside row inRows col inCols x inX y inY low lit
    have mark := inside _ ((mem_fontMarks bounds).mpr ⟨row, inRows, col, inCols, x, inX, y, inY, low, lit, rfl⟩)
    dsimp only at mark
    omega
  · rintro fit mark isMark
    obtain ⟨row, inRows, col, inCols, x, inX, y, inY, low, lit, rfl⟩ := (mem_fontMarks bounds).mp isMark
    have bit := fit row inRows col inCols x inX y inY low lit
    dsimp only
    omega

omit bounds in
/-- The bytes that are read of a font. -/
theorem mem_fontDrawReads {font : Font} {index : Int} (drawn : ¬ toWord index > font.characterCount) {read : Nat} :
    read ∈ fontDrawReads font index ↔ ∃ x < font.bitsWidthPerCharacter, ∃ y < font.bitsHeightPerCharacter,
      read = toWord (toWord (toWord index * font.totalRequiredBytesPerCharacter : Nat) +
        toWord (y * font.bitsWidthPerCharacter + x : Nat) / 8 : Nat) := by
  unfold fontDrawReads
  rw [if_neg drawn]
  simp only [List.mem_flatMap, List.mem_map, List.mem_range]
  constructor
  · rintro ⟨x, inX, y, inY, rfl⟩
    exact ⟨x, inX, y, inY, rfl⟩
  · rintro ⟨x, inX, y, inY, rfl⟩
    exact ⟨x, inX, y, inY, rfl⟩

/-- **A character of the font is read from its own bytes.** -/
theorem mem_reads_character {yOffsetPerCharacter index read : Nat}
    (counted : index ≤ min 255 (image.height / pixelHeight * (image.width / pixelWidth)))
    (some : 0 < image.height / pixelHeight * (image.width / pixelWidth)) :
    read ∈ fontDrawReads (packedFont image pixelWidth pixelHeight yOffsetPerCharacter) (index : Nat) ↔
      ∃ x < pixelWidth, ∃ y < pixelHeight,
        read = index * totalRequiredBytes (pixelWidth * pixelHeight) + (y * pixelWidth + x) / 8 := by
  have bits := bytesPerCharacter_eq bounds (Nat.pos_of_mul_pos_right some) (Nat.pos_of_mul_pos_left some)
  have cells := cells_le image pixelWidth pixelHeight
  have first := Nat.mul_le_mul_right (pixelWidth * pixelHeight) some
  have bytes := totalRequiredBytes_bounds (pixelWidth * pixelHeight)
  have few : index ≤ 255 := counted.trans (Nat.min_le_left _ _)
  have upTo := Nat.mul_le_mul_right (totalRequiredBytes (pixelWidth * pixelHeight)) few
  have isIndex : toWord (index : Nat) = index := toWord_natCast (by omega)
  have size : (packedFont image pixelWidth pixelHeight yOffsetPerCharacter).totalRequiredBytesPerCharacter =
      totalRequiredBytes (pixelWidth * pixelHeight) := congrArg totalRequiredBytes bits
  have drawn : ¬ toWord (index : Nat) > (packedFont image pixelWidth pixelHeight yOffsetPerCharacter).characterCount := by
    unfold packedFont
    rw [isIndex, fontTotalCharacters_eq bounds]
    exact Nat.not_lt_of_le counted
  rw [mem_fontDrawReads drawn, size, isIndex]
  obtain ⟨-, -, area⟩ := bounds
  refine exists_congr fun x => and_congr_right fun inX => exists_congr fun y => and_congr_right fun inY => ?_
  have bit := index_lt (show y < pixelHeight from inY) (show x < pixelWidth from inX)
  rw [Nat.mul_comm pixelHeight] at bit
  have asWords : toWord (toWord (index * totalRequiredBytes (pixelWidth * pixelHeight) : Nat) +
      toWord (y * pixelWidth + x : Nat) / 8 : Nat) =
        index * totalRequiredBytes (pixelWidth * pixelHeight) + (y * pixelWidth + x) / 8 := by
    rw [toWord_natCast (show index * totalRequiredBytes (pixelWidth * pixelHeight) < 2 ^ 64 by omega),
      toWord_natCast (show y * pixelWidth + x < 2 ^ 64 by omega), toWord_natCast (by omega)]
  exact Iff.of_eq (congrArg (read = ·) asWords)

/-- **When a character is read inside the data**, or what is left of it. -/
theorem reads_inside_iff {yOffsetPerCharacter room : Nat} {index : Int} (low : -2 ^ 31 ≤ index) (high : index < 2 ^ 31)
    (wide : 0 < pixelWidth) (tall : 0 < pixelHeight) (atMost : room ≤ fontRoom image pixelWidth pixelHeight) :
    (∀ read ∈ fontDrawReads (packedFont image pixelWidth pixelHeight yOffsetPerCharacter) index, read < room) ↔
      FontReadsFit image pixelWidth pixelHeight room index := by
  have numbered : (packedFont image pixelWidth pixelHeight yOffsetPerCharacter).characterCount =
      min 255 (image.height / pixelHeight * (image.width / pixelWidth)) := fontTotalCharacters_eq bounds
  have capped : min 255 (image.height / pixelHeight * (image.width / pixelWidth)) ≤ 255 := Nat.min_le_left _ _
  unfold fontRoom at atMost
  unfold FontReadsFit
  by_cases rejected : index < 0 ∨ (min 255 (image.height / pixelHeight * (image.width / pixelWidth)) : Nat) < index
  · have none : fontDrawReads (packedFont image pixelWidth pixelHeight yOffsetPerCharacter) index = [] := by
      unfold fontDrawReads
      rw [numbered]
      exact if_pos (by unfold toWord; omega)
    rw [none]
    exact iff_of_true (fun read isRead => absurd isRead List.not_mem_nil) (rejected.imp_right Or.inl)
  rw [not_or] at rejected
  obtain ⟨index, rfl⟩ := Int.eq_ofNat_of_zero_le (show 0 ≤ index by omega)
  have counted : index ≤ min 255 (image.height / pixelHeight * (image.width / pixelWidth)) := by omega
  have notRejected : ((index : Int) < 0 ∨
    (min 255 (image.height / pixelHeight * (image.width / pixelWidth)) : Nat) < (index : Int) ∨
      (index : Int) < (min 255 (image.height / pixelHeight * (image.width / pixelWidth)) : Nat) ∧
        ((index : Int).toNat + 1) * totalRequiredBytes (pixelWidth * pixelHeight) ≤ room) ↔
      index < min 255 (image.height / pixelHeight * (image.width / pixelWidth)) ∧
        (index + 1) * totalRequiredBytes (pixelWidth * pixelHeight) ≤ room := by
    rw [Int.toNat_natCast]
    omega
  have pixels : 0 < pixelWidth * pixelHeight := Nat.mul_pos wide tall
  rw [notRejected, Nat.succ_mul]
  rcases Nat.eq_zero_or_pos (image.height / pixelHeight * (image.width / pixelWidth)) with none | some
  · rw [none, Nat.min_zero] at counted atMost ⊢
    rw [Nat.zero_mul] at atMost
    have noRoom : room = 0 := Nat.le_zero.mp atMost
    refine iff_of_false (fun inside => ?_) (by omega)
    have drawn : ¬ toWord (index : Nat) > (packedFont image pixelWidth pixelHeight yOffsetPerCharacter).characterCount := by
      rw [toWord_natCast (by omega)]
      omega
    have read := inside _ ((mem_fontDrawReads drawn).mpr ⟨0, wide, 0, tall, rfl⟩)
    omega
  · have bytes := totalRequiredBytes_bounds (pixelWidth * pixelHeight)
    have set := totalRequiredBytes_bounds
      (min 255 (image.height / pixelHeight * (image.width / pixelWidth)) * (pixelWidth * pixelHeight))
    have mem := fun read => @mem_reads_character image pixelWidth pixelHeight bounds yOffsetPerCharacter index read counted some
    generalize min 255 (image.height / pixelHeight * (image.width / pixelWidth)) = count at *
    constructor
    · intro inside
      have last := inside _ ((mem _).mpr ⟨pixelWidth - 1, by omega, pixelHeight - 1, by omega, rfl⟩)
      have lastBit : (pixelHeight - 1) * pixelWidth + (pixelWidth - 1) = pixelWidth * pixelHeight - 1 := by
        obtain ⟨rows, rfl⟩ := Nat.exists_eq_succ_of_ne_zero (Nat.ne_of_gt tall)
        rw [Nat.succ_sub_one, Nat.mul_succ, Nat.mul_comm rows]
        omega
      rw [lastBit] at last
      have fits : index * totalRequiredBytes (pixelWidth * pixelHeight) + totalRequiredBytes
          (pixelWidth * pixelHeight) ≤ room := by
        omega
      refine ⟨Nat.lt_of_le_of_ne counted fun isCount => ?_, fits⟩
      -- The data has no byte for the character behind the last one.
      rw [isCount] at fits
      have most := Nat.mul_le_mul_left count bytes.1
      rw [Nat.mul_left_comm count 8] at most
      omega
    · rintro ⟨-, fits⟩ read isRead
      obtain ⟨x, inX, y, inY, rfl⟩ := (mem read).mp isRead
      have bit := index_lt inY inX
      rw [Nat.mul_comm pixelHeight] at bit
      omega

/-- **When a font is filled and drawn inside its data.** -/
theorem fontFill_inside_iff {yOffsetPerCharacter room : Nat} {fontAllocated : Bool} {character : Int} (wide : 0 < pixelWidth)
    (tall : 0 < pixelHeight) (atMost : room ≤ fontRoom image pixelWidth pixelHeight) :
    (fontFill image pixelWidth pixelHeight yOffsetPerCharacter room fontAllocated).Inside character ↔
      FontMarksFit image pixelWidth pixelHeight yOffsetPerCharacter room ∧
        (fontAllocated = true → FontReadsFit image pixelWidth pixelHeight room (toInt32 (character - 32))) := by
  obtain ⟨low, high⟩ := toInt32_bounds (character - 32)
  unfold FontLoad.Inside fontFill
  refine and_congr (marks_inside_iff bounds) ?_
  cases fontAllocated with
  | false => exact iff_of_true (fun font isFont => absurd isFont (by simp)) (fun isTrue => absurd isTrue (by decide))
  | true =>
      have reads := @reads_inside_iff image pixelWidth pixelHeight bounds yOffsetPerCharacter room _ low high wide tall atMost
      rw [if_pos rfl]
      exact ⟨fun inside _ => reads.mp (inside _ rfl), fun fits font isFont => by
        rw [← Option.mem_some.mp isFont]
        exact reads.mpr (fits rfl)⟩

omit bounds

/-- **Cells whose bits fill their bytes**: a character fits unless it is the one behind the last. -/
theorem readsFit_of_dvd (fills : 8 ∣ pixelWidth * pixelHeight) {index : Int} :
    FontReadsFit image pixelWidth pixelHeight (fontRoom image pixelWidth pixelHeight) index ↔
      index ≠ (min 255 (image.height / pixelHeight * (image.width / pixelWidth)) : Nat) := by
  obtain ⟨bytes, isBytes⟩ := fills
  unfold FontReadsFit fontRoom
  rw [isBytes, Nat.mul_left_comm _ 8]
  generalize min 255 (image.height / pixelHeight * (image.width / pixelWidth)) = count
  have character := totalRequiredBytes_bounds (8 * bytes)
  have room := totalRequiredBytes_bounds (8 * (count * bytes))
  have isCharacter : totalRequiredBytes (8 * bytes) = bytes := by omega
  have isRoom : totalRequiredBytes (8 * (count * bytes)) = count * bytes := by omega
  rw [isCharacter, isRoom]
  constructor
  · rintro fits rfl
    omega
  · intro other
    by_cases counted : index < count
    · by_cases negative : index < 0
      · exact Or.inl negative
      · exact Or.inr (Or.inr ⟨counted, Nat.mul_le_mul_right bytes (by omega)⟩)
    · exact Or.inr (Or.inl (by omega))

end Cells

/-- **When a font is loaded and a character of it drawn inside its data**, in the kernel and in the library for programs. Neither
survives a cell without a size; the kernel gives up when there is no memory for the data, the library goes on without any. -/
theorem fontLoad_inside_iff {image : Image} (loaded : LoadedImage image) (pixelWidth pixelHeight yOffsetPerCharacter : Nat)
    (character : Int) (dataAllocated fontAllocated : Bool) :
    ((∀ load ∈ fontLoadFromImage image pixelWidth pixelHeight yOffsetPerCharacter dataAllocated fontAllocated,
        load.Inside character) ↔
      (0 < pixelWidth → 0 < pixelHeight → dataAllocated = true →
        FontMarksFit image pixelWidth pixelHeight yOffsetPerCharacter (fontRoom image pixelWidth pixelHeight) ∧
          (fontAllocated = true → FontReadsFit image pixelWidth pixelHeight (fontRoom image pixelWidth pixelHeight)
            (toInt32 (character - 32))))) ∧
    ((∀ load ∈ guilibFontLoadFromImageFile image pixelWidth pixelHeight yOffsetPerCharacter dataAllocated fontAllocated,
        load.Inside character) ↔
      (0 < pixelWidth → 0 < pixelHeight →
        FontMarksFit image pixelWidth pixelHeight yOffsetPerCharacter
            (if dataAllocated then fontRoom image pixelWidth pixelHeight else 0) ∧
          (fontAllocated = true → FontReadsFit image pixelWidth pixelHeight
            (if dataAllocated then fontRoom image pixelWidth pixelHeight else 0) (toInt32 (character - 32))))) := by
  have bounds := loaded.bounds
  have fills := fun {room : Nat} => @fontFill_inside_iff image pixelWidth pixelHeight bounds yOffsetPerCharacter room
    fontAllocated character
  have callocBytes : toWord (1 * fontRoom image pixelWidth pixelHeight : Nat) = fontRoom image pixelWidth pixelHeight := by
    have cells := cells_le image pixelWidth pixelHeight
    have capped := Nat.mul_le_mul_right (pixelWidth * pixelHeight)
      (Nat.min_le_right 255 (image.height / pixelHeight * (image.width / pixelWidth)))
    have bytes := totalRequiredBytes_bounds
      (min 255 (image.height / pixelHeight * (image.width / pixelWidth)) * (pixelWidth * pixelHeight))
    have area := bounds.area
    unfold fontRoom
    exact calloc_asks _ (by omega)
  unfold fontLoadFromImage guilibFontLoadFromImageFile
  rw [characterSetBytes_eq bounds, callocBytes]
  by_cases empty : pixelWidth = 0 ∨ pixelHeight = 0
  · rw [if_pos empty, if_pos empty]
    refine ⟨iff_of_true (fun load isLoad => absurd isLoad (by simp)) fun wide tall => ?_,
      iff_of_true (fun load isLoad => absurd isLoad (by simp)) fun wide tall => ?_⟩
    · omega
    · omega
  · have wide : 0 < pixelWidth := by omega
    have tall : 0 < pixelHeight := by omega
    rw [if_neg empty, if_neg empty]
    constructor
    · cases dataAllocated with
      | false =>
          refine iff_of_true (fun load isLoad => ?_) (fun _ _ isTrue => absurd isTrue (by decide))
          rw [if_pos (by decide)] at isLoad
          rw [← Option.mem_some.mp isLoad]
          exact ⟨fun mark isMark => absurd isMark List.not_mem_nil, fun font isFont => absurd isFont (by simp)⟩
      | true =>
          rw [if_neg (by decide)]
          have filled := fills wide tall (Nat.le_refl _)
          exact ⟨fun inside _ _ _ => filled.mp (inside _ rfl), fun fits load isLoad => by
            rw [← Option.mem_some.mp isLoad]
            exact filled.mpr (fits wide tall rfl)⟩
    · have atMost : (if dataAllocated then fontRoom image pixelWidth pixelHeight else 0) ≤ fontRoom image pixelWidth
          pixelHeight := by
        split <;> omega
      have filled := fills wide tall atMost
      exact ⟨fun inside _ _ => filled.mp (inside _ rfl), fun fits load isLoad => by
        rw [← Option.mem_some.mp isLoad]
        exact filled.mpr (fits wide tall)⟩

/-! ### One black cell -/

/-- The image that is loaded from the file of an encoding. -/
def encodedImage (e : BmpEncoding) : Image :=
  (bmpImgLoad (listBytes e.bmpEncode) e.bmpEncode.length true fun _ => true).image.getD ⟨0, 0, fun _ => clearPixel⟩

theorem encodedImage_loaded {e : BmpEncoding} (wide : 1 ≤ e.width) (high : 1 ≤ e.height) (small : e.bmpEncode.length < 2 ^ 31) :
    LoadedImage (encodedImage e) ∧ (encodedImage e).Shows e := by
  have decoded : ∃ image, (bmpImgLoadWith (listBytes e.bmpEncode) e.bmpEncode.length id true fun _ => true).image = some image ∧
      image.Shows e :=
    e.imgLoad_encoded wide high small (e.stored_of_holds (listBytes_holds _)) (fun _ _ => rfl) rfl
  obtain ⟨image, loaded, shows⟩ := decoded
  have isImage : encodedImage e = image := by
    unfold encodedImage bmpImgLoad
    rw [loaded, Option.getD_some]
  rw [isImage]
  exact ⟨⟨_, _, _, _, by omega, Or.inl loaded⟩, shows⟩

/-- A cell of the kernel's size without a lit pixel. -/
def blackCell : BmpEncoding where
  width := 9
  height := 16
  pixel := fun _ _ => clearPixel
  topDown := false
  bfSize := 502
  bfReserved := 0
  biSize := 40
  biPlanes := 1
  biRest := List.replicate 20 0x00#8
  rest_length := zeroRest_length
  gap := []
  padding := fun _ _ => 0x00#8

/-- Its image. -/
def blackImage : Image := encodedImage blackCell

theorem blackImage_loaded : LoadedImage blackImage ∧ blackImage.Shows blackCell := by
  have length : blackCell.bmpEncode.length = 502 := by
    rw [blackCell.bmpEncode_length]
    rfl
  exact encodedImage_loaded (by decide) (by decide) (by omega)

/-- No pixel of it is lit. -/
theorem blackImage_marksFit (room : Nat) : FontMarksFit blackImage 9 16 4 room := by
  obtain ⟨-, width, height, pixels⟩ := blackImage_loaded
  intro row inRows col inCols x inX y inY _ lit
  have inImage := cell_inside inRows inY
  have inImage' := cell_inside inCols inX
  rw [height] at inImage
  rw [width] at inImage'
  unfold cellPixel at lit
  rw [width, pixels _ inImage _ inImage'] at lit
  have dark : ¬ clearPixel.Lit := by decide
  exact absurd lit dark

/-- The space, the only character of the black cell, is drawn inside the data. -/
theorem fontLoad_inside_black : (fontLoadFromImage blackImage 9 16 4 true true).isSome = true ∧
    ∀ load ∈ fontLoadFromImage blackImage 9 16 4 true true, load.Inside 32 := by
  refine ⟨rfl, (fontLoad_inside_iff blackImage_loaded.1 9 16 4 32 true true).1.mpr fun _ _ _ =>
    ⟨blackImage_marksFit _, fun _ => ?_⟩⟩
  unfold FontReadsFit fontRoom
  rw [blackImage_loaded.2.width, blackImage_loaded.2.height]
  decide

/-- **The character behind the last one** is read behind the data. -/
theorem fontDraw_strays : ¬ ∀ image, LoadedImage image → ∀ (pixelWidth pixelHeight yOffsetPerCharacter : Nat) (character : Int),
    0 < pixelWidth → 0 < pixelHeight →
      (∀ load ∈ fontLoadFromImage image pixelWidth pixelHeight yOffsetPerCharacter true true, load.Inside character) ∧
        ∀ load ∈ guilibFontLoadFromImageFile image pixelWidth pixelHeight yOffsetPerCharacter true true,
          load.Inside character := by
  intro always
  have inside := (always blackImage blackImage_loaded.1 9 16 4 33 (by decide) (by decide)).1 _ rfl
  have bounds := blackImage_loaded.1.bounds
  rw [characterSetBytes_eq bounds, fontFill_inside_iff bounds (by decide) (by decide) (Nat.le_refl _)] at inside
  have fits := inside.2 rfl
  rw [readsFit_of_dvd (by decide), blackImage_loaded.2.width, blackImage_loaded.2.height] at fits
  exact absurd (by decide) fits

end PeachOS
