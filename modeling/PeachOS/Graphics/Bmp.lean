/-
**Loading a BMP: `bmp_img_load` of `graphics/image/bmp.c` and of the library for programs.**

Both copies do the same and differ in the names of their allocators. The string is read at offsets from its first byte; memory
goes on before it and behind it. Only the size of the file header is checked before the image header is read.

* `rowReads_iff`, `writes_inside` — when the rows are read from the file, and that their pixels are written to the buffer;
* `bmpImgLoad_meets_iff` — when the loader stays in its string and its buffer, and refuses a string that is too short.
-/

import PeachOS.Machine
import PeachOS.Lib.Raster

namespace PeachOS

open ByteStore Raster

/-! ### The code -/

/-- `image_pixel_data`. -/
structure ImagePixelData where
  R : Byte
  G : Byte
  B : Byte
  A : Byte
deriving DecidableEq

/-- A pixel of cleared memory. -/
def clearPixel : ImagePixelData := ⟨0x00#8, 0x00#8, 0x00#8, 0x00#8⟩

/-- `struct image`, without its format. -/
structure Image where
  width : Nat
  height : Nat
  data : Store ImagePixelData

/-- What `bmp_img_load` does: the offsets it reads, the bytes of its pixel buffer, what it writes to which pixel of it, and its
result. -/
structure BmpLoad where
  reads : List Int
  buffer : Nat
  writes : List (Nat × ImagePixelData)
  image : Option Image

/-- It returns `NULL`. -/
def BmpLoad.null : BmpLoad := ⟨[], 0, [], none⟩

/-- Some offsets are read before. -/
def BmpLoad.reading (reads : List Int) (next : BmpLoad) : BmpLoad := { next with reads := reads ++ next.reads }

section Fields

variable (bytes : Int → Byte)

/-- A field of a header. -/
def bmpField (offset count : Nat) : Nat := readWord (fun k => bytes k) offset count

/-- The offsets of a field. -/
def fieldReads (offset count : Nat) : List Int := (List.range count).map fun k => ((offset + k : Nat) : Int)

/-- `bf_offbits`. -/
def bfOffbits : Nat := bmpField bytes 10 4

/-- `bi_width`. -/
def biWidth : Int := toInt32 (bmpField bytes 18 4)

/-- `bi_height`. -/
def biHeight : Int := toInt32 (bmpField bytes 22 4)

/-- `bi_bits_per_pixel`. -/
def biBitsPerPixel : Nat := bmpField bytes 28 2

/-- `bi_compression`. -/
def biCompression : Nat := bmpField bytes 30 4

/-- `height`: a negative `bi_height` is that of rows from top to bottom. -/
def bmpHeight : Int := if biHeight bytes > 0 then biHeight bytes else toInt32 (-biHeight bytes)

/-- `pixel_data_size`. -/
def bmpPixelDataSize : Nat := toWord (toWord (toWord (biWidth bytes) * toWord (bmpHeight bytes) : Nat) * 4 : Nat)

/-- `padded_row_size`. -/
def bmpPaddedRowSize : Nat := toWord (toWord (toWord (biWidth bytes) * (biBitsPerPixel bytes / 8) : Nat) + 3 : Nat) / 4 * 4

/-- `bmp_pixel`, as an offset. -/
def bmpPixelOffset (row col : Nat) : Int :=
  bfOffbits bytes + toWord (row * bmpPaddedRowSize bytes : Nat) + toInt32 (col * 3 : Nat)

/-- `dest_row`. -/
def bmpDestRow (row : Nat) : Int := if biHeight bytes > 0 then toInt32 (bmpHeight bytes - 1 - row) else row

/-- `pixel_index`. -/
def bmpPixelIndex (row col : Nat) : Nat :=
  toWord (toWord (toWord (bmpDestRow bytes row) * toWord (biWidth bytes) : Nat) + col : Nat)

/-- The rows and columns of the loops. -/
def bmpCells : List (Nat × Nat) :=
  (List.range (bmpHeight bytes).toNat).flatMap fun row => (List.range (biWidth bytes).toNat).map fun col => (row, col)

/-- `out_pix`: the pixel of a cell. -/
def bmpOutPix (row col : Nat) : ImagePixelData :=
  let bmpPixel := bmpPixelOffset bytes row col
  ⟨bytes (bmpPixel + 2), bytes (bmpPixel + 1), bytes bmpPixel, 0x00#8⟩

/-- The loops over the rows and columns: what they write. -/
def bmpWrites : List (Nat × ImagePixelData) :=
  (bmpCells bytes).map fun cell => (bmpPixelIndex bytes cell.1 cell.2, bmpOutPix bytes cell.1 cell.2)

/-- The offsets that the loops read. -/
def bmpRowReads : List Int :=
  (bmpCells bytes).flatMap fun cell =>
    let bmpPixel := bmpPixelOffset bytes cell.1 cell.2
    [bmpPixel, bmpPixel + 1, bmpPixel + 2]

/-- The loops, for a buffer of cleared pixels. -/
def bmpDecode (buffer : Nat) : BmpLoad where
  reads := bmpRowReads bytes
  buffer := buffer
  writes := bmpWrites bytes
  image := some ⟨toUInt32 (biWidth bytes), toUInt32 (bmpHeight bytes), putAll (fun _ => clearPixel) (bmpWrites bytes)⟩

/-- `bmp_img_load` from the image header on. `asked` is what the allocator asks for; there is a block of it or not. -/
def bmpLoadImage (size : Nat) (asked : Nat → Nat) (dataAllocated : Nat → Bool) : BmpLoad :=
  .reading (fieldReads 30 4) <|
    if biCompression bytes ≠ 0 then .null
    else .reading (fieldReads 28 2) <|
      if biBitsPerPixel bytes ≠ 24 then .null
      else .reading (fieldReads 22 4) <| .reading (fieldReads 18 4) <|
        if biWidth bytes ≤ 0 ∨ bmpHeight bytes ≤ 0 then .null
        else if !dataAllocated (asked (bmpPixelDataSize bytes)) then .null
        else .reading (fieldReads 10 4) <|
          if toWord (bfOffbits bytes + toWord (bmpPaddedRowSize bytes * toWord (bmpHeight bytes) : Nat) : Nat) > size then
            { BmpLoad.null with buffer := asked (bmpPixelDataSize bytes) }
          else bmpDecode bytes (asked (bmpPixelDataSize bytes))

/-- `bmp_img_load`, for an allocator. -/
def bmpImgLoadWith (size : Nat) (asked : Nat → Nat) (imageAllocated : Bool) (dataAllocated : Nat → Bool) : BmpLoad :=
  if size < 14 then .null
  else .reading (fieldReads 0 1) <|
    if bytes 0 ≠ 0x42#8 then .null
    else .reading (fieldReads 1 1) <|
      if bytes 1 ≠ 0x4D#8 then .null
      else .reading (fieldReads 10 4) <|
        if bfOffbits bytes ≥ size then .null
        else if !imageAllocated then .null
        else bmpLoadImage bytes size asked dataAllocated

/-- `bmp_img_load` of the kernel, which allocates with `kzalloc(size)`. -/
def bmpImgLoad (size : Nat) : (imageAllocated : Bool) → (dataAllocated : Nat → Bool) → BmpLoad :=
  bmpImgLoadWith bytes size id

/-- `bmp_img_load` of the library for programs, which allocates with `calloc(1, size)`. -/
def guilibBmpImgLoad (size : Nat) : (imageAllocated : Bool) → (dataAllocated : Nat → Bool) → BmpLoad :=
  bmpImgLoadWith bytes size fun size => toWord (1 * size : Nat)

end Fields

/-! ### Sizes -/

/-- The bytes of a row of the file. -/
def bmpRow (width : Nat) : Nat := (3 * width + 3) / 4 * 4

theorem bmpRow_bounds (width : Nat) : 3 * width ≤ bmpRow width ∧ bmpRow width ≤ 3 * width + 3 := by
  unfold bmpRow
  omega

/-- **The header announces pixels of 24 bits**, in as many columns and rows. -/
structure BmpSized (bytes : Int → Byte) (width height : Nat) : Prop where
  bits : biBitsPerPixel bytes = 24
  wide : biWidth bytes = width
  high : bmpHeight bytes = height
  wide_pos : 0 < width
  high_pos : 0 < height

section Sizes

variable {bytes : Int → Byte} {width height row col : Nat}

theorem toInt32_wrapped {value : Int} (low : 2 ^ 31 ≤ value) (high : value < 2 ^ 32 + 2 ^ 31) :
    toInt32 value = value - 2 ^ 32 := by
  unfold toInt32
  split <;> omega

/-- The offset of a column as an `int`: past the largest one it counts from below. -/
theorem columnOffset (isInt : col < 2 ^ 31) : ∃ offset : Int, toInt32 (col * 3 : Nat) = offset ∧ offset ≤ 3 * col ∧
    -2147483647 ≤ offset ∧ (3 * col < 2 ^ 31 → offset = 3 * col) := by
  by_cases small : 3 * col < 2 ^ 31
  · exact ⟨3 * col, by rw [toInt32_of_bounds (by omega) (by omega)]; omega, by omega, by omega, fun _ => rfl⟩
  · exact ⟨3 * col - 2 ^ 32, by rw [toInt32_wrapped (by omega) (by omega)]; omega, by omega, by omega,
      fun narrow => absurd narrow small⟩

theorem bfOffbits_lt : bfOffbits bytes < 2 ^ 32 := readWord_lt

theorem BmpSized.wide_lt (sized : BmpSized bytes width height) : width < 2 ^ 31 := by
  have bounds := toInt32_bounds (bmpField bytes 18 4)
  have wide : toInt32 (bmpField bytes 18 4) = width := sized.wide
  omega

theorem BmpSized.high_lt (sized : BmpSized bytes width height) : height < 2 ^ 31 := by
  have bounds := toInt32_bounds (bmpField bytes 22 4)
  have bounds' := toInt32_bounds (-biHeight bytes)
  have high := sized.high
  unfold bmpHeight biHeight at high
  unfold biHeight at bounds'
  split at high <;> omega

variable (sized : BmpSized bytes width height)

include sized

/-- What the sizes are as `size_t`. -/
theorem BmpSized.words : toWord (biWidth bytes) = width ∧ toWord (bmpHeight bytes) = height := by
  have wide := sized.wide_lt
  have high := sized.high_lt
  rw [sized.wide, sized.high]
  exact ⟨toWord_natCast (by omega), toWord_natCast (by omega)⟩

theorem BmpSized.paddedRowSize : bmpPaddedRowSize bytes = bmpRow width := by
  have wide := sized.wide_lt
  unfold bmpPaddedRowSize bmpRow
  rw [sized.words.1, sized.bits, toWord_natCast (show width * (24 / 8) < 2 ^ 64 by omega), toWord_natCast (by omega)]
  omega

/-- The rows of the file do not overflow. -/
theorem BmpSized.rows_lt (inRows : row ≤ height) : row * bmpRow width < 3 * 2 ^ 62 := by
  have high := sized.high_lt
  have wide := sized.wide_lt
  have stride := (bmpRow_bounds width).2
  calc row * bmpRow width ≤ (2 ^ 31 - 1) * (3 * 2 ^ 31) := Nat.mul_le_mul (by omega) (by omega)
    _ < 3 * 2 ^ 62 := by decide

/-- The pixels do not overflow. -/
theorem BmpSized.pixels_lt : 4 * (height * width) < 2 ^ 64 := by
  have high := sized.high_lt
  have wide := sized.wide_lt
  calc 4 * (height * width) ≤ 4 * ((2 ^ 31 - 1) * (2 ^ 31 - 1)) := Nat.mul_le_mul_left 4 (Nat.mul_le_mul (by omega) (by omega))
    _ < 2 ^ 64 := by decide

theorem BmpSized.pixelDataSize : bmpPixelDataSize bytes = 4 * (height * width) := by
  have pixels := sized.pixels_lt
  unfold bmpPixelDataSize
  rw [sized.words.1, sized.words.2, Nat.mul_comm width height, toWord_natCast (show height * width < 2 ^ 64 by omega),
    toWord_natCast (by omega)]
  omega

/-- The end of the rows, as the loader computes it. -/
theorem BmpSized.rowsEnd :
    toWord (bfOffbits bytes + toWord (bmpPaddedRowSize bytes * toWord (bmpHeight bytes) : Nat) : Nat) =
      bfOffbits bytes + height * bmpRow width := by
  have rows := sized.rows_lt (Nat.le_refl height)
  have offset : bfOffbits bytes < 2 ^ 32 := bfOffbits_lt
  rw [sized.paddedRowSize, sized.words.2, Nat.mul_comm (bmpRow width),
    toWord_natCast (show height * bmpRow width < 2 ^ 64 by omega),
    toWord_natCast (by omega)]

/-- Where a pixel is in the file. The offset in the row is an `int`. -/
theorem BmpSized.pixelOffset (inRows : row < height) :
    bmpPixelOffset bytes row col = ((bfOffbits bytes + row * bmpRow width : Nat) : Int) + toInt32 (col * 3 : Nat) := by
  have rows := sized.rows_lt (Nat.le_of_lt inRows)
  unfold bmpPixelOffset
  rw [sized.paddedRowSize, toWord_natCast (by omega), Nat.cast_add]

/-- The row of the image. -/
def bmpTarget (bytes : Int → Byte) (height row : Nat) : Nat := if biHeight bytes > 0 then height - 1 - row else row

omit sized in
theorem bmpTarget_lt (inRows : row < height) : bmpTarget bytes height row < height := by
  unfold bmpTarget
  split <;> omega

theorem BmpSized.pixelIndex (inRows : row < height) (inCols : col < width) :
    bmpPixelIndex bytes row col = bmpTarget bytes height row * width + col := by
  have pixels := sized.pixels_lt
  have high := sized.high_lt
  have target : toWord (bmpDestRow bytes row) = bmpTarget bytes height row := by
    unfold bmpDestRow bmpTarget
    rw [sized.high]
    split
    · rw [toInt32_of_bounds (by omega) (by omega), toWord_of_bounds (by omega) (by omega)]
      omega
    · exact toWord_natCast (by omega)
  have below := index_lt (@bmpTarget_lt bytes height row inRows) inCols
  unfold bmpPixelIndex
  rw [target, sized.words.1, toWord_natCast (show bmpTarget bytes height row * width < 2 ^ 64 by omega),
    toWord_natCast (by omega)]

/-- The cells of the loops. -/
theorem BmpSized.mem_cells {cell : Nat × Nat} : cell ∈ bmpCells bytes ↔ cell.1 < height ∧ cell.2 < width := by
  unfold bmpCells
  rw [sized.high, sized.wide, Int.toNat_natCast, Int.toNat_natCast]
  simp only [List.mem_flatMap, List.mem_map, List.mem_range]
  constructor
  · rintro ⟨row, inRows, col, inCols, rfl⟩
    exact ⟨inRows, inCols⟩
  · exact fun inside => ⟨cell.1, inside.1, cell.2, inside.2, rfl⟩

/-! ### The loops -/

/-- **The loops write in the pixel buffer only.** -/
theorem BmpSized.writes_inside : ∀ write ∈ bmpWrites bytes, 4 * write.1 + 4 ≤ bmpPixelDataSize bytes := by
  intro write isIn
  obtain ⟨cell, inCells, rfl⟩ := List.mem_map.mp isIn
  obtain ⟨inRows, inCols⟩ := sized.mem_cells.mp inCells
  have below := index_lt (@bmpTarget_lt bytes height cell.1 inRows) inCols
  dsimp only
  rw [sized.pixelIndex inRows inCols, sized.pixelDataSize]
  omega

/-- **The loops read in the rows of the file** if the offsets in a row fit an `int`; if they do not, they are read from before the
row. -/
theorem BmpSized.rowReads_iff {size : Nat} (fits : bfOffbits bytes + height * bmpRow width ≤ size) :
    (∀ offset ∈ bmpRowReads bytes, 0 ≤ offset ∧ offset < size) ↔ 3 * (width - 1) < 2 ^ 31 ∨ 2147483647 ≤ bfOffbits bytes := by
  have wide := sized.wide_lt
  have stride := (bmpRow_bounds width).1
  constructor
  · intro inside
    by_contra neither
    have last : 715827883 < width := by omega
    have isCell : ((0, 715827883) : Nat × Nat) ∈ bmpCells bytes := sized.mem_cells.mpr ⟨sized.high_pos, last⟩
    have isRead : bmpPixelOffset bytes 0 715827883 ∈ bmpRowReads bytes :=
      List.mem_flatMap.mpr ⟨(0, 715827883), isCell, List.mem_cons_self⟩
    have before := (inside _ isRead).1
    have wrapped : toInt32 (715827883 * 3 : Nat) = -2147483647 := by decide
    rw [sized.pixelOffset sized.high_pos, wrapped, Nat.zero_mul] at before
    omega
  · intro either offset isRead
    obtain ⟨cell, inCells, isRead⟩ := List.mem_flatMap.mp isRead
    obtain ⟨inRows, inCols⟩ := sized.mem_cells.mp inCells
    have rows : (cell.1 + 1) * bmpRow width ≤ height * bmpRow width := Nat.mul_le_mul_right _ inRows
    rw [Nat.succ_mul] at rows
    have place := @BmpSized.pixelOffset bytes width height cell.1 cell.2 sized inRows
    obtain ⟨inRow, isOffset, notAfter, notFarBefore, small⟩ := @columnOffset cell.2 (by omega)
    rw [isOffset] at place
    simp only [List.mem_cons, List.not_mem_nil, or_false, place] at isRead
    clear isOffset place
    have notBefore : 0 ≤ bfOffbits bytes + inRow := by
      rcases either with narrow | far
      · have same := small (by omega)
        omega
      · omega
    omega

end Sizes

/-! ### The whole load -/

/-- The loader gets to the image header. -/
structure BmpReached (bytes : Int → Byte) (size : Nat) (imageAllocated : Bool) : Prop where
  hasHeader : 14 ≤ size
  signature : bytes 0 = 0x42#8 ∧ bytes 1 = 0x4D#8
  inFile : bfOffbits bytes < size
  allocated : imageAllocated = true

/-- The loader takes what the image header announces. -/
def BmpAccepted (bytes : Int → Byte) (size : Nat) (dataAllocated : Nat → Bool) : Prop :=
  biCompression bytes = 0 ∧ ∃ width height, BmpSized bytes width height ∧ dataAllocated (4 * (height * width)) = true ∧
    bfOffbits bytes + height * bmpRow width ≤ size

/-- **Too short** for both headers, or for the rows that the image header announces. -/
def BmpTooShort (bytes : Int → Byte) (size : Nat) : Prop :=
  size < 54 ∨ size < bfOffbits bytes + (biHeight bytes).natAbs * bmpRow (biWidth bytes).toNat

/-- **The loader stays in its string and its buffer, and refuses a string that is too short.** -/
structure BmpLoad.Meets (load : BmpLoad) (bytes : Int → Byte) (size : Nat) : Prop where
  reads : ∀ offset ∈ load.reads, 0 ≤ offset ∧ offset < size
  writes : ∀ write ∈ load.writes, 4 * write.1 + 4 ≤ load.buffer
  refuses : BmpTooShort bytes size → load.image = none

section Reading

variable {reads : List Int} {next : BmpLoad}

@[simp] theorem BmpLoad.reading_image : (BmpLoad.reading reads next).image = next.image := rfl

theorem mem_fieldReads {offset count : Nat} {read : Int} (isRead : read ∈ fieldReads offset count) :
    (offset : Int) ≤ read ∧ read < offset + count := by
  obtain ⟨k, below, rfl⟩ := List.mem_map.mp isRead
  have below := List.mem_range.mp below
  omega

/-- Nothing is written, there is no image, and what is read is in the first bytes. -/
structure BmpLoad.Refuses (load : BmpLoad) (bound : Nat) : Prop where
  writes : load.writes = []
  image : load.image = none
  reads : ∀ offset ∈ load.reads, 0 ≤ offset ∧ offset < bound

theorem BmpLoad.null_refuses (bound : Nat) : BmpLoad.null.Refuses bound :=
  ⟨rfl, rfl, fun _ isRead => absurd isRead List.not_mem_nil⟩

/-- A field of the first bytes is read before. -/
theorem BmpLoad.Refuses.field {bound offset count : Nat} (refuses : next.Refuses bound) (inside : offset + count ≤ bound) :
    (BmpLoad.reading (fieldReads offset count) next).Refuses bound := by
  refine ⟨refuses.writes, refuses.image, fun read isRead => ?_⟩
  rcases List.mem_append.mp isRead with first | rest
  · have bounds := mem_fieldReads first
    omega
  · exact refuses.reads read rest

theorem bmpDecode_meets {bytes : Int → Byte} {size buffer : Nat} : (bmpDecode bytes buffer).Meets bytes size ↔
    (∀ offset ∈ bmpRowReads bytes, 0 ≤ offset ∧ offset < size) ∧ (∀ write ∈ bmpWrites bytes, 4 * write.1 + 4 ≤ buffer) ∧
      ¬ BmpTooShort bytes size := by
  have reads : (bmpDecode bytes buffer).reads = bmpRowReads bytes := by simp only [bmpDecode]
  have writes : (bmpDecode bytes buffer).writes = bmpWrites bytes := by simp only [bmpDecode]
  have image : (bmpDecode bytes buffer).image.isSome = true := by simp only [bmpDecode, Option.isSome_some]
  constructor
  · rintro ⟨inReads, inWrites, refuses⟩
    rw [reads] at inReads
    rw [writes] at inWrites
    refine ⟨inReads, inWrites, fun short => ?_⟩
    rw [refuses short] at image
    exact absurd image (by decide)
  · rintro ⟨inReads, inWrites, long⟩
    refine ⟨?_, ?_, fun short => absurd short long⟩
    · rw [reads]
      exact inReads
    · rw [writes]
      exact inWrites

theorem BmpLoad.Refuses.meets {load : BmpLoad} {bound size : Nat} {bytes : Int → Byte} (refuses : load.Refuses bound)
    (inside : bound ≤ size) : load.Meets bytes size where
  reads := fun offset isRead => by
    have bounds := refuses.reads offset isRead
    omega
  writes := fun write isIn => by
    rw [refuses.writes] at isIn
    exact absurd isIn List.not_mem_nil
  refuses := fun _ => refuses.image

/-- A field of the string may be read before. -/
theorem BmpLoad.meets_field {bytes : Int → Byte} {size offset count : Nat} (inside : offset + count ≤ size) :
    (BmpLoad.reading (fieldReads offset count) next).Meets bytes size ↔ next.Meets bytes size := by
  refine ⟨fun meets => ⟨fun read isRead => meets.reads read (List.mem_append_right _ isRead), meets.writes, meets.refuses⟩,
    fun meets => ⟨fun read isRead => ?_, meets.writes, meets.refuses⟩⟩
  rcases List.mem_append.mp isRead with first | rest
  · have bounds := mem_fieldReads first
    omega
  · exact meets.reads read rest

end Reading

section Load

variable {bytes : Int → Byte} {size width height : Nat} {asked : Nat → Nat} {imageAllocated : Bool} {dataAllocated : Nat → Bool}

/-- An image header with positive sizes. -/
theorem bmpSized_of_positive (bits : biBitsPerPixel bytes = 24) (positive : ¬ (biWidth bytes ≤ 0 ∨ bmpHeight bytes ≤ 0)) :
    BmpSized bytes (biWidth bytes).toNat (bmpHeight bytes).toNat := by
  rw [not_or] at positive
  exact ⟨bits, by omega, by omega, by omega, by omega⟩

/-- The last byte of the first field that is read. -/
theorem loadImage_last : (33 : Int) ∈ (bmpLoadImage bytes size asked dataAllocated).reads :=
  List.mem_append_left _ (by decide)

variable (asks : ∀ count < 2 ^ 64, asked count = count)

include asks

/-- **An image header that is not taken**: nothing behind its compression is read. -/
theorem loadImage_refuses (refused : ¬ BmpAccepted bytes size dataAllocated) :
    (bmpLoadImage bytes size asked dataAllocated).Refuses 34 := by
  have null := BmpLoad.null_refuses 34
  unfold bmpLoadImage
  refine BmpLoad.Refuses.field ?_ (by decide)
  by_cases compressed : biCompression bytes ≠ 0
  · rw [if_pos compressed]
    exact null
  rw [if_neg compressed]
  refine BmpLoad.Refuses.field ?_ (by decide)
  by_cases bits : biBitsPerPixel bytes ≠ 24
  · rw [if_pos bits]
    exact null
  rw [if_neg bits]
  refine BmpLoad.Refuses.field (BmpLoad.Refuses.field ?_ (by decide)) (by decide)
  by_cases empty : biWidth bytes ≤ 0 ∨ bmpHeight bytes ≤ 0
  · rw [if_pos empty]
    exact null
  have sized := bmpSized_of_positive (not_not.mp bits) empty
  rw [if_neg empty, sized.pixelDataSize, asks _ sized.pixels_lt, sized.rowsEnd]
  cases allocated : dataAllocated (4 * ((bmpHeight bytes).toNat * (biWidth bytes).toNat)) with
  | false =>
      rw [if_pos (by decide)]
      exact null
  | true =>
      have tooShort : bfOffbits bytes + (bmpHeight bytes).toNat * bmpRow (biWidth bytes).toNat > size := by
        by_contra fits
        exact refused ⟨not_not.mp compressed, _, _, sized, allocated, by omega⟩
      rw [if_neg (by decide), if_pos tooShort]
      exact BmpLoad.Refuses.field ⟨rfl, rfl, null.reads⟩ (by decide)

/-- **An image header that is taken.** -/
theorem loadImage_accepts (uncompressed : biCompression bytes = 0) (sized : BmpSized bytes width height)
    (allocated : dataAllocated (4 * (height * width)) = true) (fits : bfOffbits bytes + height * bmpRow width ≤ size) :
    bmpLoadImage bytes size asked dataAllocated =
      .reading (fieldReads 30 4) (.reading (fieldReads 28 2) (.reading (fieldReads 22 4) (.reading (fieldReads 18 4)
        (.reading (fieldReads 10 4) (bmpDecode bytes (bmpPixelDataSize bytes)))))) := by
  have positive : ¬ (biWidth bytes ≤ 0 ∨ bmpHeight bytes ≤ 0) := by
    have wide := sized.wide_pos
    have high := sized.high_pos
    rw [sized.wide, sized.high]
    omega
  unfold bmpLoadImage
  rw [if_neg (not_not.mpr uncompressed), if_neg (not_not.mpr sized.bits), if_neg positive, sized.pixelDataSize,
    asks _ sized.pixels_lt, allocated, if_neg (by decide), sized.rowsEnd, if_neg (by omega)]

omit asks in
/-- **The pixels of a header that is taken** are decoded in bounds when the string has both headers and no offset in a row
wraps. -/
theorem decode_meets_iff (sized : BmpSized bytes width height) (fits : bfOffbits bytes + height * bmpRow width ≤ size) :
    (bmpDecode bytes (bmpPixelDataSize bytes)).Meets bytes size ↔
      54 ≤ size ∧ (3 * (biWidth bytes - 1) < 2 ^ 31 ∨ 2147483647 ≤ bfOffbits bytes) := by
  have wide := sized.wide_pos
  have narrow : 3 * (biWidth bytes - 1) < 2 ^ 31 ↔ 3 * (width - 1) < 2 ^ 31 := by
    rw [sized.wide]
    omega
  rw [narrow, ← sized.rowReads_iff fits, bmpDecode_meets]
  constructor
  · rintro ⟨reads, -, long⟩
    refine ⟨?_, reads⟩
    by_contra short
    exact long (Or.inl (by omega))
  · rintro ⟨long, reads⟩
    refine ⟨reads, sized.writes_inside, fun short => ?_⟩
    have rows : (biHeight bytes).natAbs = height := by
      have high := sized.high
      have bounds := toInt32_bounds (bmpField bytes 22 4)
      have bounds' : -2 ^ 31 ≤ biHeight bytes := bounds.1
      unfold bmpHeight at high
      split at high
      · omega
      · by_cases least : biHeight bytes = -2 ^ 31
        · rw [least] at high
          have wraps : toInt32 (- -2 ^ 31) = -2 ^ 31 := by decide
          omega
        · rw [toInt32_of_bounds (by omega) (by omega)] at high
          omega
    unfold BmpTooShort at short
    rw [rows, sized.wide, Int.toNat_natCast] at short
    omega

omit asks in
/-- Before the image header only the string is read. -/
theorem imgLoad_refuses (notReached : ¬ BmpReached bytes size imageAllocated) :
    ∃ bound ≤ size, (bmpImgLoadWith bytes size asked imageAllocated dataAllocated).Refuses bound := by
  unfold bmpImgLoadWith
  by_cases short : size < 14
  · rw [if_pos short]
    exact ⟨0, Nat.zero_le size, BmpLoad.null_refuses 0⟩
  rw [if_neg short]
  have null := BmpLoad.null_refuses 14
  refine ⟨14, by omega, BmpLoad.Refuses.field ?_ (by decide)⟩
  by_cases first : bytes 0 ≠ 0x42#8
  · rw [if_pos first]
    exact null
  rw [if_neg first]
  refine BmpLoad.Refuses.field ?_ (by decide)
  by_cases second : bytes 1 ≠ 0x4D#8
  · rw [if_pos second]
    exact null
  rw [if_neg second]
  refine BmpLoad.Refuses.field ?_ (by decide)
  by_cases outside : bfOffbits bytes ≥ size
  · rw [if_pos outside]
    exact null
  rw [if_neg outside]
  cases allocated : imageAllocated with
  | false =>
      rw [if_pos (by decide)]
      exact null
  | true => exact absurd ⟨by omega, ⟨not_not.mp first, not_not.mp second⟩, by omega, allocated⟩ notReached

omit asks in
theorem imgLoad_reached (reached : BmpReached bytes size imageAllocated) :
    bmpImgLoadWith bytes size asked imageAllocated dataAllocated =
      .reading (fieldReads 0 1) (.reading (fieldReads 1 1) (.reading (fieldReads 10 4)
        (bmpLoadImage bytes size asked dataAllocated))) := by
  have inFile := reached.inFile
  have hasHeader := reached.hasHeader
  unfold bmpImgLoadWith
  rw [if_neg (by omega), if_neg (not_not.mpr reached.signature.1), if_neg (not_not.mpr reached.signature.2), if_neg (by omega),
    reached.allocated, if_neg (by decide)]

/-- **An image has the sizes that the header announces**, and the file has its rows. -/
theorem imgLoad_image {image : Image}
    (loaded : (bmpImgLoadWith bytes size asked imageAllocated dataAllocated).image = some image) :
    ∃ width height, BmpSized bytes width height ∧ image.width = width ∧ image.height = height ∧
      bfOffbits bytes + height * bmpRow width ≤ size := by
  by_cases reached : BmpReached bytes size imageAllocated
  · rw [imgLoad_reached reached] at loaded
    simp only [BmpLoad.reading_image] at loaded
    by_cases accepted : BmpAccepted bytes size dataAllocated
    · obtain ⟨uncompressed, width, height, sized, allocated, fits⟩ := accepted
      have wide := sized.wide_lt
      have high := sized.high_lt
      rw [loadImage_accepts asks uncompressed sized allocated fits] at loaded
      simp only [BmpLoad.reading_image, bmpDecode, Option.some.injEq] at loaded
      refine ⟨width, height, sized, ?_, ?_, fits⟩
      · rw [← loaded, sized.wide, toUInt32_natCast (by omega)]
      · rw [← loaded, sized.high, toUInt32_natCast (by omega)]
    · rw [(loadImage_refuses asks accepted).image] at loaded
      exact absurd loaded.symm (Option.some_ne_none image)
  · obtain ⟨bound, inside, refuses⟩ := @imgLoad_refuses bytes size asked imageAllocated dataAllocated reached
    rw [refuses.image] at loaded
    exact absurd loaded.symm (Option.some_ne_none image)

/-- **When the loader does what it should**: it does not get to the image header; or it does with a string that has all fields it
reads, and refuses them, or takes them with a string that has both headers, and no offset in a row wraps to before it. -/
def BmpSafe (bytes : Int → Byte) (size : Nat) (imageAllocated : Bool) (dataAllocated : Nat → Bool) : Prop :=
  BmpReached bytes size imageAllocated → 34 ≤ size ∧ (BmpAccepted bytes size dataAllocated →
    54 ≤ size ∧ (3 * (biWidth bytes - 1) < 2 ^ 31 ∨ 2147483647 ≤ bfOffbits bytes))

theorem imgLoad_meets_iff : (bmpImgLoadWith bytes size asked imageAllocated dataAllocated).Meets bytes size ↔
    BmpSafe bytes size imageAllocated dataAllocated := by
  by_cases reached : BmpReached bytes size imageAllocated
  · have hasHeader := reached.hasHeader
    have forReached : BmpSafe bytes size imageAllocated dataAllocated ↔ 34 ≤ size ∧ (BmpAccepted bytes size dataAllocated →
        54 ≤ size ∧ (3 * (biWidth bytes - 1) < 2 ^ 31 ∨ 2147483647 ≤ bfOffbits bytes)) :=
      ⟨fun safe => safe reached, fun safe _ => safe⟩
    rw [imgLoad_reached reached, BmpLoad.meets_field (by omega), BmpLoad.meets_field (by omega), BmpLoad.meets_field (by omega),
      forReached]
    by_cases short : size < 34
    · refine iff_of_false (fun meets => ?_) fun safe => absurd safe.1 (by omega)
      have last := (meets.reads 33 loadImage_last).2
      omega
    · by_cases accepted : BmpAccepted bytes size dataAllocated
      · obtain ⟨uncompressed, width, height, sized, allocated, fits⟩ := accepted
        rw [loadImage_accepts asks uncompressed sized allocated fits, BmpLoad.meets_field (by omega),
          BmpLoad.meets_field (by omega), BmpLoad.meets_field (by omega), BmpLoad.meets_field (by omega),
          BmpLoad.meets_field (by omega), decode_meets_iff sized fits]
        exact ⟨fun safe => ⟨by omega, fun _ => safe⟩, fun safe => safe.2 ⟨uncompressed, width, height, sized, allocated, fits⟩⟩
      · exact iff_of_true ((loadImage_refuses asks accepted).meets (by omega))
          ⟨by omega, fun isAccepted => absurd isAccepted accepted⟩
  · obtain ⟨bound, inside, refuses⟩ := @imgLoad_refuses bytes size asked imageAllocated dataAllocated reached
    exact iff_of_true (refuses.meets inside) fun isReached => absurd isReached reached

end Load

/-- `calloc(1, size)` asks for the size. -/
theorem calloc_asks : ∀ count < 2 ^ 64, toWord (1 * count : Nat) = count := fun count fits => by
  rw [Nat.one_mul, toWord_natCast fits]

/-- **When the loader stays in its string and its buffer and refuses a string that is too short**, in both copies. -/
theorem bmpImgLoad_meets_iff (bytes : Int → Byte) (size : Nat) (imageAllocated : Bool) (dataAllocated : Nat → Bool) :
    ((bmpImgLoad bytes size imageAllocated dataAllocated).Meets bytes size ↔
        BmpSafe bytes size imageAllocated dataAllocated) ∧
      ((guilibBmpImgLoad bytes size imageAllocated dataAllocated).Meets bytes size ↔
        BmpSafe bytes size imageAllocated dataAllocated) :=
  ⟨imgLoad_meets_iff fun _ _ => rfl, imgLoad_meets_iff calloc_asks⟩

/-- The signature, and cleared bytes. -/
def signatureOnly (offset : Int) : Byte := if offset = 0 then 0x42#8 else if offset = 1 then 0x4D#8 else 0x00#8

/-- **A string of 20 bytes** with a signature: the compression is read behind it. -/
theorem bmpImgLoad_strays : ¬ ∀ (bytes : Int → Byte) (size : Nat) (imageAllocated : Bool) (dataAllocated : Nat → Bool),
    (bmpImgLoad bytes size imageAllocated dataAllocated).Meets bytes size ∧
      (guilibBmpImgLoad bytes size imageAllocated dataAllocated).Meets bytes size := by
  intro always
  have reached : BmpReached signatureOnly 20 true := ⟨by decide, by decide, by decide, rfl⟩
  have meets := (always signatureOnly 20 true fun _ => true).1
  unfold bmpImgLoad at meets
  have safe := (imgLoad_meets_iff fun _ _ => rfl).mp meets reached
  exact absurd safe.1 (by decide)

end PeachOS
