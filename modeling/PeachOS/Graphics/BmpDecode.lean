/-
**Loading an encoded BMP gives the pixels back.**

An encoder may choose the order of the rows, the bytes that pad them, what lies between the headers and the rows, and all
fields of the headers that the loader does not read.

* `bmpEncode` — the file of some pixels, for any such choice;
* `decode_pixel` — the pixel that the loader writes for a cell;
* `bmpImgLoad_encoded` — what is loaded from an encoded file.
-/

import PeachOS.Graphics.Bmp

namespace PeachOS

open ByteStore Raster

/-! ### The encoder -/

/-- The pixels to encode, and the choices of an encoder. -/
structure BmpEncoding where
  width : Nat
  height : Nat
  /-- The colours of a row and column. -/
  pixel : Nat → Nat → ImagePixelData
  /-- The rows are stored from top to bottom, with a negative height. -/
  topDown : Bool
  bfSize : Nat
  bfReserved : Nat
  biSize : Nat
  biPlanes : Nat
  biRest : List Byte
  rest_length : biRest.length = 20
  gap : List Byte
  padding : Nat → Nat → Byte

/-- The bytes of a pixel in a file. -/
def ImagePixelData.fileBytes (pixel : ImagePixelData) : List Byte := [pixel.B, pixel.G, pixel.R]

namespace BmpEncoding

variable (e : BmpEncoding)

/-- A row in the file. -/
def row (row : Nat) : List Byte :=
  ((List.range e.width).flatMap fun col => (e.pixel row col).fileBytes) ++
    (List.range (bmpRow e.width - 3 * e.width)).map (e.padding row)

/-- The row of the image that a row of the file is. -/
def source (row : Nat) : Nat := if e.topDown then row else e.height - 1 - row

/-- **The file.** -/
def bmpEncode : List Byte :=
  [0x42#8, 0x4D#8] ++ (encodeWord 4 e.bfSize ++ (encodeWord 4 e.bfReserved ++ (encodeWord 4 (54 + e.gap.length) ++
    (encodeWord 4 e.biSize ++ (encodeWord 4 e.width ++ (encodeWord 4 (if e.topDown then 2 ^ 32 - e.height else e.height) ++
      (encodeWord 2 e.biPlanes ++ (encodeWord 2 24 ++ (encodeWord 4 0 ++ (e.biRest ++ (e.gap ++
        (List.range e.height).flatMap fun row => e.row (e.source row))))))))))))

end BmpEncoding

/-- An image has as many columns and rows, and these pixels. -/
structure Image.Shows (image : Image) (e : BmpEncoding) : Prop where
  width : image.width = e.width
  height : image.height = e.height
  pixels : ∀ row < e.height, ∀ col < e.width, image.data (row * e.width + col) =
    ⟨(e.pixel row col).R, (e.pixel row col).G, (e.pixel row col).B, 0x00#8⟩

/-! ### Lists in a string -/

/-- The bytes of a list lie in a string from an offset on. -/
def HoldsAt (bytes : Int → Byte) (offset : Nat) (list : List Byte) : Prop :=
  ∀ i (inside : i < list.length), bytes (offset + i : Nat) = list[i]

section Lists

variable {bytes : Int → Byte} {offset size : Nat} {first second : List Byte}

/-- **One list behind another.** -/
theorem holdsAt_append : HoldsAt bytes offset (first ++ second) ↔
    HoldsAt bytes offset first ∧ HoldsAt bytes (offset + first.length) second := by
  constructor
  · refine fun holds => ⟨fun i inside => ?_, fun i inside => ?_⟩
    · have entry := holds i (by rw [List.length_append]; omega)
      rwa [List.getElem_append_left inside] at entry
    · have entry := holds (first.length + i) (by rw [List.length_append]; omega)
      rw [List.getElem_append_right (by omega)] at entry
      simpa only [Nat.add_sub_cancel_left, Nat.add_assoc] using entry
  · rintro ⟨before, behind⟩ i inside
    rw [List.length_append] at inside
    by_cases inFirst : i < first.length
    · rw [List.getElem_append_left inFirst]
      exact before i inFirst
    · have entry := behind (i - first.length) (by omega)
      rw [List.getElem_append_right (by omega)]
      rwa [show offset + first.length + (i - first.length) = offset + i by omega] at entry

/-- **One of many lists of one length.** -/
theorem holdsAt_flatMap {block : Nat → List Byte} (sizes : ∀ i, (block i).length = size) : ∀ {count : Nat},
    HoldsAt bytes offset ((List.range count).flatMap block) → ∀ i < count, HoldsAt bytes (offset + i * size) (block i) := by
  intro count
  induction count with
  | zero => exact fun _ i below => absurd below (Nat.not_lt_zero i)
  | succ count ih =>
      intro holds i below
      rw [List.range_succ, List.flatMap_append, holdsAt_append, length_flatMap sizes, List.length_range] at holds
      rcases Nat.lt_succ_iff_lt_or_eq.mp below with earlier | rfl
      · exact ih holds.1 i earlier
      · have last := holds.2
        rwa [List.flatMap_cons, List.flatMap_nil, List.append_nil] at last

/-- A list is what is read where it lies. -/
theorem HoldsAt.window {list : List Byte} : ∀ {offset : Nat}, HoldsAt bytes offset list →
    ByteStore.window (fun k => bytes k) offset list.length = list := by
  induction list with
  | nil => exact fun _ => rfl
  | cons byte list ih =>
      intro offset holds
      have head : bytes (offset + 0 : Nat) = byte := holds 0 (Nat.succ_pos _)
      have tail : HoldsAt bytes (offset + 1) list := fun i inside => by
        have entry := holds (i + 1) (Nat.succ_lt_succ inside)
        rwa [List.getElem_cons_succ, show offset + (i + 1) = offset + 1 + i by omega] at entry
      rw [List.length_cons, ByteStore.window, ih tail]
      exact congrArg (· :: list) head

/-- A field that was encoded. -/
theorem HoldsAt.field {count value : Nat} (holds : HoldsAt bytes offset (encodeWord count value)) (fits : value < 256 ^ count) :
    bmpField bytes offset count = value := by
  have same := holds.window
  rw [length_encodeWord] at same
  rw [bmpField, readWord, same, decodeWord_encodeWord fits]

end Lists

/-! ### Loading -/

namespace BmpEncoding

variable {e : BmpEncoding} {bytes : Int → Byte}

theorem row_length (row : Nat) : (e.row row).length = bmpRow e.width := by
  have bounds := (bmpRow_bounds e.width).1
  have three : ∀ col, (e.pixel row col).fileBytes.length = 3 := fun _ => rfl
  rw [BmpEncoding.row, List.length_append, length_flatMap three, List.length_range, List.length_map, List.length_range,
    Nat.mul_comm]
  exact Nat.add_sub_cancel' bounds

/-- The length of the file. -/
theorem bmpEncode_length : e.bmpEncode.length = 54 + e.gap.length + e.height * bmpRow e.width := by
  have rest := e.rest_length
  simp only [bmpEncode, List.length_append, length_encodeWord, List.length_cons, List.length_nil,
    length_flatMap (fun _ => row_length _),
    List.length_range, rest]
  omega

/-- **What lies in the file**, of what the loader reads. -/
structure Stored (e : BmpEncoding) (bytes : Int → Byte) : Prop where
  signature : bytes 0 = 0x42#8 ∧ bytes 1 = 0x4D#8
  bfOffbits : HoldsAt bytes 10 (encodeWord 4 (54 + e.gap.length))
  biWidth : HoldsAt bytes 18 (encodeWord 4 e.width)
  biHeight : HoldsAt bytes 22 (encodeWord 4 (if e.topDown then 2 ^ 32 - e.height else e.height))
  biBitsPerPixel : HoldsAt bytes 28 (encodeWord 2 24)
  biCompression : HoldsAt bytes 30 (encodeWord 4 0)
  rows : ∀ row < e.height, HoldsAt bytes (54 + e.gap.length + row * bmpRow e.width) (e.row (e.source row))

theorem stored_of_holds (holds : HoldsAt bytes 0 e.bmpEncode) : e.Stored bytes := by
  unfold bmpEncode at holds
  simp only [holdsAt_append, length_encodeWord, List.length_cons, List.length_nil, e.rest_length] at holds
  obtain ⟨signature, -, -, offset, -, width, height, -, bits, compression, -, -, rows⟩ := holds
  have shift : 0 + (0 + 1 + 1) + 4 + 4 + 4 + 4 + 4 + 4 + 2 + 2 + 4 + 20 + e.gap.length = 54 + e.gap.length := by omega
  rw [shift] at rows
  exact ⟨⟨signature 0 (by decide), signature 1 (by decide)⟩, offset, width, height, bits, compression,
    holdsAt_flatMap (fun _ => row_length _) rows⟩

section Loading

variable (wide : 1 ≤ e.width) (high : 1 ≤ e.height) (small : e.bmpEncode.length < 2 ^ 31)

include wide high small

/-- The sizes of a small file are small. -/
theorem bounds : 54 + e.gap.length < 2 ^ 31 ∧ 3 * e.width < 2 ^ 31 ∧ e.height < 2 ^ 31 := by
  have row := (bmpRow_bounds e.width).1
  have oneRow : bmpRow e.width ≤ e.height * bmpRow e.width := Nat.le_mul_of_pos_left _ high
  have oneCol : e.height ≤ e.height * bmpRow e.width := Nat.le_mul_of_pos_right _ (by omega)
  rw [bmpEncode_length] at small
  omega

variable (stored : e.Stored bytes)

include stored

theorem bfOffbits_eq : PeachOS.bfOffbits bytes = 54 + e.gap.length := by
  have offset := (e.bounds wide high small).1
  exact stored.bfOffbits.field (by omega)

/-- The sign of the height tells the order of the rows. -/
theorem biHeight_eq : PeachOS.biHeight bytes = if e.topDown then -(e.height : Int) else e.height := by
  obtain ⟨-, -, rows⟩ := e.bounds wide high small
  have field := stored.biHeight.field (by split <;> omega)
  rw [PeachOS.biHeight, field]
  cases e.topDown with
  | false =>
      rw [if_neg Bool.false_ne_true, if_neg Bool.false_ne_true]
      exact toInt32_of_bounds (by omega) (by omega)
  | true =>
      rw [if_pos rfl, if_pos rfl]
      rw [toInt32_wrapped (by omega) (by omega)]
      omega

/-- The sizes that the header announces are those of the image. -/
theorem sized : BmpSized bytes e.width e.height where
  bits := stored.biBitsPerPixel.field (by decide)
  wide := by
    obtain ⟨-, cols, -⟩ := e.bounds wide high small
    have field := stored.biWidth.field (by omega)
    rw [PeachOS.biWidth, field]
    exact toInt32_of_bounds (by omega) (by omega)
  high := by
    obtain ⟨-, -, rows⟩ := e.bounds wide high small
    rw [bmpHeight, biHeight_eq wide high small stored]
    cases e.topDown with
    | false => rw [if_neg Bool.false_ne_true, if_pos (by omega)]
    | true =>
        rw [if_pos rfl, if_neg (by omega), Int.neg_neg]
        exact toInt32_of_bounds (by omega) (by omega)
  wide_pos := wide
  high_pos := high

/-- The loader puts the rows where the encoder took them from. -/
theorem target_eq (row : Nat) : bmpTarget bytes e.height row = e.source row := by
  rw [bmpTarget, source, biHeight_eq wide high small stored]
  cases e.topDown with
  | false => rw [if_neg Bool.false_ne_true, if_pos (by omega), if_neg Bool.false_ne_true]
  | true => rw [if_pos rfl, if_neg (by omega), if_pos rfl]

/-- **The pixel that the loader reads for a cell.** -/
theorem decode_pixel {row col : Nat} (inRows : row < e.height) (inCols : col < e.width) :
    bmpOutPix bytes row col =
      ⟨(e.pixel (e.source row) col).R, (e.pixel (e.source row) col).G, (e.pixel (e.source row) col).B, 0x00#8⟩ := by
  obtain ⟨-, cols, -⟩ := e.bounds wide high small
  have three : ∀ col, (e.pixel (e.source row) col).fileBytes.length = 3 := fun _ => rfl
  have inRow := (holdsAt_append.mp (stored.rows row inRows)).1
  have here := holdsAt_flatMap three inRow col inCols
  have offset : bmpPixelOffset bytes row col = (54 + e.gap.length + row * bmpRow e.width + col * 3 : Nat) := by
    rw [(e.sized wide high small stored).pixelOffset inRows, e.bfOffbits_eq wide high small stored,
      toInt32_of_bounds (by omega) (by omega)]
    omega
  have entry : ∀ k (inside : k < 3), bytes ((54 + e.gap.length + row * bmpRow e.width + col * 3 : Nat) + (k : Nat)) =
      (e.pixel (e.source row) col).fileBytes.get ⟨k, inside⟩ := fun k inside => by
    rw [← Nat.cast_add]
    exact here k inside
  have red := entry 2 (by decide)
  have green := entry 1 (by decide)
  have blue := here 0 (show 0 < 3 by decide)
  rw [bmpOutPix, offset]
  exact congr (congr (congr (congrArg ImagePixelData.mk red) green) blue) rfl

/-- **A pixel of the buffer after the loops.** -/
theorem putAll_pixel {row col : Nat} (inRows : row < e.height) (inCols : col < e.width) :
    putAll (fun _ => clearPixel) (bmpWrites bytes) (row * e.width + col) =
      ⟨(e.pixel row col).R, (e.pixel row col).G, (e.pixel row col).B, 0x00#8⟩ := by
  have sized := e.sized wide high small stored
  have inRows' : e.source row < e.height := by
    unfold source
    split <;> omega
  have back : e.source (e.source row) = row := by
    unfold source
    split <;> omega
  refine putAll_place (fun write isIn samePlace => ?_) (Or.inr ?_)
  · obtain ⟨cell, inCells, rfl⟩ := List.mem_map.mp isIn
    obtain ⟨inRows, inCols'⟩ := sized.mem_cells.mp inCells
    have pixel := e.decode_pixel wide high small stored inRows inCols'
    dsimp only at samePlace ⊢
    rw [sized.pixelIndex inRows inCols', e.target_eq wide high small stored, index_inj inCols' inCols] at samePlace
    rw [pixel, samePlace.1, samePlace.2]
  · have index := sized.pixelIndex inRows' inCols
    rw [e.target_eq wide high small stored, back] at index
    have isCell : (e.source row, col) ∈ bmpCells bytes := sized.mem_cells.mpr ⟨inRows', inCols⟩
    exact ⟨_, List.mem_map.mpr ⟨_, isCell, rfl⟩, index⟩

/-- **What is loaded**, for any allocator that gives what it is asked for. -/
theorem imgLoad_encoded {asked : Nat → Nat} (asks : ∀ count < 2 ^ 64, asked count = count) {dataAllocated : Nat → Bool}
    (allocated : dataAllocated (4 * (e.height * e.width)) = true) :
    ∃ image, (bmpImgLoadWith bytes e.bmpEncode.length asked true dataAllocated).image = some image ∧ image.Shows e := by
  have sized := e.sized wide high small stored
  have offset := e.bfOffbits_eq wide high small stored
  have reached : BmpReached bytes e.bmpEncode.length true := by
    have length := e.bmpEncode_length
    have row := (bmpRow_bounds e.width).1
    have oneRow : bmpRow e.width ≤ e.height * bmpRow e.width := Nat.le_mul_of_pos_left _ high
    exact ⟨by omega, stored.signature, by omega, rfl⟩
  have uncompressed : PeachOS.biCompression bytes = 0 := stored.biCompression.field (by decide)
  have fits : PeachOS.bfOffbits bytes + e.height * bmpRow e.width ≤ e.bmpEncode.length := by
    rw [offset, e.bmpEncode_length]
  rw [imgLoad_reached reached, loadImage_accepts asks uncompressed sized allocated fits]
  simp only [BmpLoad.reading_image, bmpDecode]
  refine ⟨_, rfl, ?_, ?_, fun row inRows col inCols => ?_⟩
  · rw [sized.wide, toUInt32_natCast (by have := sized.wide_lt; omega)]
  · rw [sized.high, toUInt32_natCast (by have := sized.high_lt; omega)]
  · dsimp only
    exact e.putAll_pixel wide high small stored inRows inCols

end Loading

end BmpEncoding

/-- **Loading undoes encoding**, in both copies: a file below `2 ^ 31` bytes gives an image of its size and its pixels. -/
theorem bmpImgLoad_encoded (e : BmpEncoding) (wide : 1 ≤ e.width) (high : 1 ≤ e.height) (small : e.bmpEncode.length < 2 ^ 31)
    {bytes : Int → Byte} (holds : HoldsAt bytes 0 e.bmpEncode) {dataAllocated : Nat → Bool}
    (allocated : dataAllocated (4 * (e.height * e.width)) = true) :
    (∃ image, (bmpImgLoad bytes e.bmpEncode.length true dataAllocated).image = some image ∧ image.Shows e) ∧
      ∃ image, (guilibBmpImgLoad bytes e.bmpEncode.length true dataAllocated).image = some image ∧ image.Shows e := by
  have stored := e.stored_of_holds holds
  exact ⟨e.imgLoad_encoded wide high small stored (fun _ _ => rfl) allocated,
    e.imgLoad_encoded wide high small stored calloc_asks allocated⟩

theorem zeroRest_length : (List.replicate 20 (0x00#8 : Byte)).length = 20 := List.length_replicate

/-- Three columns and two rows, from bottom to top, with padding and a gap. -/
def smallEncoding : BmpEncoding where
  width := 3
  height := 2
  pixel := fun row col => ⟨.ofNat 8 row, .ofNat 8 col, 0xFF#8, 0x00#8⟩
  topDown := false
  bfSize := 80
  bfReserved := 0
  biSize := 40
  biPlanes := 1
  biRest := List.replicate 20 0x00#8
  rest_length := zeroRest_length
  gap := [0xAA#8, 0xBB#8]
  padding := fun _ _ => 0xCC#8

/-- A list with cleared memory around it. -/
def listBytes (list : List Byte) (offset : Int) : Byte := list.getD offset.toNat 0x00#8

theorem listBytes_holds (list : List Byte) : HoldsAt (listBytes list) 0 list := fun i inside => by
  rw [listBytes, Int.toNat_natCast, Nat.zero_add, List.getD_eq_getElem?_getD, List.getElem?_eq_getElem inside,
    Option.getD_some]

/-- The small image is loaded by both copies. -/
theorem bmpImgLoad_encoded_small :
    (∃ image, (bmpImgLoad (listBytes smallEncoding.bmpEncode) smallEncoding.bmpEncode.length true fun _ => true).image =
        some image ∧ image.Shows smallEncoding) ∧
      ∃ image, (guilibBmpImgLoad (listBytes smallEncoding.bmpEncode) smallEncoding.bmpEncode.length true fun _ => true).image =
        some image ∧ image.Shows smallEncoding :=
  bmpImgLoad_encoded smallEncoding (by decide) (by decide) (by decide) (listBytes_holds _) rfl

end PeachOS
