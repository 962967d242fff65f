/-
**The elements of `programs/guilib`, and their pixels.**

An element has its place in three bases: the window, its parent and its oldest ancestor, whose pixel buffer it shares.
`gui_element_create` clips nothing (the code that would is commented out), `gui_element_draw_pixel` goes by the place in the
oldest ancestor, and `gui_element_pixel_get` by the place in the window.

* `pixelsRight_iff` — an element draws inside its rectangle of the buffer and reads back what it drew exactly when it is empty,
  or lies in its root, in reach of an `int`, and the place of the root is the start of the buffer;
* `pixelGet_misses` — a root that is not at the origin of the window.
-/

import Mathlib.Data.Int.ModEq
import PeachOS.Graphics.Model

namespace PeachOS

/-! ### The code -/

/-- The event handlers of the elements of the library, with what they read of the private data of their element. -/
inductive GuiHandler where
  | element
  | plane
  | textfield (readOnly : Bool)
  | listarea (totalElements bitsHeightPerCharacter : Nat)
  | button
deriving DecidableEq

/-- `struct gui_element`, without its children: its address, and the fields that are read here. -/
structure GuiElement where
  ptr : Nat
  id : Int
  parent : Option Nat
  x : Int
  y : Int
  relX : Int
  relY : Int
  relRootX : Int
  relRootY : Int
  width : Int
  height : Int
  realWidth : Int
  realHeight : Int
  eventHandler : GuiHandler
deriving DecidableEq

/-- `gui_element_create`, once its memory and graphics are there. -/
def guiElementCreate (ptr : Nat) (parent : Option GuiElement) (x y width height id : Int) : GuiElement :=
  let element : GuiElement := {
    ptr := ptr
    id := id
    parent := parent.map GuiElement.ptr
    x := x
    y := y
    relX := x
    relY := y
    relRootX := 0
    relRootY := 0
    width := width
    height := height
    realWidth := width
    realHeight := height
    eventHandler := .element }
  match parent with
  | none => element
  | some parent =>
      { element with
        x := toInt32 (parent.x + element.relX)
        y := toInt32 (parent.y + element.relY)
        relRootX := toInt32 (parent.relRootX + element.relX)
        relRootY := toInt32 (parent.relRootY + element.relY)
        realWidth := parent.realWidth
        realHeight := parent.realHeight }

def guiElementBoundsCheck (element : GuiElement) (x y : Int) : Bool :=
  if x < 0 ∨ x ≥ element.width ∨ y < 0 ∨ y ≥ element.height then false else true

/-- The pixels from the start of the buffer of the root on, and those around. -/
abbrev GuiPixels := Int → FramebufferPixel

/-- The pixel that is drawn to. -/
def guiElementPixelOut (element : GuiElement) (x y : Int) : Int :=
  let trueX := if element.parent.isSome then toInt32 (x + element.relRootX) else x
  let trueY := if element.parent.isSome then toInt32 (y + element.relRootY) else y
  toInt32 (toInt32 (trueY * element.realWidth) + trueX)

def guiElementDrawPixel (pixels : GuiPixels) (element : GuiElement) (x y : Int) (pixel : FramebufferPixel) : GuiPixels :=
  if !guiElementBoundsCheck element x y then pixels
  else Function.update pixels (guiElementPixelOut element x y) pixel

/-- The pixel that is read. -/
def guiElementPixelIn (element : GuiElement) (x y : Int) : Int :=
  let trueX := toInt32 (element.x + x)
  let trueY := toInt32 (element.y + y)
  toInt32 (toInt32 (trueY * element.realWidth) + trueX)

/-- `gui_element_pixel_get`: the result and what `pixel_out` points to then. -/
def guiElementPixelGet (pixels : GuiPixels) (element : GuiElement) (x y : Int) (pixelOut : FramebufferPixel) :
    Int × FramebufferPixel :=
  if !guiElementBoundsCheck element x y then (-1, pixelOut) else (0, pixels (guiElementPixelIn element x y))

/-! ### Trees, and what an element owns -/

/-- An `int`. -/
def IsInt (value : Int) : Prop := -2 ^ 31 ≤ value ∧ value < 2 ^ 31

instance (value : Int) : Decidable (IsInt value) := inferInstanceAs (Decidable (_ ∧ _))

/-- **The elements below a root**, at any positions and of any sizes. -/
inductive BuiltBelow : GuiElement → GuiElement → Prop where
  | root (ptr : Nat) {x y width height : Int} (id : Int) (left : IsInt x) (top : IsInt y) (wide : IsInt width)
      (high : IsInt height) :
      BuiltBelow (guiElementCreate ptr none x y width height id) (guiElementCreate ptr none x y width height id)
  | child {root parent : GuiElement} (built : BuiltBelow root parent) (ptr : Nat) {x y width height : Int} (id : Int)
      (left : IsInt x) (top : IsInt y) (wide : IsInt width) (high : IsInt height) :
      BuiltBelow root (guiElementCreate ptr (some parent) x y width height id)

/-- The pixels of a rectangle at a place in a buffer of `width` by `height` pixels. -/
def Owned (width height left top wide high index : Int) : Prop :=
  ∃ px py, 0 ≤ px ∧ px < width ∧ 0 ≤ py ∧ py < height ∧
    left ≤ px ∧ px < left + wide ∧ top ≤ py ∧ py < top + high ∧ index = py * width + px

/-- **A pixel of the buffer that belongs to the rectangle of an element.** -/
def GuiElement.Owns (element : GuiElement) (index : Int) : Prop :=
  Owned element.realWidth element.realHeight element.relRootX element.relRootY element.width element.height index

/-- **An element draws to its own pixels only, and reads what it drew.** -/
structure PixelsRight (element : GuiElement) : Prop where
  inside : ∀ pixels x y pixel index, guiElementDrawPixel pixels element x y pixel index ≠ pixels index → element.Owns index
  readBack : ∀ pixels x y pixel pixelOut, guiElementBoundsCheck element x y = true →
    guiElementPixelGet (guiElementDrawPixel pixels element x y pixel) element x y pixelOut = (0, pixel)

/-- An element without pixels. -/
def GuiElement.Empty (element : GuiElement) : Prop := element.width ≤ 0 ∨ element.height ≤ 0

/-- **An element that lies in its root, in reach of an `int`.** -/
structure GuiElement.Within (element : GuiElement) : Prop where
  left : 0 ≤ element.relRootX
  right : element.relRootX + element.width ≤ element.realWidth
  top : 0 ≤ element.relRootY
  bottom : element.relRootY + element.height ≤ element.realHeight
  last : (element.relRootY + element.height - 1) * element.realWidth + (element.relRootX + element.width - 1) < 2 ^ 31

/-! ### Places modulo the size of an `int` -/

theorem toInt32_modEq (value : Int) : toInt32 value ≡ value [ZMOD 2 ^ 32] := toInt32_emod value

theorem toInt32_eq_iff {value value' : Int} : toInt32 value = toInt32 value' ↔ value ≡ value' [ZMOD 2 ^ 32] :=
  ⟨fun same => (toInt32_modEq value).symm.trans (same ▸ toInt32_modEq value'), toInt32_congr⟩

theorem isInt_toInt32 (value : Int) : IsInt (toInt32 value) := toInt32_bounds value

theorem toInt32_of_isInt {value : Int} (isInt : IsInt value) : toInt32 value = value := toInt32_of_bounds isInt.1 isInt.2

/-- An index that is computed step by step. -/
theorem toInt32_index (x y width : Int) : toInt32 (toInt32 (toInt32 y * width) + toInt32 x) = toInt32 (y * width + x) :=
  toInt32_congr (((toInt32_modEq _).trans ((toInt32_modEq y).mul_right width)).add (toInt32_modEq x))

/-- **What the elements of a tree agree on.** -/
structure BuiltBelow.Placed (root element : GuiElement) : Prop where
  realWidth : element.realWidth = root.realWidth
  left : IsInt element.relRootX
  top : IsInt element.relRootY
  wide : IsInt element.width
  high : IsInt element.height
  realWide : IsInt element.realWidth
  realHigh : IsInt element.realHeight
  x : element.x ≡ element.relRootX + root.x [ZMOD 2 ^ 32]
  y : element.y ≡ element.relRootY + root.y [ZMOD 2 ^ 32]
  parentless : element.parent = none → element.relRootX = 0 ∧ element.relRootY = 0

theorem BuiltBelow.placed {root element : GuiElement} (built : BuiltBelow root element) : BuiltBelow.Placed root element := by
  induction built with
  | root ptr id left top wide high =>
      have zero : IsInt 0 := ⟨by decide, by decide⟩
      have same : ∀ place : Int, place ≡ 0 + place [ZMOD 2 ^ 32] := fun place => by rw [zero_add]
      exact ⟨rfl, zero, zero, wide, high, wide, high, same _, same _, fun _ => ⟨rfl, rfl⟩⟩
  | @child root parent built ptr x y width height id left top wide high ih =>
      refine ⟨ih.realWidth, isInt_toInt32 _, isInt_toInt32 _, wide, high, ih.realWide, ih.realHigh, ?_, ?_,
        fun none_ => by cases none_⟩
      · show toInt32 (parent.x + x) ≡ toInt32 (parent.relRootX + x) + root.x [ZMOD 2 ^ 32]
        have sum := (toInt32_modEq (parent.x + x)).trans (ih.x.add_right x)
        have moved := (toInt32_modEq (parent.relRootX + x)).add_right root.x
        exact sum.trans (show _ ≡ _ [ZMOD 2 ^ 32] from by
          rw [show parent.relRootX + root.x + x = parent.relRootX + x + root.x by ring]
          exact moved.symm)
      · show toInt32 (parent.y + y) ≡ toInt32 (parent.relRootY + y) + root.y [ZMOD 2 ^ 32]
        have sum := (toInt32_modEq (parent.y + y)).trans (ih.y.add_right y)
        have moved := (toInt32_modEq (parent.relRootY + y)).add_right root.y
        exact sum.trans (show _ ≡ _ [ZMOD 2 ^ 32] from by
          rw [show parent.relRootY + root.y + y = parent.relRootY + y + root.y by ring]
          exact moved.symm)

/-- **Where an element draws**, in the bases of its root. -/
theorem BuiltBelow.Placed.pixelOut {root element : GuiElement} (placed : BuiltBelow.Placed root element) {x y : Int}
    (column : IsInt x) (row : IsInt y) : guiElementPixelOut element x y =
      toInt32 ((element.relRootY + y) * element.realWidth + (element.relRootX + x)) := by
  unfold guiElementPixelOut
  dsimp only
  cases parent : element.parent with
  | none =>
      obtain ⟨left, top⟩ := placed.parentless parent
      rw [if_neg (by decide), if_neg (by decide), left, top, zero_add, zero_add, ← toInt32_index, toInt32_of_isInt column,
        toInt32_of_isInt row]
  | some _ =>
      simp only [Option.isSome_some, if_true]
      rw [toInt32_index, Int.add_comm y, Int.add_comm x]

/-- **Where it reads**: the same place, from the place of the root on. -/
theorem BuiltBelow.Placed.pixelIn {root element : GuiElement} (placed : BuiltBelow.Placed root element) (x y : Int) :
    guiElementPixelIn element x y =
      toInt32 ((element.relRootY + y) * element.realWidth + (element.relRootX + x) + (root.y * root.realWidth + root.x)) := by
  unfold guiElementPixelIn
  dsimp only
  rw [toInt32_index]
  refine toInt32_congr ((((placed.y.add_right y).mul_right element.realWidth).add (placed.x.add_right x)).trans ?_)
  rw [placed.realWidth, show (element.relRootY + root.y + y) * root.realWidth + (element.relRootX + root.x + x) =
    (element.relRootY + y) * root.realWidth + (element.relRootX + x) + (root.y * root.realWidth + root.x) by ring]

/-! ### Rectangles in a buffer -/

section Rectangle

variable {width height left top wide high : Int}

/-- The rows of the pixels that a rectangle owns. -/
theorem Owned.row {index : Int} (owned : Owned width height left top wide high index) :
    ∃ py, max 0 top ≤ py ∧ py < min height (top + high) ∧ py * width ≤ index ∧ index < (py + 1) * width ∧ 0 < width := by
  obtain ⟨px, py, low, below, floor, under, _, _, above, beneath, rfl⟩ := owned
  have next : (py + 1) * width = py * width + width := by rw [Int.add_mul, Int.one_mul]
  exact ⟨py, max_le floor above, lt_min under beneath, by omega, by omega, by omega⟩

theorem Owned.nonneg {index : Int} (owned : Owned width height left top wide high index) : 0 ≤ index := by
  obtain ⟨py, low, _, above, _, positive⟩ := owned.row
  have bound := Int.mul_nonneg (show 0 ≤ py by omega) positive.le
  omega

/-- An index that an `int` holds, and the next one that a rectangle owns. -/
theorem lt_of_owned {index step : Int} (low : 0 ≤ index) (small : index < 2 ^ 31) (ahead : 0 ≤ step) (short : step ≤ 2 ^ 31)
    (owned : Owned width height left top wide high (toInt32 (index + step))) : index + step < 2 ^ 31 := by
  have nonneg := owned.nonneg
  unfold toInt32 at nonneg
  split at nonneg <;> omega

/-- **A rectangle all of whose pixels are drawn inside what it owns** lies in the buffer, in reach of an `int`. -/
theorem within_of_owned (realWide : IsInt width) (some_ : 0 < wide ∧ 0 < high)
    (lands : ∀ x y, 0 ≤ x → x < wide → 0 ≤ y → y < high →
      Owned width height left top wide high (toInt32 ((top + y) * width + (left + x)))) :
    0 ≤ left ∧ left + wide ≤ width ∧ 0 ≤ top ∧ top + high ≤ height ∧
      (top + high - 1) * width + (left + wide - 1) < 2 ^ 31 := by
  obtain ⟨px₀, py₀, low, below, floor, under, right, beside, above, beneath, same⟩ :=
    lands 0 0 le_rfl some_.1 le_rfl some_.2
  have positive : 0 < width := by omega
  have short := realWide.2
  -- the pixel of a column and a row of the rectangle
  have pixel : ∀ px py, left ≤ px → px < left + wide → top ≤ py → py < top + high →
      Owned width height left top wide high (toInt32 (py * width + px)) := fun px py h1 h2 h3 h4 => by
    have owned := lands (px - left) (py - top) (by omega) (by omega) (by omega) (by omega)
    rwa [add_sub_cancel, add_sub_cancel] at owned
  -- no index of a pixel that is owned leaves an `int`, by induction on the row
  set firstRow := max 0 top with firstRowEq
  set firstColumn := max 0 left with firstColumnEq
  have start : firstRow * width + firstColumn < 2 ^ 31 := by
    have bound := isInt_toInt32 ((top + 0) * width + (left + 0))
    rw [same] at bound
    have rows := Int.mul_le_mul_of_nonneg_right (show firstRow ≤ py₀ by omega) positive.le
    have high := bound.2
    omega
  have column : ∀ n : Nat, firstRow + n < min height (top + high) → (firstRow + n) * width + firstColumn < 2 ^ 31 := by
    intro n
    induction n with
    | zero => exact fun _ => by simpa using start
    | succ n ih =>
        intro inside
        push_cast at inside ⊢
        have before := ih (by omega)
        have owned := pixel firstColumn (firstRow + (n + 1)) (by omega) (by omega) (by omega) (by omega)
        have next : (firstRow + (n + 1)) * width + firstColumn = (firstRow + n) * width + firstColumn + width := by ring
        rw [next] at owned ⊢
        have bound := Int.mul_nonneg (show 0 ≤ firstRow + (n : Int) by omega) positive.le
        exact lt_of_owned (by omega) before positive.le (by omega) owned
  have small : ∀ px py, firstColumn ≤ px → px < min width (left + wide) → firstRow ≤ py → py < min height (top + high) →
      py * width + px < 2 ^ 31 := fun px py h1 h2 h3 h4 => by
    have before := column (py - firstRow).toNat (by omega)
    rw [Int.toNat_of_nonneg (by omega), add_sub_cancel] at before
    have owned := pixel px py (by omega) (by omega) (by omega) (by omega)
    have next : py * width + px = py * width + firstColumn + (px - firstColumn) := by ring
    rw [next] at owned ⊢
    have bound := Int.mul_nonneg (show 0 ≤ py by omega) positive.le
    exact lt_of_owned (by omega) before (by omega) (by omega) owned
  have exact_ : ∀ index, 0 ≤ index → index < 2 ^ 31 → toInt32 index = index := fun index h1 h2 =>
    toInt32_of_bounds (by omega) h2
  have fitsLeft : 0 ≤ left := by
    by_contra outside
    have owned := pixel (-1) firstRow (by omega) (by omega) (by omega) (by omega)
    have inside := small 0 firstRow (by omega) (by omega) (by omega) (by omega)
    have bound := Int.mul_nonneg (show 0 ≤ firstRow by omega) positive.le
    rw [toInt32_of_bounds (by omega) (by omega)] at owned
    obtain ⟨py, atLeast, _, above, _⟩ := owned.row
    have rows := Int.mul_le_mul_of_nonneg_right (show firstRow ≤ py from atLeast) positive.le
    omega
  have fitsRight : left + wide ≤ width := by
    by_contra outside
    have lastRow : ∃ row, firstRow ≤ row ∧ row + 1 = min height (top + high) :=
      ⟨min height (top + high) - 1, by omega, by omega⟩
    obtain ⟨row, atLeast, last⟩ := lastRow
    have owned := pixel width row (by omega) (by omega) (by omega) (by omega)
    have inside := small (width - 1) row (by omega) (by omega) (by omega) (by omega)
    have nonneg := owned.nonneg
    have bound := Int.mul_nonneg (show 0 ≤ row by omega) positive.le
    have next : row * width + width < 2 ^ 31 := by
      unfold toInt32 at nonneg
      split at nonneg <;> omega
    rw [exact_ _ (by omega) next] at owned
    obtain ⟨py, _, atMost, _, beneath, _⟩ := owned.row
    have rows := Int.mul_le_mul_of_nonneg_right (show py + 1 ≤ row + 1 by omega) positive.le
    rw [Int.add_mul row, Int.one_mul] at rows
    omega
  have fitsTop : 0 ≤ top := by
    by_contra outside
    have owned := pixel firstColumn (-1) (by omega) (by omega) (by omega) (by omega)
    have nonneg := owned.nonneg
    rw [toInt32_of_bounds (by omega) (by omega)] at nonneg
    omega
  have fitsBottom : top + high ≤ height := by
    by_contra outside
    have owned := pixel firstColumn height (by omega) (by omega) (by omega) (by omega)
    have inside := small firstColumn (height - 1) (by omega) (by omega) (by omega) (by omega)
    have before : (height - 1) * width = height * width - width := by ring
    have bound := Int.mul_nonneg (show 0 ≤ height by omega) positive.le
    have nonneg := owned.nonneg
    have next : height * width + firstColumn < 2 ^ 31 := by
      unfold toInt32 at nonneg
      split at nonneg <;> omega
    rw [exact_ _ (by omega) next] at owned
    obtain ⟨py, _, atMost, _, beneath, _⟩ := owned.row
    have rows := Int.mul_le_mul_of_nonneg_right (show py + 1 ≤ height by omega) positive.le
    omega
  exact ⟨fitsLeft, fitsRight, fitsTop, fitsBottom, small _ _ (by omega) (by omega) (by omega) (by omega)⟩

end Rectangle

/-! ### The theorem -/

section Pixels

variable {root element : GuiElement}

theorem guiElementBoundsCheck_iff {x y : Int} :
    guiElementBoundsCheck element x y = true ↔ 0 ≤ x ∧ x < element.width ∧ 0 ≤ y ∧ y < element.height := by
  unfold guiElementBoundsCheck
  split <;> simp <;> omega

/-- A pixel that is not the black one. -/
def bluePixel : FramebufferPixel := ⟨0xff#8, 0x00#8, 0x00#8, 0x00#8⟩

theorem bluePixel_ne : bluePixel ≠ blackPixel := by decide

theorem guiElementDrawPixel_inside {x y : Int} (bounds : guiElementBoundsCheck element x y = true) (pixels : GuiPixels)
    (pixel : FramebufferPixel) :
    guiElementDrawPixel pixels element x y pixel = Function.update pixels (guiElementPixelOut element x y) pixel := by
  unfold guiElementDrawPixel
  rw [bounds]
  rfl

theorem guiElementPixelGet_inside {x y : Int} (bounds : guiElementBoundsCheck element x y = true) (pixels : GuiPixels)
    (pixelOut : FramebufferPixel) :
    guiElementPixelGet pixels element x y pixelOut = (0, pixels (guiElementPixelIn element x y)) := by
  unfold guiElementPixelGet
  rw [bounds]
  rfl

/-- A pixel is changed only where it is drawn to. -/
theorem inside_iff : (∀ pixels x y pixel index, guiElementDrawPixel pixels element x y pixel index ≠ pixels index →
      element.Owns index) ↔
    ∀ x y, guiElementBoundsCheck element x y = true → element.Owns (guiElementPixelOut element x y) := by
  constructor
  · intro inside x y bounds
    refine inside (fun _ => blackPixel) x y bluePixel _ ?_
    rw [guiElementDrawPixel_inside bounds, Function.update_self]
    exact bluePixel_ne
  · intro owns pixels x y pixel index changed
    by_cases bounds : guiElementBoundsCheck element x y = true
    · rw [guiElementDrawPixel_inside bounds] at changed
      by_cases here : index = guiElementPixelOut element x y
      · rw [here]
        exact owns x y bounds
      · exact absurd (Function.update_of_ne here pixel pixels) changed
    · rw [Bool.not_eq_true] at bounds
      unfold guiElementDrawPixel at changed
      rw [bounds] at changed
      exact absurd rfl changed

/-- What was drawn is read from where it was drawn to. -/
theorem readBack_iff : (∀ pixels x y pixel pixelOut, guiElementBoundsCheck element x y = true →
      guiElementPixelGet (guiElementDrawPixel pixels element x y pixel) element x y pixelOut = (0, pixel)) ↔
    ∀ x y, guiElementBoundsCheck element x y = true → guiElementPixelIn element x y = guiElementPixelOut element x y := by
  constructor
  · intro readBack x y bounds
    have read := readBack (fun _ => blackPixel) x y bluePixel blackPixel bounds
    rw [guiElementPixelGet_inside bounds, guiElementDrawPixel_inside bounds] at read
    by_contra elsewhere
    rw [Function.update_of_ne elsewhere, Prod.mk.injEq] at read
    exact bluePixel_ne read.2.symm
  · intro same pixels x y pixel pixelOut bounds
    rw [guiElementPixelGet_inside bounds, guiElementDrawPixel_inside bounds, same x y bounds, Function.update_self]

/-- **An element draws to its own pixels and reads them back exactly when it is empty, or lies in its root, in reach of an
`int`, and its root is at the start of the buffer** as the window counts. -/
theorem pixelsRight_iff (built : BuiltBelow root element) :
    PixelsRight element ↔ element.Empty ∨ element.Within ∧ toInt32 (root.y * root.realWidth + root.x) = 0 := by
  have placed := built.placed
  have wide := placed.wide
  have high := placed.high
  have drawn : ∀ x y, guiElementBoundsCheck element x y = true → guiElementPixelOut element x y =
      toInt32 ((element.relRootY + y) * element.realWidth + (element.relRootX + x)) := fun x y bounds => by
    obtain ⟨left, right, top, bottom⟩ := guiElementBoundsCheck_iff.mp bounds
    unfold IsInt at wide high
    exact placed.pixelOut ⟨by omega, by omega⟩ ⟨by omega, by omega⟩
  constructor
  · intro right
    by_cases empty : element.Empty
    · exact Or.inl empty
    · have some_ : 0 < element.width ∧ 0 < element.height := by
        unfold GuiElement.Empty at empty
        omega
      have owns := inside_iff.mp right.inside
      have lands := within_of_owned placed.realWide some_ fun x y left beside top beneath => by
        have bounds := guiElementBoundsCheck_iff.mpr ⟨left, beside, top, beneath⟩
        rw [← drawn x y bounds]
        exact owns x y bounds
      have corner := guiElementBoundsCheck_iff.mpr ⟨le_rfl, some_.1, le_rfl, some_.2⟩
      have read := readBack_iff.mp right.readBack 0 0 corner
      rw [drawn 0 0 corner, placed.pixelIn, toInt32_eq_iff] at read
      have origin : root.y * root.realWidth + root.x ≡ 0 [ZMOD 2 ^ 32] :=
        Int.ModEq.add_left_cancel' ((element.relRootY + 0) * element.realWidth + (element.relRootX + 0)) (by
          rwa [add_zero ((element.relRootY + 0) * element.realWidth + (element.relRootX + 0))])
      exact Or.inr ⟨⟨lands.1, lands.2.1, lands.2.2.1, lands.2.2.2.1, lands.2.2.2.2⟩, toInt32_congr origin⟩
  · intro placedRight
    have inRoot : ∀ x y, guiElementBoundsCheck element x y = true → element.Within ∧
        toInt32 (root.y * root.realWidth + root.x) = 0 := fun x y bounds => by
      obtain ⟨left, beside, top, beneath⟩ := guiElementBoundsCheck_iff.mp bounds
      refine placedRight.resolve_left fun empty => ?_
      unfold GuiElement.Empty at empty
      omega
    refine ⟨inside_iff.mpr fun x y bounds => ?_, readBack_iff.mpr fun x y bounds => ?_⟩
    · obtain ⟨left, beside, top, beneath⟩ := guiElementBoundsCheck_iff.mp bounds
      obtain ⟨insideLeft, insideRight, insideTop, insideBottom, last⟩ := (inRoot x y bounds).1
      have rows := Int.mul_le_mul_of_nonneg_right (show element.relRootY + y ≤ element.relRootY + element.height - 1 by omega)
        (show 0 ≤ element.realWidth by omega)
      have nonneg := Int.mul_nonneg (show 0 ≤ element.relRootY + y by omega) (show 0 ≤ element.realWidth by omega)
      rw [drawn x y bounds, toInt32_of_bounds (by omega) (by omega)]
      exact ⟨element.relRootX + x, element.relRootY + y, by omega, by omega, by omega, by omega, by omega, by omega, by omega,
        by omega, rfl⟩
    · rw [drawn x y bounds, placed.pixelIn, toInt32_eq_iff]
      have zero : root.y * root.realWidth + root.x ≡ 0 [ZMOD 2 ^ 32] :=
        toInt32_eq_iff.mp ((inRoot x y bounds).2.trans (by decide))
      have sum := zero.add_left ((element.relRootY + y) * element.realWidth + (element.relRootX + x))
      rwa [add_zero] at sum

/-- A child inside a root at the origin of the window. -/
theorem pixelsRight_child :
    PixelsRight (guiElementCreate 2 (some (guiElementCreate 1 none 0 0 100 50 0)) 10 10 20 20 0) :=
  (pixelsRight_iff (.child (.root 1 0 (by decide) (by decide) (by decide) (by decide)) 2 0 (by decide) (by decide) (by decide)
    (by decide))).mpr (Or.inr ⟨⟨by decide, by decide, by decide, by decide, by decide⟩, by decide⟩)

/-- **A root that is not at the origin** reads another pixel than it drew. -/
theorem pixelGet_misses : ¬ ∀ root element, BuiltBelow root element → PixelsRight element := by
  intro always
  have right := always _ _ (@BuiltBelow.root 1 10 0 100 50 0 ⟨by decide, by decide⟩ ⟨by decide, by decide⟩
    ⟨by decide, by decide⟩ ⟨by decide, by decide⟩)
  exact absurd (right.readBack (fun _ => blackPixel) 0 0 bluePixel blackPixel (by decide)) (by decide)

end Pixels

end PeachOS
