/-
**The background of a terminal: `terminal_background_save` and `terminal_restore_background` of `graphics/terminal.c`.**

The first pixels of the graphics are saved, as many as the terminal has, one row of the graphics after the other. A rectangle
is restored from the first pixels of rows of the terminal's width, wherever it is.

* `restoreDraw_to_iff` — what is drawn to an entry of the pixel array;
* `restores_iff` — when a rectangle gets its pixels back;
* `kept_every_picture` — when it does whatever the pixels were: it starts at the first pixel, and its rows follow each other
  as in the graphics.
-/

import PeachOS.Graphics.Draw
import PeachOS.Graphics.Terminal
import PeachOS.Lib.Raster

namespace PeachOS

open Raster

/-! ### The code -/

/-- `buffer_size`. -/
def terminalBufferSize (terminal : Terminal) : Nat := toWord (toWord (terminal.width * terminal.height : Nat) * 4 : Nat)

/-- The entries of the pixel array that `terminal_background_save` reads, which are the first ones: `memcpy` takes the size as an
`int` and counts it down. -/
def terminalSavedPixels (terminal : Terminal) : Nat := toUInt32 (terminalBufferSize terminal) / 4

/-- `terminal_background_save`: the entries of `terminal_background` then. The block is cleared first; `behind` is what lies
behind it. -/
def terminalBackgroundSave (terminal : Terminal) (g : GraphicsInfo) (behind : Nat → FramebufferPixel) (i : Nat) :
    FramebufferPixel :=
  if i < terminalSavedPixels terminal then g.pixelAt i
  else if i < terminalBufferSize terminal / 4 then blackPixel
  else behind i

/-- `terminal_restore_background`: its calls of `graphics_draw_pixel`. -/
def terminalRestoreDraws (terminal : Terminal) (background : Nat → FramebufferPixel) (sx sy width height : Int) :
    List PixelDraw :=
  (List.range width.toNat).flatMap fun (x : Nat) =>
    ((List.range height.toNat).filter fun (y : Nat) =>
        decide ¬ (toWord (terminal.absX + sx + x) > terminal.width ∨
          toWord (terminal.absY + sy + y) > terminal.height)).map fun (y : Nat) =>
      ⟨.ofNat 32 (toUInt32 (toWord (terminal.absX + sx + x))), .ofNat 32 (toUInt32 (toWord (terminal.absY + sy + y))),
        background (toWord (y * terminal.width + x : Nat))⟩

/-! ### Rectangles -/

/-- A rectangle of a terminal, as it is passed on: its pixels are in the terminal, and their positions have 32 bits. -/
structure TerminalRect (terminal : Terminal) where
  sx : Nat
  sy : Nat
  width : Nat
  height : Nat
  inWidth : sx + width ≤ terminal.width
  inHeight : sy + height ≤ terminal.height
  columns : terminal.absX + sx + width ≤ 2 ^ 32
  rows : terminal.absY + sy + height ≤ 2 ^ 32

/-- The pixel array has an entry of its own for each pixel. -/
structure GraphicsInfo.Indexed (g : GraphicsInfo) : Prop where
  sized : g.Sized
  small : g.width.toNat * g.height.toNat ≤ 2 ^ 32

namespace TerminalRect

variable {terminal : Terminal} (rect : TerminalRect terminal) (g : GraphicsInfo)

/-- A pixel of the rectangle that is in the graphics. -/
def Visible (x y : Nat) : Prop :=
  x < rect.width ∧ y < rect.height ∧ terminal.absX + rect.sx + x < g.width.toNat ∧ terminal.absY + rect.sy + y < g.height.toNat

/-- Its entry. -/
def entry (x y : Nat) : Nat := (terminal.absY + rect.sy + y) * g.width.toNat + (terminal.absX + rect.sx + x)

/-- The graphics after `terminal_restore_background`. -/
def restore (background : Nat → FramebufferPixel) (ignoreColor : FramebufferPixel) : GraphicsInfo :=
  drawEach ignoreColor g (terminalRestoreDraws terminal background rect.sx rect.sy rect.width rect.height)

/-- Something was drawn into the rectangle. -/
structure DrawnInto (g' : GraphicsInfo) : Prop where
  same : g' = { g with pixels := g'.pixels }
  length : g'.pixels.length = g.pixels.length
  outside : ∀ i, (¬ ∃ x y, rect.Visible g x y ∧ i = rect.entry g x y) → g'.pixelAt i = g.pixelAt i

/-- **The background comes back**: it is saved from the pixel array only, and whatever is drawn into the rectangle, its pixels are
restored, and no other one changes. -/
structure Restores (ignoreColor : FramebufferPixel) (behind : Nat → FramebufferPixel) : Prop where
  inside : terminalSavedPixels terminal ≤ g.pixels.length
  restored : ∀ g', rect.DrawnInto g g' → ∀ x y, rect.Visible g x y →
    (rect.restore g' (terminalBackgroundSave terminal g behind) ignoreColor).pixelAt (rect.entry g x y) =
      g.pixelAt (rect.entry g x y)
  kept : ∀ g', rect.DrawnInto g g' → ∀ i, (¬ ∃ x y, rect.Visible g x y ∧ i = rect.entry g x y) →
    (rect.restore g' (terminalBackgroundSave terminal g behind) ignoreColor).pixelAt i = g'.pixelAt i

/-- **What was saved for a pixel is the pixel**: none is skipped or ignored, and the entry that is taken for it is like its
own. -/
structure Kept (ignoreColor : FramebufferPixel) (behind : Nat → FramebufferPixel) : Prop where
  saved : terminal.width * terminal.height % 2 ^ 30 ≤ g.width.toNat * g.height.toNat
  notSkipped : ∀ x y, rect.Visible g x y →
    terminal.absX + rect.sx + x ≤ terminal.width ∧ terminal.absY + rect.sy + y ≤ terminal.height
  notIgnored : ∀ x y, rect.Visible g x y →
    ¬ (ignoreColor ≠ blackPixel ∧ ignoreColor = terminalBackgroundSave terminal g behind (toWord (y * terminal.width + x : Nat)))
  same : ∀ x y, rect.Visible g x y →
    terminalBackgroundSave terminal g behind (toWord (y * terminal.width + x : Nat)) = g.pixelAt (rect.entry g x y)

end TerminalRect

/-! ### What is drawn where -/

/-- The index of a pixel does not wrap. -/
theorem GraphicsInfo.Indexed.pixelIndex {g : GraphicsInfo} (indexed : g.Indexed) {x y : Nat} (column : x < g.width.toNat)
    (row : y < g.height.toNat) : g.pixelIndex (.ofNat 32 x) (.ofNat 32 y) = y * g.width.toNat + x := by
  have below := index_lt row column
  have isWidth := g.width.isLt
  have isHeight := g.height.isLt
  have small := indexed.small
  rw [Nat.mul_comm g.width.toNat] at small
  have inRow : y * g.width.toNat < 2 ^ 32 := by omega
  unfold GraphicsInfo.pixelIndex
  rw [BitVec.toNat_add, BitVec.toNat_mul, BitVec.toNat_ofNat, BitVec.toNat_ofNat, Nat.mod_eq_of_lt (show x < 2 ^ 32 by omega),
    Nat.mod_eq_of_lt (show y < 2 ^ 32 by omega), Nat.mod_eq_of_lt inRow, Nat.mod_eq_of_lt (by omega)]

namespace TerminalRect

variable {terminal : Terminal} {rect : TerminalRect terminal} {g : GraphicsInfo} {background : Nat → FramebufferPixel}
  {ignoreColor : FramebufferPixel} {x y i : Nat}

/-- The pixels of a rectangle have entries of their own. -/
theorem entry_inj {x' y' : Nat} (visible : rect.Visible g x y) (visible' : rect.Visible g x' y')
    (same : rect.entry g x y = rect.entry g x' y') : x = x' ∧ y = y' := by
  have both := (index_inj visible.2.2.1 visible'.2.2.1).mp same
  omega

/-- The position of a pixel of the rectangle, as it is passed on. -/
theorem position (rect : TerminalRect terminal) (inX : x < rect.width) (inY : y < rect.height) :
    toWord ((terminal.absX : Int) + (rect.sx : Int) + (x : Int)) = terminal.absX + rect.sx + x ∧
      toWord ((terminal.absY : Int) + (rect.sy : Int) + (y : Int)) = terminal.absY + rect.sy + y ∧
        toUInt32 (terminal.absX + rect.sx + x : Nat) = terminal.absX + rect.sx + x ∧
          toUInt32 (terminal.absY + rect.sy + y : Nat) = terminal.absY + rect.sy + y := by
  have columns := rect.columns
  have rows := rect.rows
  refine ⟨?_, ?_, toUInt32_natCast (by omega), toUInt32_natCast (by omega)⟩
  · rw [← Nat.cast_add, ← Nat.cast_add, toWord_natCast (by omega)]
  · rw [← Nat.cast_add, ← Nat.cast_add, toWord_natCast (by omega)]

/-- The calls of `terminal_restore_background`: one for each pixel that is not skipped. -/
theorem mem_restoreDraws {draw : PixelDraw} :
    draw ∈ terminalRestoreDraws terminal background rect.sx rect.sy rect.width rect.height ↔
      ∃ x < rect.width, ∃ y < rect.height, terminal.absX + rect.sx + x ≤ terminal.width ∧
        terminal.absY + rect.sy + y ≤ terminal.height ∧
          draw = ⟨.ofNat 32 (terminal.absX + rect.sx + x), .ofNat 32 (terminal.absY + rect.sy + y),
            background (toWord (y * terminal.width + x : Nat))⟩ := by
  unfold terminalRestoreDraws
  rw [Int.toNat_natCast, Int.toNat_natCast]
  simp only [List.mem_flatMap, List.mem_map, List.mem_filter, List.mem_range, decide_eq_true_eq, not_or, not_lt]
  constructor
  · rintro ⟨x, inX, y, ⟨inY, columns, rows⟩, rfl⟩
    obtain ⟨wordX, wordY, posX, posY⟩ := rect.position inX inY
    rw [wordX] at columns
    rw [wordY] at rows
    rw [wordX, wordY, posX, posY]
    exact ⟨x, inX, y, inY, columns, rows, rfl⟩
  · rintro ⟨x, inX, y, inY, columns, rows, rfl⟩
    obtain ⟨wordX, wordY, posX, posY⟩ := rect.position inX inY
    refine ⟨x, inX, y, ⟨inY, ?_, ?_⟩, ?_⟩
    · rwa [wordX]
    · rwa [wordY]
    · rw [wordX, wordY, posX, posY]

/-- **A call goes to an entry** when it is that of a visible pixel whose background is not ignored. -/
theorem restoreDraw_to_iff (indexed : g.Indexed) (inX : x < rect.width) (inY : y < rect.height) :
    (⟨.ofNat 32 (terminal.absX + rect.sx + x), .ofNat 32 (terminal.absY + rect.sy + y),
        background (toWord (y * terminal.width + x : Nat))⟩ : PixelDraw).To ignoreColor g i ↔
      ¬ (ignoreColor ≠ blackPixel ∧ ignoreColor = background (toWord (y * terminal.width + x : Nat))) ∧ rect.Visible g x y ∧
        i = rect.entry g x y := by
  have columns := rect.columns
  have rows := rect.rows
  have isWidth := g.width.isLt
  have isHeight := g.height.isLt
  have insideX : BitVec.ofNat 32 (terminal.absX + rect.sx + x) < g.width ↔ terminal.absX + rect.sx + x < g.width.toNat := by
    rw [BitVec.lt_def, BitVec.toNat_ofNat, Nat.mod_eq_of_lt (by omega)]
  have insideY : BitVec.ofNat 32 (terminal.absY + rect.sy + y) < g.height ↔ terminal.absY + rect.sy + y < g.height.toNat := by
    rw [BitVec.lt_def, BitVec.toNat_ofNat, Nat.mod_eq_of_lt (by omega)]
  unfold PixelDraw.To Visible entry
  rw [insideX, insideY]
  constructor
  · rintro ⟨notIgnored, column, row, here⟩
    exact ⟨notIgnored, ⟨inX, inY, column, row⟩, here.symm.trans (indexed.pixelIndex column row)⟩
  · rintro ⟨notIgnored, ⟨-, -, column, row⟩, here⟩
    exact ⟨notIgnored, column, row, (indexed.pixelIndex column row).trans here.symm⟩

/-- **A pixel after the restore**: the background if it is neither skipped nor ignored. -/
theorem restore_visible (indexed : g.Indexed) (visible : rect.Visible g x y) :
    (terminal.absX + rect.sx + x ≤ terminal.width → terminal.absY + rect.sy + y ≤ terminal.height →
      ¬ (ignoreColor ≠ blackPixel ∧ ignoreColor = background (toWord (y * terminal.width + x : Nat))) →
        (rect.restore g background ignoreColor).pixelAt (rect.entry g x y) = background (toWord (y * terminal.width + x : Nat))) ∧
    (¬ (terminal.absX + rect.sx + x ≤ terminal.width ∧ terminal.absY + rect.sy + y ≤ terminal.height ∧
      ¬ (ignoreColor ≠ blackPixel ∧ ignoreColor = background (toWord (y * terminal.width + x : Nat)))) →
        (rect.restore g background ignoreColor).pixelAt (rect.entry g x y) = g.pixelAt (rect.entry g x y)) := by
  have isOwn : ∀ draw ∈ terminalRestoreDraws terminal background rect.sx rect.sy rect.width rect.height,
      draw.To ignoreColor g (rect.entry g x y) →
        (terminal.absX + rect.sx + x ≤ terminal.width ∧ terminal.absY + rect.sy + y ≤ terminal.height ∧
          ¬ (ignoreColor ≠ blackPixel ∧ ignoreColor = background (toWord (y * terminal.width + x : Nat)))) ∧
            draw.pixel = background (toWord (y * terminal.width + x : Nat)) := by
    intro draw isDraw goes
    obtain ⟨x', inX, y', inY, columns, rows, rfl⟩ := mem_restoreDraws.mp isDraw
    obtain ⟨notIgnored, visible', same⟩ := (restoreDraw_to_iff indexed inX inY).mp goes
    obtain ⟨rfl, rfl⟩ := entry_inj visible visible' same
    exact ⟨⟨columns, rows, notIgnored⟩, rfl⟩
  constructor
  · intro columns rows notIgnored
    have isDraw := (@mem_restoreDraws terminal rect background _).mpr ⟨x, visible.1, y, visible.2.1, columns, rows, rfl⟩
    exact drawEach_pixelAt indexed.sized (fun draw isIn goes => (isOwn draw isIn goes).2)
      (Or.inr ⟨_, isDraw, (restoreDraw_to_iff indexed visible.1 visible.2.1).mpr ⟨notIgnored, visible, rfl⟩⟩)
  · intro notDrawn
    exact drawEach_pixelAt indexed.sized (fun draw isIn goes => absurd (isOwn draw isIn goes).1 notDrawn) (Or.inl rfl)

/-- **No other pixel changes** in the restore. -/
theorem restore_other (indexed : g.Indexed) (other : ¬ ∃ x y, rect.Visible g x y ∧ i = rect.entry g x y) :
    (rect.restore g background ignoreColor).pixelAt i = g.pixelAt i := by
  refine drawEach_pixelAt indexed.sized (fun draw isIn goes => ?_) (Or.inl rfl)
  obtain ⟨x, inX, y, inY, -, -, rfl⟩ := mem_restoreDraws.mp isIn
  obtain ⟨-, visible, same⟩ := (restoreDraw_to_iff indexed inX inY).mp goes
  exact absurd ⟨x, y, visible, same⟩ other

/-- What was drawn into leaves the sizes. -/
theorem DrawnInto.sizes {g' : GraphicsInfo} (drawn : rect.DrawnInto g g') (indexed : g.Indexed) :
    g'.Indexed ∧ (∀ x y, rect.Visible g' x y ↔ rect.Visible g x y) ∧ ∀ x y, rect.entry g' x y = rect.entry g x y := by
  have width : g'.width = g.width := by rw [drawn.same]
  have height : g'.height = g.height := by rw [drawn.same]
  refine ⟨⟨?_, ?_⟩, fun x y => ?_, fun x y => ?_⟩
  · unfold GraphicsInfo.Sized
    rw [drawn.length, width, height]
    exact indexed.sized
  · rw [width, height]
    exact indexed.small
  · unfold Visible
    rw [width, height]
  · unfold entry
    rw [width]

/-- A colour that is neither of two. -/
theorem exists_thirdPixel (first second : FramebufferPixel) : ∃ third, third ≠ first ∧ third ≠ second := by
  have red : (⟨0x00#8, 0x00#8, 0xFF#8, 0x00#8⟩ : FramebufferPixel) ≠ ⟨0x00#8, 0xFF#8, 0x00#8, 0x00#8⟩ := by decide
  have green : (⟨0x00#8, 0xFF#8, 0x00#8, 0x00#8⟩ : FramebufferPixel) ≠ ⟨0xFF#8, 0x00#8, 0x00#8, 0x00#8⟩ := by decide
  have blue : (⟨0xFF#8, 0x00#8, 0x00#8, 0x00#8⟩ : FramebufferPixel) ≠ ⟨0x00#8, 0x00#8, 0xFF#8, 0x00#8⟩ := by decide
  by_contra none
  rw [not_exists] at none
  have isRed := none ⟨0x00#8, 0x00#8, 0xFF#8, 0x00#8⟩
  have isGreen := none ⟨0x00#8, 0xFF#8, 0x00#8, 0x00#8⟩
  have isBlue := none ⟨0xFF#8, 0x00#8, 0x00#8, 0x00#8⟩
  grind

/-- The number of saved pixels. -/
theorem savedPixels_eq (terminal : Terminal) : terminalSavedPixels terminal = terminal.width * terminal.height % 2 ^ 30 := by
  unfold terminalSavedPixels terminalBufferSize toUInt32 toWord
  omega

/-- **What comes back was saved**: one pixel after the other is drawn over in another colour, so that it must be restored. -/
theorem Restores.isKept {behind : Nat → FramebufferPixel} (indexed : g.Indexed) (restores : rect.Restores g ignoreColor behind) :
    rect.Kept g ignoreColor behind := by
  have length : g.pixels.length = g.width.toNat * g.height.toNat := indexed.sized
  obtain ⟨inside, restored, -⟩ := restores
  rw [savedPixels_eq, length] at inside
  have each : ∀ x y, rect.Visible g x y →
      (terminal.absX + rect.sx + x ≤ terminal.width ∧ terminal.absY + rect.sy + y ≤ terminal.height ∧
        ¬ (ignoreColor ≠ blackPixel ∧
          ignoreColor = terminalBackgroundSave terminal g behind (toWord (y * terminal.width + x : Nat)))) ∧
        terminalBackgroundSave terminal g behind (toWord (y * terminal.width + x : Nat)) = g.pixelAt (rect.entry g x y) := by
    intro x y visible
    obtain ⟨other, isOther, -⟩ := exists_thirdPixel (g.pixelAt (rect.entry g x y)) blackPixel
    have inArray : rect.entry g x y < g.pixels.length := by
      rw [length, Nat.mul_comm]
      exact index_lt visible.2.2.2 visible.2.2.1
    have drawn : rect.DrawnInto g { g with pixels := g.pixels.set (rect.entry g x y) other } :=
      ⟨rfl, List.length_set, fun i outside =>
        (pixelAt_set inArray other).trans (if_neg fun here => outside ⟨x, y, visible, here⟩)⟩
    have overdrawn : ({ g with pixels := g.pixels.set (rect.entry g x y) other } : GraphicsInfo).pixelAt (rect.entry g x y) =
        other := (pixelAt_set inArray other).trans (if_pos rfl)
    have back := restored _ drawn x y visible
    generalize ({ g with pixels := g.pixels.set (rect.entry g x y) other } : GraphicsInfo) = g' at drawn overdrawn back
    obtain ⟨indexed', visible', entry'⟩ := drawn.sizes indexed
    obtain ⟨whenDrawn, whenNot⟩ := @restore_visible terminal rect g' (terminalBackgroundSave terminal g behind) ignoreColor x y
      indexed' ((visible' x y).mpr visible)
    rw [entry'] at whenDrawn whenNot
    by_contra wrong
    by_cases isDrawn : terminal.absX + rect.sx + x ≤ terminal.width ∧ terminal.absY + rect.sy + y ≤ terminal.height ∧
        ¬ (ignoreColor ≠ blackPixel ∧
          ignoreColor = terminalBackgroundSave terminal g behind (toWord (y * terminal.width + x : Nat)))
    · exact wrong ⟨isDrawn, (whenDrawn isDrawn.1 isDrawn.2.1 isDrawn.2.2).symm.trans back⟩
    · exact isOther (overdrawn.symm.trans ((whenNot isDrawn).symm.trans back))
  exact ⟨inside, fun x y visible => ⟨(each x y visible).1.1, (each x y visible).1.2.1⟩,
    fun x y visible => (each x y visible).1.2.2,
    fun x y visible => (each x y visible).2⟩

/-- What was saved comes back. -/
theorem Kept.restores {behind : Nat → FramebufferPixel} (indexed : g.Indexed) (isKept : rect.Kept g ignoreColor behind) :
    rect.Restores g ignoreColor behind := by
  have length : g.pixels.length = g.width.toNat * g.height.toNat := indexed.sized
  obtain ⟨saved, notSkipped, notIgnored, same⟩ := isKept
  refine ⟨by rw [savedPixels_eq, length]; exact saved, fun g' drawn x y visible => ?_, fun g' drawn i other => ?_⟩
  · obtain ⟨indexed', visible', entry'⟩ := drawn.sizes indexed
    have drawnBack := (@restore_visible terminal rect g' (terminalBackgroundSave terminal g behind) ignoreColor x y
      indexed' ((visible' x y).mpr visible)).1 (notSkipped x y visible).1 (notSkipped x y visible).2 (notIgnored x y visible)
    rw [entry'] at drawnBack
    exact drawnBack.trans (same x y visible)
  · obtain ⟨indexed', visible', entry'⟩ := drawn.sizes indexed
    refine restore_other indexed' ?_
    rintro ⟨x, y, visible, here⟩
    exact other ⟨x, y, (visible' x y).mp visible, here.trans (entry' x y)⟩

/-- **A rectangle that gets its background back whatever the pixels were**: each of its pixels is saved, under the number that
it is restored from. So the rectangle starts at the first pixel of the graphics, and one row follows the other as in the
graphics. -/
theorem kept_every_picture (indexed : g.Indexed) (behind : Nat → FramebufferPixel) :
    (∀ pixels : List FramebufferPixel, pixels.length = g.pixels.length →
        rect.Kept { g with pixels := pixels } blackPixel behind) ↔
      terminal.width * terminal.height % 2 ^ 30 ≤ g.width.toNat * g.height.toNat ∧ ∀ x y, rect.Visible g x y →
        (terminal.absX + rect.sx + x ≤ terminal.width ∧ terminal.absY + rect.sy + y ≤ terminal.height) ∧
          toWord (y * terminal.width + x : Nat) = rect.entry g x y ∧
            rect.entry g x y < terminal.width * terminal.height % 2 ^ 30 := by
  have length : g.pixels.length = g.width.toNat * g.height.toNat := indexed.sized
  constructor
  · intro every
    refine ⟨(every g.pixels rfl).saved, fun x y visible => ⟨(every g.pixels rfl).notSkipped x y visible, ?_⟩⟩
    -- In a black picture with one pixel of another colour, that colour is saved under the number of the pixel only.
    obtain ⟨color, notBlack, notBehind⟩ := exists_thirdPixel blackPixel (behind (toWord (y * terminal.width + x : Nat)))
    have inArray : rect.entry g x y < (List.replicate g.pixels.length blackPixel).length := by
      rw [List.length_replicate, length, Nat.mul_comm]
      exact index_lt visible.2.2.2 visible.2.2.1
    have black : ∀ i, (List.replicate g.pixels.length blackPixel).getD i blackPixel = blackPixel := fun i => by
      rw [List.getD_eq_getElem?_getD, List.getElem?_replicate]
      split <;> rfl
    have isKept := (every ((List.replicate g.pixels.length blackPixel).set (rect.entry g x y) color)
      (by rw [List.length_set, List.length_replicate])).same x y visible
    unfold terminalBackgroundSave GraphicsInfo.pixelAt at isKept
    rw [pixelAt_set inArray, pixelAt_set inArray, black, black, savedPixels_eq] at isKept
    have shown := isKept.trans (if_pos rfl)
    split at shown
    · next saved =>
        split at shown
        · next isEntry =>
            rw [isEntry] at saved
            exact ⟨isEntry, saved⟩
        · exact absurd shown.symm notBlack
    · split at shown
      · exact absurd shown.symm notBlack
      · exact absurd shown.symm notBehind
  · rintro ⟨saved, each⟩ pixels sameLength
    refine ⟨saved, fun x y visible => (each x y visible).1, fun x y _ ignored => ignored.1 rfl, fun x y visible => ?_⟩
    obtain ⟨-, isEntry, inSaved⟩ := each x y visible
    unfold terminalBackgroundSave
    rw [savedPixels_eq, isEntry, if_pos inSaved]
    rfl

/-- **A rectangle gets its background back**, whatever is drawn into it, exactly when what was saved for its pixels is the
pixels. -/
theorem restores_iff (rect : TerminalRect terminal) (indexed : g.Indexed) (ignoreColor : FramebufferPixel)
    (behind : Nat → FramebufferPixel) : rect.Restores g ignoreColor behind ↔ rect.Kept g ignoreColor behind :=
  ⟨fun restores => restores.isKept indexed, fun isKept => isKept.restores indexed⟩

end TerminalRect

/-! ### Two pixels -/

/-- A white pixel and a black one. -/
def twoPixels : GraphicsInfo := ⟨2, 1, 2, [⟨0xFF#8, 0xFF#8, 0xFF#8, 0x00#8⟩, blackPixel], 2, 1, 0, 0, blackPixel⟩

/-- Their terminal, with cells of one pixel. -/
def twoCells : Terminal where
  row := 0
  col := 0
  absX := 0
  absY := 0
  width := 2
  height := 1
  font := ⟨255, fun _ => 0x00#8, 1, 1, 32#8⟩
  backspaceAllowed := true

/-- A cell of it. -/
def oneCell (col : Nat) (inCols : col < 2) : TerminalRect twoCells where
  sx := col
  sy := 0
  width := 1
  height := 1
  inWidth := inCols
  inHeight := Nat.le_refl 1
  columns := by
    have columns : twoCells.absX = 0 := rfl
    omega
  rows := by decide

theorem twoPixels_indexed : twoPixels.Indexed := ⟨rfl, by decide⟩

/-- The first cell is restored. -/
theorem restores_firstCell : (oneCell 0 (by decide)).Restores twoPixels blackPixel fun _ => blackPixel := by
  refine (TerminalRect.restores_iff (oneCell 0 (by decide)) twoPixels_indexed _ _).mpr ⟨by decide, ?_, ?_, ?_⟩
  · rintro x y ⟨inX, inY, -⟩
    obtain rfl : x = 0 := Nat.lt_one_iff.mp inX
    obtain rfl : y = 0 := Nat.lt_one_iff.mp inY
    decide
  · exact fun x y _ ignored => ignored.1 rfl
  · rintro x y ⟨inX, inY, -⟩
    obtain rfl : x = 0 := Nat.lt_one_iff.mp inX
    obtain rfl : y = 0 := Nat.lt_one_iff.mp inY
    decide

/-- In every picture of two pixels. -/
theorem kept_every_picture_firstCell :
    (∀ pixels : List FramebufferPixel, pixels.length = 2 →
        (oneCell 0 (by decide)).Kept { twoPixels with pixels := pixels } blackPixel fun _ => blackPixel) ↔
      2 * 1 % 2 ^ 30 ≤ 2 * 1 ∧ ∀ x y, (oneCell 0 (by decide)).Visible twoPixels x y →
        (0 + 0 + x ≤ 2 ∧ 0 + 0 + y ≤ 1) ∧ toWord (y * 2 + x : Nat) = (oneCell 0 (by decide)).entry twoPixels x y ∧
          (oneCell 0 (by decide)).entry twoPixels x y < 2 * 1 % 2 ^ 30 :=
  TerminalRect.kept_every_picture twoPixels_indexed fun _ => blackPixel

/-- **The second cell is not**: it gets the first pixel. -/
theorem restores_misses : ¬ ∀ (terminal : Terminal) (rect : TerminalRect terminal) (g : GraphicsInfo), g.Indexed →
    rect.Restores g blackPixel fun _ => blackPixel := by
  intro always
  have isKept := (always twoCells (oneCell 1 (by decide)) twoPixels twoPixels_indexed).isKept twoPixels_indexed
  have same := isKept.same 0 0 ⟨by decide, by decide, by decide, by decide⟩
  exact absurd same (by decide)

end PeachOS
