/-
**The cursor of a terminal: `graphics/terminal.c` and the drawing of `graphics/font.c`.**

Four operations move the cursor, each with its own rules at the ends of a row and of the screen. A glyph is drawn from the
cursor's cell; the position goes through an `int` on its way to `graphics_draw_pixel`, which takes 32 bits.

* `cursorSet_inGrid`, `updatePosition_inGrid`, `handleNewline_inGrid` — what each operation keeps;
* `terminalWrite_spec` — one character keeps the cursor in the grid, and what it draws in the rectangle;
* `terminal_kept` — so do all runs of the operations.

The pixels come from any character data: nothing here depends on it. A font without width divides by zero in the kernel; here its
rows have no columns, and no result is about such a terminal.
-/

import PeachOS.Machine
import PeachOS.Lib.StepRun

namespace PeachOS

open StepRun

/-! ### The code -/

/-- `struct font`. -/
structure Font where
  characterCount : Nat
  characterData : Nat → Byte
  bitsWidthPerCharacter : Nat
  bitsHeightPerCharacter : Nat
  subtractFromAsciiCharIndexForDrawing : Byte

/-- `struct terminal`, without its graphics and colours. `backspaceAllowed` is its flag. -/
structure Terminal where
  row : Nat
  col : Nat
  absX : Nat
  absY : Nat
  width : Nat
  height : Nat
  font : Font
  backspaceAllowed : Bool

/-- A call of `graphics_draw_pixel`: a pixel of a glyph, or one of the background. -/
inductive TerminalPixel where
  | glyph (x y : Nat)
  | background (x y : Nat)
deriving DecidableEq

/-- `sizeof` a character in the data of a font. -/
def Font.totalRequiredBytesPerCharacter (font : Font) : Nat :=
  let bits := toWord (font.bitsWidthPerCharacter * font.bitsHeightPerCharacter : Nat)
  bits / 8 + if bits % 8 ≠ 0 then 1 else 0

/-- The bit of a character for a pixel. -/
def Font.lit (font : Font) (indexCharacter : Int) (x y : Nat) : Bool :=
  let charOffset := toWord (toWord indexCharacter * font.totalRequiredBytesPerCharacter : Nat)
  let bitIndex := toWord (y * font.bitsWidthPerCharacter + x : Nat)
  (font.characterData (toWord (charOffset + bitIndex / 8 : Nat))).getLsbD (bitIndex % 8)

/-- `font_draw_from_index`: the pixels it draws. -/
def fontDrawFromIndex (font : Font) (screenX screenY indexCharacter : Int) : List TerminalPixel :=
  if toWord indexCharacter > font.characterCount then []
  else
    (List.range font.bitsWidthPerCharacter).flatMap fun (x : Nat) =>
      ((List.range font.bitsHeightPerCharacter).filter fun y => font.lit indexCharacter x y).map fun (y : Nat) =>
        .glyph (toUInt32 (toWord (screenX + x))) (toUInt32 (toWord (screenY + y)))

/-- `font_draw`. -/
def fontDraw (font : Font) (screenX screenY character : Int) : List TerminalPixel :=
  fontDrawFromIndex font screenX screenY (toInt32 (character - font.subtractFromAsciiCharIndexForDrawing.toNat))

/-- `terminal_total_cols`. -/
def terminalTotalCols (terminal : Terminal) : Int := toInt32 (terminal.width / terminal.font.bitsWidthPerCharacter : Nat)

/-- `terminal_total_rows`. -/
def terminalTotalRows (terminal : Terminal) : Int := toInt32 (terminal.height / terminal.font.bitsHeightPerCharacter : Nat)

/-- `terminal_abs_x_for_next_character`. -/
def terminalAbsXForNextCharacter (terminal : Terminal) : Nat :=
  toWord (terminal.absX + terminal.col * terminal.font.bitsWidthPerCharacter : Nat)

/-- `terminal_abs_y_for_next_character`. -/
def terminalAbsYForNextCharacter (terminal : Terminal) : Nat :=
  toWord (terminal.absY + terminal.row * terminal.font.bitsHeightPerCharacter : Nat)

/-- `terminal_handle_newline`. -/
def terminalHandleNewline (terminal : Terminal) : Terminal :=
  let row := toWord (terminal.row + 1 : Nat)
  { terminal with row := if row ≥ toWord (terminalTotalRows terminal) then 0 else row, col := 0 }

/-- `terminal_update_position_after_draw`. -/
def terminalUpdatePositionAfterDraw (terminal : Terminal) : Terminal :=
  let col := toWord (terminal.col + 1 : Nat)
  let atEnd := col ≥ toWord (terminalTotalCols terminal)
  let row := if atEnd then toWord (terminal.row + 1 : Nat) else terminal.row
  if row ≥ toWord (terminalTotalRows terminal) then { terminal with row := 0, col := 0 }
  else { terminal with row := row, col := if atEnd then 0 else col }

/-- `terminal_cursor_set`: its result, and the terminal then. -/
def terminalCursorSet (terminal : Terminal) (row col : Int) : Int × Terminal :=
  if col < 0 ∨ toWord col ≥ toWord (terminalTotalCols terminal) then (einvarg, terminal)
  else if row < 0 ∨ toWord row ≥ toWord (terminalTotalRows terminal) then (einvarg, terminal)
  else (0, { terminal with row := toWord row, col := toWord col })

/-- `terminal_restore_background`: the pixels it draws. -/
def terminalRestoreBackground (terminal : Terminal) (sx sy width height : Int) : List TerminalPixel :=
  (List.range width.toNat).flatMap fun (x : Nat) =>
    ((List.range height.toNat).filter fun (y : Nat) =>
        decide ¬ (toWord (terminal.absX + sx + x) > terminal.width ∨
          toWord (terminal.absY + sy + y) > terminal.height)).map fun (y : Nat) =>
      .background (toUInt32 (toWord (terminal.absX + sx + x))) (toUInt32 (toWord (terminal.absY + sy + y)))

/-- Where `terminal_backspace` moves the cursor. -/
def backspacePosition (terminal : Terminal) : Int × Int :=
  let totalRows := terminalTotalRows terminal
  let totalCols := terminalTotalCols terminal
  let col := toInt32 terminal.col - 1
  let row := toInt32 terminal.row
  let (row, col) := if col < 0 then (row - 1, totalCols - 1) else (row, col)
  let (row, col) := if row < 0 then (totalRows - 1, 0) else (row, col)
  let (row, col) := if col ≥ totalCols then (row + 1, 0) else (row, col)
  if row ≥ totalRows then (0, 0) else (row, col)

/-- `terminal_backspace`: the terminal then, and the pixels it draws. -/
def terminalBackspace (terminal : Terminal) : Terminal × List TerminalPixel :=
  if !terminal.backspaceAllowed then (terminal, [])
  else
    let position := backspacePosition terminal
    let moved := (terminalCursorSet terminal position.1 position.2).2
    let relX := toWord (moved.col * moved.font.bitsWidthPerCharacter : Nat)
    let relY := toWord (moved.row * moved.font.bitsHeightPerCharacter : Nat)
    (moved, terminalRestoreBackground moved (toInt32 relX) (toInt32 relY) (toInt32 moved.font.bitsWidthPerCharacter)
      (toInt32 moved.font.bitsHeightPerCharacter))

/-- `terminal_write`: the terminal then, and the pixels it draws. Its result is always 0. -/
def terminalWrite (terminal : Terminal) (c : Int) : Terminal × List TerminalPixel :=
  if c = 0x0A then (terminalHandleNewline terminal, [])
  else if c = 0x08 ∧ terminal.backspaceAllowed then terminalBackspace terminal
  else
    (terminalUpdatePositionAfterDraw terminal,
      fontDraw terminal.font (toInt32 (terminalAbsXForNextCharacter terminal))
        (toInt32 (terminalAbsYForNextCharacter terminal)) c)

/-- `terminal_print`, of the bytes of a message as signed characters. -/
def terminalPrint (terminal : Terminal) : (message : List Byte) → Terminal × List TerminalPixel
  | [] => (terminal, [])
  | c :: message =>
      let written := terminalWrite terminal c.toInt
      let rest := terminalPrint written.1 message
      (rest.1, written.2 ++ rest.2)

/-! ### Runs -/

/-- An operation on a terminal. -/
inductive TerminalCall where
  | write (c : Int)
  | print (message : List Byte)
  | backspace
  | cursorSet (row col : Int)

/-- The terminal after an operation, and what was drawn. -/
def TerminalCall.run (terminal : Terminal) : TerminalCall → Terminal × List TerminalPixel
  | .write c => terminalWrite terminal c
  | .print message => terminalPrint terminal message
  | .backspace => terminalBackspace terminal
  | .cursorSet row col => ((terminalCursorSet terminal row col).2, [])

/-- One operation. -/
def terminalStep (terminal : Terminal) (call : TerminalCall) (terminal' : Terminal) : Prop := terminal' = (call.run terminal).1

/-- `terminal_create` sets the cursor to the first cell. -/
def TerminalCreated (terminal : Terminal) : Prop := terminal.row = 0 ∧ terminal.col = 0

/-- **At least one cell wide and high**, as the code counts them. The rectangle does not wrap in the 32 bits of a pixel's
position; all terminals of the kernel start at 0. -/
structure WellSized (terminal : Terminal) : Prop where
  oneCol : 1 ≤ terminalTotalCols terminal
  oneRow : 1 ≤ terminalTotalRows terminal
  wideEnough : terminal.absX = 0 ∨ terminal.absX + terminal.width ≤ 2 ^ 32
  highEnough : terminal.absY = 0 ∨ terminal.absY + terminal.height ≤ 2 ^ 32

/-- **The cursor is in the grid.** -/
def InGrid (terminal : Terminal) : Prop :=
  (terminal.row : Int) < terminalTotalRows terminal ∧ (terminal.col : Int) < terminalTotalCols terminal

/-- The position of a pixel is in the rectangle. -/
def TerminalPixel.InRectangle (terminal : Terminal) : TerminalPixel → Prop
  | .glyph x y | .background x y =>
      (terminal.absX ≤ x ∧ x < terminal.absX + terminal.width) ∧ terminal.absY ≤ y ∧ y < terminal.absY + terminal.height

/-- The cursor may have moved, and nothing else. -/
def SameBounds (terminal terminal' : Terminal) : Prop := terminal' = { terminal with row := terminal'.row, col := terminal'.col }

/-! ### Positions -/

theorem toInt32_lt (value : Int) : toInt32 value < 2 ^ 31 := (toInt32_bounds value).2

theorem toInt32_natCast_le (value : Nat) : toInt32 value ≤ value := by
  unfold toInt32
  split <;> omega

theorem lt_of_lt_toInt32 {index count : Nat} (inside : index < (toInt32 count).toNat) : index < count := by
  have bound := toInt32_natCast_le count
  generalize toInt32 count = converted at inside bound
  omega

/-- A count that is positive is itself as a `size_t`. -/
theorem toWord_count {count : Int} (positive : 1 ≤ count) (isInt : count < 2 ^ 31) : (toWord count : Int) = count := by
  unfold toWord
  omega

/-- The position of a pixel of a glyph, as `graphics_draw_pixel` gets it. -/
theorem glyph_position (origin pixel : Nat) :
    toUInt32 (toWord (toInt32 (toWord origin) + pixel)) = (origin + pixel) % 2 ^ 32 := by
  unfold toUInt32
  rw [toWord_emod, Int.add_emod, toInt32_emod, toWord_emod, ← Int.add_emod]
  omega

/-- The position of a pixel of the background. -/
theorem background_position (start offset pixel : Nat) :
    toUInt32 (toWord (start + toInt32 (toWord offset) + pixel)) = (start + offset + pixel) % 2 ^ 32 := by
  unfold toUInt32
  rw [toWord_emod, add_right_comm, Int.add_emod, toInt32_emod, toWord_emod, ← Int.add_emod, add_right_comm]
  omega

/-- **A pixel of a cell is between the ends of the rectangle**, in each direction. -/
theorem cell_between {start size cell count index pixel : Nat} (fits : start = 0 ∨ start + size ≤ 2 ^ 32)
    (counted : toInt32 (size / cell : Nat) = count) (inCount : index < count) (inCell : pixel < cell) :
    start ≤ (start + index * cell + pixel) % 2 ^ 32 ∧ (start + index * cell + pixel) % 2 ^ 32 < start + size := by
  have most : count ≤ size / cell := by
    have bound := toInt32_natCast_le (size / cell)
    omega
  have inside : index * cell + pixel < size :=
    calc index * cell + pixel < index * cell + cell := Nat.add_lt_add_left inCell _
      _ = (index + 1) * cell := (Nat.succ_mul index cell).symm
      _ ≤ size / cell * cell := Nat.mul_le_mul_right cell (Nat.le_trans inCount most)
      _ ≤ size := Nat.div_mul_le_self size cell
  generalize index * cell = offset at inside ⊢
  rcases fits with atZero | noWrap
  · have small := Nat.mod_le (start + offset + pixel) (2 ^ 32)
    omega
  · rw [Nat.mod_eq_of_lt (by omega)]
    omega

/-! ### One operation -/

section Operations

variable {terminal terminal' : Terminal}

theorem SameBounds.rfl : SameBounds terminal terminal := by
  cases terminal
  exact Eq.refl _

theorem SameBounds.moved (row col : Nat) : SameBounds terminal { terminal with row := row, col := col } := Eq.refl _

theorem SameBounds.trans {terminal'' : Terminal} (first : SameBounds terminal terminal')
    (second : SameBounds terminal' terminal'') :
    SameBounds terminal terminal'' := by
  unfold SameBounds at first second ⊢
  rw [first] at second
  exact second

theorem SameBounds.wellSized (same : SameBounds terminal terminal') (sized : WellSized terminal) : WellSized terminal' := by
  rw [same]
  exact ⟨sized.oneCol, sized.oneRow, sized.wideEnough, sized.highEnough⟩

theorem SameBounds.inRectangle (same : SameBounds terminal terminal') {pixel : TerminalPixel}
    (inside : pixel.InRectangle terminal') : pixel.InRectangle terminal := by
  rw [same] at inside
  exact inside

/-- The counts of rows and columns, as `size_t`. -/
theorem WellSized.counts (sized : WellSized terminal) :
    (toWord (terminalTotalRows terminal) : Int) = terminalTotalRows terminal ∧
      (toWord (terminalTotalCols terminal) : Int) = terminalTotalCols terminal :=
  ⟨toWord_count sized.oneRow (toInt32_lt _), toWord_count sized.oneCol (toInt32_lt _)⟩

theorem inGrid_moved {row col : Nat} :
    InGrid { terminal with row := row, col := col } ↔
      (row : Int) < terminalTotalRows terminal ∧ (col : Int) < terminalTotalCols terminal := by
  unfold InGrid terminalTotalRows terminalTotalCols
  exact Iff.rfl

/-- **A new line keeps the cursor in the grid.** -/
theorem handleNewline_inGrid (sized : WellSized terminal) :
    InGrid (terminalHandleNewline terminal) ∧ SameBounds terminal (terminalHandleNewline terminal) := by
  obtain ⟨rows, -⟩ := sized.counts
  have oneRow := sized.oneRow
  have oneCol := sized.oneCol
  unfold terminalHandleNewline
  dsimp only
  refine ⟨inGrid_moved.mpr ⟨?_, by omega⟩, .moved _ _⟩
  split <;> omega

/-- **The move after a glyph keeps the cursor in the grid.** -/
theorem updatePosition_inGrid (sized : WellSized terminal) :
    InGrid (terminalUpdatePositionAfterDraw terminal) ∧ SameBounds terminal (terminalUpdatePositionAfterDraw terminal) := by
  obtain ⟨rows, cols⟩ := sized.counts
  have oneRow := sized.oneRow
  have oneCol := sized.oneCol
  unfold terminalUpdatePositionAfterDraw
  dsimp only
  generalize (if toWord (terminal.col + 1 : Nat) ≥ toWord (terminalTotalCols terminal) then toWord (terminal.row + 1 : Nat)
    else terminal.row) = row
  by_cases bottom : row ≥ toWord (terminalTotalRows terminal)
  · rw [if_pos bottom]
    exact ⟨inGrid_moved.mpr ⟨by omega, by omega⟩, .moved 0 0⟩
  · rw [if_neg bottom]
    refine ⟨inGrid_moved.mpr ⟨by omega, ?_⟩, .moved _ _⟩
    split <;> omega

/-- **The cursor is set in the grid or not at all**, for any row and column. -/
theorem cursorSet_inGrid (sized : WellSized terminal) (inGrid : InGrid terminal) (row col : Int) :
    InGrid (terminalCursorSet terminal row col).2 ∧ SameBounds terminal (terminalCursorSet terminal row col).2 := by
  obtain ⟨rows, cols⟩ := sized.counts
  unfold terminalCursorSet
  split
  · exact ⟨inGrid, .rfl⟩
  · next colFits =>
      split
      · exact ⟨inGrid, .rfl⟩
      · next rowFits =>
          rw [not_or] at colFits rowFits
          exact ⟨inGrid_moved.mpr ⟨by omega, by omega⟩, .moved _ _⟩

/-- What the counts are, for the cells. -/
theorem WellSized.counted (sized : WellSized terminal) :
    toInt32 (terminal.width / terminal.font.bitsWidthPerCharacter : Nat) = (terminalTotalCols terminal).toNat ∧
      toInt32 (terminal.height / terminal.font.bitsHeightPerCharacter : Nat) = (terminalTotalRows terminal).toNat := by
  have oneRow := sized.oneRow
  have oneCol := sized.oneCol
  unfold terminalTotalCols at oneCol ⊢
  unfold terminalTotalRows at oneRow ⊢
  omega

/-- **The pixels of a glyph are in the rectangle**, drawn from the cursor, whatever the character. -/
theorem fontDraw_inRectangle (sized : WellSized terminal) (inGrid : InGrid terminal) (character : Int) :
    ∀ pixel ∈ fontDraw terminal.font (toInt32 (terminalAbsXForNextCharacter terminal))
      (toInt32 (terminalAbsYForNextCharacter terminal)) character, pixel.InRectangle terminal := by
  intro pixel isPixel
  obtain ⟨counted, counted'⟩ := sized.counted
  have inRow := Int.lt_toNat.mpr inGrid.1
  have inCol := Int.lt_toNat.mpr inGrid.2
  unfold fontDraw fontDrawFromIndex at isPixel
  split at isPixel
  · exact absurd isPixel List.not_mem_nil
  · obtain ⟨x, isX, isPixel⟩ := List.mem_flatMap.mp isPixel
    obtain ⟨y, isY, rfl⟩ := List.mem_map.mp isPixel
    have inWidth := List.mem_range.mp isX
    have inHeight := List.mem_range.mp (List.mem_filter.mp isY).1
    unfold TerminalPixel.InRectangle terminalAbsXForNextCharacter terminalAbsYForNextCharacter
    rw [glyph_position, glyph_position]
    exact ⟨cell_between sized.wideEnough counted inCol inWidth, cell_between sized.highEnough counted' inRow inHeight⟩

/-- **The pixels that are restored are in the rectangle**, at the cell of the cursor. -/
theorem restoreBackground_inRectangle (sized : WellSized terminal) (inGrid : InGrid terminal) :
    ∀ pixel ∈ terminalRestoreBackground terminal (toInt32 (toWord (terminal.col * terminal.font.bitsWidthPerCharacter : Nat)))
      (toInt32 (toWord (terminal.row * terminal.font.bitsHeightPerCharacter : Nat)))
      (toInt32 terminal.font.bitsWidthPerCharacter) (toInt32 terminal.font.bitsHeightPerCharacter),
      pixel.InRectangle terminal := by
  intro pixel isPixel
  obtain ⟨counted, counted'⟩ := sized.counted
  have inRow := Int.lt_toNat.mpr inGrid.1
  have inCol := Int.lt_toNat.mpr inGrid.2
  unfold terminalRestoreBackground at isPixel
  obtain ⟨x, isX, isPixel⟩ := List.mem_flatMap.mp isPixel
  obtain ⟨y, isY, rfl⟩ := List.mem_map.mp isPixel
  have inWidth := lt_of_lt_toInt32 (List.mem_range.mp isX)
  have inHeight := lt_of_lt_toInt32 (List.mem_range.mp (List.mem_filter.mp isY).1)
  unfold TerminalPixel.InRectangle
  rw [background_position, background_position]
  exact ⟨cell_between sized.wideEnough counted inCol inWidth, cell_between sized.highEnough counted' inRow inHeight⟩

/-- An operation keeps the cursor in the grid, and draws in the rectangle. -/
def Keeps (terminal : Terminal) (result : Terminal × List TerminalPixel) : Prop :=
  InGrid result.1 ∧ SameBounds terminal result.1 ∧ ∀ pixel ∈ result.2, pixel.InRectangle terminal

theorem Keeps.intro {pixels : List TerminalPixel} (inGrid : InGrid terminal') (same : SameBounds terminal terminal')
    (drawn : ∀ pixel ∈ pixels, pixel.InRectangle terminal) : Keeps terminal (terminal', pixels) := ⟨inGrid, same, drawn⟩

/-- **A backspace** keeps the cursor and the rectangle. -/
theorem terminalBackspace_spec (sized : WellSized terminal) (inGrid : InGrid terminal) :
    Keeps terminal (terminalBackspace terminal) := by
  unfold terminalBackspace
  split
  · exact .intro inGrid .rfl (List.forall_mem_nil _)
  · obtain ⟨inGrid', same⟩ := cursorSet_inGrid sized inGrid (backspacePosition terminal).1 (backspacePosition terminal).2
    exact .intro inGrid' same fun pixel isPixel =>
      same.inRectangle (restoreBackground_inRectangle (same.wellSized sized) inGrid' pixel isPixel)

/-- **One character** keeps the cursor and the rectangle. -/
theorem terminalWrite_spec (sized : WellSized terminal) (inGrid : InGrid terminal) (c : Int) :
    Keeps terminal (terminalWrite terminal c) := by
  unfold terminalWrite
  split
  · obtain ⟨inGrid', same⟩ := handleNewline_inGrid sized
    exact .intro inGrid' same (List.forall_mem_nil _)
  · split
    · exact terminalBackspace_spec sized inGrid
    · obtain ⟨inGrid', same⟩ := updatePosition_inGrid sized
      exact .intro inGrid' same (fontDraw_inRectangle sized inGrid c)

/-- **A message** keeps them. -/
theorem terminalPrint_spec (message : List Byte) : ∀ {terminal : Terminal}, WellSized terminal → InGrid terminal →
    Keeps terminal (terminalPrint terminal message) := by
  induction message with
  | nil => exact fun _ inGrid => .intro inGrid .rfl (List.forall_mem_nil _)
  | cons c message ih =>
      intro terminal sized inGrid
      obtain ⟨inGrid', same, drawn⟩ := terminalWrite_spec sized inGrid c.toInt
      obtain ⟨inGrid'', same', drawn'⟩ := ih (same.wellSized sized) inGrid'
      rw [terminalPrint]
      refine ⟨inGrid'', same.trans same', fun pixel isPixel => ?_⟩
      rcases List.mem_append.mp isPixel with first | others
      · exact drawn pixel first
      · exact same.inRectangle (drawn' pixel others)

/-- **One operation** keeps the cursor in the grid, and draws in the rectangle. -/
theorem TerminalCall.run_spec (sized : WellSized terminal) (inGrid : InGrid terminal) (call : TerminalCall) :
    Keeps terminal (call.run terminal) := by
  cases call with
  | write c => exact terminalWrite_spec sized inGrid c
  | print message => exact terminalPrint_spec message sized inGrid
  | backspace => exact terminalBackspace_spec sized inGrid
  | cursorSet row col =>
      obtain ⟨inGrid', same⟩ := cursorSet_inGrid sized inGrid row col
      exact .intro inGrid' same (List.forall_mem_nil _)

end Operations

/-- **The cursor of a terminal in all its runs**: from a terminal at least one cell wide and high, it is in the grid, and the next
operation draws in the rectangle. -/
theorem terminal_kept (created : Terminal) (sized : WellSized created) (first : TerminalCreated created) (terminal : Terminal)
    (reached : Reachable terminalStep (· = created) terminal) :
    InGrid terminal ∧ ∀ (call : TerminalCall), ∀ pixel ∈ (call.run terminal).2, pixel.InRectangle terminal := by
  have kept : InGrid terminal ∧ SameBounds created terminal := by
    refine reached.invariant (fun terminal => InGrid terminal ∧ SameBounds created terminal) (fun terminal begins => ?_)
      fun terminal call terminal' ⟨inGrid, same⟩ taken => ?_
    · rw [begins]
      obtain ⟨row, col⟩ := first
      have oneRow := sized.oneRow
      have oneCol := sized.oneCol
      exact ⟨⟨by omega, by omega⟩, .rfl⟩
    · obtain ⟨inGrid', same', -⟩ := call.run_spec (same.wellSized sized) inGrid
      rw [taken]
      exact ⟨inGrid', same.trans same'⟩
  exact ⟨kept.1, fun call => (call.run_spec (kept.2.wellSized sized) kept.1).2.2⟩

/-- A terminal of 20 columns and 2 rows, of characters of 9 by 16. -/
def smallTerminal : Terminal where
  row := 0
  col := 0
  absX := 0
  absY := 0
  width := 180
  height := 32
  font := ⟨255, fun _ => 0xFF#8, 9, 16, 32#8⟩
  backspaceAllowed := true

/-- It is in the grid after a backspace at the start. -/
theorem terminal_kept_small : InGrid (terminalBackspace smallTerminal).1 :=
  (terminal_kept smallTerminal ⟨by decide, by decide, Or.inl rfl, Or.inl rfl⟩ ⟨rfl, rfl⟩ _
    (.next .backspace (.start rfl) rfl)).1

end PeachOS
