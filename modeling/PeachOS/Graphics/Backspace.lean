/-
**A backspace takes the last character back: `terminal_write` of `graphics/terminal.c`.**

A character moves the cursor over the end of its row and of the screen. A backspace goes the other way, but from the first
cell it goes to the first cell of the last row, where the last cell was meant.

* `updatePosition_cursor`, `backspace_cursor` — the two moves, as cells;
* `backspace_undoes_iff` — a backspace undoes a character everywhere but in the last cell, and there if a row has one cell.
-/

import PeachOS.Graphics.Terminal

namespace PeachOS

namespace Terminal

/-- The cell of the cursor. -/
def cursor (terminal : Terminal) : Nat × Nat := (terminal.row, terminal.col)

/-- The terminal with its cursor in a cell. -/
def withCursor (terminal : Terminal) (cell : Nat × Nat) : Terminal := { terminal with row := cell.1, col := cell.2 }

/-- **The cursor is in the last cell.** -/
def AtLastCell (terminal : Terminal) : Prop :=
  (terminal.row : Int) + 1 = terminalTotalRows terminal ∧ (terminal.col : Int) + 1 = terminalTotalCols terminal

end Terminal

/-! ### Cells -/

/-- The cell after one of a grid. -/
def nextCell (rows cols : Nat) (cell : Nat × Nat) : Nat × Nat :=
  if cell.2 + 1 < cols then (cell.1, cell.2 + 1) else if cell.1 + 1 < rows then (cell.1 + 1, 0) else (0, 0)

/-- The cell that a backspace goes to. -/
def backCell (rows cols : Nat) (cell : Nat × Nat) : Nat × Nat :=
  if 0 < cell.2 then (cell.1, cell.2 - 1) else if 0 < cell.1 then (cell.1 - 1, cols - 1) else (rows - 1, 0)

theorem nextCell_inGrid {rows cols : Nat} {cell : Nat × Nat} (inRows : cell.1 < rows) (inCols : cell.2 < cols) :
    (nextCell rows cols cell).1 < rows ∧ (nextCell rows cols cell).2 < cols := by
  unfold nextCell
  split
  · next sameRow => exact ⟨inRows, sameRow⟩
  · split
    · next nextRow => exact ⟨nextRow, Nat.zero_lt_of_lt inCols⟩
    · exact ⟨Nat.zero_lt_of_lt inRows, Nat.zero_lt_of_lt inCols⟩

theorem backCell_inGrid {rows cols : Nat} {cell : Nat × Nat} (inRows : cell.1 < rows) (inCols : cell.2 < cols) :
    (backCell rows cols cell).1 < rows ∧ (backCell rows cols cell).2 < cols := by
  unfold backCell
  split
  · exact ⟨inRows, by omega⟩
  · split
    · exact ⟨by omega, by omega⟩
    · exact ⟨by omega, by omega⟩

/-- **Going back from the next cell** ends where it began, but for the last cell of rows that are longer than one. -/
theorem backCell_nextCell {rows cols : Nat} {cell : Nat × Nat} (inRows : cell.1 < rows) (inCols : cell.2 < cols) :
    backCell rows cols (nextCell rows cols cell) = cell ↔ ¬ (cell.1 + 1 = rows ∧ cell.2 + 1 = cols) ∨ cols = 1 := by
  obtain ⟨row, col⟩ := cell
  dsimp only at inRows inCols ⊢
  by_cases sameRow : col + 1 < cols
  · have back : backCell rows cols (nextCell rows cols (row, col)) = (row, col) := by
      rw [nextCell, if_pos sameRow, backCell, if_pos (Nat.succ_pos col)]
      rfl
    exact iff_of_true back (Or.inl fun atEnd => by omega)
  · have lastCol : col = cols - 1 := by omega
    by_cases nextRow : row + 1 < rows
    · have back : backCell rows cols (nextCell rows cols (row, col)) = (row, cols - 1) := by
        rw [nextCell, if_neg sameRow, if_pos nextRow, backCell, if_neg (lt_irrefl 0), if_pos (Nat.succ_pos row)]
        rfl
      rw [back, lastCol]
      exact iff_of_true rfl (Or.inl fun atEnd => by omega)
    · have back : backCell rows cols (nextCell rows cols (row, col)) = (rows - 1, 0) := by
        rw [nextCell, if_neg sameRow, if_neg nextRow, backCell, if_neg (lt_irrefl 0), if_neg (lt_irrefl 0)]
      rw [back, Prod.mk.injEq]
      omega

/-! ### The two moves -/

section Moves

variable {terminal : Terminal} (inGrid : InGrid terminal)

include inGrid

/-- A cursor in the grid is in a cell of as many rows and columns as the code counts. -/
theorem InGrid.counted : terminal.cursor.1 < (terminalTotalRows terminal).toNat ∧
    terminal.cursor.2 < (terminalTotalCols terminal).toNat :=
  ⟨Int.lt_toNat.mpr inGrid.1, Int.lt_toNat.mpr inGrid.2⟩

/-- **The move after a character** goes to the next cell. -/
theorem updatePosition_cursor : terminalUpdatePositionAfterDraw terminal =
    terminal.withCursor (nextCell (terminalTotalRows terminal).toNat (terminalTotalCols terminal).toNat terminal.cursor) := by
  obtain ⟨inRows, inCols⟩ := inGrid
  have rows := toWord_count (show 1 ≤ terminalTotalRows terminal by omega) (toInt32_lt _)
  have cols := toWord_count (show 1 ≤ terminalTotalCols terminal by omega) (toInt32_lt _)
  have fewRows : terminalTotalRows terminal < 2 ^ 31 := toInt32_lt _
  have fewCols : terminalTotalCols terminal < 2 ^ 31 := toInt32_lt _
  have nextCol : toWord (terminal.col + 1 : Nat) = terminal.col + 1 := toWord_natCast (by omega)
  have nextRow : toWord (terminal.row + 1 : Nat) = terminal.row + 1 := toWord_natCast (by omega)
  unfold terminalUpdatePositionAfterDraw Terminal.withCursor nextCell Terminal.cursor
  dsimp only
  rw [nextCol, nextRow]
  by_cases sameRow : terminal.col + 1 < (terminalTotalCols terminal).toNat
  · have inRow : ¬ terminal.col + 1 ≥ toWord (terminalTotalCols terminal) := by omega
    have inside : ¬ terminal.row ≥ toWord (terminalTotalRows terminal) := by omega
    rw [if_pos sameRow, if_neg inRow, if_neg inside, if_neg inRow]
  · have atEnd : terminal.col + 1 ≥ toWord (terminalTotalCols terminal) := by omega
    rw [if_neg sameRow, if_pos atEnd]
    by_cases lower : terminal.row + 1 < (terminalTotalRows terminal).toNat
    · have inside : ¬ terminal.row + 1 ≥ toWord (terminalTotalRows terminal) := by omega
      rw [if_pos lower, if_neg inside, if_pos atEnd]
    · have below : terminal.row + 1 ≥ toWord (terminalTotalRows terminal) := by omega
      rw [if_neg lower, if_pos below]

omit inGrid in
/-- The steps of `terminal_backspace`, with the numbers it reads as variables. -/
theorem backspacePosition_steps {row col rows cols : Int} (rowIs : toInt32 terminal.row = row)
    (colIs : toInt32 terminal.col = col) (rowsAre : terminalTotalRows terminal = rows)
    (colsAre : terminalTotalCols terminal = cols) :
    backspacePosition terminal =
      let (row, col) := if col - 1 < 0 then (row - 1, cols - 1) else (row, col - 1)
      let (row, col) := if row < 0 then (rows - 1, 0) else (row, col)
      let (row, col) := if col ≥ cols then (row + 1, 0) else (row, col)
      if row ≥ rows then (0, 0) else (row, col) := by
  have unfolded : backspacePosition = backspacePosition := rfl
  -- The function is unfolded before it is applied: unfolded at a terminal, the kernel would compute with the conversions.
  conv_rhs at unfolded => delta backspacePosition
  have atTerminal := congrFun unfolded terminal
  beta_reduce at atTerminal
  rw [rowIs, colIs, rowsAre, colsAre] at atTerminal
  exact atTerminal

/-- The position that `terminal_backspace` computes. -/
theorem backspacePosition_eq : backspacePosition terminal =
    (((backCell (terminalTotalRows terminal).toNat (terminalTotalCols terminal).toNat terminal.cursor).1 : Int),
      ((backCell (terminalTotalRows terminal).toNat (terminalTotalCols terminal).toNat terminal.cursor).2 : Int)) := by
  obtain ⟨inRows, inCols⟩ := inGrid
  have fewRows : terminalTotalRows terminal < 2 ^ 31 := toInt32_lt _
  have fewCols : terminalTotalCols terminal < 2 ^ 31 := toInt32_lt _
  have row : toInt32 terminal.row = terminal.row := toInt32_of_bounds (by omega) (by omega)
  have col : toInt32 terminal.col = terminal.col := toInt32_of_bounds (by omega) (by omega)
  rw [backspacePosition_steps row col rfl rfl]
  unfold backCell Terminal.cursor
  by_cases inRow : 0 < terminal.col
  · have stays : ¬ (terminal.col : Int) - 1 < 0 := by omega
    have above : ¬ (terminal.row : Int) < 0 := by omega
    have before : ¬ (terminal.col : Int) - 1 ≥ terminalTotalCols terminal := by omega
    have inside : ¬ (terminal.row : Int) ≥ terminalTotalRows terminal := by omega
    simp only [inRow, stays, above, before, inside, if_true, if_false, Nat.cast_pred]
  · have leaves : (terminal.col : Int) - 1 < 0 := by omega
    have lastCol : ¬ terminalTotalCols terminal - 1 ≥ terminalTotalCols terminal := by omega
    have lastRow : ¬ terminalTotalRows terminal - 1 ≥ terminalTotalRows terminal := by omega
    by_cases lower : 0 < terminal.row
    · have above : ¬ (terminal.row : Int) - 1 < 0 := by omega
      have inside : ¬ (terminal.row : Int) - 1 ≥ terminalTotalRows terminal := by omega
      simp only [inRow, leaves, lastCol, lower, above, inside, if_true, if_false, Nat.cast_pred, Prod.mk.injEq, true_and]
      omega
    · have above : (terminal.row : Int) - 1 < 0 := by omega
      have oneCol : ¬ (0 : Int) ≥ terminalTotalCols terminal := by omega
      simp only [inRow, leaves, lower, above, oneCol, lastRow, if_true, if_false, Prod.mk.injEq, Nat.cast_zero, and_true]
      omega

omit inGrid in
/-- The cursor is set to a cell of the grid. -/
theorem cursorSet_cell {cell : Nat × Nat} (inRows : cell.1 < (terminalTotalRows terminal).toNat)
    (inCols : cell.2 < (terminalTotalCols terminal).toNat) :
    terminalCursorSet terminal cell.1 cell.2 = (0, terminal.withCursor cell) := by
  have fewRows : terminalTotalRows terminal < 2 ^ 31 := toInt32_lt _
  have fewCols : terminalTotalCols terminal < 2 ^ 31 := toInt32_lt _
  have rows := toWord_count (show 1 ≤ terminalTotalRows terminal by omega) fewRows
  have cols := toWord_count (show 1 ≤ terminalTotalCols terminal by omega) fewCols
  have row : toWord (cell.1 : Int) = cell.1 := toWord_natCast (by omega)
  have col : toWord (cell.2 : Int) = cell.2 := toWord_natCast (by omega)
  rw [terminalCursorSet, row, col, if_neg (by omega), if_neg (by omega)]
  rfl

omit inGrid in
/-- What a backspace does with the cursor. -/
theorem terminalBackspace_moved {position : Int × Int} (back : backspacePosition terminal = position)
    (allowed : terminal.backspaceAllowed = true) :
    (terminalBackspace terminal).1 = (terminalCursorSet terminal position.1 position.2).2 := by
  have unfolded : terminalBackspace = terminalBackspace := rfl
  conv_rhs at unfolded => delta terminalBackspace
  have atTerminal := congrFun unfolded terminal
  beta_reduce at atTerminal
  rw [back] at atTerminal
  rw [atTerminal, allowed, if_neg (by decide)]

/-- **A backspace** goes to the cell before, or to the first cell of the last row. -/
theorem backspace_cursor (allowed : terminal.backspaceAllowed = true) : (terminalBackspace terminal).1 =
    terminal.withCursor (backCell (terminalTotalRows terminal).toNat (terminalTotalCols terminal).toNat terminal.cursor) := by
  obtain ⟨inRows, inCols⟩ := inGrid.counted
  have back := backCell_inGrid inRows inCols
  rw [terminalBackspace_moved (backspacePosition_eq inGrid) allowed, cursorSet_cell back.1 back.2]

omit inGrid in
/-- A cursor in a cell of the grid. -/
theorem InGrid.withCursor {cell : Nat × Nat} (inRows : cell.1 < (terminalTotalRows terminal).toNat)
    (inCols : cell.2 < (terminalTotalCols terminal).toNat) : InGrid (terminal.withCursor cell) := by
  have inGrid := @inGrid_moved terminal cell.1 cell.2
  exact inGrid.mpr ⟨Int.lt_toNat.mp inRows, Int.lt_toNat.mp inCols⟩

omit inGrid in
/-- What is a backspace for a terminal that has them. -/
theorem terminalWrite_backspace (allowed : terminal.backspaceAllowed = true) :
    (terminalWrite terminal 0x08).1 = (terminalBackspace terminal).1 := by
  rw [terminalWrite, if_neg (by decide), if_pos ⟨rfl, allowed⟩]

omit inGrid in
/-- A backspace from any cell of the grid. -/
theorem backspace_from {cell : Nat × Nat} (inRows : cell.1 < (terminalTotalRows terminal).toNat)
    (inCols : cell.2 < (terminalTotalCols terminal).toNat) (allowed : terminal.backspaceAllowed = true) :
    (terminalWrite (terminal.withCursor cell) 0x08).1.cursor =
      backCell (terminalTotalRows terminal).toNat (terminalTotalCols terminal).toNat cell := by
  have stillAllowed : (terminal.withCursor cell).backspaceAllowed = true := allowed
  rw [terminalWrite_backspace stillAllowed, backspace_cursor (.withCursor inRows inCols) stillAllowed]
  rfl

/-- **A backspace undoes a character** unless the cursor was in the last cell; in rows of one cell it always does. -/
theorem backspace_undoes_iff (allowed : terminal.backspaceAllowed = true) {c : Int} (notNewline : c ≠ 0x0A)
    (notBackspace : c ≠ 0x08) :
    (terminalWrite (terminalWrite terminal c).1 0x08).1.cursor = terminal.cursor ↔
      ¬ terminal.AtLastCell ∨ terminalTotalCols terminal = 1 := by
  have counted := inGrid.counted
  have written : (terminalWrite terminal c).1 = terminalUpdatePositionAfterDraw terminal := by
    rw [terminalWrite, if_neg notNewline, if_neg fun isBackspace => notBackspace isBackspace.1]
  rw [written, updatePosition_cursor inGrid]
  have next := nextCell_inGrid counted.1 counted.2
  rw [backspace_from next.1 next.2 allowed]
  have lastCell : terminal.AtLastCell ↔ terminal.cursor.1 + 1 = (terminalTotalRows terminal).toNat ∧
      terminal.cursor.2 + 1 = (terminalTotalCols terminal).toNat := by
    unfold Terminal.AtLastCell Terminal.cursor
    dsimp only
    omega
  have oneCol : terminalTotalCols terminal = 1 ↔ (terminalTotalCols terminal).toNat = 1 := by omega
  rw [lastCell, oneCol]
  exact backCell_nextCell counted.1 counted.2

end Moves

/-- The small terminal has two rows of twenty cells. -/
theorem smallTerminal_counts : terminalTotalRows smallTerminal = 2 ∧ terminalTotalCols smallTerminal = 20 := by
  decide

/-- In the first cell of the small terminal. -/
theorem backspace_undoes_small : (terminalWrite (terminalWrite smallTerminal 0x41).1 0x08).1.cursor = smallTerminal.cursor := by
  obtain ⟨rows, cols⟩ := smallTerminal_counts
  refine (backspace_undoes_iff ⟨?_, ?_⟩ rfl (by decide) (by decide)).mpr (Or.inl fun atEnd => ?_)
  · rw [rows]
    decide
  · rw [cols]
    decide
  · rw [Terminal.AtLastCell, rows] at atEnd
    exact absurd atEnd.1 (by decide)

/-- The small terminal with its cursor in the last cell. -/
def fullTerminal : Terminal := smallTerminal.withCursor (1, 19)

/-- **A character in the last cell**: the backspace goes to the first cell of its row. -/
theorem backspace_misses : ¬ ∀ terminal : Terminal, terminal.backspaceAllowed = true → 1 ≤ terminalTotalRows terminal →
    1 ≤ terminalTotalCols terminal → InGrid terminal → ∀ c : Int, 0x20 ≤ c → c < 0x7F →
      (terminalWrite (terminalWrite terminal c).1 0x08).1.cursor = terminal.cursor := by
  intro always
  have undone := always fullTerminal rfl (by decide) (by decide) (by unfold InGrid; decide) 0x41 (by decide) (by decide)
  exact absurd undone (by decide +kernel)

end PeachOS
