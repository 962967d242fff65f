/-
**Clicks on the rows of a list area: `programs/guilib/src/gui/listarea.c`.**

The rows are drawn from the origin of the graphics on, which are those of the root of the element; a click comes with the
coordinates of the window, and its row is counted from the top of the window. The columns are not looked at.

* `listareaTops_get` — where the rows are drawn;
* `listareaClick_iff` — a click does what the rows show exactly when the row that is counted is the one row under it, or
  none is counted and none is under it;
* `rowsAgree_iff` — so, while the rows fit into the coordinates, when the root is where the counting begins.
-/

import PeachOS.Gui.Clicks

namespace PeachOS

/-! ### The code -/

/-- `LISTAREA_BORDER_WIDTH_PX`. -/
def listareaBorderWidthPx : Nat := 3

/-- The loop of `gui_element_listarea_draw`: `y_rel_pos` at each of the items. -/
def listareaTops (bitsHeightPerCharacter : Nat) : (items : Nat) → (yRelPos : Int) → List Int
  | 0, _ => []
  | items + 1, yRelPos =>
      yRelPos :: listareaTops bitsHeightPerCharacter items
        (toInt32 (toInt32 (yRelPos + bitsHeightPerCharacter) + listareaBorderWidthPx))

/-- The top of the highlight of the selected item: `i * (int) size_per_element`. -/
def listareaHighlightTop (bitsHeightPerCharacter i : Nat) : Nat :=
  toUInt32 (i * toWord (toInt32 (3 + bitsHeightPerCharacter : Nat)) : Nat)

/-- A list area in a tree of elements. -/
structure Listarea where
  root : GuiTree
  listarea : GuiTree
  totalElements : Nat
  bitsHeightPerCharacter : Nat

namespace Listarea

variable (list : Listarea)

/-- A pixel of the window that the list area is drawn to, in the graphics of the root. -/
def Shows (x y : Int) : Prop :=
  (0 ≤ x - list.root.element.x ∧ x - list.root.element.x < list.root.element.width ∧
      x - list.root.element.x < toUInt32 list.listarea.element.width) ∧
    0 ≤ y - list.root.element.y ∧ y - list.root.element.y < list.root.element.height

/-- **A pixel of the window that is in the row of an item**, its border included. -/
def OnRow (x y : Int) (i : Nat) : Prop :=
  list.Shows x y ∧ ∃ top, (listareaTops list.bitsHeightPerCharacter list.totalElements 0)[i]? = some top ∧
    ∃ line < list.bitsHeightPerCharacter + listareaBorderWidthPx, y - list.root.element.y = toUInt32 (top + line)

instance (x y : Int) : Decidable (list.Shows x y) := inferInstanceAs (Decidable ((_ ∧ _ ∧ _) ∧ _ ∧ _))

/-- A click comes to the list area: its root is hit, and the elements above it pass events on. -/
def Receives (x y : Int) : Prop :=
  guiElementExistsInPosition list.root.element x y = true ∧ list.root.Receives list.listarea.element

/-- The row that is counted for a click. -/
def counted (y : Int) : Int := toInt32 (toWord y / toWord (list.bitsHeightPerCharacter + 3) : Nat)

/-- A click, before and after. -/
def Clicked (x y : Int) (gui gui' : Gui) : Prop :=
  list.Receives x y ∧
      gui' = guiElementListareaEventHandlerClick list.totalElements list.bitsHeightPerCharacter gui list.listarea y ∨
    ¬ list.Receives x y ∧ gui' = gui

/-- **A click selects the item whose row it is on, and changes nothing elsewhere.** It does not divide by zero. -/
structure ClickSelects (x y : Int) : Prop where
  divides : list.Receives x y → toWord (list.bitsHeightPerCharacter + 3) ≠ 0
  selects : ∀ gui gui' i, list.Clicked x y gui gui' → list.OnRow x y i → gui'.selectedIndex list.listarea.element.ptr = i
  keeps : ∀ gui gui', list.Clicked x y gui gui' → (∀ i, ¬ list.OnRow x y i) → gui' = gui

/-- A click selects an item. -/
def Selects (x y : Int) : Prop := list.Receives x y ∧ toWord (list.counted y) < list.totalElements

/-- **The row that is counted and the rows that are drawn agree.** -/
def RowsAgree (x y : Int) : Prop :=
  (list.Receives x y → toWord (list.bitsHeightPerCharacter + 3) ≠ 0) ∧
    (list.Selects x y → (∃ i, list.OnRow x y i) ∧ ∀ i, list.OnRow x y i → (i : Int) = list.counted y) ∧
    (¬ list.Selects x y → ∀ i, ¬ list.OnRow x y i)

end Listarea

/-! ### The rows -/

/-- **Where a row is drawn.** -/
theorem listareaTops_get (bitsHeightPerCharacter items i : Nat) (yRelPos : Int) (isItem : i < items) :
    ∃ top, (listareaTops bitsHeightPerCharacter items yRelPos)[i]? = some top ∧
      top ≡ yRelPos + (i * (bitsHeightPerCharacter + 3) : Nat) [ZMOD 2 ^ 32] := by
  induction items generalizing i yRelPos with
  | zero => exact absurd isItem (Nat.not_lt_zero _)
  | succ items ih =>
      cases i with
      | zero => exact ⟨yRelPos, rfl, by simp⟩
      | succ i =>
          obtain ⟨top, isTop, place⟩ := ih i (toInt32 (toInt32 (yRelPos + bitsHeightPerCharacter) + listareaBorderWidthPx))
            (Nat.lt_of_succ_lt_succ isItem)
          refine ⟨top, isTop, place.trans ?_⟩
          have next := (toInt32_modEq (toInt32 (yRelPos + bitsHeightPerCharacter) + listareaBorderWidthPx)).trans
            ((toInt32_modEq (yRelPos + bitsHeightPerCharacter)).add_right listareaBorderWidthPx)
          refine (next.add_right _).trans (congrArg (· % 2 ^ 32) ?_)
          rw [listareaBorderWidthPx]
          push_cast
          ring

/-- There are no others. -/
theorem listareaTops_length (bitsHeightPerCharacter items : Nat) (yRelPos : Int) :
    (listareaTops bitsHeightPerCharacter items yRelPos).length = items := by
  induction items generalizing yRelPos with
  | zero => rfl
  | succ items ih => rw [listareaTops, List.length_cons, ih]

theorem toUInt32_congr {value value' : Int} (same : value ≡ value' [ZMOD 2 ^ 32]) : toUInt32 value = toUInt32 value' := by
  unfold toUInt32
  rw [show value % 2 ^ 32 = value' % 2 ^ 32 from same]

section Rows

variable {list : Listarea} {x y : Int}

/-- The lines of a row. -/
theorem onRow_iff (i : Nat) : list.OnRow x y i ↔ list.Shows x y ∧ i < list.totalElements ∧
    ∃ line < list.bitsHeightPerCharacter + 3,
      y - list.root.element.y = toUInt32 (i * (list.bitsHeightPerCharacter + 3) + line : Nat) := by
  unfold Listarea.OnRow
  constructor
  · rintro ⟨shows, top, isTop, line, inRow, isLine⟩
    have isItem : i < list.totalElements := by
      rw [← listareaTops_length list.bitsHeightPerCharacter list.totalElements 0]
      exact (List.getElem?_eq_some_iff.mp isTop).1
    obtain ⟨top', isTop', place⟩ := listareaTops_get list.bitsHeightPerCharacter list.totalElements i 0 isItem
    obtain rfl := Option.some.inj (isTop.symm.trans isTop')
    rw [zero_add] at place
    refine ⟨shows, isItem, line, inRow, isLine.trans (congrArg Nat.cast ?_)⟩
    rw [Nat.cast_add]
    exact toUInt32_congr (place.add_right _)
  · rintro ⟨shows, isItem, line, inRow, isLine⟩
    obtain ⟨top, isTop, place⟩ := listareaTops_get list.bitsHeightPerCharacter list.totalElements i 0 isItem
    rw [zero_add] at place
    rw [Nat.cast_add] at isLine
    exact ⟨shows, top, isTop, line, inRow, isLine.trans (congrArg Nat.cast (toUInt32_congr (place.add_right _).symm))⟩

/-- A line is in the row of its quotient. -/
theorem line_iff (row size i : Nat) (positive : 0 < size) : (∃ line < size, row = i * size + line) ↔ row / size = i := by
  constructor
  · rintro ⟨line, inRow, rfl⟩
    rw [Nat.mul_comm, Nat.mul_add_div positive, Nat.div_eq_of_lt inRow, Nat.add_zero]
  · rintro rfl
    exact ⟨row % size, Nat.mod_lt _ positive, (Nat.div_add_mod' row size).symm⟩

/-- **While the rows fit into the coordinates, there is one row under a pixel.** -/
theorem onRow_iff_div (fits : list.totalElements * (list.bitsHeightPerCharacter + 3) ≤ 2 ^ 32) (i : Nat) :
    list.OnRow x y i ↔ list.Shows x y ∧ i < list.totalElements ∧
      (y - list.root.element.y) / (list.bitsHeightPerCharacter + 3 : Nat) = i := by
  rw [onRow_iff]
  refine and_congr_right fun shows => and_congr_right fun isItem => ?_
  obtain ⟨row, isRow⟩ : ∃ row : Nat, (row : Int) = y - list.root.element.y := ⟨_, Int.toNat_of_nonneg shows.2.1⟩
  rw [← isRow, ← Int.natCast_ediv, Int.natCast_inj, ← line_iff row (list.bitsHeightPerCharacter + 3) i (Nat.succ_pos _)]
  refine exists_congr fun line => and_congr_right fun inRow => ?_
  have below : (i + 1) * (list.bitsHeightPerCharacter + 3) ≤ 2 ^ 32 := (Nat.mul_le_mul_right _ isItem).trans fits
  rw [Nat.succ_mul] at below
  rw [Int.natCast_inj, toUInt32_natCast (by omega)]

end Rows

/-! ### The result -/

section Click

variable (list : Listarea) (x y : Int)

/-- What a click on a list area does. -/
theorem clicked_iff (gui gui' : Gui) : list.Clicked x y gui gui' ↔
    (list.Selects x y ∧ gui' = (guiElementListareaSelect list.totalElements gui list.listarea (list.counted y)).2) ∨
      (¬ list.Selects x y ∧ gui' = gui) := by
  have handled : guiElementListareaEventHandlerClick list.totalElements list.bitsHeightPerCharacter gui list.listarea y =
      if list.totalElements ≤ toWord (list.counted y) then gui
      else (guiElementListareaSelect list.totalElements gui list.listarea (list.counted y)).2 := rfl
  unfold Listarea.Clicked Listarea.Selects
  rw [handled]
  by_cases receives : list.Receives x y
  · by_cases outside : list.totalElements ≤ toWord (list.counted y)
    · simp only [receives, outside, not_lt.mpr outside, if_true, true_and, not_true, false_and, or_false, and_false,
        not_false_iff, false_or]
    · simp only [receives, outside, not_le.mp outside, if_false, true_and, not_true, false_and, or_false]
  · simp only [receives, false_and, not_false_iff, true_and]

/-- An item that is selected: its index, and an event more. -/
theorem listareaSelect_spec {totalElements : Nat} (gui : Gui) (tree : GuiTree) {index : Int}
    (isItem : toWord index < totalElements) :
    (guiElementListareaSelect totalElements gui tree index).2.selectedIndex tree.element.ptr = index ∧
      (guiElementListareaSelect totalElements gui tree index).2.guiEvents.nextEvent = gui.guiEvents.nextEvent + 1 := by
  unfold guiElementListareaSelect
  rw [if_neg (not_le.mpr isItem)]
  exact ⟨Function.update_self _ _ _, rfl⟩

/-- **A click does what the rows show exactly when the rows agree.** -/
theorem clickSelects_iff : list.ClickSelects x y ↔ list.RowsAgree x y := by
  constructor
  · intro right
    refine ⟨right.divides, fun selects => ⟨?_, fun i onRow => ?_⟩, fun passed i onRow => ?_⟩
    · by_contra noRow
      have clicked := (clicked_iff list x y planeGui _).mpr (Or.inl ⟨selects, rfl⟩)
      have same := right.keeps _ _ clicked fun i onRow => noRow ⟨i, onRow⟩
      have pushed := (listareaSelect_spec planeGui list.listarea selects.2).2
      rw [same] at pushed
      omega
    · have clicked := (clicked_iff list x y planeGui _).mpr (Or.inl ⟨selects, rfl⟩)
      exact (right.selects _ _ i clicked onRow).symm.trans (listareaSelect_spec planeGui list.listarea selects.2).1
    · -- No index is selected in this gui.
      have clicked := (clicked_iff list x y planeGui _).mpr (Or.inr ⟨passed, rfl⟩)
      have isSelected : (-1 : Int) = i := right.selects _ _ i clicked onRow
      omega
  · rintro ⟨divides, selected, passed⟩
    refine ⟨divides, fun gui gui' i clicked onRow => ?_, fun gui gui' clicked noRow => ?_⟩
    · rcases (clicked_iff list x y gui gui').mp clicked with ⟨selects, rfl⟩ | ⟨passes, -⟩
      · exact (listareaSelect_spec gui list.listarea selects.2).1.trans ((selected selects).2 i onRow).symm
      · exact absurd onRow (passed passes i)
    · rcases (clicked_iff list x y gui gui').mp clicked with ⟨selects, -⟩ | ⟨-, same⟩
      · obtain ⟨i, onRow⟩ := (selected selects).1
        exact absurd onRow (noRow i)
      · exact same

/-- **The row that is counted from the top of the root**: it is the one that is counted from the top of the window, or there is
none. -/
def Listarea.CountsFromRoot : Prop :=
  (list.Receives x y → toWord (list.bitsHeightPerCharacter + 3) ≠ 0) ∧
    (list.Selects x y → list.Shows x y ∧ (y - list.root.element.y) / (list.bitsHeightPerCharacter + 3 : Nat) = list.counted y) ∧
    (¬ list.Selects x y → list.Shows x y →
      list.totalElements ≤ (y - list.root.element.y) / (list.bitsHeightPerCharacter + 3 : Nat))

/-- An item that is counted is a number. -/
theorem counted_lt (selects : list.Selects x y) (nonneg : 0 ≤ list.counted y) : list.counted y < list.totalElements := by
  have isInt := isInt_toInt32 (toWord y / toWord (list.bitsHeightPerCharacter + 3) : Nat)
  have isItem := selects.2
  rw [toWord_of_bounds nonneg (isInt.2.trans (by decide))] at isItem
  omega

/-- **While the rows fit into the coordinates, they agree exactly then.** -/
theorem rowsAgree_iff (fits : list.totalElements * (list.bitsHeightPerCharacter + 3) ≤ 2 ^ 32) :
    list.RowsAgree x y ↔ list.CountsFromRoot x y := by
  have isRow (shows : list.Shows x y) :
      ∃ row : Nat, (y - list.root.element.y) / (list.bitsHeightPerCharacter + 3 : Nat) = row :=
    ⟨_, (Int.toNat_of_nonneg (Int.ediv_nonneg shows.2.1 (Int.natCast_nonneg _))).symm⟩
  unfold Listarea.RowsAgree Listarea.CountsFromRoot
  refine and_congr_right fun _ => and_congr (forall_congr' fun selects => ?_) (forall_congr' fun passes => ?_)
  · constructor
    · rintro ⟨⟨i, onRow⟩, only⟩
      obtain ⟨shows, -, under⟩ := (onRow_iff_div fits i).mp onRow
      exact ⟨shows, under.trans (only i onRow)⟩
    · rintro ⟨shows, under⟩
      obtain ⟨row, isRow⟩ := isRow shows
      have isItem := counted_lt list x y selects (by omega)
      refine ⟨⟨row, (onRow_iff_div fits row).mpr ⟨shows, by omega, isRow⟩⟩, fun i onRow => ?_⟩
      exact ((onRow_iff_div fits i).mp onRow).2.2.symm.trans under
  · constructor
    · intro noRow shows
      obtain ⟨row, isRow⟩ := isRow shows
      by_contra isItem
      exact noRow row ((onRow_iff_div fits row).mpr ⟨shows, by omega, isRow⟩)
    · intro noItem i onRow
      obtain ⟨shows, isItem, under⟩ := (onRow_iff_div fits i).mp onRow
      have behind := noItem shows
      omega

/-- **A click on a list area** selects the item whose row it is on, and nothing elsewhere, exactly when the row that is counted
and the rows that are drawn agree; while the rows fit into the coordinates, when the row counts from the root. -/
theorem listareaClick_iff : (list.ClickSelects x y ↔ list.RowsAgree x y) ∧
    (list.totalElements * (list.bitsHeightPerCharacter + 3) ≤ 2 ^ 32 → (list.RowsAgree x y ↔ list.CountsFromRoot x y)) :=
  ⟨clickSelects_iff list x y, rowsAgree_iff list x y⟩

end Click

/-- A plane below the top of the window. -/
def loweredPlane : GuiElement := { guiElementCreate 1 none 0 19 100 50 0 with eventHandler := .plane }

/-- A list area of two items on it. -/
def loweredTree : GuiTree := .node (handled 2 (some loweredPlane) 100 50 (.listarea 2 16)) []

/-- It is in the tree of the plane. -/
def loweredList : Listarea := ⟨.node loweredPlane [loweredTree], loweredTree, 2, 16⟩

/-- **A click on the first row selects the second item.** -/
theorem listareaClick_lowered : ¬ ∀ (list : Listarea) (x y : Int), list.ClickSelects x y := by
  intro always
  have receives : loweredList.Receives 5 20 := ⟨by decide, .child rfl List.mem_cons_self (.here loweredTree)⟩
  have shows : loweredList.Shows 5 20 := by decide
  have agree := (clickSelects_iff loweredList 5 20).mp (always loweredList 5 20)
  have first : loweredList.OnRow 5 20 0 := (onRow_iff_div (by decide) 0).mpr ⟨shows, by decide, by decide⟩
  exact absurd ((agree.2.1 ⟨receives, by decide⟩).2 0 first) (by decide)

end PeachOS
