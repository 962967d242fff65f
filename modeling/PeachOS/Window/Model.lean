/-
**Windows: `graphics/window.c`.**

A window has a root graphics, below which are its title bar, its borders and its body. Its address, like that of a
graphics, is a number, and 0 is the null pointer.

* `windowCreate`, `windowFree`, `windowClose` — windows come and go;
* `windowFocus`, `windowBringToTop` — the order of the windows;
* `windowPositionSet`, `windowScreenMouseMoveHandler` — windows move;
* `windowTitleBarClicked`, `windowGetAtPosition`, `windowClickHandler` — clicks.

What is drawn is left out, and so are titles, identifiers, terminals, and the events for the owner of a window. There is
memory for temporary elements and for pushing to vectors.
-/

import PeachOS.Graphics.Tree

namespace PeachOS

/-- `WINDOW_BORDER_PIXEL_SIZE`. -/
abbrev windowBorderPixelSize : BitVec 64 := 2

/-- `WINDOW_TITLE_BAR_HEIGHT`. -/
abbrev windowTitleBarHeight : BitVec 64 := 32

/-- `WINDOW_FLAG_BORDERLESS`. -/
def windowFlagBorderless : BitVec 32 := 0b00000001#32

/-- The place of the close button in the title bar. -/
structure CloseButton where
  x : BitVec 64
  y : BitVec 64
  width : BitVec 64
  height : BitVec 64
deriving DecidableEq

/-- `struct window`. Without a title bar `titleBarGraphics` is 0. `width` and `height` are those of the body. -/
structure Window where
  rootGraphics : Nat
  titleBarGraphics : Nat
  graphics : Nat
  closeBtn : CloseButton
  width : BitVec 64
  height : BitVec 64
  x : BitVec 64
  y : BitVec 64
  zindex : BitVec 64
deriving DecidableEq

/-- The windows in memory, with the variables of `window.c`. -/
structure WindowSystem where
  store : GraphicsStore
  windows : Nat → Window
  /-- The addresses of the windows that exist. -/
  liveWindows : List Nat
  windowsVector : List Nat
  windowMoving : Nat
  focusedWindow : Nat
  closeIconWidth : BitVec 64
  closeIconHeight : BitVec 64

/-- The new position of `window_position_set`. The end is compared with the screen's, and the position that is set
instead is the screen's size less the body's, and one less. -/
def windowPosition (screen : GraphicsInfo) (window : Window) (newX newY : BitVec 64) : BitVec 64 × BitVec 64 :=
  let endingX := newX + window.width
  let endingY := newY + window.height
  (if endingX > screen.width.setWidth 64 then screen.width.setWidth 64 - window.width - 1 else newX,
    if endingY > screen.height.setWidth 64 then screen.height.setWidth 64 - window.height - 1 else newY)

/-- The part of `window_position_set` that writes to the root graphics. -/
def GraphicsStore.placeRoot (σ : GraphicsStore) (rootGraphics : Nat) (position : BitVec 64 × BitVec 64) :
    GraphicsStore :=
  let root := σ.nodes rootGraphics
  σ.setNode rootGraphics
    { root with
      relativeX := position.1.setWidth 32
      relativeY := position.2.setWidth 32
      info := { root.info with startingX := position.1.setWidth 32, startingY := position.2.setWidth 32 } }

namespace WindowSystem

/-- The windows after a write to one of them. -/
def setWindow (ω : WindowSystem) (window : Nat) (record : Window) : WindowSystem :=
  { ω with windows := Function.update ω.windows window record }

/-! ### The order -/

/-- `window_reorder`. -/
def windowReorder (ω : WindowSystem) (win1 win2 : Nat) : Bool := (ω.windows win1).zindex < (ω.windows win2).zindex

/-- `vector_reorder(windows_vector, window_reorder)`. -/
def reorderWindows (ω : WindowSystem) : WindowSystem :=
  { ω with windowsVector := vectorReorder ω.windowReorder ω.windowsVector }

/-- `window_set_z_index`. -/
def windowSetZIndex (ω : WindowSystem) (window : Nat) (zindex : BitVec 32) : WindowSystem :=
  reorderWindows { ω with store := ω.store.graphicsSetZIndex (ω.windows window).rootGraphics zindex }

/-- `window_bring_to_top`. -/
def windowBringToTop (ω : WindowSystem) (window : Nat) : WindowSystem :=
  reorderWindows { ω with store := ω.store.windowBringToTop (ω.windows window).rootGraphics }

/-- `window_focus`. -/
def windowFocus (ω : WindowSystem) (window : Nat) : WindowSystem :=
  if window = 0 then ω
  else if ω.focusedWindow = window then ω
  else windowBringToTop { ω with focusedWindow := window } window

/-! ### Creating -/

/-- The arguments of a call of `graphics_info_create_relative`. -/
structure GraphicsRequest where
  newGraphics : Nat
  sourceGraphics : Nat
  x : BitVec 64
  y : BitVec 64
  width : BitVec 64
  height : BitVec 64
  flags : BitVec 32

/-- Graphics that are created one after the other, until one is not. -/
def createEach : List GraphicsRequest → GraphicsStore → Bool × GraphicsStore
  | [], σ => (true, σ)
  | request :: requests, σ =>
      let (created, σ) := σ.graphicsInfoCreateRelative request.newGraphics request.sourceGraphics request.x request.y
        request.width request.height request.flags
      if created = 0 then (false, σ) else createEach requests σ

/-- What the allocations of a `window_create` return: addresses, 0 where there is no memory, and whether there are the
terminals. -/
structure WindowMemory where
  window : Nat
  root : Nat
  titleBar : Nat
  borderLeft : Nat
  borderRight : Nat
  borderBottom : Nat
  body : Nat
  terminals : Bool

/-- `total_window_width_bounds`. -/
def totalWindowWidthBounds (width : BitVec 64) (flags : BitVec 32) : BitVec 64 :=
  if flags &&& windowFlagBorderless = 0 then width + windowBorderPixelSize * 2 else width

/-- `total_window_height_bounds`. -/
def totalWindowHeightBounds (height : BitVec 64) (flags : BitVec 32) : BitVec 64 :=
  if flags &&& windowFlagBorderless = 0 then height + (windowTitleBarHeight + windowBorderPixelSize) else height

/-- The graphics of a window. -/
def windowRequests (memory : WindowMemory) (graphicsInfo : Nat) (x y width height : BitVec 64) (flags : BitVec 32) :
    List GraphicsRequest :=
  let totalWidth := totalWindowWidthBounds width flags
  let totalHeight := totalWindowHeightBounds height flags
  let border := windowBorderPixelSize
  let bar := windowTitleBarHeight
  ⟨memory.root, graphicsInfo, x, y, totalWidth, totalHeight, graphicsFlagDoNotCopyPixels⟩ ::
    if flags &&& windowFlagBorderless = 0 then
      [⟨memory.titleBar, memory.root, border, 0, width, bar, 0⟩,
        ⟨memory.borderLeft, memory.root, 0, bar, border, height, 0⟩,
        ⟨memory.borderRight, memory.root, totalWidth - border, bar, border, height, 0⟩,
        ⟨memory.borderBottom, memory.root, 0, totalHeight - border, width, border, 0⟩,
        ⟨memory.body, memory.root, border, bar, width, height, 0⟩]
    else [⟨memory.body, memory.root, 0, 0, width, height, 0⟩]

/-- The record of a new window. `zindex` is that of `kzalloc`. -/
def newWindow (ω : WindowSystem) (memory : WindowMemory) (x y width height : BitVec 64) (flags : BitVec 32) : Window where
  rootGraphics := memory.root
  titleBarGraphics := if flags &&& windowFlagBorderless = 0 then memory.titleBar else 0
  graphics := memory.body
  closeBtn :=
    if flags &&& windowFlagBorderless = 0 then
      { x := totalWindowWidthBounds width flags - ω.closeIconWidth - ω.closeIconWidth / 2
        y := windowTitleBarHeight / 2 - ω.closeIconHeight / 2
        width := ω.closeIconWidth
        height := ω.closeIconHeight }
    else ⟨0, 0, 0, 0⟩
  width := width
  height := height
  x := x
  y := y
  zindex := 0

/-- The end of `window_create`: the window is pushed, gets the number of its graphics as its z index, and the focus. -/
def windowAdd (ω : WindowSystem) (window : Nat) : WindowSystem :=
  let ω := { ω with windowsVector := ω.windowsVector ++ [window] }
  let childCount := (ω.store.nodes (ω.windows window).rootGraphics).children.length
  windowFocus (ω.windowSetZIndex window (.ofNat 32 (childCount + 1))) window

/-- `window_create` in a graphics, for a body that is not empty: the window, or 0, and the windows then. Graphics that
were created before a failure stay. -/
def windowCreate (ω : WindowSystem) (memory : WindowMemory) (graphicsInfo : Nat) (x y width height : BitVec 64)
    (flags : BitVec 32) : Nat × WindowSystem :=
  if memory.window = 0 then (0, ω)
  else
    let (created, store) := createEach (windowRequests memory graphicsInfo x y width height flags) ω.store
    if created && memory.terminals then
      let ω := { (ω.setWindow memory.window (ω.newWindow memory x y width height flags)) with
        store := store
        liveWindows := memory.window :: ω.liveWindows }
      (memory.window, ω.windowAdd memory.window)
    else (0, { ω with store := store })

/-! ### Freeing -/

/-- `window_free`. -/
def windowFree (fuel : Nat) (ω : WindowSystem) (window : Nat) : Option WindowSystem :=
  (GraphicsStore.graphicsInfoFree fuel ω.store (ω.windows window).rootGraphics).map fun store =>
    { ω with
      store := store
      windowsVector := (vectorPopElement true ω.windowsVector window).2
      liveWindows := ω.liveWindows.erase window }

/-- `window_close`. -/
def windowClose (fuel : Nat) (ω : WindowSystem) (window : Nat) : Option WindowSystem := windowFree fuel ω window

/-! ### Moving -/

/-- `window_position_set`. -/
def windowPositionSet (fuel : Nat) (ω : WindowSystem) (window : Nat) (newX newY : BitVec 64) : Option WindowSystem :=
  let record := ω.windows window
  let position := windowPosition (ω.store.nodes ω.store.screen).info record newX newY
  let ω := { ω with store := ω.store.placeRoot record.rootGraphics position }
  let ω := ω.setWindow window { record with x := position.1, y := position.2 }
  let ω := ω.windowBringToTop window
  (GraphicsStore.graphicsInfoRecalculate fuel ω.store record.rootGraphics).map fun store => { ω with store := store }

/-- The position that `window_screen_mouse_move_handler` asks for: an `int` less a `uint32_t`, as a `size_t`. -/
def draggedTo (moved : BitVec 32) (size : BitVec 32) : BitVec 64 := (moved - size / 2).setWidth 64

/-- `window_screen_mouse_move_handler`. -/
def windowScreenMouseMoveHandler (fuel : Nat) (ω : WindowSystem) (movedToX movedToY : BitVec 32) :
    Option WindowSystem :=
  if ω.windowMoving = 0 then some ω
  else
    let titleBar := (ω.windows ω.windowMoving).titleBarGraphics
    if titleBar = 0 then some ω
    else
      ω.windowPositionSet fuel ω.windowMoving (draggedTo movedToX (ω.store.nodes titleBar).info.width)
        (draggedTo movedToY (ω.store.nodes titleBar).info.height)

/-! ### Clicks -/

/-- The loop of `graphics_has_ancestor`, from a parent upwards. -/
def hasAncestorFrom (σ : GraphicsStore) : Nat → (parent ancestor : Nat) → Option Bool
  | 0, _, _ => none
  | fuel + 1, parent, ancestor =>
      if parent = 0 then some false
      else if parent = ancestor then some true
      else hasAncestorFrom σ fuel (σ.nodes parent).parent ancestor

/-- `window_owns_graphics`. -/
def windowOwnsGraphics (fuel : Nat) (ω : WindowSystem) (win graphics : Nat) : Option Bool :=
  if graphics = (ω.windows win).rootGraphics then some true
  else hasAncestorFrom ω.store fuel (ω.store.nodes graphics).parent (ω.windows win).rootGraphics

/-- The loop of `window_get_from_graphics`. -/
def windowGetFrom (fuel : Nat) (ω : WindowSystem) (graphics : Nat) : List Nat → Option Nat
  | [] => some 0
  | win :: windows =>
      if win = 0 then windowGetFrom fuel ω graphics windows
      else
        match ω.windowOwnsGraphics fuel win graphics with
        | none => none
        | some true => some win
        | some false => windowGetFrom fuel ω graphics windows

/-- `window_get_from_graphics`. -/
def windowGetFromGraphics (fuel : Nat) (ω : WindowSystem) (graphics : Nat) : Option Nat :=
  windowGetFrom fuel ω graphics ω.windowsVector

/-- A position of the title bar is on the close button. -/
def onCloseButton (ω : WindowSystem) (win : Nat) (relX relY : BitVec 64) : Bool :=
  let button := (ω.windows win).closeBtn
  relX ≥ button.x && relX < button.x + button.width && relY ≥ button.y && relY < button.y + button.height

/-- `window_title_bar_clicked`. -/
def windowTitleBarClicked (fuel : Nat) (ω : WindowSystem) (titleGraphics : Nat) (relX relY : BitVec 64) :
    Option WindowSystem :=
  match ω.windowGetFromGraphics fuel titleGraphics with
  | none => none
  | some win =>
      if win = 0 then some ω
      else if ω.onCloseButton win relX relY then ω.windowClose fuel win
      else some { ω with windowMoving := if ω.windowMoving = win then 0 else win }

/-- The test of `window_get_at_position`. -/
def windowAt (ω : WindowSystem) (absX absY : BitVec 64) (win : Nat) : Bool :=
  let record := ω.windows win
  let root := (ω.store.nodes record.rootGraphics).info
  let endAbsX := root.startingX.setWidth 64 + root.width.setWidth 64
  let endAbsY := root.startingY.setWidth 64 + root.height.setWidth 64
  absX ≥ record.x && absX < endAbsX && absY ≥ record.y && absY < endAbsY

/-- `window_get_at_position`: the first window of the vector, or 0. -/
def windowGetAtPosition (ω : WindowSystem) (absX absY : BitVec 64) (ignoreWindow : Nat) : Nat :=
  (ω.windowsVector.find? fun win => win ≠ 0 && win ≠ ignoreWindow && ω.windowAt absX absY win).getD 0

/-- `window_click_handler`. The position of a mouse is an `int`. -/
def windowClickHandler (ω : WindowSystem) (mouseWindow : Nat) (absX absY : BitVec 32) : WindowSystem :=
  ω.windowFocus (ω.windowGetAtPosition (absX.signExtend 64) (absY.signExtend 64) mouseWindow)

end WindowSystem

end PeachOS
