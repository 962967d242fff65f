/-
**Where windows are: `window_position_set`, `window_screen_mouse_move_handler`.**

Moving a window writes the position of its root graphics, brings the window to the top, and recalculates what is below
the root.

* `positions_run` — after any sequence of new graphics, moved windows and recalculations, the absolute position of a
  graphics is the sum of the relative ones along its ancestors;
* `windowPlacement_iff` — a window is placed on the screen, as near as can be to where it was asked to be, exactly when
  it was asked to be on the screen.
-/

import PeachOS.Graphics.Position
import PeachOS.Graphics.Redraw
import PeachOS.Lib.StepRun
import PeachOS.Window.Model

namespace PeachOS

open GraphicsStore StepRun

variable {ω ω' : WindowSystem}

/-! ### Writing the root -/

namespace GraphicsStore

variable {σ σ' : GraphicsStore}

theorem placeRoot_of_ne {graphics rootGraphics : Nat} (isNot : graphics ≠ rootGraphics) (σ : GraphicsStore)
    (position : BitVec 64 × BitVec 64) : (σ.placeRoot rootGraphics position).nodes graphics = σ.nodes graphics :=
  setNode_of_ne isNot _ _

theorem placeRoot_links (σ : GraphicsStore) (rootGraphics : Nat) (position : BitVec 64 × BitVec 64) :
    SameLinks σ (σ.placeRoot rootGraphics position) := by
  unfold placeRoot
  refine ⟨fun graphics => ?_, fun graphics => ?_, rfl, rfl⟩ <;>
    by_cases isRoot : graphics = rootGraphics
  · rw [isRoot, setNode_self]
  · rw [setNode_of_ne isRoot]
  · rw [isRoot, setNode_self]
  · rw [setNode_of_ne isRoot]

/-- The order of children and the z indices do not matter for a position. -/
theorem Placed.sameTree {graphics : Nat} (placed : Placed σ graphics) (same : SameTree σ σ') : Placed σ' graphics := by
  have own := same.nodes graphics
  have above := (same.nodes (σ.nodes graphics).parent).info
  exact ⟨by rw [own.info, own.relativeX, own.parent, above]; exact placed.x,
    by rw [own.info, own.relativeY, own.parent, above]; exact placed.y⟩

/-- The positions of all graphics but the screen are right. -/
def AllPlaced (σ : GraphicsStore) : Prop := ∀ graphics ∈ σ.live, graphics ≠ σ.screen → Placed σ graphics

/-- A new graphics is placed as it was asked to be. -/
theorem AllPlaced.create (placed : σ.AllPlaced) (tree : σ.Tree) {newGraphics sourceGraphics : Nat}
    (fresh : newGraphics ∉ σ.live) (sourceLive : sourceGraphics ∈ σ.live) (x y width height : BitVec 64)
    (flags : BitVec 32) :
    (σ.graphicsInfoCreateRelative newGraphics sourceGraphics x y width height flags).2.AllPlaced := by
  have different : newGraphics ≠ sourceGraphics := fun same => fresh (same ▸ sourceLive)
  obtain refused | ⟨_, _, σ', created, new⟩ := graphicsInfoCreateRelative_created different σ x y width height flags
  · rw [refused]
    exact placed
  · rw [created]
    intro graphics isLive notScreen
    rw [new.live] at isLive
    rw [new.screen] at notScreen
    rcases List.mem_cons.mp isLive with rfl | isLive
    · -- The sum of the source's position and the relative one is truncated once.
      have truncated : ∀ start relative : BitVec 64, (start + relative).setWidth 32 =
          relative.setWidth 32 + start.setWidth 32 := by
        intro start relative
        rw [BitVec.add_comm, BitVec.setWidth_add _ _ (by decide)]
      have narrow : ∀ start : BitVec 32, (start.setWidth 64).setWidth 32 = start := by
        intro start
        rw [BitVec.setWidth_setWidth_of_le _ (by decide), BitVec.setWidth_eq]
      obtain ⟨pixels, info⟩ := new.info
      constructor
      · rw [info, new.relativeX, new.parent, new.old_info different.symm]
        dsimp only [PeachOS.newGraphics]
        rw [truncated, narrow]
      · rw [info, new.relativeY, new.parent, new.old_info different.symm]
        dsimp only [PeachOS.newGraphics]
        rw [truncated, narrow]
    · have isOld : graphics ≠ newGraphics := fun isNew => fresh (isNew ▸ isLive)
      have old := placed graphics isLive notScreen
      have parentLive := tree.parent graphics isLive notScreen
      have parentOld : (σ.nodes graphics).parent ≠ newGraphics := fun isNew => fresh (isNew ▸ parentLive)
      have parent : (σ'.nodes graphics).parent = (σ.nodes graphics).parent := by rw [new.old graphics isOld]
      constructor
      · rw [parent, new.old_info isOld, new.old_info parentOld, new.old graphics isOld]
        exact old.x
      · rw [parent, new.old_info isOld, new.old_info parentOld, new.old graphics isOld]
        exact old.y

/-- A recalculation anywhere. -/
theorem AllPlaced.recalculate (placed : σ.AllPlaced) (tree : σ.Tree) {top : Nat} (done : Recalculated σ top σ') :
    σ'.AllPlaced := by
  intro graphics isLive notScreen
  rw [done.moved.live] at isLive
  rw [done.moved.screen] at notScreen
  exact done.keeps tree isLive notScreen (placed graphics isLive notScreen)

/-- A recalculation after the root of a window was written. -/
theorem AllPlaced.moveRoot (placed : σ.AllPlaced) (tree : σ.Tree) {rootGraphics : Nat}
    {position : BitVec 64 × BitVec 64}
    (done : Recalculated ((σ.placeRoot rootGraphics position).windowBringToTop rootGraphics) rootGraphics σ') :
    σ'.AllPlaced := by
  have written := placeRoot_links σ rootGraphics position
  have raised := SameTree.windowBringToTop (σ.placeRoot rootGraphics position) rootGraphics
  have links := written.trans raised.links
  intro graphics isLive notScreen
  rw [done.moved.live, links.live] at isLive
  rw [done.moved.screen, links.screen] at notScreen
  by_cases below : Below ((σ.placeRoot rootGraphics position).windowBringToTop rootGraphics) rootGraphics graphics
  · exact done.placed graphics (links.screen.symm ▸ notScreen) below
  · -- Neither the graphics nor its parent is the root.
    have isNot : graphics ≠ rootGraphics := fun same => below (same ▸ .self)
    have parentNot : (σ.nodes graphics).parent ≠ rootGraphics := by
      intro isRoot
      refine below (.child .self ((links.children rootGraphics).symm.subset ?_))
      rw [← isRoot]
      exact tree.held graphics isLive notScreen
    have old := placed graphics isLive notScreen
    have kept : Placed (σ.placeRoot rootGraphics position) graphics := by
      constructor <;> rw [placeRoot_of_ne isNot, placeRoot_of_ne parentNot]
      · exact old.x
      · exact old.y
    exact done.keeps (tree.sameLinks links) (links.live.symm ▸ isLive) (links.screen.symm ▸ notScreen)
      (kept.sameTree raised)

end GraphicsStore

/-! ### Moving a window -/

namespace WindowSystem

variable {fuel window : Nat} {newX newY : BitVec 64}

/-- **What `window_position_set` does**: to the graphics, to the window, and to the vector of windows. -/
theorem windowPositionSet_cases (done : ω.windowPositionSet fuel window newX newY = some ω') :
    let record := ω.windows window
    let position := windowPosition (ω.store.nodes ω.store.screen).info record newX newY
    graphicsInfoRecalculate fuel ((ω.store.placeRoot record.rootGraphics position).windowBringToTop record.rootGraphics)
        record.rootGraphics = some ω'.store ∧
      ω'.windows = Function.update ω.windows window { record with x := position.1, y := position.2 } ∧
      ω'.liveWindows = ω.liveWindows ∧ ω'.windowMoving = ω.windowMoving ∧ ω'.focusedWindow = ω.focusedWindow ∧
      ω'.windowsVector = vectorReorder ω'.windowReorder ω.windowsVector := by
  unfold windowPositionSet at done
  dsimp only at done ⊢
  obtain ⟨store, recalculated, rfl⟩ := Option.map_eq_some_iff.mp done
  refine ⟨?_, rfl, rfl, rfl, rfl, rfl⟩
  unfold windowBringToTop setWindow at recalculated
  dsimp only at recalculated
  rwa [Function.update_self] at recalculated

/-- The links when the root is recalculated. -/
theorem placedRoot_links (ω : WindowSystem) (rootGraphics : Nat) (position : BitVec 64 × BitVec 64) :
    SameLinks ω.store ((ω.store.placeRoot rootGraphics position).windowBringToTop rootGraphics) :=
  (placeRoot_links _ _ _).trans (SameTree.windowBringToTop _ _).links

/-- **A recalculation of the root**, after which everything is in its place. -/
theorem windowPositionSet_recalculated (linked : ω.store.Linked)
    (held : (ω.windows window).rootGraphics = ω.store.screen ∨ ω.store.Held (ω.windows window).rootGraphics)
    (done : ω.windowPositionSet fuel window newX newY = some ω') :
    Recalculated ((ω.store.placeRoot (ω.windows window).rootGraphics
        (windowPosition (ω.store.nodes ω.store.screen).info (ω.windows window) newX newY)).windowBringToTop
          (ω.windows window).rootGraphics) (ω.windows window).rootGraphics ω'.store := by
  have links := placedRoot_links ω (ω.windows window).rootGraphics
    (windowPosition (ω.store.nodes ω.store.screen).info (ω.windows window) newX newY)
  exact graphicsInfoRecalculate_spec (linked.sameLinks links)
    (held.imp (fun isScreen => isScreen.trans links.screen.symm) fun held => held.of_sameLinks links)
    (windowPositionSet_cases done).1

/-- `window_position_set` returns. -/
theorem windowPositionSet_returns (linked : ω.store.Linked)
    (held : (ω.windows window).rootGraphics = ω.store.screen ∨ ω.store.Held (ω.windows window).rootGraphics)
    (newX newY : BitVec 64) : ∃ fuel ω', ω.windowPositionSet fuel window newX newY = some ω' := by
  have links := placedRoot_links ω (ω.windows window).rootGraphics
    (windowPosition (ω.store.nodes ω.store.screen).info (ω.windows window) newX newY)
  have enough := Nat.lt_succ_self (ω.store.live.idxOf (ω.windows window).rootGraphics)
  nth_rewrite 1 [← links.live] at enough
  obtain ⟨store, recalculated⟩ := graphicsInfoRecalculate_returns (linked.sameLinks links)
    (held.imp (fun isScreen => isScreen.trans links.screen.symm) fun held => held.of_sameLinks links) enough
  refine ⟨(ω.store.live.idxOf (ω.windows window).rootGraphics).succ, Option.isSome_iff_exists.mp ?_⟩
  unfold windowPositionSet windowBringToTop setWindow
  dsimp only
  rw [Function.update_self, Option.isSome_map]
  exact Option.isSome_iff_exists.mpr ⟨store, recalculated⟩

end WindowSystem

/-! ### Positions in every run -/

/-- A call that creates, moves or recalculates graphics. -/
inductive PositionCall where
  | create (newGraphics sourceGraphics : Nat) (x y width height : BitVec 64) (flags : BitVec 32)
  | positionSet (window : Nat) (newX newY : BitVec 64)
  | recalculate (graphics : Nat)

namespace WindowSystem

/-- There is the screen only, at the origin. -/
def ScreenOnly (ω : WindowSystem) : Prop :=
  ω.store.live = [ω.store.screen] ∧ ω.store.screen ≠ 0 ∧ (ω.store.nodes ω.store.screen).parent = 0 ∧
    (ω.store.nodes ω.store.screen).children = [] ∧ (ω.store.nodes ω.store.screen).info.startingX = 0 ∧
    (ω.store.nodes ω.store.screen).info.startingY = 0

/-- **One call**: below any graphics that exists, for any window whose root exists below the screen, or anywhere. -/
def positionStep (ω : WindowSystem) (call : PositionCall) (ω' : WindowSystem) : Prop :=
  match call with
  | .create newGraphics sourceGraphics x y width height flags =>
      newGraphics ∉ ω.store.live ∧ sourceGraphics ∈ ω.store.live ∧ ω' = { ω with
        store := (ω.store.graphicsInfoCreateRelative newGraphics sourceGraphics x y width height flags).2 }
  | .positionSet window newX newY =>
      (ω.windows window).rootGraphics ∈ ω.store.live ∧ (ω.windows window).rootGraphics ≠ ω.store.screen ∧
        ∃ fuel, ω.windowPositionSet fuel window newX newY = some ω'
  | .recalculate graphics =>
      graphics ∈ ω.store.live ∧ ∃ fuel store, graphicsInfoRecalculate fuel ω.store graphics = some store ∧
        ω' = { ω with store := store }

/-- What every run keeps. -/
structure PositionsKept (ω : WindowSystem) : Prop where
  tree : ω.store.Tree
  placed : ω.store.AllPlaced
  originX : (ω.store.nodes ω.store.screen).info.startingX = 0
  originY : (ω.store.nodes ω.store.screen).info.startingY = 0

theorem ScreenOnly.kept (begins : ω.ScreenOnly) : ω.PositionsKept := by
  obtain ⟨live, nonnull, parent, childless, originX, originY⟩ := begins
  refine ⟨Tree.alone live nonnull parent childless, fun graphics isLive notScreen => ?_, originX, originY⟩
  rw [live, List.mem_singleton] at isLive
  exact absurd isLive notScreen

/-- A new graphics leaves the screen where it is. -/
theorem create_screenInfo (tree : ω.store.Tree) {newGraphics sourceGraphics : Nat}
    (fresh : newGraphics ∉ ω.store.live) (sourceLive : sourceGraphics ∈ ω.store.live) (x y width height : BitVec 64)
    (flags : BitVec 32) :
    let created := (ω.store.graphicsInfoCreateRelative newGraphics sourceGraphics x y width height flags).2
    (created.nodes created.screen).info = (ω.store.nodes ω.store.screen).info := by
  dsimp only
  have different : newGraphics ≠ sourceGraphics := fun same => fresh (same ▸ sourceLive)
  obtain refused | ⟨_, _, σ', created, new⟩ :=
    graphicsInfoCreateRelative_created different ω.store x y width height flags
  · rw [refused]
  · have isOld : ω.store.screen ≠ newGraphics := fun same => fresh (same ▸ tree.screenLive)
    rw [created]
    dsimp only
    rw [new.screen, new.old_info isOld]

/-- The screen stays where it is when a window moves. -/
theorem windowPositionSet_screen {fuel window : Nat} {newX newY : BitVec 64} (linked : ω.store.Linked)
    (held : ω.store.Held (ω.windows window).rootGraphics)
    (notScreen : (ω.windows window).rootGraphics ≠ ω.store.screen)
    (done : ω.windowPositionSet fuel window newX newY = some ω') :
    ω'.store.screen = ω.store.screen ∧
      (ω'.store.nodes ω.store.screen).info = (ω.store.nodes ω.store.screen).info := by
  have recalculated := windowPositionSet_recalculated linked (.inr held) done
  have raised := SameTree.windowBringToTop (ω.store.placeRoot (ω.windows window).rootGraphics
    (windowPosition (ω.store.nodes ω.store.screen).info (ω.windows window) newX newY)) (ω.windows window).rootGraphics
  have screen := recalculated.screen
  rw [raised.screen] at screen
  refine ⟨recalculated.moved.screen.trans raised.screen, ?_⟩
  change ω'.store.nodes ω.store.screen = _ at screen
  rw [screen]
  change (GraphicsStore.nodes _ ω.store.screen).info = _
  rw [(raised.nodes ω.store.screen).info, placeRoot_of_ne notScreen.symm]

/-- **One call** keeps all positions right. -/
theorem PositionsKept.step (kept : ω.PositionsKept) {call : PositionCall} (taken : ω.positionStep call ω') :
    ω'.PositionsKept := by
  cases call with
  | create newGraphics sourceGraphics x y width height flags =>
      obtain ⟨fresh, sourceLive, rfl⟩ := taken
      have screen := create_screenInfo kept.tree fresh sourceLive x y width height flags
      refine ⟨kept.tree.create fresh sourceLive x y width height flags,
        kept.placed.create kept.tree fresh sourceLive x y width height flags, ?_, ?_⟩
      · exact (congrArg GraphicsInfo.startingX screen).trans kept.originX
      · exact (congrArg GraphicsInfo.startingY screen).trans kept.originY
  | positionSet window newX newY =>
      obtain ⟨rootLive, notScreen, fuel, done⟩ := taken
      have held := (kept.tree.isHeld rootLive).resolve_left notScreen
      have recalculated := windowPositionSet_recalculated kept.tree.toLinked (.inr held) done
      obtain ⟨screen, info⟩ := windowPositionSet_screen kept.tree.toLinked held notScreen done
      refine ⟨kept.tree.sameLinks ((placedRoot_links ω _ _).trans recalculated.moved.links),
        kept.placed.moveRoot kept.tree recalculated, ?_, ?_⟩
      · rw [screen, info]; exact kept.originX
      · rw [screen, info]; exact kept.originY
  | recalculate graphics =>
      obtain ⟨isLive, fuel, store, done, rfl⟩ := taken
      have recalculated := graphicsInfoRecalculate_spec kept.tree.toLinked (kept.tree.isHeld isLive) done
      have screen := recalculated.screen
      refine ⟨kept.tree.sameLinks recalculated.moved.links, kept.placed.recalculate kept.tree recalculated, ?_, ?_⟩
      · dsimp only
        rw [recalculated.moved.screen, screen]
        exact kept.originX
      · dsimp only
        rw [recalculated.moved.screen, screen]
        exact kept.originY

end WindowSystem

open WindowSystem

/-- Windows on a tiny screen, of which one has a root of four by four pixels. -/
def tinyWindows (store : GraphicsStore) : WindowSystem where
  store := store
  windows _ := ⟨0x2000, 0, 0x2000, ⟨0, 0, 0, 0⟩, 4, 4, 0, 0, 0⟩
  liveWindows := [0x5000]
  windowsVector := [0x5000]
  windowMoving := 0
  focusedWindow := 0
  closeIconWidth := 1
  closeIconHeight := 1

/-- **On one axis**: a place is on the screen, it is the requested one when that is on the screen, and no other place on
the screen is nearer to the requested one. -/
structure Nearest (extent size : Nat) (requested : Int) (start : Nat) : Prop where
  inside : start + size ≤ extent
  same : 0 ≤ requested → requested + size ≤ extent → (start : Int) = requested
  near : ∀ other, other + size ≤ extent → |(start : Int) - requested| ≤ |(other : Int) - requested|

/-- The requested place is on the screen. -/
def RequestInside (extent size : Nat) (requested : Int) : Prop := 0 ≤ requested ∧ requested + size ≤ extent

/-- The coordinate that `window_position_set` sets. -/
def placedAt (extent : BitVec 32) (body request : BitVec 64) : BitVec 64 :=
  if request + body > extent.setWidth 64 then extent.setWidth 64 - body - 1 else request

section Axis

variable {extent root : BitVec 32} {body request : BitVec 64} {border : Nat}

theorem Nearest.of_inside {size start : Nat} {requested : Int} (inside : RequestInside extent.toNat size requested)
    (same : (start : Int) = requested) : Nearest extent.toNat size requested start := by
  refine ⟨?_, fun _ _ => same, fun other _ => ?_⟩
  · have below := inside.2
    omega
  · rw [same, sub_self, abs_zero]
    exact abs_nonneg _

/-- The numbers behind `placedAt`. -/
theorem placedAt_toNat (extent : BitVec 32) (body request : BitVec 64) (small : body.toNat ≤ extent.toNat) :
    ((placedAt extent body request).setWidth 32).toNat =
      if (request.toNat + body.toNat) % 2 ^ 64 > extent.toNat then (2 ^ 64 + extent.toNat - body.toNat - 1) % 2 ^ 32
      else request.toNat % 2 ^ 32 := by
  have extentLt := extent.isLt
  have bodyLt := body.isLt
  have wide : (extent.setWidth 64).toNat = extent.toNat := by
    rw [BitVec.toNat_setWidth, Nat.mod_eq_of_lt (by omega)]
  unfold placedAt
  simp only [gt_iff_lt, BitVec.lt_def, BitVec.toNat_add, wide]
  split
  · rw [BitVec.toNat_setWidth, BitVec.toNat_sub, BitVec.toNat_sub, wide, show (1 : BitVec 64).toNat = 1 from rfl]
    omega
  · rw [BitVec.toNat_setWidth]

/-- **A coordinate that is a number**: the place is the nearest one exactly when the requested one is on the screen. -/
theorem placedAt_nearest_iff (rootSize : root.toNat = body.toNat + border) (fits : root.toNat ≤ extent.toNat)
    (notOne : border ≠ 1) :
    Nearest extent.toNat root.toNat request.toNat ((placedAt extent body request).setWidth 32).toNat ↔
      RequestInside extent.toNat root.toNat request.toNat := by
  have extentLt := extent.isLt
  have requestLt := request.isLt
  rw [placedAt_toNat extent body request (by omega)]
  constructor
  · rintro ⟨inside, -, near⟩
    refine ⟨Int.natCast_nonneg _, ?_⟩
    by_contra outside
    -- The nearest place is at the end of the screen, and neither branch sets it.
    have atEnd := near (extent.toNat - root.toNat) (by omega)
    rw [abs_of_nonpos (by omega), abs_of_nonpos (by omega)] at atEnd
    split at inside <;> split at atEnd <;> omega
  · intro inside
    refine Nearest.of_inside inside ?_
    have below := inside.2
    rw [if_neg (by rw [Nat.mod_eq_of_lt (by omega)]; omega), Nat.mod_eq_of_lt (by omega)]

/-- The place that a drag asks for: the mouse less half the title bar, which may be off the left or top edge. -/
def draggedRequest (moved size : BitVec 32) : Int := moved.toInt - (size / 2).toNat

/-- **A coordinate from a drag**: the same, though a request off the edge becomes a large number. -/
theorem draggedTo_nearest_iff (rootSize : root.toNat = body.toNat + border) (fits : root.toNat ≤ extent.toNat)
    (titled : 2 ≤ border) (moved size : BitVec 32) (onScreen : 0 ≤ moved.toInt) :
    Nearest extent.toNat root.toNat (draggedRequest moved size)
        ((placedAt extent body (draggedTo moved size)).setWidth 32).toNat ↔
      RequestInside extent.toNat root.toNat (draggedRequest moved size) := by
  have extentLt := extent.isLt
  have position : moved.toInt = moved.toNat := by
    rw [BitVec.toInt_eq_toNat_cond] at onScreen ⊢
    split at onScreen
    · next small => rw [if_pos small]
    · have := moved.isLt
      omega
  have small : moved.toNat < 2 ^ 31 := by
    have := BitVec.toInt_lt (x := moved)
    omega
  have half : (size / 2).toNat < 2 ^ 31 := by
    have := size.isLt
    rw [BitVec.toNat_udiv]
    change size.toNat / 2 < _
    omega
  have request : (draggedTo moved size).toNat = (2 ^ 32 - (size / 2).toNat + moved.toNat) % 2 ^ 32 := by
    unfold draggedTo
    rw [BitVec.toNat_setWidth, BitVec.toNat_sub]
    exact Nat.mod_eq_of_lt ((Nat.mod_lt _ (by decide)).trans (by decide))
  unfold draggedRequest
  rw [position]
  generalize (size / 2).toNat = middle at half request
  by_cases edge : middle ≤ moved.toNat
  · -- Not over the edge: the request is a number.
    have same : (moved.toNat : Int) - middle = ((draggedTo moved size).toNat : Int) := by
      rw [request]
      omega
    rw [same]
    exact placedAt_nearest_iff rootSize fits (by omega)
  · refine iff_of_false (fun nearest => ?_) fun inside => ?_
    · -- The nearest place is the edge, and neither branch sets it.
      have atEdge := nearest.near 0 (by omega)
      rw [placedAt_toNat extent body _ (by omega), request, abs_of_nonneg (by omega), abs_of_nonneg (by omega)] at atEdge
      split at atEdge <;> omega
    · have := inside.1
      omega

end Axis

/-! ### Placing a window -/

/-- A way to move a window. -/
inductive PositionRequest where
  /-- `window_position_set`. -/
  | set (newX newY : BitVec 64)
  /-- A mouse move while the window is dragged. -/
  | drag (movedToX movedToY : BitVec 32)

namespace WindowSystem

/-- How much wider the root of a window is than its body. -/
def borderWidth (ω : WindowSystem) (window : Nat) : Nat := if (ω.windows window).titleBarGraphics = 0 then 0 else 4

/-- How much higher the root of a window is than its body. -/
def borderHeight (ω : WindowSystem) (window : Nat) : Nat := if (ω.windows window).titleBarGraphics = 0 then 0 else 34

/-- The root graphics of a window. -/
def root (ω : WindowSystem) (window : Nat) : GraphicsInfo := (ω.store.nodes (ω.windows window).rootGraphics).info

/-- The screen. -/
def screenInfo (ω : WindowSystem) : GraphicsInfo := (ω.store.nodes ω.store.screen).info

/-- **A window of the screen**: its root is a child of the screen and has the size of the body with the borders. -/
structure Framed (ω : WindowSystem) (window : Nat) : Prop where
  linked : ω.store.Linked
  originX : ω.screenInfo.startingX = 0
  originY : ω.screenInfo.startingY = 0
  rootChild : (ω.windows window).rootGraphics ∈ (ω.store.nodes ω.store.screen).children
  width : (ω.root window).width = ((ω.windows window).width + .ofNat 64 (ω.borderWidth window)).setWidth 32
  height : (ω.root window).height = ((ω.windows window).height + .ofNat 64 (ω.borderHeight window)).setWidth 32

/-- The root rectangle of a window fits on the screen. -/
structure Fits (ω : WindowSystem) (window : Nat) : Prop where
  width : (ω.windows window).width.toNat + ω.borderWidth window ≤ ω.screenInfo.width.toNat
  height : (ω.windows window).height.toNat + ω.borderHeight window ≤ ω.screenInfo.height.toNat

/-- A request that can be made: a drag is one of a window with a title bar, by a mouse on the screen. -/
def Possible (ω : WindowSystem) (window : Nat) : PositionRequest → Prop
  | .set _ _ => True
  | .drag movedToX movedToY => window ≠ 0 ∧ ω.windowMoving = window ∧ (ω.windows window).titleBarGraphics ≠ 0 ∧
      (0 ≤ movedToX.toInt ∧ movedToX.toNat < ω.screenInfo.width.toNat) ∧
      0 ≤ movedToY.toInt ∧ movedToY.toNat < ω.screenInfo.height.toNat

/-- The function of a request. -/
def move (fuel : Nat) (ω : WindowSystem) (window : Nat) : PositionRequest → Option WindowSystem
  | .set newX newY => ω.windowPositionSet fuel window newX newY
  | .drag movedToX movedToY => ω.windowScreenMouseMoveHandler fuel movedToX movedToY

/-- The left side that is asked for. -/
def requestedX (ω : WindowSystem) (window : Nat) : PositionRequest → Int
  | .set newX _ => newX.toNat
  | .drag movedToX _ =>
      draggedRequest movedToX (ω.store.nodes (ω.windows window).titleBarGraphics).info.width

/-- The top side that is asked for. -/
def requestedY (ω : WindowSystem) (window : Nat) : PositionRequest → Int
  | .set _ newY => newY.toNat
  | .drag _ movedToY =>
      draggedRequest movedToY (ω.store.nodes (ω.windows window).titleBarGraphics).info.height

/-- **The root of a window was placed on the screen, as near as can be to a requested place.** -/
structure PlacedNearest (ω' : WindowSystem) (window : Nat) (requestedX requestedY : Int) : Prop where
  x : Nearest ω'.screenInfo.width.toNat (ω'.root window).width.toNat requestedX (ω'.root window).startingX.toNat
  y : Nearest ω'.screenInfo.height.toNat (ω'.root window).height.toNat requestedY (ω'.root window).startingY.toNat

variable {window : Nat}

theorem Framed.held (framed : ω.Framed window) : ω.store.Held (ω.windows window).rootGraphics :=
  framed.linked.held_child framed.linked.screenLive framed.rootChild

theorem Framed.notScreen (framed : ω.Framed window) : (ω.windows window).rootGraphics ≠ ω.store.screen :=
  framed.linked.child_notScreen framed.linked.screenLive framed.rootChild

/-- The width and the height of a root that fits, as numbers. -/
theorem Framed.sizes (framed : ω.Framed window) (fits : ω.Fits window) :
    (ω.root window).width.toNat = (ω.windows window).width.toNat + ω.borderWidth window ∧
      (ω.root window).height.toNat = (ω.windows window).height.toNat + ω.borderHeight window := by
  have screenWidth := ω.screenInfo.width.isLt
  have screenHeight := ω.screenInfo.height.isLt
  have width := fits.width
  have height := fits.height
  rw [framed.width, framed.height]
  simp only [BitVec.toNat_setWidth, BitVec.toNat_add, BitVec.toNat_ofNat]
  omega

/-- **Where `window_position_set` puts the root**: sizes stay, and each coordinate is the one that is set. -/
theorem Framed.placed (framed : ω.Framed window) {fuel : Nat} {newX newY : BitVec 64}
    (done : ω.windowPositionSet fuel window newX newY = some ω') :
    ω'.screenInfo = ω.screenInfo ∧ (ω'.root window).width = (ω.root window).width ∧
      (ω'.root window).height = (ω.root window).height ∧
      (ω'.root window).startingX = (placedAt ω.screenInfo.width (ω.windows window).width newX).setWidth 32 ∧
      (ω'.root window).startingY = (placedAt ω.screenInfo.height (ω.windows window).height newY).setWidth 32 := by
  obtain ⟨rootLive, rootParent⟩ := framed.linked.child _ framed.linked.screenLive _ framed.rootChild
  have recalculated := windowPositionSet_recalculated framed.linked (.inr framed.held) done
  obtain ⟨screen, screenInfo⟩ := windowPositionSet_screen framed.linked framed.held framed.notScreen done
  obtain ⟨-, windows, -⟩ := windowPositionSet_cases done
  have sameRoot : (ω'.windows window).rootGraphics = (ω.windows window).rootGraphics := by
    rw [windows, Function.update_self]
  have raised := SameTree.windowBringToTop (ω.store.placeRoot (ω.windows window).rootGraphics
    (windowPosition (ω.store.nodes ω.store.screen).info (ω.windows window) newX newY)) (ω.windows window).rootGraphics
  have links := (placeRoot_links ω.store (ω.windows window).rootGraphics
    (windowPosition (ω.store.nodes ω.store.screen).info (ω.windows window) newX newY)).trans raised.links
  have placed := recalculated.placed _ (links.screen.symm ▸ framed.notScreen) .self
  have parent : (ω'.store.nodes (ω.windows window).rootGraphics).parent = ω.store.screen := by
    rw [(recalculated.moved.links).parent, links.parent, rootParent]
  have written : (ω.store.placeRoot (ω.windows window).rootGraphics
      (windowPosition (ω.store.nodes ω.store.screen).info (ω.windows window) newX newY)).nodes
        (ω.windows window).rootGraphics = _ := setNode_self _ _ _
  have moved := (recalculated.moved.nodes (ω.windows window).rootGraphics).moved
  refine ⟨?_, ?_, ?_, ?_, ?_⟩
  · unfold WindowSystem.screenInfo
    rw [screen, screenInfo]
  · unfold WindowSystem.root
    rw [sameRoot, moved]
    dsimp only
    rw [(raised.nodes _).info, written]
  · unfold WindowSystem.root
    rw [sameRoot, moved]
    dsimp only
    rw [(raised.nodes _).info, written]
  · have originX : (ω'.store.nodes ω.store.screen).info.startingX = 0 := by
      rw [screenInfo]
      exact framed.originX
    unfold WindowSystem.root
    rw [sameRoot, placed.x, parent, originX, recalculated.moved.relativeX, (raised.nodes _).relativeX, written]
    exact BitVec.add_zero _
  · have originY : (ω'.store.nodes ω.store.screen).info.startingY = 0 := by
      rw [screenInfo]
      exact framed.originY
    unfold WindowSystem.root
    rw [sameRoot, placed.y, parent, originY, recalculated.moved.relativeY, (raised.nodes _).relativeY, written]
    exact BitVec.add_zero _

/-- The root is placed where the two coordinates that are set say. -/
theorem Framed.placedNearest_iff (framed : ω.Framed window) (newX newY : BitVec 64) (requestedX requestedY : Int) :
    (∃ fuel ω', ω.windowPositionSet fuel window newX newY = some ω' ∧
        ω'.PlacedNearest window requestedX requestedY) ↔
      Nearest ω.screenInfo.width.toNat (ω.root window).width.toNat requestedX
          ((placedAt ω.screenInfo.width (ω.windows window).width newX).setWidth 32).toNat ∧
        Nearest ω.screenInfo.height.toNat (ω.root window).height.toNat requestedY
          ((placedAt ω.screenInfo.height (ω.windows window).height newY).setWidth 32).toNat := by
  constructor
  · rintro ⟨fuel, ω', done, x, y⟩
    obtain ⟨screen, width, height, startingX, startingY⟩ := framed.placed done
    rw [screen, width, startingX] at x
    rw [screen, height, startingY] at y
    exact ⟨x, y⟩
  · rintro ⟨x, y⟩
    obtain ⟨fuel, ω', done⟩ := windowPositionSet_returns framed.linked (.inr framed.held) newX newY
    obtain ⟨screen, width, height, startingX, startingY⟩ := framed.placed done
    refine ⟨fuel, ω', done, ?_, ?_⟩
    · rw [screen, width, startingX]
      exact x
    · rw [screen, height, startingY]
      exact y

end WindowSystem

open WindowSystem

/-- **A window that fits on the screen is placed on it, as near as can be to the requested place, exactly when the
requested rectangle is on the screen.** The request is a position or a drag. -/
theorem windowPlacement_iff {window : Nat} (framed : ω.Framed window) (fits : ω.Fits window)
    (request : PositionRequest) (possible : ω.Possible window request) :
    (∃ fuel ω', ω.move fuel window request = some ω' ∧
        ω'.PlacedNearest window (ω.requestedX window request) (ω.requestedY window request)) ↔
      RequestInside ω.screenInfo.width.toNat (ω.root window).width.toNat (ω.requestedX window request) ∧
        RequestInside ω.screenInfo.height.toNat (ω.root window).height.toNat (ω.requestedY window request) := by
  obtain ⟨width, height⟩ := framed.sizes fits
  have fitsX : (ω.root window).width.toNat ≤ ω.screenInfo.width.toNat := width ▸ fits.width
  have fitsY : (ω.root window).height.toNat ≤ ω.screenInfo.height.toNat := height ▸ fits.height
  cases request with
  | set newX newY =>
      have notOneX : ω.borderWidth window ≠ 1 := by unfold borderWidth; split <;> decide
      have notOneY : ω.borderHeight window ≠ 1 := by unfold borderHeight; split <;> decide
      refine (framed.placedNearest_iff newX newY _ _).trans (and_congr ?_ ?_)
      · exact placedAt_nearest_iff width fitsX notOneX
      · exact placedAt_nearest_iff height fitsY notOneY
  | drag movedToX movedToY =>
      obtain ⟨nonnull, moving, titled, mouseX, mouseY⟩ := possible
      have borderX : 2 ≤ ω.borderWidth window := by unfold borderWidth; rw [if_neg titled]; decide
      have borderY : 2 ≤ ω.borderHeight window := by unfold borderHeight; rw [if_neg titled]; decide
      have drag : ∀ fuel, ω.move fuel window (.drag movedToX movedToY) = ω.windowPositionSet fuel window
          (draggedTo movedToX (ω.store.nodes (ω.windows window).titleBarGraphics).info.width)
          (draggedTo movedToY (ω.store.nodes (ω.windows window).titleBarGraphics).info.height) := by
        intro fuel
        change ω.windowScreenMouseMoveHandler fuel movedToX movedToY = _
        unfold windowScreenMouseMoveHandler
        rw [moving, if_neg nonnull, if_neg titled]
      simp only [drag]
      refine (framed.placedNearest_iff _ _ _ _).trans (and_congr ?_ ?_)
      · exact draggedTo_nearest_iff width fitsX borderX _ _ mouseX.1
      · exact draggedTo_nearest_iff height fitsY borderY _ _ mouseY.1

/-- The window on a tiny screen. -/
theorem tinyWindows_framed : (tinyWindows tinyScreenOne).Framed 0x5000 where
  linked := (graphicsSetup_tree (by decide) _).toLinked.create (by decide) (by decide) 0 0 4 4 graphicsFlagDoNotCopyPixels
  originX := rfl
  originY := rfl
  rootChild := by decide
  width := by decide
  height := by decide

theorem tinyWindows_fits : (tinyWindows tinyScreenOne).Fits 0x5000 := ⟨by decide, by decide⟩

/-- **A window that is asked to be at (3, 5)**, which is on the tiny screen. -/
theorem windowPlacement_iff_inside : ∃ fuel ω', (tinyWindows tinyScreenOne).move fuel 0x5000 (.set 3 5) = some ω' ∧
    ω'.PlacedNearest 0x5000 3 5 :=
  (windowPlacement_iff tinyWindows_framed tinyWindows_fits (.set 3 5) trivial).mpr
    ⟨⟨by decide, by decide⟩, by decide, by decide⟩

/-- **A window that is asked to be at (8, 5)** is put at (5, 5): its body ends one pixel before the screen does. -/
theorem windowPlacement_misses : ¬ ∀ (ω : WindowSystem) (window : Nat), ω.Framed window → ω.Fits window →
    ∀ request, ω.Possible window request → ∃ fuel ω', ω.move fuel window request = some ω' ∧
      ω'.PlacedNearest window (ω.requestedX window request) (ω.requestedY window request) := by
  intro claimed
  have claimedHere := claimed _ _ tinyWindows_framed tinyWindows_fits (.set 8 5) trivial
  have nearest := ((tinyWindows_framed.placedNearest_iff 8 5 _ _).mp claimedHere).1.near 6 (by decide)
  exact absurd nearest (by decide)

end PeachOS
