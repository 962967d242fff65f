/-
**Which graphics is at a position: `graphics_get_at_screen_position`.**

A position is searched from the last child to the first one, and the graphics are painted from the first child to the
last one. What is ignored is a graphics with all that is below it.

* `graphicsGetChildAtPosition`, `graphicsIsInIgnoredBranch` — the search;
* `redrawWithout`, `redrawWithout_refines` — what `graphics_redraw` paints, with the graphics that painted it;
* `hitTest_last` — the search finds the graphics that paints last at the position.
-/

import PeachOS.Graphics.Position
import PeachOS.Graphics.Redraw
import PeachOS.Window.Model
import Mathlib.Data.List.Induction

namespace PeachOS

open WindowSystem

variable {σ : GraphicsStore} {x y : BitVec 64}

namespace GraphicsStore

/-! ### The search -/

/-- `graphics_is_in_ignored_branch`. -/
def graphicsIsInIgnoredBranch (fuel : Nat) (σ : GraphicsStore) (elem ignored : Nat) : Option Bool :=
  if ignored = 0 then some false else hasAncestorFrom σ fuel elem ignored

end GraphicsStore

/-- The test of a position. The ends are sums of `uint32_t`, and the position is a `size_t`. -/
def GraphicsInfo.hasPosition (g : GraphicsInfo) (x y : BitVec 64) : Bool :=
  x ≥ g.startingX.setWidth 64 && x < (g.startingX + g.width).setWidth 64 &&
    y ≥ g.startingY.setWidth 64 && y < (g.startingY + g.height).setWidth 64

namespace GraphicsStore

/-- The loop of `graphics_get_child_at_position` over the children, and the test of the graphics after it. -/
def childAtPosition (isIgnored : Nat → Option Bool) (find : Nat → Option Nat) (σ : GraphicsStore) (graphics : Nat)
    (x y : BitVec 64) : List Nat → Option Nat
  | [] => some (if (σ.nodes graphics).info.hasPosition x y then graphics else 0)
  | child :: children =>
      if child = 0 then childAtPosition isIgnored find σ graphics x y children
      else
        match isIgnored child with
        | none => none
        | some true => childAtPosition isIgnored find σ graphics x y children
        | some false =>
            if (σ.nodes child).info.hasPosition x y then
              (find child).map fun result => if result ≠ 0 then result else child
            else childAtPosition isIgnored find σ graphics x y children

/-- `graphics_get_child_at_position`: the graphics, or 0. -/
def graphicsGetChildAtPosition : Nat → GraphicsStore → (graphics : Nat) → (x y : BitVec 64) → (ignored : Nat) →
    (topFirst : Bool) → Option Nat
  | 0, _, _, _, _, _, _ => none
  | fuel + 1, σ, graphics, x, y, ignored, topFirst =>
      match σ.graphicsIsInIgnoredBranch fuel graphics ignored with
      | none => none
      | some true => some 0
      | some false =>
          childAtPosition (fun child => σ.graphicsIsInIgnoredBranch fuel child ignored)
            (fun child => graphicsGetChildAtPosition fuel σ child x y ignored topFirst) σ graphics x y
            (if topFirst then (σ.nodes graphics).children.reverse else (σ.nodes graphics).children)

/-- `graphics_get_at_screen_position`. -/
def graphicsGetAtScreenPosition (fuel : Nat) (σ : GraphicsStore) (x y : BitVec 64) (ignored : Nat) (topFirst : Bool) :
    Option Nat :=
  graphicsGetChildAtPosition fuel σ σ.screen x y ignored topFirst

/-! ### The painter -/

/-- The accesses of `graphics_redraw`, with the graphics that makes them. One graphics is left out, with those below
it; for 0 none is. -/
def redrawWithout (ignored : Nat) : Nat → GraphicsStore → Nat → Option (List (Nat × PixelAccess))
  | 0, _, _ => none
  | fuel + 1, σ, g =>
      if g = ignored then some []
      else
        ((σ.nodes g).children.mapM (redrawWithout ignored fuel σ)).map fun painted =>
          (graphicsRedrawOnly (σ.nodes σ.screen).info (σ.nodes g).info).map (Prod.mk g) ++ painted.flatten

end GraphicsStore

/-- An access writes a position. -/
def PixelAccess.writesAt (x y : BitVec 64) : PixelAccess → Bool
  | .read _ _ => false
  | .write px py _ => px.setWidth 64 = x ∧ py.setWidth 64 = y

/-- The graphics that wrote a position last. -/
def lastPainter (x y : BitVec 64) (accesses : List (Nat × PixelAccess)) : Option Nat :=
  (accesses.filter fun access => access.2.writesAt x y).getLast?.map Prod.fst

theorem lastPainter_append (x y : BitVec 64) (first second : List (Nat × PixelAccess)) :
    lastPainter x y (first ++ second) = (lastPainter x y second).or (lastPainter x y first) := by
  unfold lastPainter
  rw [List.filter_append, List.getLast?_append]
  cases (second.filter fun access => access.2.writesAt x y).getLast? <;> rfl

namespace GraphicsStore

/-- The tree of a graphics, as it is painted. -/
def treeOf : Nat → GraphicsStore → Nat → Option GraphicsTree
  | 0, _, _ => none
  | fuel + 1, σ, g => ((σ.nodes g).children.mapM (treeOf fuel σ)).map (.node (σ.nodes g).info)

/-- **The painter of the memory is the one of trees**, when nothing is left out. -/
theorem redrawWithout_refines (linked : σ.Linked) {fuel g : Nat} (isLive : g ∈ σ.live) {tree : GraphicsTree}
    (found : treeOf fuel σ g = some tree) :
    (redrawWithout 0 fuel σ g).map (List.map Prod.snd) = some (graphicsRedraw (σ.nodes σ.screen).info tree) := by
  induction fuel generalizing g tree with
  | zero => exact absurd found (Option.some_ne_none _).symm
  | succ fuel ih =>
      obtain ⟨children, each, rfl⟩ := Option.map_eq_some_iff.mp found
      have nonnull : g ≠ 0 := fun null => linked.nonnull (null ▸ isLive)
      have loop : ∀ (pointers : List Nat) (trees : List GraphicsTree), (∀ child ∈ pointers, child ∈ σ.live) →
          pointers.mapM (treeOf fuel σ) = some trees → ∃ painted, pointers.mapM (redrawWithout 0 fuel σ) = some painted ∧
            painted.flatten.map Prod.snd = graphicsRedrawChildren (σ.nodes σ.screen).info trees := by
        intro pointers trees live found
        induction pointers generalizing trees with
        | nil =>
            obtain rfl := Option.some.inj found
            exact ⟨[], rfl, rfl⟩
        | cons child pointers rest =>
            rw [List.mapM_cons] at found
            obtain ⟨tree, first, later⟩ := Option.bind_eq_some_iff.mp found
            obtain ⟨others, after, same⟩ := Option.bind_eq_some_iff.mp later
            obtain rfl := Option.some.inj same
            obtain ⟨own, redrawn, isOwn⟩ := Option.map_eq_some_iff.mp (ih (live child List.mem_cons_self) first)
            obtain ⟨painted, each, isRest⟩ := rest others (fun other isIn => live other (List.mem_cons_of_mem _ isIn)) after
            refine ⟨own :: painted, by rw [List.mapM_cons, redrawn, each]; rfl, ?_⟩
            rw [List.flatten_cons, List.map_append, isOwn, isRest]
            rfl
      obtain ⟨painted, redrawn, same⟩ := loop _ children (fun child isChild => (linked.child g isLive child isChild).1) each
      rw [redrawWithout, if_neg nonnull, redrawn]
      refine congrArg some ?_
      rw [List.map_append, same, List.map_map]
      exact congrArg (· ++ _) (List.map_id _)

/-! ### One graphics -/

section One

variable {screen g : GraphicsInfo}

/-- On the screen the ends do not wrap. -/
theorem hasPosition_iff (onScreen : g.rect.Within screen.screenRect) :
    g.hasPosition x y = true ↔ (x.toNat, y.toNat) ∈ g.rect.area := by
  have right := onScreen.right
  have bottom := onScreen.bottom
  have limitX := screen.horizontalResolution.isLt
  have limitY := screen.verticalResolution.isLt
  simp only [GraphicsInfo.rect, GraphicsInfo.screenRect] at right bottom
  unfold GraphicsInfo.hasPosition Rect.area GraphicsInfo.rect
  simp only [ge_iff_le, Bool.and_eq_true, decide_eq_true_eq, BitVec.le_def, BitVec.lt_def, BitVec.toNat_setWidth,
    BitVec.toNat_add, Set.mem_ofPred_eq]
  omega

/-- What `graphics_redraw_only` writes, when there is no transparency key: all positions of the rectangle. -/
theorem writesAt_iff (onScreen : g.rect.Within screen.screenRect) (noKey : g.transparencyKey = blackPixel) :
    (∃ access ∈ graphicsRedrawOnly screen g, access.writesAt x y = true) ↔ g.hasPosition x y = true := by
  obtain ⟨columns, rows⟩ : SizeFits g.width 0 g.width g.startingX ∧ SizeFits g.height 0 g.height g.startingY :=
    sizeFits_of_within (Nat.zero_add _).le (Nat.zero_add _).le (onScreen.trans screen.screenRect_within)
  have shown : (g.region 0 0 g.width g.height).area ∩ screen.screenRect.area = g.rect.area :=
    Set.inter_eq_left.mpr onScreen.area
  have writes {px py : BitVec 32} {p : FramebufferPixel} :
      .write px py p ∈ graphicsRedrawOnly screen g ↔ (px.toNat, py.toNat) ∈ g.rect.area ∧
        p = g.pixelAt (g.pixelIndex (px - g.startingX) (py - g.startingY)) := by
    have paste := @write_mem_paste_iff screen g 0 0 g.width g.height columns rows px py p
    rw [shown, show g.startingX + 0 = g.startingX from BitVec.add_zero _,
      show g.startingY + 0 = g.startingY from BitVec.add_zero _] at paste
    refine paste.trans (and_congr_right fun _ => ⟨And.right, fun same => ⟨fun transparent => transparent.1 noKey, same⟩⟩)
  rw [hasPosition_iff onScreen]
  constructor
  · rintro ⟨access, isIn, isHere⟩
    cases access with
    | read _ _ => exact Bool.noConfusion isHere
    | write px py p =>
        obtain ⟨rfl, rfl⟩ := of_decide_eq_true isHere
        rw [BitVec.toNat_setWidth, BitVec.toNat_setWidth, Nat.mod_eq_of_lt (px.isLt.trans (by decide)),
          Nat.mod_eq_of_lt (py.isLt.trans (by decide))]
        exact (writes.mp isIn).1
  · intro isIn
    have onX := (onScreen.area isIn).1.2.trans screen.horizontalResolution.isLt
    have onY := (onScreen.area isIn).2.2.trans screen.verticalResolution.isLt
    refine ⟨.write (x.setWidth 32) (y.setWidth 32) _, writes.mpr ⟨?_, rfl⟩, decide_eq_true ⟨?_, ?_⟩⟩
    · rwa [BitVec.toNat_setWidth, BitVec.toNat_setWidth, Nat.mod_eq_of_lt onX, Nat.mod_eq_of_lt onY]
    · exact BitVec.eq_of_toNat_eq (by rw [BitVec.toNat_setWidth, BitVec.toNat_setWidth]; omega)
    · exact BitVec.eq_of_toNat_eq (by rw [BitVec.toNat_setWidth, BitVec.toNat_setWidth]; omega)

/-- **A graphics alone** paints the positions that it has. -/
theorem lastPainter_own (onScreen : g.rect.Within screen.screenRect) (noKey : g.transparencyKey = blackPixel)
    (graphics : Nat) :
    lastPainter x y ((graphicsRedrawOnly screen g).map (Prod.mk graphics)) =
      if g.hasPosition x y then some graphics else none := by
  unfold lastPainter
  rw [List.filter_map, List.getLast?_map, Option.map_map]
  have writes := writesAt_iff (x := x) (y := y) onScreen noKey
  cases isLast : ((graphicsRedrawOnly screen g).filter fun access => access.writesAt x y).getLast? with
  | none =>
      have none := List.filter_eq_nil_iff.mp (List.getLast?_eq_none_iff.mp isLast)
      rw [if_neg fun has => by
        obtain ⟨access, isIn, isHere⟩ := writes.mpr has
        exact none access isIn isHere]
      exact congrArg (Option.map _) isLast
  | some access =>
      obtain ⟨isIn, isHere⟩ := List.mem_filter.mp (List.mem_of_getLast? isLast)
      rw [if_pos (writes.mp ⟨access, isIn, isHere⟩)]
      exact congrArg (Option.map _) isLast

end One

/-! ### The ignored branch -/

/-- From a child of a graphics that is in no ignored branch. -/
theorem isInIgnoredBranch_child (linked : σ.Linked) {fuel g child ignored : Nat} (isLive : g ∈ σ.live)
    (isChild : child ∈ (σ.nodes g).children) (clear : σ.graphicsIsInIgnoredBranch fuel g ignored = some false) :
    σ.graphicsIsInIgnoredBranch (fuel + 1) child ignored = some (decide (child = ignored)) := by
  obtain ⟨childLive, isParent⟩ := linked.child g isLive child isChild
  have nonnull : child ≠ 0 := fun null => linked.nonnull (null ▸ childLive)
  unfold graphicsIsInIgnoredBranch at clear ⊢
  split at clear
  · next none =>
      rw [if_pos none, none, decide_eq_false nonnull]
  · next ignores =>
      rw [if_neg ignores, hasAncestorFrom, if_neg nonnull, isParent]
      by_cases isIt : child = ignored
      · rw [if_pos isIt, decide_eq_true isIt]
      · rw [if_neg isIt, decide_eq_false isIt, clear]

/-- The screen is in no ignored branch but its own. -/
theorem isInIgnoredBranch_screen (linked : σ.Linked) {ignored : Nat} (notRoot : ignored ≠ σ.screen) (fuel : Nat) :
    σ.graphicsIsInIgnoredBranch (fuel + 2) σ.screen ignored = some false := by
  have nonnull : σ.screen ≠ 0 := fun null => linked.nonnull (null ▸ linked.screenLive)
  unfold graphicsIsInIgnoredBranch
  split
  · rfl
  · rw [hasAncestorFrom, if_neg nonnull, if_neg notRoot.symm, linked.screenParent, hasAncestorFrom, if_pos rfl]

/-! ### The search agrees with the painter -/

/-- What a search found below a graphics is what was painted last, unless nothing was: it is ignored, or elsewhere. -/
def Agrees (σ : GraphicsStore) (ignored : Nat) (x y : BitVec 64) (graphics : Nat) (accesses : List (Nat × PixelAccess))
    (found : Option Nat) : Prop :=
  if graphics = ignored ∨ (σ.nodes graphics).info.hasPosition x y = false then lastPainter x y accesses = none
  else ∃ hit, hit ≠ 0 ∧ found = some hit ∧ lastPainter x y accesses = some hit

/-- **The loop over the children**, from the last one, agrees with painting them from the first one. -/
theorem childAtPosition_agrees {ignored : Nat} {isIgnored : Nat → Option Bool} {find : Nat → Option Nat}
    {redraw : Nat → Option (List (Nat × PixelAccess))} (graphics : Nat) (children : List Nat)
    (nonnull : ∀ child ∈ children, child ≠ 0)
    (checks : ∀ child ∈ children, isIgnored child = some (decide (child = ignored)))
    (each : ∀ child ∈ children, ∃ accesses, redraw child = some accesses ∧
      σ.Agrees ignored x y child accesses (find child)) :
    ∃ painted, children.mapM redraw = some painted ∧
      childAtPosition isIgnored find σ graphics x y children.reverse =
        some ((lastPainter x y painted.flatten).getD
          (if (σ.nodes graphics).info.hasPosition x y then graphics else 0)) ∧
      ∀ hit, lastPainter x y painted.flatten = some hit → hit ≠ 0 := by
  induction children using List.reverseRecOn with
  | nil => exact ⟨[], rfl, rfl, fun hit none => absurd none (Option.some_ne_none _).symm⟩
  | append_singleton children child ih =>
      have isLast : child ∈ children ++ [child] := List.mem_append_right _ List.mem_cons_self
      obtain ⟨painted, redrawn, search, hits⟩ := ih
        (fun other isIn => nonnull other (List.mem_append_left _ isIn))
        (fun other isIn => checks other (List.mem_append_left _ isIn))
        (fun other isIn => each other (List.mem_append_left _ isIn))
      obtain ⟨accesses, own, agrees⟩ := each child isLast
      have last : lastPainter x y (painted ++ [accesses]).flatten =
          (lastPainter x y accesses).or (lastPainter x y painted.flatten) := by
        rw [List.flatten_append, lastPainter_append, List.flatten_singleton]
      refine ⟨painted ++ [accesses], ?_, ?_, ?_⟩
      · rw [List.mapM_append, redrawn, List.mapM_cons, own]
        rfl
      · rw [List.reverse_concat, childAtPosition, if_neg (nonnull child isLast), checks child isLast, last]
        unfold Agrees at agrees
        by_cases isIgnored : child = ignored
        · rw [if_pos (.inl isIgnored)] at agrees
          rw [decide_eq_true isIgnored, agrees, Option.none_or]
          exact search
        · rw [decide_eq_false isIgnored]
          dsimp only
          cases has : (σ.nodes child).info.hasPosition x y with
          | false =>
              rw [if_pos (.inr has)] at agrees
              rw [agrees, Option.none_or, if_neg Bool.false_ne_true]
              exact search
          | true =>
              rw [has, if_neg (not_or.mpr ⟨isIgnored, Bool.noConfusion⟩)] at agrees
              obtain ⟨hit, nonnull, found, painter⟩ := agrees
              rw [if_pos rfl, found, painter, Option.map_some, if_pos nonnull]
              rfl
      · intro hit isHit
        rw [last] at isHit
        unfold Agrees at agrees
        split at agrees
        · rw [agrees, Option.none_or] at isHit
          exact hits hit isHit
        · obtain ⟨found, nonnull, -, painter⟩ := agrees
          rw [painter, Option.some_or] at isHit
          exact Option.some.inj isHit ▸ nonnull

/-- Children that paint nothing at a position. -/
theorem lastPainter_children_none {redraw : Nat → Option (List (Nat × PixelAccess))} {children : List Nat}
    {painted : List (List (Nat × PixelAccess))} (redrawn : children.mapM redraw = some painted)
    (each : ∀ child ∈ children, ∀ accesses, redraw child = some accesses → lastPainter x y accesses = none) :
    lastPainter x y painted.flatten = none := by
  induction children generalizing painted with
  | nil => exact Option.some.inj redrawn ▸ rfl
  | cons child children ih =>
      rw [List.mapM_cons] at redrawn
      obtain ⟨own, first, rest⟩ := Option.bind_eq_some_iff.mp redrawn
      obtain ⟨others, later, same⟩ := Option.bind_eq_some_iff.mp rest
      obtain rfl := Option.some.inj same
      rw [List.flatten_cons, lastPainter_append, each child List.mem_cons_self own first,
        ih later fun other isIn => each other (List.mem_cons_of_mem _ isIn)]
      rfl

/-- **Nested graphics without transparency keys**, on a screen as `graphics_setup` leaves it. -/
structure Plain (σ : GraphicsStore) : Prop extends Tree σ where
  screenRect : (σ.nodes σ.screen).info.rect = (σ.nodes σ.screen).info.screenRect
  nested : ∀ graphics ∈ σ.live, graphics ≠ σ.screen →
    (σ.nodes graphics).info.rect.Within (σ.nodes (σ.nodes graphics).parent).info.rect
  noKey : ∀ graphics ∈ σ.live, (σ.nodes graphics).info.transparencyKey = blackPixel

/-- **One graphics and all below it**: the search agrees with the painter. -/
theorem Plain.agrees (plain : σ.Plain) {ignored : Nat} {fuel clearFrom room graphics : Nat}
    (isLive : graphics ∈ σ.live)
    (onScreen : (σ.nodes graphics).info.rect.Within (σ.nodes σ.screen).info.screenRect)
    (clear : graphics ≠ ignored → ∀ enough ≥ clearFrom,
      σ.graphicsIsInIgnoredBranch enough graphics ignored = some false)
    (walk : clearFrom + σ.live.idxOf graphics ≤ room) (enough : room + σ.live.idxOf graphics < fuel) :
    ∃ accesses, redrawWithout ignored fuel σ graphics = some accesses ∧
      σ.Agrees ignored x y graphics accesses (graphicsGetChildAtPosition fuel σ graphics x y ignored true) := by
  induction fuel generalizing graphics clearFrom with
  | zero => exact absurd enough (Nat.not_lt_zero _)
  | succ fuel ih =>
      rw [redrawWithout]
      by_cases isIgnored : graphics = ignored
      · refine ⟨[], if_pos isIgnored, ?_⟩
        unfold Agrees
        rw [if_pos (.inl isIgnored)]
        rfl
      · rw [if_neg isIgnored]
        have clear := clear isIgnored
        have lower : ∀ child ∈ (σ.nodes graphics).children, σ.live.idxOf child < σ.live.idxOf graphics :=
          fun child isChild => plain.rank isLive isChild
        have within : ∀ child ∈ (σ.nodes graphics).children,
            (σ.nodes child).info.rect.Within (σ.nodes graphics).info.rect := by
          intro child isChild
          obtain ⟨childLive, isParent⟩ := plain.child graphics isLive child isChild
          have nested := plain.nested child childLive (plain.child_notScreen isLive isChild)
          rwa [isParent] at nested
        have checkOf : ∀ child ∈ (σ.nodes graphics).children, ∀ enough ≥ clearFrom + 1,
            σ.graphicsIsInIgnoredBranch enough child ignored = some (decide (child = ignored)) := by
          intro child isChild enough atLeast
          obtain ⟨enough, rfl⟩ : ∃ n, enough = n + 1 := ⟨enough - 1, by omega⟩
          exact isInIgnoredBranch_child plain.toLinked isLive isChild (clear enough (Nat.le_of_succ_le_succ atLeast))
        have each : ∀ child ∈ (σ.nodes graphics).children, ∃ accesses,
            redrawWithout ignored fuel σ child = some accesses ∧
              σ.Agrees ignored x y child accesses (graphicsGetChildAtPosition fuel σ child x y ignored true) := by
          intro child isChild
          have rank := lower child isChild
          have clearChild : child ≠ ignored → ∀ enough ≥ clearFrom + 1,
              σ.graphicsIsInIgnoredBranch enough child ignored = some false := by
            intro isNot enough atLeast
            rw [checkOf child isChild enough atLeast, decide_eq_false isNot]
          exact ih (plain.child graphics isLive child isChild).1 ((within child isChild).trans onScreen) clearChild
            (by omega) (by omega)
        have nonnull : ∀ child ∈ (σ.nodes graphics).children, child ≠ 0 :=
          fun child isChild null => plain.nonnull (null ▸ (plain.child graphics isLive child isChild).1)
        have checks : ∀ child ∈ (σ.nodes graphics).children,
            σ.graphicsIsInIgnoredBranch fuel child ignored = some (decide (child = ignored)) := by
          intro child isChild
          have rank := lower child isChild
          exact checkOf child isChild fuel (by omega)
        obtain ⟨painted, redrawn, search, hits⟩ := childAtPosition_agrees graphics _ nonnull checks each
        have whole : lastPainter x y ((graphicsRedrawOnly (σ.nodes σ.screen).info (σ.nodes graphics).info).map
            (Prod.mk graphics) ++ painted.flatten) = (lastPainter x y painted.flatten).or
              (if (σ.nodes graphics).info.hasPosition x y then some graphics else none) := by
          rw [lastPainter_append, lastPainter_own onScreen (plain.noKey graphics isLive)]
        rw [redrawn]
        refine ⟨_, rfl, ?_⟩
        unfold Agrees
        rw [whole]
        cases has : (σ.nodes graphics).info.hasPosition x y with
        | false =>
            rw [if_pos (.inr rfl), if_neg Bool.false_ne_true, Option.or_none]
            refine lastPainter_children_none redrawn fun child isChild accesses isOwn => ?_
            obtain ⟨own, found, agrees⟩ := each child isChild
            obtain rfl : own = accesses := Option.some.inj (found.symm.trans isOwn)
            have notHas : (σ.nodes child).info.hasPosition x y = false := by
              refine Bool.eq_false_iff.mpr fun childHas => ?_
              have isIn := (within child isChild).area ((hasPosition_iff ((within child isChild).trans onScreen)).mp childHas)
              exact Bool.eq_false_iff.mp has ((hasPosition_iff onScreen).mpr isIn)
            unfold Agrees at agrees
            rwa [if_pos (.inr notHas)] at agrees
        | true =>
            rw [if_neg (not_or.mpr ⟨isIgnored, Bool.noConfusion⟩), if_pos rfl, graphicsGetChildAtPosition,
              clear fuel (by omega)]
            dsimp only
            rw [if_pos rfl, search, has, if_pos rfl]
            cases last : lastPainter x y painted.flatten with
            | none => exact ⟨graphics, fun null => plain.nonnull (null ▸ isLive), rfl, rfl⟩
            | some hit => exact ⟨hit, hits hit last, rfl, rfl⟩

end GraphicsStore

open GraphicsStore

/-- **The graphics found at a position of the screen is the one that paints it last**, when what is ignored is left out. -/
theorem hitTest_last (plain : σ.Plain) (x y : BitVec 64)
    (onScreen : x.toNat < (σ.nodes σ.screen).info.horizontalResolution.toNat ∧
      y.toNat < (σ.nodes σ.screen).info.verticalResolution.toNat)
    (ignored : Nat) (notRoot : ignored ≠ σ.screen) (fuel : Nat) (enough : 2 * σ.live.length < fuel) :
    ∃ hit accesses, hit ≠ 0 ∧ σ.graphicsGetAtScreenPosition fuel x y ignored true = some hit ∧
      redrawWithout ignored fuel σ σ.screen = some accesses ∧ lastPainter x y accesses = some hit := by
  have rank := List.idxOf_lt_length_iff.mpr plain.screenLive
  have within : (σ.nodes σ.screen).info.rect.Within (σ.nodes σ.screen).info.screenRect := by
    rw [plain.screenRect]
    exact ⟨le_rfl, le_rfl, le_rfl, le_rfl⟩
  have clear : σ.screen ≠ ignored → ∀ enough ≥ 2, σ.graphicsIsInIgnoredBranch enough σ.screen ignored = some false := by
    intro _ enough atLeast
    obtain ⟨n, rfl⟩ : ∃ n, enough = n + 2 := ⟨enough - 2, by omega⟩
    exact isInIgnoredBranch_screen plain.toLinked notRoot n
  obtain ⟨accesses, redrawn, agrees⟩ := plain.agrees (x := x) (y := y) plain.screenLive within clear (le_refl _)
    (show 2 + σ.live.idxOf σ.screen + σ.live.idxOf σ.screen < fuel by omega)
  have has : (σ.nodes σ.screen).info.hasPosition x y = true := by
    rw [hasPosition_iff within, plain.screenRect]
    exact ⟨⟨Nat.zero_le _, onScreen.1⟩, Nat.zero_le _, onScreen.2⟩
  unfold Agrees at agrees
  rw [has, if_neg (not_or.mpr ⟨notRoot.symm, Bool.noConfusion⟩)] at agrees
  obtain ⟨hit, nonnull, found, painter⟩ := agrees
  exact ⟨hit, accesses, nonnull, found, redrawn, painter⟩

/-- Two graphics of a tiny screen. -/
theorem tinyScreenTwo_plain : tinyScreenTwo.Plain := by
  have tree : tinyScreenTwo.Tree :=
    ((graphicsSetup_tree (by decide) _).create (by decide) (by decide) 0 0 4 4 graphicsFlagDoNotCopyPixels).create
      (by decide) (by decide) 2 2 4 4 graphicsFlagDoNotCopyPixels
  have sides : ∀ graphics ∈ tinyScreenTwo.live, graphics ≠ tinyScreenTwo.screen →
      let inner := (tinyScreenTwo.nodes graphics).info.rect
      let outer := (tinyScreenTwo.nodes (tinyScreenTwo.nodes graphics).parent).info.rect
      outer.left ≤ inner.left ∧ outer.top ≤ inner.top ∧ inner.right ≤ outer.right ∧ inner.bottom ≤ outer.bottom := by
    decide
  refine ⟨tree, rfl, fun graphics isLive notScreen => ?_, by decide⟩
  obtain ⟨left, top, right, bottom⟩ := sides graphics isLive notScreen
  exact ⟨left, top, right, bottom⟩

/-- **At (3, 3)**, where two graphics overlap. -/
theorem hitTest_last_two : ∃ hit accesses, hit ≠ 0 ∧
    tinyScreenTwo.graphicsGetAtScreenPosition 7 3 3 0 true = some hit ∧
      redrawWithout 0 7 tinyScreenTwo tinyScreenTwo.screen = some accesses ∧ lastPainter 3 3 accesses = some hit :=
  hitTest_last tinyScreenTwo_plain 3 3 ⟨by decide, by decide⟩ 0 (by decide) 7 (by decide)

/-- The two graphics are painted as their tree. -/
theorem redrawWithout_refines_two : ∃ tree, treeOf 7 tinyScreenTwo tinyScreenTwo.screen = some tree ∧
    (redrawWithout 0 7 tinyScreenTwo tinyScreenTwo.screen).map (List.map Prod.snd) =
      some (graphicsRedraw (tinyScreenTwo.nodes tinyScreenTwo.screen).info tree) := by
  have found : (treeOf 7 tinyScreenTwo tinyScreenTwo.screen).isSome = true := by decide +kernel
  obtain ⟨tree, isTree⟩ := Option.isSome_iff_exists.mp found
  exact ⟨tree, isTree, redrawWithout_refines tinyScreenTwo_plain.toLinked (by decide) isTree⟩

end PeachOS
