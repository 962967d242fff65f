/-
**The topmost window: `window_get_at_position`.**

Windows are painted in the order of the screen's children, and searched in the order of the vector of windows.

* `redrawOrder`, `PaintedBefore` — the order in which `graphics_redraw_all` paints;
* `TopmostAt`, `FindsTopmost` — the topmost window at a point, and that it is found;
* `StackKept`, `StackKept.findsTopmost` — of windows that meet, an older one is painted later, and so it is found.
-/

import PeachOS.Window.Build

namespace PeachOS

open BubbleSort GraphicsStore

namespace GraphicsStore

variable {σ σ' : GraphicsStore}

/-! ### The order of painting -/

/-- The graphics that `graphics_redraw` paints, in order. -/
def redrawOrder : Nat → GraphicsStore → Nat → Option (List Nat)
  | 0, _, _ => none
  | fuel + 1, σ, g => ((σ.nodes g).children.mapM (redrawOrder fuel σ)).map fun orders => g :: orders.flatten

/-- `graphics_redraw_all` paints one graphics before another one. -/
def PaintedBefore (σ : GraphicsStore) (first second : Nat) : Prop :=
  ∃ fuel order, redrawOrder fuel σ σ.screen = some order ∧ [first, second].Sublist order

theorem redrawOrder_head {fuel g : Nat} {order : List Nat} (found : redrawOrder fuel σ g = some order) :
    [g].Sublist order := by
  cases fuel with
  | zero => exact absurd found (Option.some_ne_none _).symm
  | succ fuel =>
      obtain ⟨orders, -, rfl⟩ := Option.map_eq_some_iff.mp found
      exact List.singleton_sublist.mpr List.mem_cons_self

/-- Graphics are painted in an order that their own orders are parts of. -/
theorem sublist_flatten_of_mapM {order : Nat → Option (List Nat)}
    (head : ∀ g own, order g = some own → [g].Sublist own) (children : List Nat) {orders : List (List Nat)}
    (found : children.mapM order = some orders) : children.Sublist orders.flatten := by
  induction children generalizing orders with
  | nil => exact List.nil_sublist _
  | cons child children ih =>
      rw [List.mapM_cons] at found
      obtain ⟨own, first, rest⟩ := Option.bind_eq_some_iff.mp found
      obtain ⟨others, later, same⟩ := Option.bind_eq_some_iff.mp rest
      obtain rfl := Option.some.inj same
      exact (head child own first).append (ih later)

theorem mapM_more {α : Type} {order order' : Nat → Option α}
    (children : List Nat)
    (more : ∀ g ∈ children, ∀ own, order g = some own → order' g = some own) {orders : List α}
    (found : children.mapM order = some orders) : children.mapM order' = some orders := by
  induction children generalizing orders with
  | nil => exact found
  | cons child children ih =>
      rw [List.mapM_cons] at found ⊢
      obtain ⟨own, first, rest⟩ := Option.bind_eq_some_iff.mp found
      obtain ⟨others, later, same⟩ := Option.bind_eq_some_iff.mp rest
      rw [more child List.mem_cons_self own first, ih (fun g isIn => more g (List.mem_cons_of_mem _ isIn)) later]
      exact same

/-- More fuel finds the same order. -/
theorem redrawOrder_more {fuel more g : Nat} {order : List Nat} (enough : fuel ≤ more)
    (found : redrawOrder fuel σ g = some order) : redrawOrder more σ g = some order := by
  induction fuel generalizing more g order with
  | zero => exact absurd found (Option.some_ne_none _).symm
  | succ fuel ih =>
      obtain ⟨more, rfl⟩ : ∃ n, more = n + 1 := ⟨more - 1, by omega⟩
      obtain ⟨orders, each, rfl⟩ := Option.map_eq_some_iff.mp found
      have later := mapM_more _ (fun _ _ _ => ih (Nat.le_of_succ_le_succ enough)) each
      exact Option.map_eq_some_iff.mpr ⟨orders, later, rfl⟩

/-- There is one order of painting. -/
theorem redrawOrder_unique {fuel fuel' g : Nat} {order order' : List Nat} (found : redrawOrder fuel σ g = some order)
    (found' : redrawOrder fuel' σ g = some order') : order = order' := by
  have more := redrawOrder_more (Nat.le_max_left fuel fuel') found
  rw [redrawOrder_more (Nat.le_max_right fuel fuel') found'] at more
  exact (Option.some.inj more).symm

/-- The order of painting exists. -/
theorem redrawOrder_returns (linked : σ.Linked) {fuel g : Nat} (isLive : g ∈ σ.live) (enough : σ.live.idxOf g < fuel) :
    ∃ order, redrawOrder fuel σ g = some order := by
  induction fuel generalizing g with
  | zero => exact absurd enough (Nat.not_lt_zero _)
  | succ fuel ih =>
      have each : ∀ child ∈ (σ.nodes g).children, ∃ order, redrawOrder fuel σ child = some order := by
        intro child isChild
        have lower := linked.rank isLive isChild
        exact ih (linked.child g isLive child isChild).1 (by omega)
      obtain ⟨orders, found⟩ : ∃ orders, (σ.nodes g).children.mapM (redrawOrder fuel σ) = some orders := by
        generalize (σ.nodes g).children = children at each
        induction children with
        | nil => exact ⟨[], rfl⟩
        | cons child children rest =>
            obtain ⟨own, first⟩ := each child List.mem_cons_self
            obtain ⟨orders, later⟩ := rest fun other isOther => each other (List.mem_cons_of_mem _ isOther)
            exact ⟨own :: orders, by rw [List.mapM_cons, first, later]; rfl⟩
      exact ⟨_, Option.map_eq_some_iff.mpr ⟨orders, found, rfl⟩⟩

/-- **Children of the screen are painted in their order.** -/
theorem paintedBefore_of_children (linked : σ.Linked) {first second : Nat}
    (before : [first, second].Sublist (σ.nodes σ.screen).children) : PaintedBefore σ first second := by
  obtain ⟨order, found⟩ := redrawOrder_returns linked linked.screenLive (Nat.lt_succ_self _)
  refine ⟨_, order, found, ?_⟩
  obtain ⟨orders, each, rfl⟩ := Option.map_eq_some_iff.mp found
  exact (before.trans (sublist_flatten_of_mapM (fun _ _ => redrawOrder_head) _ each)).cons _

end GraphicsStore

variable {ω ω' : WindowSystem}

namespace WindowSystem

/-! ### The topmost window -/

/-- A point of the screen. -/
def OnScreen (ω : WindowSystem) (x y : BitVec 64) : Prop :=
  x.toNat < ω.screenInfo.width.toNat ∧ y.toNat < ω.screenInfo.height.toNat

/-- The rectangle of a root graphics contains a point. -/
def Covers (root : GraphicsInfo) (x y : BitVec 64) : Prop := (x.toNat, y.toNat) ∈ root.rect.area

/-- **The topmost window at a point**, other than the ignored one: its root is painted after those of all others that
contain the point. -/
structure TopmostAt (ω : WindowSystem) (x y : BitVec 64) (ignoreWindow win : Nat) : Prop where
  inVector : win ∈ ω.windowsVector
  notIgnored : win ≠ ignoreWindow
  covers : Covers (ω.root win) x y
  last : ∀ other ∈ ω.windowsVector, other ≠ ignoreWindow → Covers (ω.root other) x y → other ≠ win →
    PaintedBefore ω.store (ω.windows other).rootGraphics (ω.windows win).rootGraphics

/-- **`window_get_at_position` finds the topmost window** at every point of the screen, or none when there is none. -/
def FindsTopmost (ω : WindowSystem) : Prop :=
  ∀ x y ignoreWindow, ω.OnScreen x y →
    let win := ω.windowGetAtPosition x y ignoreWindow
    win ≠ 0 ∧ ω.TopmostAt x y ignoreWindow win ∨
      win = 0 ∧ ∀ other ∈ ω.windowsVector, other ≠ ignoreWindow → ¬ Covers (ω.root other) x y

/-! ### What is kept -/

/-- A root has a point of the screen in common with a window. -/
def Meets (ω : WindowSystem) (root : GraphicsInfo) (other : Nat) : Prop :=
  ∃ x y, ω.OnScreen x y ∧ Covers root x y ∧ Covers (ω.root other) x y

/-- The position that is recorded of a window is not beyond its root, at the points of the screen. -/
def Recorded (ω : WindowSystem) (root : GraphicsInfo) (x y : BitVec 64) : Prop :=
  ∀ px py, ω.OnScreen px py → Covers root px py → x ≤ px ∧ y ≤ py

/-- A window whose root is a child of the screen, at the position that is recorded. -/
structure Drawn (ω : WindowSystem) (window : Nat) : Prop where
  nonnull : window ≠ 0
  rootChild : (ω.windows window).rootGraphics ∈ (ω.store.nodes ω.store.screen).children
  zindex : (ω.windows window).zindex = 0
  startingX : (ω.root window).startingX = (ω.windows window).x.setWidth 32
  startingY : (ω.root window).startingY = (ω.windows window).y.setWidth 32
  recorded : ω.Recorded (ω.root window) (ω.windows window).x (ω.windows window).y

/-- The older one of two windows that meet is painted later. -/
def Stacked (ω : WindowSystem) (older newer : Nat) : Prop :=
  ω.Meets (ω.root older) newer →
    [(ω.windows newer).rootGraphics, (ω.windows older).rootGraphics].Sublist (ω.store.nodes ω.store.screen).children

/-- What is kept of the windows, apart from the order. -/
structure Desktop (ω : WindowSystem) : Prop where
  linked : ω.store.Linked
  sorted : ω.store.SortedChildren
  originX : ω.screenInfo.startingX = 0
  originY : ω.screenInfo.startingY = 0
  distinct : ω.windowsVector.Nodup
  live : ∀ window ∈ ω.windowsVector, window ∈ ω.liveWindows
  drawn : ∀ window ∈ ω.windowsVector, ω.Drawn window
  roots : ∀ window ∈ ω.windowsVector, ∀ other ∈ ω.windowsVector,
    (ω.windows window).rootGraphics = (ω.windows other).rootGraphics → window = other

/-- **The stack**: of windows that meet, an older one is painted later. -/
structure StackKept (ω : WindowSystem) : Prop extends Desktop ω where
  stacked : ω.windowsVector.Pairwise ω.Stacked

/-- What `window_get_at_position` tests, as numbers. -/
theorem windowAt_iff (ω : WindowSystem) (x y : BitVec 64) (window : Nat) :
    ω.windowAt x y window = true ↔ ((ω.windows window).x ≤ x ∧ x.toNat < (ω.root window).rect.right) ∧
      (ω.windows window).y ≤ y ∧ y.toNat < (ω.root window).rect.bottom := by
  have endOf : ∀ start size : BitVec 32, (start.setWidth 64 + size.setWidth 64).toNat = start.toNat + size.toNat := by
    intro start size
    have startLt := start.isLt
    have sizeLt := size.isLt
    rw [BitVec.toNat_add, BitVec.toNat_setWidth, BitVec.toNat_setWidth]
    omega
  unfold WindowSystem.windowAt
  simp only [ge_iff_le, Bool.and_eq_true, decide_eq_true_eq]
  rw [BitVec.lt_def, endOf, BitVec.lt_def, endOf, and_assoc]
  exact Iff.rfl

/-- A recorded position that is hit is hit by the rectangle as well. -/
theorem Drawn.covers {window : Nat} (drawn : ω.Drawn window) {x y : BitVec 64}
    (hit : ω.windowAt x y window = true) : Covers (ω.root window) x y := by
  obtain ⟨⟨left, right⟩, top, bottom⟩ := (ω.windowAt_iff x y window).mp hit
  rw [BitVec.le_def] at left top
  refine ⟨⟨?_, right⟩, ?_, bottom⟩
  · change (ω.root window).startingX.toNat ≤ _
    rw [drawn.startingX, BitVec.toNat_setWidth]
    exact (Nat.mod_le _ _).trans left
  · change (ω.root window).startingY.toNat ≤ _
    rw [drawn.startingY, BitVec.toNat_setWidth]
    exact (Nat.mod_le _ _).trans top

/-- A rectangle that is hit on the screen is hit as it is recorded. -/
theorem Drawn.windowAt {window : Nat} (drawn : ω.Drawn window) {x y : BitVec 64} (onScreen : ω.OnScreen x y)
    (covers : Covers (ω.root window) x y) : ω.windowAt x y window = true := by
  obtain ⟨left, top⟩ := drawn.recorded x y onScreen covers
  obtain ⟨⟨-, right⟩, -, bottom⟩ := covers
  exact (ω.windowAt_iff x y window).mpr ⟨⟨left, right⟩, top, bottom⟩

/-- **A stack is searched from the top.** -/
theorem StackKept.findsTopmost (kept : ω.StackKept) : ω.FindsTopmost := by
  intro x y ignoreWindow onScreen
  have tested : ∀ other ∈ ω.windowsVector, other ≠ ignoreWindow → Covers (ω.root other) x y →
      (decide (other ≠ 0) && decide (other ≠ ignoreWindow) && ω.windowAt x y other) = true := by
    intro other inVector notIgnored covers
    have drawn := kept.drawn other inVector
    rw [decide_eq_true drawn.nonnull, decide_eq_true notIgnored, drawn.windowAt onScreen covers]
    rfl
  dsimp only
  unfold windowGetAtPosition
  cases found : ω.windowsVector.find? fun win => win ≠ 0 && win ≠ ignoreWindow && ω.windowAt x y win with
  | none =>
      refine .inr ⟨rfl, fun other inVector notIgnored covers => ?_⟩
      exact List.find?_eq_none.mp found other inVector (tested other inVector notIgnored covers)
  | some win =>
      obtain ⟨hit, before, after, parts, missed⟩ := List.find?_eq_some_iff_append.mp found
      simp only [Bool.and_eq_true, decide_eq_true_eq] at hit
      obtain ⟨⟨nonnull, notIgnored⟩, isAt⟩ := hit
      have inVector : win ∈ ω.windowsVector := List.mem_of_find?_eq_some found
      have covers := (kept.drawn win inVector).covers isAt
      refine .inl ⟨nonnull, inVector, notIgnored, covers, fun other otherIn otherNot otherCovers different => ?_⟩
      have stacked := kept.stacked
      rw [parts] at stacked otherIn
      rcases List.mem_append.mp otherIn with isBefore | isAfter
      · have miss := missed other isBefore
        rw [Bool.not_eq_true', ← Bool.not_eq_true] at miss
        refine absurd (tested other ?_ otherNot otherCovers) miss
        rw [parts]
        exact List.mem_append_left _ isBefore
      · have isNewer := (List.mem_cons.mp isAfter).resolve_left different
        have order := (List.pairwise_cons.mp (List.pairwise_append.mp stacked).2.1).1 other isNewer
        exact paintedBefore_of_children kept.linked (order ⟨x, y, onScreen, covers, otherCovers⟩)

end WindowSystem

end PeachOS
