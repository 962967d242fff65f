/-
**Windows in a stack: `window_focus`, `window_close`, `window_position_set`.**

The order of the screen's children, which z indices sort, changes with every call. The vector of windows is sorted by
indices that nothing writes: it stays the order of creation. So a window may go to the top only where it covers no older
one.

* `windowsVector_fixed` — the vector of windows is never reordered;
* `Stackable`, `StackAmong.fit` — a z index that fits one window into a stack of the others;
* `StackKept.focus`, `StackKept.close`, `StackKept.positionSet` — what keeps a stack.
-/

import PeachOS.Graphics.Free
import PeachOS.Window.Focus
import PeachOS.Window.Topmost

namespace PeachOS

open BubbleSort GraphicsStore

namespace GraphicsStore

variable {σ σ' : GraphicsStore}

/-! ### The last child of the screen -/

theorem placeRoot_children (σ : GraphicsStore) (rootGraphics : Nat) (position : BitVec 64 × BitVec 64)
    (graphics : Nat) :
    ((σ.placeRoot rootGraphics position).nodes graphics).children = (σ.nodes graphics).children := by
  by_cases isRoot : graphics = rootGraphics
  · unfold placeRoot
    rw [isRoot, setNode_self]
  · rw [placeRoot_of_ne isRoot]

theorem placeRoot_zIndex (σ : GraphicsStore) (rootGraphics : Nat) (position : BitVec 64 × BitVec 64)
    (graphics : Nat) :
    ((σ.placeRoot rootGraphics position).nodes graphics).zIndex = (σ.nodes graphics).zIndex := by
  by_cases isRoot : graphics = rootGraphics
  · unfold placeRoot
    rw [isRoot, setNode_self]
  · rw [placeRoot_of_ne isRoot]


/-- The z index of the screen's last child. -/
def lastZIndex (σ : GraphicsStore) : BitVec 32 :=
  match (σ.nodes σ.screen).children.getLast? with
  | none => 0
  | some last => (σ.nodes last).zIndex

/-- `window_bring_to_top` sets one more. -/
theorem windowBringToTop_lastZIndex (linked : σ.Linked) (rootGraphics : Nat) :
    σ.windowBringToTop rootGraphics = σ.graphicsSetZIndex rootGraphics (σ.lastZIndex + 1) := by
  unfold lastZIndex
  cases isLast : (σ.nodes σ.screen).children.getLast? with
  | none =>
      unfold GraphicsStore.windowBringToTop
      rw [isLast]
      rfl
  | some last => exact windowBringToTop_eq linked isLast rootGraphics

/-- No child of the screen has a larger one. -/
theorem le_lastZIndex (linked : σ.Linked) (sorted : σ.SortedChildren) {child : Nat}
    (isChild : child ∈ (σ.nodes σ.screen).children) : (σ.nodes child).zIndex.toNat ≤ σ.lastZIndex.toNat := by
  unfold lastZIndex
  cases isLast : (σ.nodes σ.screen).children.getLast? with
  | none =>
      rw [List.getLast?_eq_none_iff.mp isLast] at isChild
      exact absurd isChild List.not_mem_nil
  | some last => exact zIndex_le_last (sorted _ linked.screenLive) isLast child isChild

/-- A child of the screen has it, unless there is none. -/
theorem lastZIndex_cases (σ : GraphicsStore) :
    σ.lastZIndex = 0 ∨ ∃ child ∈ (σ.nodes σ.screen).children, σ.lastZIndex = (σ.nodes child).zIndex := by
  unfold lastZIndex
  cases isLast : (σ.nodes σ.screen).children.getLast? with
  | none => exact .inl rfl
  | some last => exact .inr ⟨last, List.mem_of_getLast? isLast, rfl⟩

theorem placeRoot_lastZIndex (σ : GraphicsStore) (rootGraphics : Nat) (position : BitVec 64 × BitVec 64) :
    (σ.placeRoot rootGraphics position).lastZIndex = σ.lastZIndex := by
  unfold lastZIndex
  change (match ((σ.placeRoot rootGraphics position).nodes σ.screen).children.getLast? with
    | none => 0
    | some last => ((σ.placeRoot rootGraphics position).nodes last).zIndex) = _
  simp only [placeRoot_children, placeRoot_zIndex]

end GraphicsStore

variable {ω ω' : WindowSystem}

namespace WindowSystem

/-! ### The vector of windows -/

/-- **The vector of windows is never reordered**: no index was set. -/
theorem windowsVector_fixed {windows : List Nat} (unset : ∀ window ∈ windows, (ω.windows window).zindex = 0) :
    vectorReorder ω.windowReorder windows = windows := by
  refine vectorReorder_of_sorted (List.pairwise_of_forall_mem_list fun first isIn second isIn' => ?_)
  unfold windowReorder
  rw [unset first isIn, unset second isIn']
  rfl

/-- One window was created before another one. -/
def Older (ω : WindowSystem) (older newer : Nat) : Prop := [older, newer].Sublist ω.windowsVector

theorem Older.left {older newer : Nat} (before : ω.Older older newer) : older ∈ ω.windowsVector :=
  List.Sublist.subset before List.mem_cons_self

theorem Older.right {older newer : Nat} (before : ω.Older older newer) : newer ∈ ω.windowsVector :=
  List.Sublist.subset before (List.mem_cons_of_mem _ List.mem_cons_self)

theorem Meets.symm {window other : Nat} (meets : ω.Meets (ω.root window) other) :
    ω.Meets (ω.root other) window := by
  obtain ⟨x, y, onScreen, first, second⟩ := meets
  exact ⟨x, y, onScreen, second, first⟩

/-- Windows meet where they met. -/
theorem Meets.congr {root : GraphicsInfo} {other : Nat} (meets : ω'.Meets root other)
    (screenInfo : ω'.screenInfo = ω.screenInfo) (same : ω'.root other = ω.root other) : ω.Meets root other := by
  obtain ⟨x, y, onScreen, covers, covers'⟩ := meets
  unfold OnScreen at onScreen
  rw [screenInfo] at onScreen
  rw [same] at covers'
  exact ⟨x, y, onScreen, covers, covers'⟩

/-- **A stack of some of the windows.** -/
structure StackAmong (ω : WindowSystem) (among : Nat → Prop) : Prop extends Desktop ω where
  stacked : ∀ older newer, ω.Older older newer → among older → among newer → ω.Stacked older newer

theorem StackKept.among (kept : ω.StackKept) (among : Nat → Prop) : ω.StackAmong among :=
  ⟨kept.toDesktop, fun _ _ before _ _ => (List.pairwise_iff_forall_sublist.mp kept.stacked) before⟩

theorem StackAmong.all (kept : ω.StackAmong fun _ => True) : ω.StackKept :=
  ⟨kept.toDesktop, List.pairwise_iff_forall_sublist.mpr fun before => kept.stacked _ _ before trivial trivial⟩

/-- **The same windows, or fewer**, at the same places. -/
structure SameRoots (ω ω' : WindowSystem) : Prop where
  vector : ω'.windowsVector.Sublist ω.windowsVector
  live : ∀ window ∈ ω'.windowsVector, window ∈ ω'.liveWindows
  windows : ∀ window ∈ ω'.windowsVector, ω'.windows window = ω.windows window
  screenInfo : ω'.screenInfo = ω.screenInfo
  roots : ∀ window ∈ ω'.windowsVector, ω'.root window = ω.root window
  children : ∀ window ∈ ω'.windowsVector,
    (ω.windows window).rootGraphics ∈ (ω'.store.nodes ω'.store.screen).children
  linked : ω'.store.Linked
  sorted : ω'.store.SortedChildren

/-- A window stays where it is drawn. -/
theorem Drawn.congr {window : Nat} (drawn : ω.Drawn window) (record : ω'.windows window = ω.windows window)
    (screenInfo : ω'.screenInfo = ω.screenInfo) (root : ω'.root window = ω.root window)
    (isChild : (ω.windows window).rootGraphics ∈ (ω'.store.nodes ω'.store.screen).children) : ω'.Drawn window := by
  refine ⟨drawn.nonnull, ?_, ?_, ?_, ?_, fun x y onScreen covers => ?_⟩
  · rw [record]; exact isChild
  · rw [record]; exact drawn.zindex
  · rw [root, record]; exact drawn.startingX
  · rw [root, record]; exact drawn.startingY
  · unfold OnScreen at onScreen
    rw [screenInfo] at onScreen
    rw [root] at covers
    rw [record]
    exact drawn.recorded x y onScreen covers

theorem SameRoots.desktop (same : SameRoots ω ω') (desktop : ω.Desktop) : ω'.Desktop where
  linked := same.linked
  sorted := same.sorted
  originX := same.screenInfo ▸ desktop.originX
  originY := same.screenInfo ▸ desktop.originY
  distinct := desktop.distinct.sublist same.vector
  live := same.live
  drawn window inVector := (desktop.drawn window (same.vector.subset inVector)).congr (same.windows window inVector)
    same.screenInfo (same.roots window inVector) (same.children window inVector)
  roots window inVector other otherIn sameRoot := by
    rw [same.windows window inVector, same.windows other otherIn] at sameRoot
    exact desktop.roots window (same.vector.subset inVector) other (same.vector.subset otherIn) sameRoot

/-- **The same windows in the same order are a stack.** -/
theorem SameRoots.keeps {among : Nat → Prop} (same : SameRoots ω ω') (kept : ω.StackAmong among)
    (order : ∀ first ∈ ω'.windowsVector, ∀ second ∈ ω'.windowsVector, among first → among second →
      [(ω.windows first).rootGraphics, (ω.windows second).rootGraphics].Sublist
        (ω.store.nodes ω.store.screen).children →
      [(ω.windows first).rootGraphics, (ω.windows second).rootGraphics].Sublist
        (ω'.store.nodes ω'.store.screen).children) : ω'.StackAmong among := by
  refine ⟨same.desktop kept.toDesktop, fun older newer before isOlder isNewer meets => ?_⟩
  have wasBefore : ω.Older older newer := List.Sublist.trans before same.vector
  rw [same.windows older before.left, same.windows newer before.right]
  refine order newer before.right older before.left isNewer isOlder ?_
  rw [same.roots older before.left] at meets
  exact kept.stacked older newer wasBefore isOlder isNewer
    (meets.congr same.screenInfo (same.roots newer before.right))

/-! ### One window at a new z index -/

/-- The z index of the root of a window. -/
def rootZIndex (ω : WindowSystem) (window : Nat) : BitVec 32 := (ω.store.nodes (ω.windows window).rootGraphics).zIndex

/-- **A root with a z index** is painted before the older windows that it meets, and after the newer ones. -/
structure Stackable (ω : WindowSystem) (window : Nat) (root : GraphicsInfo) (zIndex : BitVec 32) : Prop where
  older : ∀ other, ω.Older other window → ω.Meets root other → zIndex < ω.rootZIndex other
  newer : ∀ other, ω.Older window other → ω.Meets root other → ω.rootZIndex other < zIndex

/-- The other windows are a stack, and one fits in. -/
theorem StackAmong.finish {window : Nat} (kept : ω.StackAmong (· ≠ window))
    (fits : ω.Stackable window (ω.root window) (ω.rootZIndex window)) : ω.StackKept := by
  refine StackAmong.all ⟨kept.toDesktop, fun older newer before _ _ meets => ?_⟩
  have order := graphicsReorder_isOrder ω.store
  have sorted := kept.sorted _ kept.linked.screenLive
  have newerChild := (kept.drawn newer before.right).rootChild
  have olderChild := (kept.drawn older before.left).rootChild
  by_cases isOlder : older = window
  · subst isOlder
    exact sorted.before order newerChild olderChild (decide_eq_true (fits.newer newer before meets))
  · by_cases isNewer : newer = window
    · subst isNewer
      exact sorted.before order newerChild olderChild (decide_eq_true (fits.older older before meets.symm))
    · exact kept.stacked older newer before isOlder isNewer meets

theorem Older.ne {older newer : Nat} (before : ω.Older older newer) (distinct : ω.windowsVector.Nodup) :
    older ≠ newer := by
  have pair := distinct.sublist before
  exact fun same => (List.nodup_cons.mp pair).1 (same ▸ List.mem_cons_self)

/-- The windows after a z index of a root. -/
def withZIndex (ω : WindowSystem) (window : Nat) (zIndex : BitVec 32) : WindowSystem :=
  { ω with store := ω.store.graphicsSetZIndex (ω.windows window).rootGraphics zIndex }

theorem Desktop.withZIndex_same (desktop : ω.Desktop) (window : Nat) (zIndex : BitVec 32) :
    SameRoots ω (ω.withZIndex window zIndex) := by
  have same := SameTree.graphicsSetZIndex ω.store (ω.windows window).rootGraphics zIndex
  refine ⟨List.Sublist.refl _, desktop.live, fun _ _ => rfl, ?_, fun _ _ => (same.nodes _).info, ?_,
    desktop.linked.sameTree same, ?_⟩
  · unfold screenInfo withZIndex
    rw [same.screen, (same.nodes _).info]
  · intro other inVector
    unfold withZIndex
    rw [same.screen]
    exact (same.nodes _).children.symm.subset (desktop.drawn other inVector).rootChild
  · exact graphicsSetZIndex_sorted desktop.linked zIndex fun other isLive _ => desktop.sorted other isLive

/-- The others stay a stack. -/
theorem StackAmong.withZIndex {window : Nat} (kept : ω.StackAmong (· ≠ window)) (inVector : window ∈ ω.windowsVector)
    (zIndex : BitVec 32) : (ω.withZIndex window zIndex).StackAmong (· ≠ window) := by
  refine (kept.withZIndex_same window zIndex).keeps kept fun first firstIn second secondIn isNot isNot' before => ?_
  unfold WindowSystem.withZIndex
  rw [(SameTree.graphicsSetZIndex _ _ _).screen]
  refine graphicsSetZIndex_keepsOthers kept.sorted kept.linked.screenLive before ?_ ?_
  · exact fun same => isNot (kept.roots first firstIn window inVector same)
  · exact fun same => isNot' (kept.roots second secondIn window inVector same)

/-- What fits a root in does not depend on the index that it has. -/
theorem Stackable.withZIndex {window : Nat} (desktop : ω.Desktop) (inVector : window ∈ ω.windowsVector)
    {zIndex : BitVec 32} (fits : ω.Stackable window (ω.root window) zIndex) (other : BitVec 32) :
    (ω.withZIndex window other).Stackable window ((ω.withZIndex window other).root window) zIndex := by
  have same := desktop.withZIndex_same window other
  have others : ∀ win ∈ ω.windowsVector, win ≠ window →
      (ω.withZIndex window other).rootZIndex win = ω.rootZIndex win := by
    intro win isIn isNot
    unfold rootZIndex WindowSystem.withZIndex
    rw [graphicsSetZIndex_zIndex, if_neg fun sameRoot => isNot (desktop.roots win isIn window inVector sameRoot)]
  have met : ∀ win ∈ ω.windowsVector,
      (ω.withZIndex window other).Meets ((ω.withZIndex window other).root window) win → ω.Meets (ω.root window) win := by
    intro win isIn meets
    rw [same.roots window inVector] at meets
    exact meets.congr same.screenInfo (same.roots win isIn)
  refine ⟨fun win before meets => ?_, fun win before meets => ?_⟩
  · rw [others win before.left (before.ne desktop.distinct)]
    exact fits.older win before (met win before.left meets)
  · rw [others win before.right (before.ne desktop.distinct).symm]
    exact fits.newer win before (met win before.right meets)

/-- **A z index that fits the root in.** -/
theorem StackAmong.fit {window : Nat} (kept : ω.StackAmong (· ≠ window)) (inVector : window ∈ ω.windowsVector)
    {zIndex : BitVec 32} (fits : ω.Stackable window (ω.root window) zIndex) :
    (ω.withZIndex window zIndex).StackKept := by
  have own : (ω.withZIndex window zIndex).rootZIndex window = zIndex := by
    unfold rootZIndex WindowSystem.withZIndex
    rw [graphicsSetZIndex_zIndex, if_pos rfl]
  refine (kept.withZIndex inVector zIndex).finish ?_
  rw [own]
  exact fits.withZIndex kept.toDesktop inVector zIndex

/-! ### The focus -/

theorem Desktop.reorder (desktop : ω.Desktop) : ω.reorderWindows = ω := by
  unfold reorderWindows
  rw [windowsVector_fixed fun window inVector => (desktop.drawn window inVector).zindex]

/-- It does not matter which window has the focus. -/
theorem StackKept.setFocus (kept : ω.StackKept) (focusedWindow : Nat) :
    StackKept { ω with focusedWindow := focusedWindow } := by
  have same : SameRoots ω { ω with focusedWindow := focusedWindow } :=
    ⟨List.Sublist.refl _, kept.live, fun _ _ => rfl, rfl, fun _ _ => rfl,
      fun window inVector => (kept.drawn window inVector).rootChild, kept.linked, kept.sorted⟩
  exact (same.keeps (kept.among _) fun _ _ _ _ _ _ before => before).all

theorem Desktop.windowSetZIndex (desktop : ω.Desktop) (window : Nat) (zIndex : BitVec 32) :
    ω.windowSetZIndex window zIndex = ω.withZIndex window zIndex :=
  ((desktop.withZIndex_same window zIndex).desktop desktop).reorder

/-- What the focus does to another window. -/
theorem Desktop.windowFocus (desktop : ω.Desktop) {window : Nat} (nonnull : window ≠ 0)
    (isNot : ω.focusedWindow ≠ window) :
    ω.windowFocus window = { ω.withZIndex window (ω.store.lastZIndex + 1) with focusedWindow := window } := by
  have fixed := ((desktop.withZIndex_same window (ω.store.lastZIndex + 1)).desktop desktop).reorder
  unfold WindowSystem.windowFocus WindowSystem.windowBringToTop
  rw [if_neg nonnull, if_neg isNot, windowBringToTop_lastZIndex desktop.linked]
  exact congrArg (fun ω : WindowSystem => { ω with focusedWindow := window }) fixed

/-- A window that has the focus keeps it. -/
theorem windowFocus_of_focused {window : Nat} (focused : ω.focusedWindow = window) : ω.windowFocus window = ω := by
  unfold WindowSystem.windowFocus
  rw [if_pos focused, ite_self]

/-- **`window_focus` keeps the stack.** -/
theorem StackKept.focus (kept : ω.StackKept) {window : Nat} (inVector : window ∈ ω.windowsVector)
    (fits : ω.focusedWindow = window ∨ ω.Stackable window (ω.root window) (ω.store.lastZIndex + 1)) :
    (ω.windowFocus window).StackKept := by
  have nonnull := (kept.drawn window inVector).nonnull
  by_cases focused : ω.focusedWindow = window
  · rw [windowFocus_of_focused focused]
    exact kept
  · rw [kept.windowFocus nonnull focused]
    exact ((kept.among _).fit inVector (fits.resolve_left focused)).setFocus window

/-! ### Closing -/

theorem Desktop.held (desktop : ω.Desktop) {window : Nat} (inVector : window ∈ ω.windowsVector) :
    ω.store.Held (ω.windows window).rootGraphics :=
  desktop.linked.held_child desktop.linked.screenLive (desktop.drawn window inVector).rootChild

theorem Desktop.rootParent (desktop : ω.Desktop) {window : Nat} (inVector : window ∈ ω.windowsVector) :
    (ω.store.nodes (ω.windows window).rootGraphics).parent = ω.store.screen :=
  (desktop.linked.child _ desktop.linked.screenLive _ (desktop.drawn window inVector).rootChild).2

theorem Desktop.root_notScreen (desktop : ω.Desktop) {window : Nat} (inVector : window ∈ ω.windowsVector) :
    (ω.windows window).rootGraphics ≠ ω.store.screen :=
  desktop.linked.child_notScreen desktop.linked.screenLive (desktop.drawn window inVector).rootChild

/-- The root of a window is not below another one's. -/
theorem Desktop.root_notBelow (desktop : ω.Desktop) {window other : Nat} (inVector : window ∈ ω.windowsVector)
    (otherIn : other ∈ ω.windowsVector) (different : other ≠ window) :
    ¬ Below ω.store (ω.windows window).rootGraphics (ω.windows other).rootGraphics := by
  have differentRoots : (ω.windows other).rootGraphics ≠ (ω.windows window).rootGraphics :=
    fun same => different (desktop.roots other otherIn window inVector same)
  exact desktop.linked.siblings_apart desktop.linked.screenLive (desktop.drawn window inVector).rootChild
    (desktop.drawn other otherIn).rootChild differentRoots

/-- **`window_close` keeps the stack.** -/
theorem StackKept.close (kept : ω.StackKept) {fuel window : Nat} (inVector : window ∈ ω.windowsVector)
    (done : ω.windowClose fuel window = some ω') : ω'.StackKept := by
  obtain ⟨freed, windows, vector, live, -, -⟩ := windowFree_windows done
  have held := kept.held inVector
  have once := graphicsInfoFree_spec kept.linked (.inr held) freed
  have sublist : ω'.windowsVector.Sublist ω.windowsVector := vector ▸ List.erase_sublist
  have remains : ∀ other ∈ ω'.windowsVector, other ≠ window := by
    intro other otherIn
    rw [vector, kept.distinct.mem_erase_iff] at otherIn
    exact otherIn.1
  have screenNode : ω'.store.nodes ω'.store.screen = { ω.store.nodes ω.store.screen with
      children := (ω.store.nodes ω.store.screen).children.erase (ω.windows window).rootGraphics } := by
    have parent := once.parent held
    rw [kept.rootParent inVector] at parent
    rw [once.fewer.screen, parent]
  have order : ∀ roots : List Nat, (ω.windows window).rootGraphics ∉ roots →
      roots.Sublist (ω.store.nodes ω.store.screen).children →
      roots.Sublist (ω'.store.nodes ω'.store.screen).children := by
    intro roots notIn before
    rw [screenNode, ← List.erase_of_not_mem notIn]
    exact before.erase _
  have rootNot : ∀ other ∈ ω'.windowsVector, (ω.windows window).rootGraphics ≠ (ω.windows other).rootGraphics :=
    fun other otherIn same =>
      remains other otherIn (kept.roots window inVector other (sublist.subset otherIn) same).symm
  have same : SameRoots ω ω' := by
    refine ⟨sublist, fun other otherIn => ?_, fun _ _ => by rw [windows], ?_, fun other otherIn => ?_,
      fun other otherIn => ?_, once.linked, fun graphics isLive => ?_⟩
    · rw [live]
      exact (List.mem_erase_of_ne (remains other otherIn)).mpr (kept.live other (sublist.subset otherIn))
    · unfold screenInfo
      rw [screenNode]
    · have wasIn := sublist.subset otherIn
      unfold root
      rw [windows, once.others _ (kept.root_notBelow inVector wasIn (remains other otherIn))]
      rw [kept.rootParent inVector]
      exact kept.root_notScreen wasIn
    · refine List.singleton_sublist.mp (order _ ?_ (List.singleton_sublist.mpr ?_))
      · exact fun isIn => rootNot other otherIn (List.mem_singleton.mp isIn)
      · exact (kept.drawn other (sublist.subset otherIn)).rootChild
    · refine sorted_congr (σ := ω.store) (fun child _ => once.fewer.zIndex child) ?_
      exact (kept.sorted graphics (once.fewer.live.subset isLive)).sublist (once.fewer.nodes graphics).children
  refine (same.keeps (kept.among _) fun first firstIn second secondIn _ _ before => order _ (fun isIn => ?_) before).all
  rcases List.mem_cons.mp isIn with isFirst | isSecond
  · exact rootNot first firstIn isFirst
  · exact rootNot second secondIn (List.mem_singleton.mp isSecond)

/-! ### Moving -/

/-- The root of a window at a position. -/
def rootAt (ω : WindowSystem) (window : Nat) (position : BitVec 64 × BitVec 64) : GraphicsInfo :=
  { ω.root window with startingX := position.1.setWidth 32, startingY := position.2.setWidth 32 }

/-- The windows after a position was written, before the window is brought to the top. -/
def withPosition (ω : WindowSystem) (window : Nat) (position : BitVec 64 × BitVec 64) : WindowSystem :=
  { ω with store := ω.store.placeRoot (ω.windows window).rootGraphics position }.setWindow window
    { ω.windows window with x := position.1, y := position.2 }

theorem withPosition_windows (ω : WindowSystem) (window : Nat) (position : BitVec 64 × BitVec 64) (other : Nat) :
    (ω.withPosition window position).windows other = { ω.windows other with
      x := if other = window then position.1 else (ω.windows other).x
      y := if other = window then position.2 else (ω.windows other).y } := by
  unfold withPosition setWindow
  dsimp only
  by_cases isIt : other = window
  · rw [isIt, Function.update_self, if_pos rfl, if_pos rfl]
  · rw [Function.update_of_ne isIt, if_neg isIt, if_neg isIt]

/-- **The window is at its new position, the others are a stack.** -/
theorem StackKept.withPosition (kept : ω.StackKept) {window : Nat} (inVector : window ∈ ω.windowsVector)
    {position : BitVec 64 × BitVec 64} (recorded : ω.Recorded (ω.rootAt window position) position.1 position.2) :
    (ω.withPosition window position).StackAmong (· ≠ window) ∧
      (ω.withPosition window position).root window = ω.rootAt window position := by
  have links := placeRoot_links ω.store (ω.windows window).rootGraphics position
  have sameRoot : ∀ other, ((ω.withPosition window position).windows other).rootGraphics =
      (ω.windows other).rootGraphics := fun other => by rw [withPosition_windows]
  have record : ∀ other, other ≠ window → (ω.withPosition window position).windows other = ω.windows other := by
    intro other isNot
    rw [withPosition_windows, if_neg isNot, if_neg isNot]
  have screenNode : (ω.withPosition window position).store.nodes ω.store.screen = ω.store.nodes ω.store.screen :=
    placeRoot_of_ne (kept.root_notScreen inVector).symm _ _
  have sameScreen : (ω.withPosition window position).screenInfo = ω.screenInfo :=
    congrArg GraphicsNode.info screenNode
  have own : (ω.withPosition window position).root window = ω.rootAt window position := by
    unfold root
    rw [sameRoot]
    unfold WindowSystem.withPosition placeRoot
    change GraphicsNode.info ((ω.store.setNode _ _).nodes _) = _
    rw [setNode_self]
    rfl
  have others : ∀ other ∈ ω.windowsVector, other ≠ window → (ω.withPosition window position).root other = ω.root other := by
    intro other otherIn isNot
    unfold root
    rw [sameRoot]
    exact congrArg GraphicsNode.info
      (placeRoot_of_ne (fun same => isNot (kept.roots other otherIn window inVector same)) _ _)
  refine ⟨⟨⟨kept.linked.sameLinks links, fun graphics isLive => ?_, sameScreen ▸ kept.originX, sameScreen ▸ kept.originY,
    kept.distinct, kept.live, fun other otherIn => ?_, fun first firstIn second secondIn same => ?_⟩,
    fun older newer before isOlder isNewer meets => ?_⟩, own⟩
  · have zIndex : ∀ other, ((ω.withPosition window position).store.nodes other).zIndex =
        (ω.store.nodes other).zIndex := fun other => placeRoot_zIndex _ _ _ other
    rw [show ((ω.withPosition window position).store.nodes graphics).children = (ω.store.nodes graphics).children from
      placeRoot_children _ _ _ graphics]
    exact sorted_congr (fun child _ => zIndex child) (kept.sorted graphics (links.live ▸ isLive))
  · by_cases isIt : other = window
    · subst isIt
      have drawn := kept.drawn other inVector
      refine ⟨drawn.nonnull, ?_, ?_, ?_, ?_, ?_⟩
      · rw [sameRoot]
        exact screenNode ▸ drawn.rootChild
      · rw [withPosition_windows]
        exact drawn.zindex
      · rw [own, withPosition_windows, if_pos rfl]
        rfl
      · rw [own, withPosition_windows, if_pos rfl, if_pos rfl]
        rfl
      · rw [own, withPosition_windows, if_pos rfl, if_pos rfl]
        intro x y onScreen covers
        unfold OnScreen at onScreen
        rw [sameScreen] at onScreen
        exact recorded x y onScreen covers
    · have drawn := kept.drawn other otherIn
      refine drawn.congr (record other isIt) sameScreen (others other otherIn isIt) ?_
      exact screenNode ▸ drawn.rootChild
  · rw [sameRoot, sameRoot] at same
    exact kept.roots first firstIn second secondIn same
  · rw [sameRoot, sameRoot]
    rw [others older before.left isOlder] at meets
    change List.Sublist _ ((ω.withPosition window position).store.nodes ω.store.screen).children
    rw [screenNode]
    exact (kept.among fun _ => True).stacked older newer before trivial trivial
      (meets.congr sameScreen (others newer before.right isNewer))

/-- The others stay where they are. -/
theorem StackKept.withPosition_same (kept : ω.StackKept) {window : Nat} (inVector : window ∈ ω.windowsVector)
    (position : BitVec 64 × BitVec 64) :
    (ω.withPosition window position).screenInfo = ω.screenInfo ∧ ∀ other ∈ ω.windowsVector, other ≠ window →
      (ω.withPosition window position).root other = ω.root other ∧
        (ω.withPosition window position).rootZIndex other = ω.rootZIndex other := by
  refine ⟨congrArg GraphicsNode.info (placeRoot_of_ne (kept.root_notScreen inVector).symm _ _),
    fun other otherIn isNot => ?_⟩
  have notRoot : (ω.windows other).rootGraphics ≠ (ω.windows window).rootGraphics :=
    fun same => isNot (kept.roots other otherIn window inVector same)
  have node : (ω.withPosition window position).store.nodes (ω.windows other).rootGraphics =
      ω.store.nodes (ω.windows other).rootGraphics := placeRoot_of_ne notRoot _ _
  unfold root rootZIndex
  rw [withPosition_windows]
  dsimp only
  rw [node]
  exact ⟨rfl, rfl⟩

/-- **A recalculation of a root that is in its place** leaves all roots where they are. -/
theorem Desktop.recalculated_same (desktop : ω.Desktop) {window : Nat} (inVector : window ∈ ω.windowsVector)
    {store : GraphicsStore} (done : Recalculated ω.store (ω.windows window).rootGraphics store)
    (isAtX : (ω.root window).startingX = (ω.store.nodes (ω.windows window).rootGraphics).relativeX)
    (isAtY : (ω.root window).startingY = (ω.store.nodes (ω.windows window).rootGraphics).relativeY) :
    SameRoots ω { ω with store := store } := by
  have links := done.moved.links
  have zIndex : ∀ graphics, (store.nodes graphics).zIndex = (ω.store.nodes graphics).zIndex :=
    fun graphics => by rw [(done.moved.nodes graphics).moved]
  have children : ∀ graphics, (store.nodes graphics).children = (ω.store.nodes graphics).children :=
    fun graphics => by rw [(done.moved.nodes graphics).moved]
  have screenInfo : (store.nodes ω.store.screen).info = ω.screenInfo := congrArg GraphicsNode.info done.screen
  refine ⟨List.Sublist.refl _, desktop.live, fun _ _ => rfl, ?_, fun other otherIn => ?_, fun other otherIn => ?_,
    desktop.linked.sameLinks links, fun graphics isLive => ?_⟩
  · change (store.nodes store.screen).info = _
    rw [done.moved.screen, screenInfo]
  · by_cases isIt : other = window
    · subst isIt
      have placed := done.placed _ (desktop.root_notScreen otherIn) .self
      have moved := (done.moved.nodes (ω.windows other).rootGraphics).moved
      have parent := links.parent (ω.windows other).rootGraphics
      rw [desktop.rootParent otherIn] at parent
      change (store.nodes (ω.windows other).rootGraphics).info = _
      rw [moved]
      dsimp only
      rw [placed.x, placed.y, parent, screenInfo, desktop.originX, desktop.originY, done.moved.relativeX,
        done.moved.relativeY, ← isAtX, ← isAtY]
      exact congrArg₂ (fun x y => { ω.root other with startingX := x, startingY := y }) (BitVec.add_zero _)
        (BitVec.add_zero _)
    · exact congrArg GraphicsNode.info (done.others _ (desktop.root_notBelow inVector otherIn isIt))
  · change _ ∈ (store.nodes store.screen).children
    rw [done.moved.screen, children]
    exact (desktop.drawn other otherIn).rootChild
  · change Sorted _ (store.nodes graphics).children
    rw [children]
    exact sorted_congr (fun child _ => zIndex child) (desktop.sorted graphics (links.live ▸ isLive))

theorem Desktop.windowBringToTop (desktop : ω.Desktop) (window : Nat) :
    ω.windowBringToTop window = ω.withZIndex window (ω.store.lastZIndex + 1) := by
  unfold WindowSystem.windowBringToTop
  rw [windowBringToTop_lastZIndex desktop.linked]
  exact ((desktop.withZIndex_same window _).desktop desktop).reorder

/-- **`window_position_set` keeps the stack.** -/
theorem StackKept.positionSet (kept : ω.StackKept) {fuel window : Nat} (inVector : window ∈ ω.windowsVector)
    {newX newY : BitVec 64} (done : ω.windowPositionSet fuel window newX newY = some ω')
    {position : BitVec 64 × BitVec 64} (isPosition : position = windowPosition ω.screenInfo (ω.windows window) newX newY)
    (recorded : ω.Recorded (ω.rootAt window position) position.1 position.2)
    (fits : ω.Stackable window (ω.rootAt window position) (ω.store.lastZIndex + 1)) : ω'.StackKept := by
  obtain ⟨others, own⟩ := kept.withPosition inVector recorded
  obtain ⟨screenInfo, same⟩ := kept.withPosition_same inVector position
  have last : (ω.withPosition window position).store.lastZIndex = ω.store.lastZIndex :=
    placeRoot_lastZIndex _ _ _
  have fits' : (ω.withPosition window position).Stackable window ((ω.withPosition window position).root window)
      ((ω.withPosition window position).store.lastZIndex + 1) := by
    rw [own, last]
    refine ⟨fun other before meets => ?_, fun other before meets => ?_⟩
    · obtain ⟨root, zIndex⟩ := same other before.left (before.ne kept.distinct)
      rw [zIndex]
      exact fits.older other before (meets.congr screenInfo root)
    · obtain ⟨root, zIndex⟩ := same other before.right (before.ne kept.distinct).symm
      rw [zIndex]
      exact fits.newer other before (meets.congr screenInfo root)
  have raised := others.fit inVector fits'
  have unfolded : ω.windowPositionSet fuel window newX newY =
      (graphicsInfoRecalculate fuel ((ω.withPosition window position).windowBringToTop window).store
        (ω.windows window).rootGraphics).map fun store =>
          { (ω.withPosition window position).windowBringToTop window with store := store } := by
    rw [isPosition]
    rfl
  rw [unfolded, others.windowBringToTop] at done
  obtain ⟨store, recalculated, rfl⟩ := Option.map_eq_some_iff.mp done
  generalize (ω.withPosition window position).store.lastZIndex + 1 = zIndex at *
  have sameRoot : (((ω.withPosition window position).withZIndex window zIndex).windows window).rootGraphics =
      (ω.windows window).rootGraphics := by
    unfold withZIndex
    rw [withPosition_windows]
  have isAt : ((ω.withPosition window position).withZIndex window zIndex).root window = ω.rootAt window position :=
    ((others.withZIndex_same window zIndex).roots window inVector).trans own
  have written : ((ω.withPosition window position).store.nodes (ω.windows window).rootGraphics) = _ :=
    setNode_self _ _ _
  have tree := (SameTree.graphicsSetZIndex (ω.withPosition window position).store
    ((ω.withPosition window position).windows window).rootGraphics zIndex).nodes (ω.windows window).rootGraphics
  rw [← sameRoot] at recalculated
  have done := graphicsInfoRecalculate_spec raised.linked (.inr (raised.held inVector)) recalculated
  have inPlace := raised.recalculated_same inVector done
    (by rw [isAt, sameRoot]; exact (tree.relativeX.trans (congrArg GraphicsNode.relativeX written)).symm)
    (by rw [isAt, sameRoot]; exact (tree.relativeY.trans (congrArg GraphicsNode.relativeY written)).symm)
  refine (inPlace.keeps (raised.among _) fun first firstIn second secondIn _ _ before => ?_).all
  change List.Sublist _ (store.nodes store.screen).children
  rw [done.moved.screen, congrArg GraphicsNode.children done.screen]
  exact before

end WindowSystem

end PeachOS
