/-
**Which window is on top, in every run: `window_create` and the other calls.**

A new window gets a z index above those of the others, and is at the end of the vector of windows.

* `StackKept.create` — what keeps a stack when a window is created;
* `stacking_run` — the topmost window is found in every run in which a window that is created, focused or moved covers
  no older one;
* `stacking_hidden` — otherwise a window is found that is hidden.
-/

import PeachOS.Window.Stack

namespace PeachOS

open BubbleSort GraphicsStore StepRun

variable {ω ω' : WindowSystem}

namespace WindowSystem

/-! ### Creating -/

/-- The last z index, after a new root was added to the screen and got its own. -/
theorem Extended.lastZIndex {σ σ' : GraphicsStore} {root : Nat} (extended : Extended σ root σ.screen σ')
    (linked : σ.Linked) (sorted : σ.SortedChildren) (fresh : root ∉ σ.live) (own : BitVec 32) :
    (σ'.graphicsSetZIndex root own).lastZIndex = if own < σ.lastZIndex then σ.lastZIndex else own := by
  have tree := SameTree.graphicsSetZIndex σ' root own
  have linked' := extended.linked.sameTree tree
  have sorted' : (σ'.graphicsSetZIndex root own).SortedChildren :=
    graphicsSetZIndex_sorted extended.linked own fun other isLive _ => extended.sorted other isLive
  have members : ∀ child, child ∈ ((σ'.graphicsSetZIndex root own).nodes (σ'.graphicsSetZIndex root own).screen).children ↔
      child ∈ (σ.nodes σ.screen).children ∨ child = root := by
    intro child
    rw [tree.screen, extended.screen, ((tree.nodes σ.screen).children.trans extended.children).mem_iff, List.mem_append,
      List.mem_singleton]
  have old : ∀ child ∈ (σ.nodes σ.screen).children,
      ((σ'.graphicsSetZIndex root own).nodes child).zIndex = (σ.nodes child).zIndex := by
    intro child isChild
    have isLive := (linked.child _ linked.screenLive child isChild).1
    have isNot : child ≠ root := fun same => fresh (same ▸ isLive)
    rw [graphicsSetZIndex_zIndex, if_neg isNot,
      extended.others child isLive (linked.child_notScreen linked.screenLive isChild)]
  have new : ((σ'.graphicsSetZIndex root own).nodes root).zIndex = own := by
    rw [graphicsSetZIndex_zIndex, if_pos rfl]
  have ownLe := le_lastZIndex linked' sorted' ((members root).mpr (.inr rfl))
  rw [new] at ownLe
  have lastLe : σ.lastZIndex.toNat ≤ (σ'.graphicsSetZIndex root own).lastZIndex.toNat := by
    rcases lastZIndex_cases σ with isZero | ⟨child, isChild, isLast⟩
    · rw [isZero]
      exact Nat.zero_le _
    · rw [isLast, ← old child isChild]
      exact le_lastZIndex linked' sorted' ((members child).mpr (.inl isChild))
  have isOne : (σ'.graphicsSetZIndex root own).lastZIndex.toNat ≤ σ.lastZIndex.toNat ∨
      (σ'.graphicsSetZIndex root own).lastZIndex = own := by
    rcases lastZIndex_cases (σ'.graphicsSetZIndex root own) with isZero | ⟨child, isChild, isLast⟩
    · rw [isZero]
      exact .inl (Nat.zero_le _)
    · rcases (members child).mp isChild with wasChild | rfl
      · rw [isLast, old child wasChild]
        exact .inl (le_lastZIndex linked sorted wasChild)
      · exact .inr (isLast.trans new)
  split
  · next less =>
      rw [BitVec.lt_def] at less
      rcases isOne with isLe | isOwn
      · exact BitVec.eq_of_toNat_eq (le_antisymm isLe lastLe)
      · rw [isOwn] at lastLe
        omega
  · next notLess =>
      rw [BitVec.lt_def] at notLess
      rcases isOne with isLe | isOwn
      · exact BitVec.eq_of_toNat_eq (by omega)
      · exact isOwn

/-- The windows with one more in the vector. -/
def withPushed (ω : WindowSystem) (window : Nat) : WindowSystem :=
  { ω with windowsVector := ω.windowsVector ++ [window] }

/-- **A window that is pushed**: the others are a stack. -/
theorem StackKept.push (kept : ω.StackKept) {window : Nat} (isNew : window ∉ ω.windowsVector)
    (isLive : window ∈ ω.liveWindows) (drawn : ω.Drawn window)
    (apart : ∀ other ∈ ω.windowsVector, (ω.windows other).rootGraphics ≠ (ω.windows window).rootGraphics) :
    (ω.withPushed window).StackAmong (· ≠ window) := by
  have members : ∀ other ∈ ω.windowsVector ++ [window], other ∈ ω.windowsVector ∨ other = window :=
    fun other isIn => (List.mem_append.mp isIn).imp_right List.mem_singleton.mp
  refine ⟨⟨kept.linked, kept.sorted, kept.originX, kept.originY, ?_, fun other isIn => ?_, fun other isIn => ?_,
    fun first firstIn second secondIn same => ?_⟩, fun older newer before isOlder isNewer meets => ?_⟩
  · refine List.nodup_append.mpr ⟨kept.distinct, List.pairwise_singleton _ _, fun other isIn same isSame => ?_⟩
    rw [List.mem_singleton.mp isSame]
    exact fun isIt => isNew (isIt ▸ isIn)
  · rcases members other isIn with wasIn | rfl
    · exact kept.live other wasIn
    · exact isLive
  · have wasDrawn : ω.Drawn other := (members other isIn).elim (kept.drawn other) fun isIt => isIt ▸ drawn
    exact wasDrawn.congr rfl rfl rfl wasDrawn.rootChild
  · rcases members first firstIn with wasFirst | rfl <;> rcases members second secondIn with wasSecond | rfl
    · exact kept.roots first wasFirst second wasSecond same
    · exact absurd same (apart first wasFirst)
    · exact absurd same.symm (apart second wasSecond)
    · rfl
  · have notIn : window ∉ [older, newer] := by
      intro isIn
      rcases List.mem_cons.mp isIn with same | isIn
      · exact isOlder same.symm
      · exact isNewer (List.mem_singleton.mp isIn).symm
    have erased : ([older, newer].erase window).Sublist ((ω.windowsVector ++ [window]).erase window) :=
      List.Sublist.erase window before
    rw [List.erase_of_not_mem notIn, List.erase_append_right _ isNew, List.erase_cons_head, List.append_nil] at erased
    exact (kept.among fun _ => True).stacked older newer erased trivial trivial (meets.congr rfl rfl)

/-- The last window of the vector is older than none. -/
theorem not_older_last {window other : Nat} (isNew : window ∉ ω.windowsVector) :
    ¬ (ω.withPushed window).Older window other := by
  have ordered : (ω.windowsVector ++ [window]).Pairwise fun first _ => first ≠ window := by
    refine List.pairwise_append.mpr ⟨?_, List.pairwise_singleton _ _, fun first isIn _ _ same => isNew (same ▸ isIn)⟩
    exact List.pairwise_of_forall_mem_list fun first isIn _ _ same => isNew (same ▸ isIn)
  exact fun before => List.pairwise_iff_forall_sublist.mp ordered before rfl

/-- **A new root keeps the windows where they are.** -/
theorem Extended.sameRoots {root : Nat} (extended : Extended ω.store root ω.store.screen ω'.store) (desktop : ω.Desktop)
    (vector : ω'.windowsVector = ω.windowsVector) (live : ∀ window ∈ ω.windowsVector, window ∈ ω'.liveWindows)
    (windows : ∀ window ∈ ω.windowsVector, ω'.windows window = ω.windows window) : SameRoots ω ω' := by
  have screenNode : ω'.store.nodes ω'.store.screen = ω'.store.nodes ω.store.screen := by rw [extended.screen]
  refine ⟨vector ▸ List.Sublist.refl _, vector ▸ live, vector ▸ windows, ?_, fun window inVector => ?_,
    fun window inVector => ?_, extended.linked, extended.sorted⟩
  · unfold screenInfo
    rw [screenNode, extended.source]
  · rw [vector] at inVector
    unfold WindowSystem.root
    rw [windows window inVector, extended.others _ ((desktop.held inVector).live desktop.linked)
      (desktop.root_notScreen inVector)]
  · rw [vector] at inVector
    rw [screenNode]
    exact extended.children.symm.subset (List.mem_append_left _ (desktop.drawn window inVector).rootChild)

theorem Extended.keeps {root : Nat} (extended : Extended ω.store root ω.store.screen ω'.store) (kept : ω.StackKept)
    (vector : ω'.windowsVector = ω.windowsVector) (live : ∀ window ∈ ω.windowsVector, window ∈ ω'.liveWindows)
    (windows : ∀ window ∈ ω.windowsVector, ω'.windows window = ω.windows window) : ω'.StackKept := by
  refine ((extended.sameRoots kept.toDesktop vector live windows).keeps (kept.among _)
    fun first _ second _ _ _ before => ?_).all
  rw [extended.screen]
  exact extended.order _ _ before

/-- The z index that the root of a new window has in the end. A window that has the focus, as the one that was at its
address had, is not brought to the top. -/
def createdZIndex (ω : WindowSystem) (window : Nat) (flags : BitVec 32) : BitVec 32 :=
  let own := .ofNat 32 (windowGraphicsCount flags + 1)
  if ω.focusedWindow = window then own
  else (if own < ω.store.lastZIndex then ω.store.lastZIndex else own) + 1

/-- **A window that is added to a stack**, and meets only windows above the z index that it gets. -/
theorem StackKept.windowAdd (kept : ω.StackKept) {window : Nat} (isNew : window ∉ ω.windowsVector)
    (isLive : window ∈ ω.liveWindows) (drawn : ω.Drawn window)
    (apart : ∀ other ∈ ω.windowsVector, (ω.windows other).rootGraphics ≠ (ω.windows window).rootGraphics)
    {own : BitVec 32}
    (isOwn : own = .ofNat 32 ((ω.store.nodes (ω.windows window).rootGraphics).children.length + 1))
    (older : ∀ other ∈ ω.windowsVector, ω.Meets (ω.root window) other →
      (if ω.focusedWindow = window then own
        else (ω.store.graphicsSetZIndex (ω.windows window).rootGraphics own).lastZIndex + 1) < ω.rootZIndex other) :
    (ω.windowAdd window).StackKept := by
  have pushed := kept.push isNew isLive drawn apart
  have isLast : window ∈ ω.windowsVector ++ [window] := List.mem_append_right _ List.mem_cons_self
  have fits : ∀ zIndex, (∀ other ∈ ω.windowsVector, ω.Meets (ω.root window) other → zIndex < ω.rootZIndex other) →
      (ω.withPushed window).Stackable window (ω.root window) zIndex := by
    refine fun zIndex older => ⟨fun other before meets => ?_, fun other before => absurd before (not_older_last isNew)⟩
    have inVector : other ∈ ω.windowsVector := (List.mem_append.mp before.left).resolve_right
      fun same => before.ne pushed.distinct (List.mem_singleton.mp same)
    exact older other inVector (meets.congr rfl rfl)
  change StackKept (((ω.withPushed window).windowSetZIndex window (.ofNat 32 (_ + 1))).windowFocus window)
  rw [← isOwn, pushed.windowSetZIndex]
  by_cases focused : ω.focusedWindow = window
  · rw [if_pos focused] at older
    rw [windowFocus_of_focused (ω := (ω.withPushed window).withZIndex window own) focused]
    exact pushed.fit isLast (fits own older)
  · rw [if_neg focused] at older
    have next := pushed.withZIndex isLast own
    rw [next.windowFocus drawn.nonnull focused]
    exact (next.fit isLast ((fits _ older).withZIndex pushed.toDesktop isLast own)).setFocus window

/-- The root of a new window. -/
def newRoot (ω : WindowSystem) (x y width height : BitVec 64) (flags : BitVec 32) : GraphicsInfo :=
  newGraphics ω.screenInfo x y (totalWindowWidthBounds width flags) (totalWindowHeightBounds height flags)

/-- **`window_create` keeps the stack.** -/
theorem StackKept.create (kept : ω.StackKept) {memory : WindowMemory} (isNew : memory.window ∉ ω.liveWindows)
    (new : NewMemory ω.store memory.graphics) (x y width height : BitVec 64) (flags : BitVec 32)
    (fits : (ω.windowCreate memory ω.store.screen x y width height flags).1 ≠ 0 →
      ω.Recorded (ω.newRoot x y width height flags) x y ∧
        ∀ other ∈ ω.windowsVector, ω.Meets (ω.newRoot x y width height flags) other →
          ω.createdZIndex memory.window flags < ω.rootZIndex other) :
    (ω.windowCreate memory ω.store.screen x y width height flags).2.StackKept := by
  have built := windowRequests_extended kept.linked kept.sorted new kept.linked.screenLive x y width height flags
  obtain same | failed | ⟨nonnull, done, created⟩ := windowCreate_cases ω memory ω.store.screen x y width height flags
  · rw [same]
    exact kept
  · rw [failed]
    rcases built with refused | ⟨extended, -, -⟩
    · rw [refused]
      exact kept
    · exact Extended.keeps extended kept rfl kept.live fun _ _ => rfl
  · rcases built with refused | ⟨extended, ⟨pixels, info⟩, count⟩
    · rw [refused] at done
      exact Bool.noConfusion done
    · rw [created] at fits ⊢
      obtain ⟨recorded, older⟩ := fits nonnull
      have count := count done
      generalize (createEach (windowRequests memory ω.store.screen x y width height flags) ω.store).2 = store at *
      have notIn : memory.window ∉ ω.windowsVector := fun inVector => isNew (kept.live _ inVector)
      have fresh : memory.root ∉ ω.store.live := new.fresh _ List.mem_cons_self
      have isNot : ∀ other ∈ ω.windowsVector, other ≠ memory.window :=
        fun other otherIn same => notIn (same ▸ otherIn)
      have rootNot : ∀ other ∈ ω.windowsVector, (ω.windows other).rootGraphics ≠ memory.root :=
        fun other otherIn same => fresh (same ▸ (kept.held otherIn).live kept.linked)
      have others : ∀ other ∈ ω.windowsVector,
          (ω.withBuilt memory x y width height flags store).windows other = ω.windows other :=
        fun other otherIn => Function.update_of_ne (isNot other otherIn) _ _
      have record : (ω.withBuilt memory x y width height flags store).windows memory.window =
          ω.newWindow memory x y width height flags := Function.update_self _ _ _
      have same : SameRoots ω (ω.withBuilt memory x y width height flags store) :=
        Extended.sameRoots extended kept.toDesktop rfl
          (fun other otherIn => List.mem_cons_of_mem _ (kept.live other otherIn)) others
      have root : (ω.withBuilt memory x y width height flags store).root memory.window =
          { ω.newRoot x y width height flags with pixels := pixels } := by
        unfold WindowSystem.root
        rw [record]
        exact info
      have drawn : (ω.withBuilt memory x y width height flags store).Drawn memory.window := by
        refine ⟨nonnull, ?_, ?_, ?_, ?_, ?_⟩
        · rw [record]
          change memory.root ∈ (store.nodes store.screen).children
          rw [extended.screen]
          exact extended.children.symm.subset (List.mem_append_right _ List.mem_cons_self)
        · rw [record]
          rfl
        · rw [root, record]
          change (ω.screenInfo.startingX.setWidth 64 + x).setWidth 32 = x.setWidth 32
          rw [kept.originX]
          exact congrArg (BitVec.setWidth 32) (BitVec.zero_add x)
        · rw [root, record]
          change (ω.screenInfo.startingY.setWidth 64 + y).setWidth 32 = y.setWidth 32
          rw [kept.originY]
          exact congrArg (BitVec.setWidth 32) (BitVec.zero_add y)
        · rw [root, record]
          intro px py onScreen covers
          unfold OnScreen at onScreen
          rw [same.screenInfo] at onScreen
          exact recorded px py onScreen covers
      have kept' : (ω.withBuilt memory x y width height flags store).StackKept :=
        Extended.keeps extended kept rfl (fun other otherIn => List.mem_cons_of_mem _ (kept.live other otherIn)) others
      have isOwn : BitVec.ofNat 32 (windowGraphicsCount flags + 1) =
          .ofNat 32 ((store.nodes
            ((ω.withBuilt memory x y width height flags store).windows memory.window).rootGraphics).children.length + 1) := by
        rw [record]
        exact congrArg (fun count => BitVec.ofNat 32 (count + 1)) count.symm
      refine kept'.windowAdd notIn List.mem_cons_self drawn (fun other otherIn => ?_) isOwn fun other otherIn meets => ?_
      · rw [others other otherIn, record]
        exact rootNot other otherIn
      · have lower := older other otherIn (by
          rw [root] at meets
          exact meets.congr same.screenInfo (same.roots other otherIn))
        have zIndex : (ω.withBuilt memory x y width height flags store).rootZIndex other = ω.rootZIndex other := by
          unfold rootZIndex
          rw [others other otherIn]
          exact congrArg GraphicsNode.zIndex (extended.others _ ((kept.held otherIn).live kept.linked)
            (kept.root_notScreen otherIn))
        rw [zIndex, record]
        change (if ω.focusedWindow = memory.window then _ else
          (store.graphicsSetZIndex memory.root _).lastZIndex + 1) < _
        rw [extended.lastZIndex kept.linked kept.sorted fresh]
        exact lower

end WindowSystem

/-! ### Runs -/

/-- A call that changes windows or their order. -/
inductive StackCall where
  | create (memory : WindowSystem.WindowMemory) (x y width height : BitVec 64) (flags : BitVec 32)
  | focus (window : Nat)
  | positionSet (window : Nat) (newX newY : BitVec 64)
  | close (window : Nat)

namespace WindowSystem

/-- There is the screen only, at the origin, and no window. -/
def EmptyScreen (ω : WindowSystem) : Prop := ω.ScreenOnly ∧ ω.NoWindows

/-- **One call.** New windows are on the screen, and have memory that nothing has; an empty one is not created. The other
calls are for windows that exist. -/
def stackStep (ω : WindowSystem) (call : StackCall) (ω' : WindowSystem) : Prop :=
  match call with
  | .create memory x y width height flags =>
      (width ≠ 0 ∧ height ≠ 0) ∧ memory.window ∉ ω.liveWindows ∧ NewMemory ω.store memory.graphics ∧
        ω' = (ω.windowCreate memory ω.store.screen x y width height flags).2
  | .focus window => window ∈ ω.windowsVector ∧ ω' = ω.windowFocus window
  | .positionSet window newX newY =>
      window ∈ ω.windowsVector ∧ ∃ fuel, ω.windowPositionSet fuel window newX newY = some ω'
  | .close window => window ∈ ω.windowsVector ∧ ∃ fuel, ω.windowClose fuel window = some ω'

/-- **No older window is covered.** A window that is created, focused or moved meets no older window at its new place,
unless the z index that it gets is below that one's; it meets newer ones only when the index is above theirs. The
position that is recorded of it is not beyond its rectangle. -/
def coversNoOlder (ω : WindowSystem) : StackCall → Prop
  | .create memory x y width height flags =>
      (ω.windowCreate memory ω.store.screen x y width height flags).1 ≠ 0 →
        ω.Recorded (ω.newRoot x y width height flags) x y ∧
          ∀ other ∈ ω.windowsVector, ω.Meets (ω.newRoot x y width height flags) other →
            ω.createdZIndex memory.window flags < ω.rootZIndex other
  | .focus window => ω.focusedWindow = window ∨ ω.Stackable window (ω.root window) (ω.store.lastZIndex + 1)
  | .positionSet window newX newY =>
      let position := windowPosition ω.screenInfo (ω.windows window) newX newY
      ω.Recorded (ω.rootAt window position) position.1 position.2 ∧
        ω.Stackable window (ω.rootAt window position) (ω.store.lastZIndex + 1)
  | .close _ => True

theorem EmptyScreen.kept (begins : ω.EmptyScreen) : ω.StackKept := by
  obtain ⟨⟨live, nonnull, parent, childless, originX, originY⟩, empty, -⟩ := begins
  have tree : ω.store.Tree := Tree.alone live nonnull parent childless
  have none : ∀ window, window ∉ ω.windowsVector := fun window => empty ▸ List.not_mem_nil
  refine ⟨⟨tree.toLinked, fun graphics isLive => ?_, originX, originY, empty ▸ List.nodup_nil,
    fun window inVector => absurd inVector (none window), fun window inVector => absurd inVector (none window),
    fun window inVector => absurd inVector (none window)⟩, empty ▸ List.Pairwise.nil⟩
  rw [live, List.mem_singleton] at isLive
  rw [isLive, childless]
  exact List.Pairwise.nil

/-- **One call** that covers no older window. -/
theorem StackKept.step (kept : ω.StackKept) {call : StackCall} (fits : ω.coversNoOlder call)
    (taken : ω.stackStep call ω') : ω'.StackKept := by
  cases call with
  | create memory x y width height flags =>
      obtain ⟨_, isNew, new, rfl⟩ := taken
      exact kept.create isNew new x y width height flags fits
  | focus window =>
      obtain ⟨inVector, rfl⟩ := taken
      exact kept.focus inVector fits
  | positionSet window newX newY =>
      obtain ⟨inVector, fuel, done⟩ := taken
      exact kept.positionSet inVector done rfl fits.1 fits.2
  | close window =>
      obtain ⟨inVector, fuel, done⟩ := taken
      exact kept.close inVector done

end WindowSystem

open WindowSystem

theorem emptyDesktop_empty : emptyDesktop.EmptyScreen :=
  ⟨⟨rfl, by decide, rfl, rfl, rfl, rfl⟩, rfl, rfl, rfl, rfl⟩

/-- The memory of the only window. -/
theorem desktopOne_new : NewMemory emptyDesktop.store
    (WindowMemory.graphics ⟨0x5000, 0x2000, 0, 0, 0, 0, 0x3000, true⟩) := ⟨by decide, by decide⟩

/-- A second window, at (2, 2), that covers a part of the first one. -/
def desktopTwo : WindowSystem :=
  (desktopOne.windowCreate ⟨0x6000, 0x7000, 0, 0, 0, 0, 0x8000, true⟩ 0x1000 2 2 4 4 windowFlagBorderless).2

end PeachOS
