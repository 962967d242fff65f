/-
**References to windows that the user closes.**

A process refers to its windows by `sysout_win`, by its vector of windows, and by userland pointers to their graphics.
Closing a window looks after the vector only.

* `processWindows_run` — while only windows are closed to which no other reference is left, and memory is found for
  temporary elements, all references are to live windows and graphics, and no call uses what was freed;
* `processWindows_dangle` — the window that a process prints to may be closed.
-/

import PeachOS.Process.Windows

namespace PeachOS

open GraphicsStore WindowSystem StepRun

namespace ProcessWindows

variable {σ σ' : ProcessWindows}

/-! ### The property -/

/-- **The references of a process are to what is live.** Then a call uses nothing that was freed, but perhaps the window
with the focus. -/
structure ReferencesLive (σ : ProcessWindows) : Prop where
  sysout : σ.sysoutWin = 0 ∨ σ.sysoutWin ∈ σ.windows ∧ σ.sysoutWin ∈ σ.live ∧
    σ.printingWindow ∈ σ.desktop.liveWindows
  windows : ∀ win ∈ σ.windows, (σ.processWindow win).kernelWin ∈ σ.desktop.liveWindows
  pointers : ∀ userlandPtr, σ.pointers.processUserlandPointerRegistered σ.process userlandPtr = true →
    σ.pointers.kernelPtr userlandPtr ∈ σ.desktop.store.live
  follows : ∀ call object, σ.Follows call object →
    σ.Live object ∨ object = .window σ.desktop.focusedWindow ∧ σ.desktop.focusedWindow ≠ 0

/-- **No call of the process uses what was freed.** -/
def NoUseAfterFree (σ : ProcessWindows) : Prop := ∀ call object, σ.Follows call object → σ.Live object

/-- A process without windows, on a desktop where others may have some. -/
structure Begins (σ : ProcessWindows) : Prop where
  sound : σ.desktop.Sound
  focused : σ.desktop.focusedWindow = 0 ∨ σ.desktop.focusedWindow ∈ σ.desktop.liveWindows
  windows : σ.windows = []
  sysout : σ.sysoutWin = 0
  pointers : σ.pointers.vectors σ.process = []

/-- The root graphics of a process window. -/
def root (σ : ProcessWindows) (win : Nat) : Nat := (σ.desktop.windows (σ.processWindow win).kernelWin).rootGraphics

/-- **No other reference is left to a window that is closed**: the process does not print to it, and has no pointer to
its graphics. There is memory for the temporary element, and no window with an empty body is asked for. -/
def unreferenced (σ : ProcessWindows) : ProcessWindowCall → Prop
  | .create _ width height _ => width ≠ 0 ∧ height ≠ 0
  | .close window memory =>
      memory = true ∧ (σ.sysoutWin ≠ 0 → σ.printingWindow ≠ window) ∧
        ∀ userlandPtr, σ.pointers.processUserlandPointerRegistered σ.process userlandPtr = true →
          ¬ Below σ.desktop.store (σ.desktop.windows window).rootGraphics (σ.pointers.kernelPtr userlandPtr)
  | _ => True

/-- **No window is closed that has the focus**, neither by the user nor because there is no memory for its user window. -/
def unfocused (σ : ProcessWindows) : ProcessWindowCall → Prop
  | .create memory _ _ _ => memory.userWin ≠ 0
  | .close window _ => window ≠ σ.desktop.focusedWindow
  | _ => True

/-! ### What runs keep -/

/-- What such runs keep. -/
structure Kept (σ : ProcessWindows) : Prop where
  sound : σ.desktop.Sound
  distinct : σ.windows.Nodup
  live : ∀ win ∈ σ.windows, win ∈ σ.live ∧ win ≠ 0
  parts : ∀ win ∈ σ.windows, σ.desktop.HasParts (σ.processWindow win).kernelWin
  roots : ∀ win ∈ σ.windows, ∀ other ∈ σ.windows, σ.root other = σ.root win → other = win
  sysout : σ.sysoutWin = 0 ∨ σ.sysoutWin ∈ σ.windows
  pointersLive : ∀ userlandPtr ∈ σ.pointers.vectors σ.process, userlandPtr ∈ σ.pointers.live
  graphics : ∀ userlandPtr ∈ σ.pointers.vectors σ.process, userlandPtr ≠ 0 →
    σ.pointers.kernelPtr userlandPtr ∈ σ.desktop.store.live

theorem Begins.kept (begins : σ.Begins) : σ.Kept := by
  have none : ∀ win, win ∉ σ.windows := fun win isIn => List.not_mem_nil (begins.windows ▸ isIn)
  have noPointer : ∀ userlandPtr, userlandPtr ∉ σ.pointers.vectors σ.process :=
    fun userlandPtr isIn => List.not_mem_nil (begins.pointers ▸ isIn)
  refine ⟨begins.sound, ?_, fun win isIn => absurd isIn (none win), fun win isIn => absurd isIn (none win),
    fun win isIn => absurd isIn (none win), .inl begins.sysout, fun userlandPtr isIn => absurd isIn (noPointer _),
    fun userlandPtr isIn => absurd isIn (noPointer _)⟩
  rw [begins.windows]
  exact List.nodup_nil

/-- A process window that is looked up is one of the process. -/
theorem getFromUserWindow_mem {userWin : Nat} (nonnull : σ.processWindowGetFromUserWindow userWin ≠ 0) :
    σ.processWindowGetFromUserWindow userWin ∈ σ.windows := by
  unfold processWindowGetFromUserWindow at nonnull ⊢
  cases hit : σ.windows.find? fun win => win ≠ 0 && (σ.processWindow win).userWin == userWin with
  | none =>
      rw [hit] at nonnull
      exact absurd rfl nonnull
  | some win => exact List.mem_of_find?_eq_some hit

/-- And so is its window. -/
theorem windowFromUser_mem {userWin : Nat} (found : σ.isr80hWindowFromProcessWindowVirt userWin ≠ 0) :
    ∃ win ∈ σ.windows, σ.isr80hWindowFromProcessWindowVirt userWin = (σ.processWindow win).kernelWin := by
  unfold isr80hWindowFromProcessWindowVirt at found ⊢
  dsimp only at found ⊢
  split
  · next none => exact absurd (if_pos none) found
  · next nonnull => exact ⟨_, getFromUserWindow_mem nonnull, rfl⟩

theorem Kept.registered (kept : σ.Kept) {userlandPtr : Nat}
    (registered : σ.pointers.processUserlandPointerRegistered σ.process userlandPtr = true) :
    userlandPtr ∈ σ.pointers.live ∧ σ.pointers.kernelPtr userlandPtr ∈ σ.desktop.store.live := by
  obtain ⟨isIn, nonnull⟩ := (σ.pointers.registered_iff σ.process userlandPtr).mp registered
  exact ⟨kept.pointersLive userlandPtr isIn, kept.graphics userlandPtr isIn nonnull⟩

/-- A kernel pointer that the process gets is to live graphics. -/
theorem Kept.kernelPtr (kept : σ.Kept) {userlandPtr : Nat}
    (nonnull : σ.pointers.processUserlandPointerKernelPtr σ.process userlandPtr ≠ 0) :
    σ.pointers.processUserlandPointerKernelPtr σ.process userlandPtr ∈ σ.desktop.store.live := by
  rw [UserlandPointers.kernelPtr_eq] at nonnull ⊢
  split at nonnull
  · next registered =>
      rw [if_pos registered]
      exact kept.graphics userlandPtr registered.1 registered.2
  · exact absurd rfl nonnull

/-- **Whatever a call follows is live**, but perhaps the window with the focus. -/
theorem Kept.follows (kept : σ.Kept) {call : ProcessWindowCall} {object : KernelObject}
    (follows : σ.Follows call object) :
    σ.Live object ∨ object = .window σ.desktop.focusedWindow ∧ σ.desktop.focusedWindow ≠ 0 := by
  have linked := kept.sound.linked
  cases follows with
  | lookUp isIn => exact .inl (kept.live _ isIn).1
  | window _ found =>
      obtain ⟨win, isIn, same⟩ := windowFromUser_mem found
      rw [same]
      exact .inl (kept.parts win isIn).live
  | part _ found nonnull isPart =>
      obtain ⟨win, isIn, same⟩ := windowFromUser_mem found
      have parts := kept.parts win isIn
      rw [same] at isPart
      refine .inl ?_
      rcases isPart with rfl | rfl | rfl
      · exact parts.rootLive linked
      · exact (linked.child _ (parts.rootLive linked) _ (parts.titleBar.resolve_left nonnull)).1
      · exact parts.bodyLive linked
  | pointer _ registered => exact .inl (kept.registered registered).1
  | kernelPtr _ nonnull => exact .inl (kept.kernelPtr nonnull)
  | sibling _ nonnull isChild => exact .inl (linked.child _ (kept.kernelPtr nonnull) _ isChild).1
  | printing nonnull => exact .inl (kept.live _ (kept.sysout.resolve_left nonnull)).1
  | printed nonnull => exact .inl (kept.parts _ (kept.sysout.resolve_left nonnull)).live
  | terminal nonnull => exact .inl ((kept.parts _ (kept.sysout.resolve_left nonnull)).bodyLive linked)
  | sorted inVector => exact .inl (kept.sound.live _ inVector)
  | unfocused nonnull => exact .inr ⟨rfl, nonnull⟩
  | drawn onScreen => exact .inl (onScreen.held linked linked.screenLive).1

theorem Kept.referencesLive (kept : σ.Kept) : σ.ReferencesLive where
  sysout := kept.sysout.imp_right fun isIn => ⟨isIn, (kept.live _ isIn).1, (kept.parts _ isIn).live⟩
  windows win isIn := (kept.parts win isIn).live
  pointers _ registered := (kept.registered registered).2
  follows _ _ := kept.follows

/-! ### The calls -/

/-- More windows and graphics. -/
theorem Kept.more (kept : σ.Kept) {desktop : WindowSystem} (sound : desktop.Sound)
    (more : MoreWindows σ.desktop desktop) : Kept { σ with desktop := desktop } := by
  refine ⟨sound, kept.distinct, kept.live, fun win isIn => (kept.parts win isIn).moreWindows kept.sound.linked more,
    fun win isIn other otherIn same => ?_, kept.sysout, kept.pointersLive,
    fun userlandPtr isIn nonnull => more.store.live _ (kept.graphics userlandPtr isIn nonnull)⟩
  unfold root at same
  dsimp only at same
  rw [more.windows _ (kept.parts win isIn).live, more.windows _ (kept.parts other otherIn).live] at same
  exact kept.roots win isIn other otherIn same

/-- The metadata of a graphics change the userland pointers. -/
theorem metadata_eq (σ : ProcessWindows) (graphics : Nat) (memory : MetadataMemory) :
    (σ.isr80hGraphicsMakeUserlandMetadata graphics memory).2 = { σ with
      pointers := (σ.pointers.processUserlandPointerCreate σ.process graphics memory.userlandPtr memory.pushed).2 } := by
  unfold isr80hGraphicsMakeUserlandMetadata
  dsimp only
  split
  · rfl
  · split <;> rfl

/-- A userland pointer for graphics that are live. -/
theorem Kept.metadata (kept : σ.Kept) {graphics : Nat} {memory : MetadataMemory}
    (isLive : graphics ∈ σ.desktop.store.live) : (σ.isr80hGraphicsMakeUserlandMetadata graphics memory).2.Kept := by
  rw [metadata_eq]
  unfold UserlandPointers.processUserlandPointerCreate
  split
  · exact kept
  · have members : ∀ userlandPtr, userlandPtr ∈ (if memory.pushed then
        Function.update σ.pointers.vectors σ.process (σ.pointers.vectors σ.process ++ [memory.userlandPtr])
          else σ.pointers.vectors) σ.process →
        userlandPtr ∈ σ.pointers.vectors σ.process ∨ userlandPtr = memory.userlandPtr := by
      intro userlandPtr isIn
      split at isIn
      · rw [Function.update_self] at isIn
        exact (List.mem_append.mp isIn).imp_right List.mem_singleton.mp
      · exact .inl isIn
    refine ⟨kept.sound, kept.distinct, kept.live, kept.parts, kept.roots, kept.sysout, fun userlandPtr isIn => ?_,
      fun userlandPtr isIn nonnull => ?_⟩ <;> dsimp only at *
    · rcases members userlandPtr isIn with wasIn | rfl
      · exact List.mem_cons_of_mem _ (kept.pointersLive userlandPtr wasIn)
      · exact List.mem_cons_self
    · by_cases isNew : userlandPtr = memory.userlandPtr
      · rw [isNew, Function.update_self]
        exact isLive
      · rw [Function.update_of_ne isNew]
        exact kept.graphics userlandPtr ((members userlandPtr isIn).resolve_right isNew) nonnull

/-- **The process gets the graphics of a window.** -/
theorem Kept.graphicsGet (kept : σ.Kept) (userWin : Nat) (memory : MetadataMemory) :
    (σ.isr80hCommand19WindowGraphicsGet userWin memory).2.Kept := by
  unfold isr80hCommand19WindowGraphicsGet
  split
  · exact kept
  · dsimp only
    split
    · exact kept
    · next found =>
        obtain ⟨win, isIn, same⟩ := windowFromUser_mem found
        rw [same]
        exact kept.metadata ((kept.parts win isIn).bodyLive kept.sound.linked)

/-- **The process creates graphics** below one that it has a pointer to. -/
theorem Kept.graphicsCreate (kept : σ.Kept) {newGraphics : Nat} (fresh : newGraphics ∉ σ.desktop.store.live)
    (userlandPtr : Nat) (x y width height : BitVec 64) (memory : MetadataMemory) :
    (σ.isr80hCommand22GraphicsCreate userlandPtr newGraphics x y width height memory).2.Kept := by
  unfold isr80hCommand22GraphicsCreate
  dsimp only
  split
  · exact kept
  · next nonnull =>
      obtain refused | ⟨newNonnull, store, created, more, live, -⟩ := graphicsInfoCreateRelative_more
        kept.sound.linked fresh (kept.kernelPtr nonnull) x y width height 0
      · rw [refused]
        exact kept
      · rw [created]
        dsimp only
        rw [if_neg newNonnull]
        have grown : Kept { σ with desktop := { σ.desktop with store := store } } :=
          kept.more ⟨more.linked, kept.sound.distinct, kept.sound.live⟩ ⟨more, fun _ isLive => isLive, fun _ _ => rfl⟩
        refine grown.metadata ?_
        change newGraphics ∈ store.live
        rw [live]
        exact List.mem_cons_self

/-- **The process prints to one of its windows.** -/
theorem Kept.setSysout (kept : σ.Kept) (userWin : Nat) : (σ.isr80hCommand17SysoutToWindow userWin).Kept := by
  unfold isr80hCommand17SysoutToWindow
  split
  · exact kept
  · dsimp only
    split
    · exact kept
    · next nonnull =>
        exact ⟨kept.sound, kept.distinct, kept.live, kept.parts, kept.roots, .inr (getFromUserWindow_mem nonnull),
          kept.pointersLive, kept.graphics⟩

/-- A window whose root is no process window's is closed, and no pointer is to its graphics. -/
theorem Kept.closed (kept : σ.Kept) {fuel window : Nat} {desktop : WindowSystem} (parts : σ.desktop.HasParts window)
    (others : ∀ win ∈ σ.windows, σ.root win ≠ (σ.desktop.windows window).rootGraphics)
    (apart : ∀ userlandPtr ∈ σ.pointers.vectors σ.process, userlandPtr ≠ 0 →
      ¬ Below σ.desktop.store (σ.desktop.windows window).rootGraphics (σ.pointers.kernelPtr userlandPtr))
    (done : σ.desktop.windowClose fuel window = some desktop) : Kept { σ with desktop := desktop } := by
  obtain ⟨sound, freed⟩ := kept.sound.close parts done
  obtain ⟨-, windows, -, -, -, -⟩ := windowFree_windows done
  refine ⟨sound, kept.distinct, kept.live, fun win isIn => ?_, fun win isIn other otherIn same => ?_, kept.sysout,
    kept.pointersLive, fun userlandPtr isIn nonnull => ?_⟩
  · exact HasParts.close kept.sound parts (kept.parts win isIn) (others win isIn) done
  · unfold root at same
    dsimp only at same
    rw [windows] at same
    exact kept.roots win isIn other otherIn same
  · exact freed.remain _ (kept.graphics userlandPtr isIn nonnull) (apart userlandPtr isIn nonnull)

/-- A process window for a window that no other one is for. -/
theorem Kept.addWindow (kept : σ.Kept) {win kernelWin : Nat} (fresh : win ∉ σ.live) (nonnull : win ≠ 0)
    (parts : σ.desktop.HasParts kernelWin)
    (different : ∀ other ∈ σ.windows, σ.root other ≠ (σ.desktop.windows kernelWin).rootGraphics) (pushed : Bool)
    (userWin : Nat) :
    Kept { σ with
      windows := if pushed then σ.windows ++ [win] else σ.windows
      processWindow := Function.update σ.processWindow win ⟨userWin, kernelWin⟩
      live := win :: σ.live } := by
  have members : ∀ other, other ∈ (if pushed then σ.windows ++ [win] else σ.windows) →
      other ∈ σ.windows ∨ other = win := by
    intro other isIn
    split at isIn
    · exact (List.mem_append.mp isIn).imp_right List.mem_singleton.mp
    · exact .inl isIn
  have record : ∀ other ∈ σ.windows,
      Function.update σ.processWindow win ⟨userWin, kernelWin⟩ other = σ.processWindow other := by
    intro other isIn
    have isOld : other ≠ win := fun same => fresh (same ▸ (kept.live other isIn).1)
    exact Function.update_of_ne isOld _ _
  have newRecord : Function.update σ.processWindow win ⟨userWin, kernelWin⟩ win = ⟨userWin, kernelWin⟩ :=
    Function.update_self _ _ _
  refine ⟨kept.sound, ?_, fun other isIn => ?_, fun other isIn => ?_, fun first firstIn second secondIn same => ?_, ?_,
    kept.pointersLive, kept.graphics⟩ <;> dsimp only at *
  · split
    · refine List.nodup_append.mpr ⟨kept.distinct, List.pairwise_singleton _ _, fun other isIn new isNew same => ?_⟩
      exact fresh (List.mem_singleton.mp isNew ▸ same ▸ (kept.live other isIn).1)
    · exact kept.distinct
  · rcases members other isIn with wasIn | rfl
    · exact ⟨List.mem_cons_of_mem _ (kept.live other wasIn).1, (kept.live other wasIn).2⟩
    · exact ⟨List.mem_cons_self, nonnull⟩
  · rcases members other isIn with wasIn | rfl
    · rw [record other wasIn]
      exact kept.parts other wasIn
    · rw [newRecord]
      exact parts
  · unfold root at same
    dsimp only at same
    rcases members first firstIn with firstWas | rfl
    · rw [record first firstWas] at same
      rcases members second secondIn with secondWas | rfl
      · rw [record second secondWas] at same
        exact kept.roots first firstWas second secondWas same
      · rw [newRecord] at same
        exact absurd same.symm (different first firstWas)
    · rw [newRecord] at same
      rcases members second secondIn with secondWas | rfl
      · rw [record second secondWas] at same
        exact absurd same (different second secondWas)
      · rfl
  · refine kept.sysout.imp_right fun isIn => ?_
    split
    · exact List.mem_append_left _ isIn
    · exact isIn

/-- **The process creates a window**, or there is no memory and the window is closed again. -/
theorem Kept.create (kept : σ.Kept) {fuel win : Nat} {memory : ProcessWindowMemory} {width height flags : BitVec 32}
    (fresh : memory.processWindow ∉ σ.live) (windowFresh : memory.window.window ∉ σ.desktop.liveWindows)
    (graphicsFresh : NewMemory σ.desktop.store memory.window.graphics)
    (done : σ.processWindowCreate fuel memory width height flags = some (win, σ')) : σ'.Kept := by
  unfold processWindowCreate at done
  split at done
  · exact (Prod.mk.inj (Option.some.inj done)).2 ▸ kept
  · next nonnull =>
      dsimp only at done
      generalize (BitVec.setWidth 64 _ : BitVec 64) = absX at done
      generalize (BitVec.setWidth 64 _ : BitVec 64) = absY at done
      obtain ⟨sound, more, created⟩ := windowCreate_parts kept.sound windowFresh graphicsFresh absX absY
        (width.signExtend 64) (height.signExtend 64) flags
      generalize σ.desktop.windowCreate memory.window σ.desktop.store.screen absX absY (width.signExtend 64)
        (height.signExtend 64) flags = result at *
      obtain ⟨kernelWin, desktop⟩ := result
      dsimp only at *
      have grown := kept.more sound more
      split at done
      · exact (Prod.mk.inj (Option.some.inj done)).2 ▸ grown
      · next isWindow =>
          obtain ⟨rfl, new⟩ := created.resolve_left isWindow
          -- The roots of the other windows were live before.
          have different : ∀ other ∈ σ.windows, root { σ with desktop := desktop } other ≠
              (desktop.windows memory.window.window).rootGraphics := by
            intro other isIn same
            unfold root at same
            dsimp only at same
            rw [more.windows _ (kept.parts other isIn).live] at same
            exact new.root (same ▸ (kept.parts other isIn).rootLive kept.sound.linked)
          split at done
          · obtain ⟨closed, isClosed, same⟩ := Option.map_eq_some_iff.mp done
            rw [← (Prod.mk.inj same).2]
            refine grown.closed new.parts different (fun userlandPtr isIn notNull below => ?_) isClosed
            exact more.store.below_new new.root new.rootLive below (kept.graphics userlandPtr isIn notNull)
          · rw [← (Prod.mk.inj (Option.some.inj done)).2]
            exact grown.addWindow fresh nonnull new.parts different _ _

/-- A process window goes that the process does not print to. -/
theorem Kept.windowClosed (kept : σ.Kept) {procWin : Nat} (notPrinting : σ.sysoutWin = 0 ∨ σ.sysoutWin ≠ procWin) :
    (σ.processWindowClosed procWin true).Kept := by
  unfold processWindowClosed
  rw [vectorPopElement_elements]
  have members : ∀ win ∈ σ.windows.erase procWin, win ≠ procWin ∧ win ∈ σ.windows :=
    fun win isIn => kept.distinct.mem_erase_iff.mp isIn
  refine ⟨kept.sound, kept.distinct.erase procWin, fun win isIn => ?_, fun win isIn => kept.parts win (members win isIn).2,
    fun win isIn other otherIn => kept.roots win (members win isIn).2 other (members other otherIn).2, ?_,
    kept.pointersLive, kept.graphics⟩
  · obtain ⟨isNot, wasIn⟩ := members win isIn
    exact ⟨(List.mem_erase_of_ne isNot).mpr (kept.live win wasIn).1, (kept.live win wasIn).2⟩
  · rcases notPrinting with none | isNot
    · exact .inl none
    · exact kept.sysout.imp_right (List.mem_erase_of_ne isNot).mpr

/-- The process window of a window is found. -/
theorem Kept.getFromKernelWindow (kept : σ.Kept) {win : Nat} (isIn : win ∈ σ.windows) :
    σ.processWindowGetFromKernelWindow (σ.processWindow win).kernelWin = win := by
  unfold processWindowGetFromKernelWindow
  have isIt : ∀ other ∈ σ.windows, (σ.processWindow other).kernelWin = (σ.processWindow win).kernelWin → other = win :=
    fun other otherIn same => kept.roots win isIn other otherIn (by unfold root; rw [same])
  cases hit : σ.windows.find? fun other =>
      other ≠ 0 && (σ.processWindow other).kernelWin == (σ.processWindow win).kernelWin with
  | none =>
      have missed := List.find?_eq_none.mp hit win isIn
      rw [beq_self_eq_true, Bool.and_true, decide_eq_true_eq, not_not] at missed
      exact absurd missed (kept.live win isIn).2
  | some other =>
      have found := List.find?_some hit
      exact isIt other (List.mem_of_find?_eq_some hit) (beq_iff_eq.mp (Bool.and_eq_true_iff.mp found).2)

/-- **The user closes a window** that nothing else refers to. -/
theorem Kept.close (kept : σ.Kept) {fuel window : Nat} {memory : Bool}
    (unreferenced : σ.unreferenced (.close window memory)) {win : Nat} (isIn : win ∈ σ.windows)
    (isWindow : (σ.processWindow win).kernelWin = window)
    (done : σ.closeWindow fuel window memory = some σ') : σ'.Kept := by
  obtain ⟨rfl, notPrinting, apart⟩ := unreferenced
  subst isWindow
  unfold closeWindow at done
  dsimp only at done
  rw [kept.getFromKernelWindow isIn, if_neg (kept.live win isIn).2] at done
  obtain ⟨desktop, closed, rfl⟩ := Option.map_eq_some_iff.mp done
  have gone : (σ.processWindowClosed win true).Kept := by
    refine kept.windowClosed ?_
    by_cases none : σ.sysoutWin = 0
    · exact .inl none
    · exact .inr fun same => notPrinting none (by unfold printingWindow; rw [same])
  refine gone.closed (kept.parts win isIn) (fun other otherIn same => ?_) (fun userlandPtr registered nonnull => ?_) closed
  · unfold processWindowClosed at otherIn
    rw [vectorPopElement_elements] at otherIn
    obtain ⟨isNot, wasIn⟩ := kept.distinct.mem_erase_iff.mp otherIn
    exact isNot (kept.roots win isIn other wasIn same)
  · exact apart userlandPtr ((σ.pointers.registered_iff σ.process userlandPtr).mpr ⟨registered, nonnull⟩)

/-- **One call, or the user focuses or closes a window.** -/
theorem Kept.step (kept : σ.Kept) {call : ProcessWindowCall} (unreferenced : σ.unreferenced call)
    (taken : σ.step call σ') : σ'.Kept := by
  cases call with
  | create memory width height flags =>
      obtain ⟨fresh, windowFresh, graphicsFresh, fuel, win, done⟩ := taken
      exact kept.create fresh windowFresh graphicsFresh done
  | sysout userWin => exact taken ▸ kept.setSysout userWin
  | graphicsGet userWin memory => exact taken.2 ▸ kept.graphicsGet userWin memory
  | graphicsCreate userlandPtr newGraphics x y width height memory =>
      exact taken.2.2 ▸ kept.graphicsCreate taken.2.1 userlandPtr x y width height memory
  | pixelsGet userlandPtr => exact taken ▸ kept
  | print => exact taken ▸ kept
  | redraw userWin => exact taken ▸ kept
  | focus window =>
      obtain ⟨sound, more⟩ := kept.sound.focus window
      exact taken.2 ▸ kept.more sound more
  | close window memory =>
      obtain ⟨⟨win, isIn, isWindow⟩, fuel, done⟩ := taken
      exact kept.close unreferenced isIn isWindow done

/-! ### The window with the focus -/

/-- The window with the focus exists. -/
def FocusLive (ω : WindowSystem) : Prop := ω.focusedWindow = 0 ∨ ω.focusedWindow ∈ ω.liveWindows

/-- It exists after a new window was created, which has the focus. -/
theorem FocusLive.windowCreate {ω : WindowSystem} (focused : FocusLive ω) (memory : WindowMemory) (graphicsInfo : Nat)
    (x y width height : BitVec 64) (flags : BitVec 32) :
    FocusLive (ω.windowCreate memory graphicsInfo x y width height flags).2 := by
  unfold FocusLive
  obtain ⟨-, ⟨-, live, same⟩ | ⟨-, -, live, isNew⟩⟩ :=
    windowCreate_windows ω memory graphicsInfo x y width height flags
  · rw [live, same]
    exact focused
  · rw [live, isNew]
    exact .inr List.mem_cons_self

theorem FocusLive.create (focused : FocusLive σ.desktop) {fuel win : Nat} {memory : ProcessWindowMemory}
    {width height flags : BitVec 32} (isUser : memory.userWin ≠ 0)
    (done : σ.processWindowCreate fuel memory width height flags = some (win, σ')) : FocusLive σ'.desktop := by
  unfold processWindowCreate at done
  split at done
  · exact (Prod.mk.inj (Option.some.inj done)).2 ▸ focused
  · dsimp only at done
    generalize (BitVec.setWidth 64 _ : BitVec 64) = absX at done
    generalize (BitVec.setWidth 64 _ : BitVec 64) = absY at done
    have still := focused.windowCreate memory.window σ.desktop.store.screen absX absY (width.signExtend 64)
      (height.signExtend 64) flags
    split at done
    · exact (Prod.mk.inj (Option.some.inj done)).2 ▸ still
    · exact (Prod.mk.inj (Option.some.inj done)).2 ▸ still

theorem FocusLive.close (focused : FocusLive σ.desktop) {fuel window : Nat} {memory : Bool}
    (isNot : window ≠ σ.desktop.focusedWindow) (done : σ.closeWindow fuel window memory = some σ') :
    FocusLive σ'.desktop := by
  unfold closeWindow at done
  obtain ⟨desktop, closed, rfl⟩ := Option.map_eq_some_iff.mp done
  have sameDesktop : (if σ.processWindowGetFromKernelWindow window = 0 then σ
      else σ.processWindowClosed (σ.processWindowGetFromKernelWindow window) memory).desktop = σ.desktop := by
    split <;> rfl
  rw [sameDesktop] at closed
  obtain ⟨-, -, -, live, -, same⟩ := windowFree_windows closed
  unfold FocusLive
  rw [same, live]
  exact focused.imp_right (List.mem_erase_of_ne isNot.symm).mpr

/-- The graphics calls change no window. -/
theorem graphicsCreate_windows (σ : ProcessWindows) (userlandPtr newGraphics : Nat) (x y width height : BitVec 64)
    (memory : MetadataMemory) :
    ∃ store, (σ.isr80hCommand22GraphicsCreate userlandPtr newGraphics x y width height memory).2.desktop =
      { σ.desktop with store := store } := by
  unfold isr80hCommand22GraphicsCreate
  dsimp only
  split
  · exact ⟨_, rfl⟩
  · split
    · exact ⟨_, rfl⟩
    · rw [metadata_eq]
      exact ⟨_, rfl⟩

/-- **It exists in every state**, if no window with the focus is closed. -/
theorem FocusLive.step (focused : FocusLive σ.desktop) (kept : σ.Kept) {call : ProcessWindowCall}
    (unfocused : σ.unfocused call) (taken : σ.step call σ') : FocusLive σ'.desktop := by
  cases call with
  | create memory width height flags =>
      obtain ⟨-, -, -, fuel, win, done⟩ := taken
      exact focused.create unfocused done
  | sysout userWin =>
      have same : (σ.isr80hCommand17SysoutToWindow userWin).desktop = σ.desktop := by
        unfold isr80hCommand17SysoutToWindow
        dsimp only
        split
        · rfl
        · split <;> rfl
      exact taken ▸ same.symm ▸ focused
  | graphicsGet userWin memory =>
      have same : (σ.isr80hCommand19WindowGraphicsGet userWin memory).2.desktop = σ.desktop := by
        unfold isr80hCommand19WindowGraphicsGet
        dsimp only
        split
        · rfl
        · split
          · rfl
          · rw [metadata_eq]
      exact taken.2 ▸ same.symm ▸ focused
  | graphicsCreate userlandPtr newGraphics x y width height memory =>
      obtain ⟨store, same⟩ := σ.graphicsCreate_windows userlandPtr newGraphics x y width height memory
      rw [taken.2.2, same]
      exact focused
  | pixelsGet userlandPtr => exact taken ▸ focused
  | print => exact taken ▸ focused
  | redraw userWin => exact taken ▸ focused
  | focus window =>
      obtain ⟨inVector, rfl⟩ := taken
      have same := windowFocus_same σ.desktop window
      unfold FocusLive
      dsimp only
      rw [windowFocus_focused, same.live]
      split
      · exact focused
      · exact .inr (kept.sound.live window inVector)
  | close window memory =>
      obtain ⟨-, fuel, done⟩ := taken
      exact focused.close unfocused done

end ProcessWindows

open ProcessWindows

/-- A process without windows, on a tiny empty desktop. -/
def windowless : ProcessWindows where
  process := 1
  desktop := emptyDesktop
  pointers := noUserlandPointers.pointers
  windows := []
  processWindow _ := ⟨0, 0⟩
  live := []
  sysoutWin := 0

theorem windowless_begins : windowless.Begins where
  sound := ⟨(graphicsSetup_tree (by decide) _).toLinked, List.nodup_nil, fun _ isIn => absurd isIn List.not_mem_nil⟩
  focused := .inl rfl
  windows := rfl
  sysout := rfl
  pointers := rfl

/-- What the allocations for a borderless window return. -/
def tinyWindowMemory : ProcessWindowMemory := ⟨0x6000, ⟨0x5000, 0x2000, 0, 0, 0, 0, 0x3000, true⟩, 0x7000, true⟩

/-- The process with a window of four by four pixels. -/
def windowed : ProcessWindows where
  process := 1
  desktop := (emptyDesktop.windowCreate tinyWindowMemory.window 0x1000 3 3 4 4 windowFlagBorderless).2
  pointers := noUserlandPointers.pointers
  windows := [0x6000]
  processWindow := Function.update (fun _ => ⟨0, 0⟩) 0x6000 ⟨0x7000, 0x5000⟩
  live := [0x6000]
  sysoutWin := 0

theorem windowed_reached {ok : ProcessWindows → ProcessWindowCall → Prop}
    (allowed : ok windowless (.create tinyWindowMemory 4 4 windowFlagBorderless)) :
    Reachable (Guarded ok step) Begins windowed := by
  refine .next (.create tinyWindowMemory 4 4 windowFlagBorderless) (.start windowless_begins)
    ⟨allowed, ?_, ?_, ?_, 0, 0x6000, ?_⟩
  · decide
  · decide
  · exact ⟨by decide, by decide⟩
  · rfl

end PeachOS
