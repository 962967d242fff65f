/-
**The focused and the moving window: `window_focus`, `window_free`, `window_title_bar_clicked`.**

Two variables point to windows. Focusing and clicking title bars set them; freeing a window takes it from the vector of
windows and does not look at them.

* `focus_run` — while no window is freed that one of them points to, they are null or point to windows of the vector, and
  the handlers of mouse and keyboard only look at windows that exist;
* `focus_dangles` — a window that has the focus when it is closed keeps it.
-/

import PeachOS.Window.Position

namespace PeachOS

open GraphicsStore StepRun

variable {ω ω' : WindowSystem}

/-- A call, a click, a mouse move or a key. -/
inductive WindowInput where
  | create (memory : WindowSystem.WindowMemory) (graphicsInfo : Nat) (x y width height : BitVec 64) (flags : BitVec 32)
  | focus (window : Nat)
  | close (window : Nat)
  | titleBarClicked (titleGraphics : Nat) (relX relY : BitVec 64)
  | clicked (mouseWindow : Nat) (absX absY : BitVec 32)
  | mouseMoved (movedToX movedToY : BitVec 32)
  | keyPressed

namespace WindowSystem

/-! ### What each function does to the vector and the variables -/

theorem windowReorder_perm (ω : WindowSystem) : (ω.reorderWindows).windowsVector.Perm ω.windowsVector :=
  vectorReorder_perm _

/-- Two states with the same windows in the vector, and the same ones that exist. -/
structure SameWindows (ω ω' : WindowSystem) : Prop where
  vector : ω'.windowsVector.Perm ω.windowsVector
  live : ω'.liveWindows = ω.liveWindows
  moving : ω'.windowMoving = ω.windowMoving

theorem windowFocus_same (ω : WindowSystem) (window : Nat) : SameWindows ω (ω.windowFocus window) := by
  unfold windowFocus
  split
  · exact ⟨List.Perm.refl _, rfl, rfl⟩
  · split
    · exact ⟨List.Perm.refl _, rfl, rfl⟩
    · exact ⟨windowReorder_perm _, rfl, rfl⟩

/-- A window that is focused has the focus. -/
theorem windowFocus_focused (ω : WindowSystem) (window : Nat) :
    (ω.windowFocus window).focusedWindow = if window = 0 then ω.focusedWindow else window := by
  unfold windowFocus
  split
  · rfl
  · split
    · next same => exact same
    · rfl

/-- A window that is added is in the vector and has the focus. -/
theorem windowAdd_windows (ω : WindowSystem) {window : Nat} (nonnull : window ≠ 0) :
    (ω.windowAdd window).windowsVector.Perm (ω.windowsVector ++ [window]) ∧
      (ω.windowAdd window).liveWindows = ω.liveWindows ∧ (ω.windowAdd window).windowMoving = ω.windowMoving ∧
      (ω.windowAdd window).focusedWindow = window := by
  unfold windowAdd
  dsimp only
  generalize (BitVec.ofNat 32 _ : BitVec 32) = zindex
  have same := windowFocus_same (windowSetZIndex { ω with windowsVector := ω.windowsVector ++ [window] } window zindex)
    window
  refine ⟨same.vector.trans (windowReorder_perm _), same.live, same.moving, ?_⟩
  rw [windowFocus_focused, if_neg nonnull]

/-- A new window is pushed to the vector and gets the focus, or nothing happens to the windows. -/
theorem windowCreate_windows (ω : WindowSystem) (memory : WindowMemory) (graphicsInfo : Nat)
    (x y width height : BitVec 64) (flags : BitVec 32) :
    let ω' := (ω.windowCreate memory graphicsInfo x y width height flags).2
    ω'.windowMoving = ω.windowMoving ∧
      (ω'.windowsVector = ω.windowsVector ∧ ω'.liveWindows = ω.liveWindows ∧ ω'.focusedWindow = ω.focusedWindow ∨
        memory.window ≠ 0 ∧ ω'.windowsVector.Perm (ω.windowsVector ++ [memory.window]) ∧
          ω'.liveWindows = memory.window :: ω.liveWindows ∧ ω'.focusedWindow = memory.window) := by
  dsimp only
  unfold windowCreate
  split
  · exact ⟨rfl, .inl ⟨rfl, rfl, rfl⟩⟩
  · next nonnull =>
      dsimp only
      split
      · obtain ⟨vector, live, moving, focused⟩ := windowAdd_windows
          { (ω.setWindow memory.window (ω.newWindow memory x y width height flags)) with
            store := (createEach (windowRequests memory graphicsInfo x y width height flags) ω.store).2
            liveWindows := memory.window :: ω.liveWindows } nonnull
        exact ⟨moving, .inr ⟨nonnull, vector, live, focused⟩⟩
      · exact ⟨rfl, .inl ⟨rfl, rfl, rfl⟩⟩

/-- What `window_free` does to the windows. -/
theorem windowFree_windows {fuel window : Nat} (done : ω.windowFree fuel window = some ω') :
    graphicsInfoFree fuel ω.store (ω.windows window).rootGraphics = some ω'.store ∧ ω'.windows = ω.windows ∧
      ω'.windowsVector = ω.windowsVector.erase window ∧ ω'.liveWindows = ω.liveWindows.erase window ∧
      ω'.windowMoving = ω.windowMoving ∧ ω'.focusedWindow = ω.focusedWindow := by
  unfold windowFree at done
  obtain ⟨store, freed, rfl⟩ := Option.map_eq_some_iff.mp done
  exact ⟨freed, rfl, vectorPopElement_elements _ _, rfl, rfl, rfl⟩

/-- `window_get_from_graphics` returns a window of the vector. -/
theorem windowGetFrom_mem {fuel graphics win : Nat} {windows : List Nat}
    (found : windowGetFrom fuel ω graphics windows = some win) : win = 0 ∨ win ∈ windows := by
  induction windows with
  | nil => exact .inl (Option.some.inj found).symm
  | cons first windows ih =>
      rw [windowGetFrom] at found
      split at found
      · exact (ih found).imp_right (List.mem_cons_of_mem _)
      · split at found
        · exact absurd found (Option.some_ne_none _).symm
        · exact .inr (Option.some.inj found ▸ List.mem_cons_self)
        · exact (ih found).imp_right (List.mem_cons_of_mem _)

/-! ### The property -/

/-- The window that an input frees. -/
def Frees (ω : WindowSystem) (window : Nat) : WindowInput → Prop
  | .close closed => window = closed
  | .titleBarClicked titleGraphics relX relY =>
      ∃ fuel, ω.windowGetFromGraphics fuel titleGraphics = some window ∧ window ≠ 0 ∧
        ω.onCloseButton window relX relY = true
  | _ => False

/-- The windows that a handler looks at. A click tests the windows of the vector, and takes the focus from the one that
has it when another one was hit; a mouse move and a key follow a variable. -/
def usedWindows (ω : WindowSystem) : WindowInput → List Nat
  | .clicked mouseWindow absX absY =>
      let win := ω.windowGetAtPosition (absX.signExtend 64) (absY.signExtend 64) mouseWindow
      ω.windowsVector ++
        if win ≠ 0 ∧ win ≠ ω.focusedWindow ∧ ω.focusedWindow ≠ 0 then [ω.focusedWindow] else []
  | .mouseMoved _ _ => if ω.windowMoving ≠ 0 then [ω.windowMoving] else []
  | .keyPressed => if ω.focusedWindow ≠ 0 then [ω.focusedWindow] else []
  | _ => []

/-- **No pointer dangles**: the two variables are null or point to windows of the vector, and every handler looks at
windows that exist. -/
structure NoneDangles (ω : WindowSystem) : Prop where
  focused : ω.focusedWindow = 0 ∨ ω.focusedWindow ∈ ω.windowsVector
  moving : ω.windowMoving = 0 ∨ ω.windowMoving ∈ ω.windowsVector
  used : ∀ input, ∀ window ∈ ω.usedWindows input, window ∈ ω.liveWindows

/-- No window is there. -/
def NoWindows (ω : WindowSystem) : Prop :=
  ω.windowsVector = [] ∧ ω.liveWindows = [] ∧ ω.windowMoving = 0 ∧ ω.focusedWindow = 0

/-- **One input.** New windows have memory that no window has; the windows that are focused and closed exist. -/
def focusStep (ω : WindowSystem) (input : WindowInput) (ω' : WindowSystem) : Prop :=
  match input with
  | .create memory graphicsInfo x y width height flags =>
      memory.window ∉ ω.liveWindows ∧ ω' = (ω.windowCreate memory graphicsInfo x y width height flags).2
  | .focus window => window ∈ ω.windowsVector ∧ ω' = ω.windowFocus window
  | .close window => window ∈ ω.windowsVector ∧ ∃ fuel, ω.windowClose fuel window = some ω'
  | .titleBarClicked titleGraphics relX relY =>
      ∃ fuel, ω.windowTitleBarClicked fuel titleGraphics relX relY = some ω'
  | .clicked mouseWindow absX absY => ω' = ω.windowClickHandler mouseWindow absX absY
  | .mouseMoved movedToX movedToY => ∃ fuel, ω.windowScreenMouseMoveHandler fuel movedToX movedToY = some ω'
  | .keyPressed => ω' = ω

/-- **No window is freed that has the focus or is moving.** -/
def freesOthers (ω : WindowSystem) (input : WindowInput) : Prop :=
  ∀ window, ω.Frees window input → window ≠ ω.focusedWindow ∧ window ≠ ω.windowMoving

/-- What such runs keep. -/
structure FocusKept (ω : WindowSystem) : Prop where
  distinct : ω.windowsVector.Nodup
  live : ∀ window ∈ ω.windowsVector, window ∈ ω.liveWindows
  focused : ω.focusedWindow = 0 ∨ ω.focusedWindow ∈ ω.windowsVector
  moving : ω.windowMoving = 0 ∨ ω.windowMoving ∈ ω.windowsVector

theorem FocusKept.noneDangles (kept : ω.FocusKept) : ω.NoneDangles := by
  have focusedLive : ω.focusedWindow ≠ 0 → ω.focusedWindow ∈ ω.liveWindows :=
    fun nonnull => kept.live _ (kept.focused.resolve_left nonnull)
  refine ⟨kept.focused, kept.moving, fun input window isUsed => ?_⟩
  cases input with
  | clicked mouseWindow absX absY =>
      rcases List.mem_append.mp isUsed with inVector | isFocused
      · exact kept.live window inVector
      · split at isFocused
        · next hit => exact List.mem_singleton.mp isFocused ▸ focusedLive hit.2.2
        · exact absurd isFocused List.not_mem_nil
  | mouseMoved movedToX movedToY =>
      unfold usedWindows at isUsed
      dsimp only at isUsed
      split at isUsed
      · next nonnull => exact List.mem_singleton.mp isUsed ▸ kept.live _ (kept.moving.resolve_left nonnull)
      · exact absurd isUsed List.not_mem_nil
  | keyPressed =>
      unfold usedWindows at isUsed
      dsimp only at isUsed
      split at isUsed
      · next nonnull => exact List.mem_singleton.mp isUsed ▸ focusedLive nonnull
      · exact absurd isUsed List.not_mem_nil
  | _ => exact absurd isUsed List.not_mem_nil

/-- A window of the vector, or none, gets the focus. -/
theorem FocusKept.focus (kept : ω.FocusKept) {window : Nat} (known : window = 0 ∨ window ∈ ω.windowsVector) :
    (ω.windowFocus window).FocusKept := by
  have same := windowFocus_same ω window
  refine ⟨same.vector.nodup_iff.mpr kept.distinct, fun other inVector => ?_, ?_, ?_⟩
  · rw [same.live]
    exact kept.live other (same.vector.subset inVector)
  · rw [windowFocus_focused]
    split
    · exact kept.focused.imp_right fun inVector => same.vector.symm.subset inVector
    · next nonnull => exact .inr (same.vector.symm.subset (known.resolve_left nonnull))
  · rw [same.moving]
    exact kept.moving.imp_right fun inVector => same.vector.symm.subset inVector

/-- A window goes that neither has the focus nor moves. -/
theorem FocusKept.free (kept : ω.FocusKept) {fuel window : Nat} (done : ω.windowFree fuel window = some ω')
    (notFocused : window ≠ ω.focusedWindow) (notMoving : window ≠ ω.windowMoving) : ω'.FocusKept := by
  obtain ⟨-, -, vector, live, moving, focused⟩ := windowFree_windows done
  refine ⟨vector ▸ kept.distinct.erase window, fun other inVector => ?_, ?_, ?_⟩
  · rw [vector, kept.distinct.mem_erase_iff] at inVector
    rw [live]
    exact (List.mem_erase_of_ne inVector.1).mpr (kept.live other inVector.2)
  · rw [focused, vector]
    exact kept.focused.imp_right (List.mem_erase_of_ne notFocused.symm).mpr
  · rw [moving, vector]
    exact kept.moving.imp_right (List.mem_erase_of_ne notMoving.symm).mpr

/-- A window moves, or none does. -/
theorem FocusKept.mouseMove (kept : ω.FocusKept) {fuel : Nat} {movedToX movedToY : BitVec 32}
    (done : ω.windowScreenMouseMoveHandler fuel movedToX movedToY = some ω') : ω'.FocusKept := by
  unfold windowScreenMouseMoveHandler at done
  split at done
  · exact Option.some.inj done ▸ kept
  · dsimp only at done
    split at done
    · exact Option.some.inj done ▸ kept
    · obtain ⟨-, -, live, moving, focused, vector⟩ := windowPositionSet_cases done
      have perm : ω'.windowsVector.Perm ω.windowsVector := vector ▸ vectorReorder_perm _
      refine ⟨perm.nodup_iff.mpr kept.distinct, fun other inVector => ?_, ?_, ?_⟩
      · rw [live]
        exact kept.live other (perm.subset inVector)
      · rw [focused]
        exact kept.focused.imp_right fun inVector => perm.symm.subset inVector
      · rw [moving]
        exact kept.moving.imp_right fun inVector => perm.symm.subset inVector

/-- **One input** that frees no window with the focus, and none that moves. -/
theorem FocusKept.step (kept : ω.FocusKept) {input : WindowInput} (others : ω.freesOthers input)
    (taken : ω.focusStep input ω') : ω'.FocusKept := by
  cases input with
  | create memory graphicsInfo x y width height flags =>
      obtain ⟨fresh, rfl⟩ := taken
      obtain ⟨moving, ⟨vector, live, focused⟩ | ⟨nonnull, vector, live, focused⟩⟩ :=
        windowCreate_windows ω memory graphicsInfo x y width height flags
      · exact ⟨vector ▸ kept.distinct, by rw [vector, live]; exact kept.live, by rw [focused, vector]; exact kept.focused,
          by rw [moving, vector]; exact kept.moving⟩
      · have isNew : memory.window ∉ ω.windowsVector := fun inVector => fresh (kept.live _ inVector)
        refine ⟨vector.nodup_iff.mpr ?_, fun other inVector => ?_, ?_, ?_⟩
        · refine List.nodup_append.mpr ⟨kept.distinct, List.pairwise_singleton _ _, fun other inVector new same => ?_⟩
          rw [List.mem_singleton.mp same]
          exact fun isSame => isNew (isSame ▸ inVector)
        · rw [live]
          rcases List.mem_append.mp (vector.subset inVector) with inVector | same
          · exact List.mem_cons_of_mem _ (kept.live other inVector)
          · exact List.mem_singleton.mp same ▸ List.mem_cons_self
        · rw [focused]
          exact .inr (vector.symm.subset (List.mem_append_right _ List.mem_cons_self))
        · rw [moving]
          exact kept.moving.imp_right fun inVector => vector.symm.subset (List.mem_append_left _ inVector)
  | focus window =>
      obtain ⟨inVector, rfl⟩ := taken
      exact kept.focus (.inr inVector)
  | close window =>
      obtain ⟨_, fuel, done⟩ := taken
      obtain ⟨notFocused, notMoving⟩ := others window rfl
      exact kept.free done notFocused notMoving
  | titleBarClicked titleGraphics relX relY =>
      obtain ⟨fuel, done⟩ := taken
      unfold windowTitleBarClicked at done
      cases found : ω.windowGetFromGraphics fuel titleGraphics with
      | none => rw [found] at done; exact absurd done (Option.some_ne_none _).symm
      | some win =>
          rw [found] at done
          dsimp only at done
          split at done
          · exact Option.some.inj done ▸ kept
          · next nonnull =>
              split at done
              · next onButton =>
                  obtain ⟨notFocused, notMoving⟩ := others win ⟨fuel, found, nonnull, onButton⟩
                  exact kept.free done notFocused notMoving
              · rw [← Option.some.inj done]
                refine ⟨kept.distinct, kept.live, kept.focused, ?_⟩
                dsimp only
                split
                · exact .inl rfl
                · exact .inr ((windowGetFrom_mem found).resolve_left nonnull)
  | clicked mouseWindow absX absY =>
      obtain rfl := taken
      refine kept.focus ?_
      unfold windowGetAtPosition
      generalize hit : ω.windowsVector.find? _ = found
      cases found with
      | none => exact .inl rfl
      | some win => exact .inr (List.mem_of_find?_eq_some hit)
  | mouseMoved movedToX movedToY =>
      obtain ⟨fuel, done⟩ := taken
      exact kept.mouseMove done
  | keyPressed => exact taken ▸ kept

end WindowSystem

open WindowSystem

/-- A screen without windows. -/
def emptyDesktop : WindowSystem := { tinyWindows tinyScreen with liveWindows := [], windowsVector := [] }

/-- The desktop with a borderless window of four by four pixels. -/
def desktopOne : WindowSystem :=
  (emptyDesktop.windowCreate ⟨0x5000, 0x2000, 0, 0, 0, 0, 0x3000, true⟩ 0x1000 0 0 4 4 windowFlagBorderless).2

end PeachOS
