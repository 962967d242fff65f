/-
**The parts of a window, while other windows come and go.**

The root of a window is a child of the screen, and its title bar and body are children of the root. Creating graphics
leaves them there, and so does freeing another window.

* `MoreGraphics`, `createEach_more` — what creating graphics keeps;
* `HasParts`, `windowCreate_parts` — a new window has its parts, and the others keep theirs;
* `Sound.close`, `HasParts.close` — a window that is closed takes no part of another one.
-/

import PeachOS.Graphics.Free
import PeachOS.Window.Build
import PeachOS.Window.Focus

namespace PeachOS

open GraphicsStore

namespace GraphicsStore

variable {σ σ' : GraphicsStore}

/-! ### More graphics -/

/-- **Graphics were created**: the links stay right, all that was live is live and has the children that it had, and an
old graphics is a child only of what it was a child of. -/
structure MoreGraphics (σ σ' : GraphicsStore) : Prop where
  linked : σ'.Linked
  live : ∀ graphics ∈ σ.live, graphics ∈ σ'.live
  screen : σ'.screen = σ.screen
  children : ∀ graphics ∈ σ.live, ∀ child ∈ (σ.nodes graphics).children, child ∈ (σ'.nodes graphics).children
  old : ∀ graphics ∈ σ'.live, ∀ child ∈ (σ'.nodes graphics).children, child ∈ σ.live →
    graphics ∈ σ.live ∧ child ∈ (σ.nodes graphics).children

theorem MoreGraphics.of_sameTree (linked : σ.Linked) (same : SameTree σ σ') : MoreGraphics σ σ' where
  linked := linked.sameTree same
  live graphics isLive := by rw [same.live]; exact isLive
  screen := same.screen
  children graphics _ _ isChild := (same.nodes graphics).children.symm.subset isChild
  old graphics isLive child isChild _ := by
    rw [same.live] at isLive
    exact ⟨isLive, (same.nodes graphics).children.subset isChild⟩

theorem MoreGraphics.refl (linked : σ.Linked) : MoreGraphics σ σ :=
  ⟨linked, fun _ isLive => isLive, rfl, fun _ _ _ isChild => isChild, fun _ isLive _ isChild _ => ⟨isLive, isChild⟩⟩

theorem MoreGraphics.trans {σ'' : GraphicsStore} (first : MoreGraphics σ σ') (second : MoreGraphics σ' σ'') :
    MoreGraphics σ σ'' where
  linked := second.linked
  live graphics isLive := second.live graphics (first.live graphics isLive)
  screen := second.screen.trans first.screen
  children graphics isLive child isChild :=
    second.children graphics (first.live graphics isLive) child (first.children graphics isLive child isChild)
  old graphics isLive child isChild wasLive := by
    obtain ⟨stillLive, wasChild⟩ := second.old graphics isLive child isChild (first.live child wasLive)
    exact first.old graphics stillLive child wasChild wasLive

/-- **What is below a new graphics is new.** -/
theorem MoreGraphics.below_new (more : MoreGraphics σ σ') {top graphics : Nat} (isNew : top ∉ σ.live)
    (topLive : top ∈ σ'.live) (below : Below σ' top graphics) : graphics ∉ σ.live := by
  induction below with
  | self => exact isNew
  | child above isChild ih =>
      exact fun wasLive => ih (more.old _ (above.held more.linked topLive).1 _ isChild wasLive).1

/-- An attached graphics is one more. -/
theorem MoreGraphics.attach (linked : σ.Linked) {newGraphics sourceGraphics : Nat} {node : GraphicsNode}
    (fresh : newGraphics ∉ σ.live) (nonnull : newGraphics ≠ 0) (sourceLive : sourceGraphics ∈ σ.live)
    (parent : node.parent = sourceGraphics) (childless : node.children = []) :
    MoreGraphics σ (σ.attach newGraphics sourceGraphics node) := by
  have different : newGraphics ≠ sourceGraphics := fun same => fresh (same ▸ sourceLive)
  have isOld : ∀ graphics ∈ σ.live, graphics ≠ newGraphics := fun graphics isLive same => fresh (same ▸ isLive)
  refine ⟨linked.attach fresh nonnull sourceLive parent childless, fun graphics => List.mem_cons_of_mem _, rfl,
    fun graphics isLive child isChild => ?_, fun graphics isLive child isChild wasLive => ?_⟩
  · rw [attach_old different (isOld graphics isLive)]
    dsimp only
    split
    · exact List.mem_append_left _ isChild
    · exact isChild
  · rcases List.mem_cons.mp isLive with rfl | isLive
    · rw [attach_new different, childless] at isChild
      exact absurd isChild List.not_mem_nil
    · rw [attach_old different (isOld graphics isLive)] at isChild
      dsimp only at isChild
      split at isChild
      · rcases List.mem_append.mp isChild with isChild | isNew
        · exact ⟨isLive, isChild⟩
        · exact absurd (List.mem_singleton.mp isNew) (isOld child wasLive)
      · exact ⟨isLive, isChild⟩

/-- **One more graphics**, unless it is refused. -/
theorem graphicsInfoCreateRelative_more (linked : σ.Linked) {newGraphics sourceGraphics : Nat}
    (fresh : newGraphics ∉ σ.live) (sourceLive : sourceGraphics ∈ σ.live) (x y width height : BitVec 64)
    (flags : BitVec 32) :
    σ.graphicsInfoCreateRelative newGraphics sourceGraphics x y width height flags = (0, σ) ∨
      newGraphics ≠ 0 ∧ ∃ σ', σ.graphicsInfoCreateRelative newGraphics sourceGraphics x y width height flags =
          (newGraphics, σ') ∧ MoreGraphics σ σ' ∧ σ'.live = newGraphics :: σ.live ∧
        newGraphics ∈ (σ'.nodes sourceGraphics).children := by
  obtain refused | ⟨nonnull, _, pixels, created⟩ :=
    graphicsInfoCreateRelative_cases σ newGraphics sourceGraphics x y width height flags
  · exact .inl refused
  · dsimp only at created
    refine .inr ⟨nonnull, _, created, ?_, ?_, ?_⟩
    · have attached : MoreGraphics σ (σ.attach newGraphics sourceGraphics (newNode sourceGraphics
          { PeachOS.newGraphics (σ.nodes sourceGraphics).info x y width height with pixels := pixels } x y)) :=
        .attach linked fresh nonnull sourceLive rfl rfl
      exact attached.trans (.of_sameTree attached.linked (SameTree.graphicsSetZIndex _ _ _))
    · exact (SameTree.graphicsSetZIndex _ _ _).live
    · have different : newGraphics ≠ sourceGraphics := fun same => fresh (same ▸ sourceLive)
      refine ((SameTree.graphicsSetZIndex _ _ _).nodes sourceGraphics).children.symm.subset ?_
      rw [attach_source different]
      exact List.mem_append_right _ List.mem_cons_self

end GraphicsStore

namespace WindowSystem

variable {ω ω' : WindowSystem} {σ : GraphicsStore}

/-- **Graphics that are created below a root** become its children. -/
theorem createEach_more (linked : σ.Linked) {root : Nat} (rootLive : root ∈ σ.live) (requests : List GraphicsRequest)
    (sources : ∀ request ∈ requests, request.sourceGraphics = root)
    (new : NewMemory σ (requests.map GraphicsRequest.newGraphics)) :
    MoreGraphics σ (createEach requests σ).2 ∧ ((createEach requests σ).1 = true →
      ∀ graphics ∈ requests.map GraphicsRequest.newGraphics,
        graphics ∈ ((createEach requests σ).2.nodes root).children) := by
  induction requests generalizing σ with
  | nil => exact ⟨.refl linked, fun _ graphics isIn => absurd isIn List.not_mem_nil⟩
  | cons request requests ih =>
      obtain ⟨newGraphics, sourceGraphics, x, y, width, height, flags⟩ := request
      obtain rfl : sourceGraphics = root := sources _ List.mem_cons_self
      rw [createEach]
      dsimp only
      obtain refused | ⟨nonnull, next, created, more, live, isChild⟩ :=
        graphicsInfoCreateRelative_more linked (new.fresh newGraphics List.mem_cons_self) rootLive x y width height flags
      · rw [refused]
        exact ⟨.refl linked, fun failed => Bool.noConfusion failed⟩
      · rw [created]
        dsimp only
        rw [if_neg nonnull]
        obtain ⟨rest, areChildren⟩ := ih more.linked (more.live _ rootLive)
          (fun request isIn => sources request (List.mem_cons_of_mem _ isIn)) (new.next nonnull live)
        refine ⟨more.trans rest, fun done graphics isIn => ?_⟩
        rcases List.mem_cons.mp isIn with rfl | isIn
        · exact rest.children _ (more.live _ rootLive) _ isChild
        · exact areChildren done graphics isIn

/-- **The graphics of a window** are more graphics, and its parts are where they belong. -/
theorem windowRequests_more (linked : σ.Linked) {memory : WindowMemory} (new : NewMemory σ memory.graphics)
    {graphicsInfo : Nat} (isLive : graphicsInfo ∈ σ.live) (x y width height : BitVec 64) (flags : BitVec 32) :
    let created := createEach (windowRequests memory graphicsInfo x y width height flags) σ
    MoreGraphics σ created.2 ∧ (created.1 = true →
      memory.root ∈ (created.2.nodes graphicsInfo).children ∧ memory.body ∈ (created.2.nodes memory.root).children ∧
        (flags &&& windowFlagBorderless = 0 → memory.titleBar ∈ (created.2.nodes memory.root).children)) := by
  obtain ⟨requests, same, sources, part, -, body, titleBar⟩ :=
    windowRequests_eq memory graphicsInfo x y width height flags
  have newPart := new.sublist part
  dsimp only
  rw [same, createEach]
  dsimp only
  obtain refused | ⟨nonnull, next, created, more, live, isChild⟩ :=
    graphicsInfoCreateRelative_more linked (newPart.fresh memory.root List.mem_cons_self) isLive x y
      (totalWindowWidthBounds width flags) (totalWindowHeightBounds height flags) graphicsFlagDoNotCopyPixels
  · rw [refused]
    exact ⟨.refl linked, fun failed => Bool.noConfusion failed⟩
  · rw [created]
    dsimp only
    rw [if_neg nonnull]
    have rootLive : memory.root ∈ next.live := by
      rw [live]
      exact List.mem_cons_self
    obtain ⟨rest, areChildren⟩ := createEach_more more.linked rootLive requests sources (newPart.next nonnull live)
    refine ⟨more.trans rest, fun done => ⟨?_, ?_, fun bordered => ?_⟩⟩
    · exact rest.children _ (more.live _ isLive) _ isChild
    · exact areChildren done _ body
    · exact areChildren done _ (titleBar bordered)

/-! ### The parts of a window -/

/-- **A window with its parts.** -/
structure HasParts (ω : WindowSystem) (window : Nat) : Prop where
  live : window ∈ ω.liveWindows
  root : (ω.windows window).rootGraphics ∈ (ω.store.nodes ω.store.screen).children
  titleBar : (ω.windows window).titleBarGraphics = 0 ∨
    (ω.windows window).titleBarGraphics ∈ (ω.store.nodes (ω.windows window).rootGraphics).children
  body : (ω.windows window).graphics ∈ (ω.store.nodes (ω.windows window).rootGraphics).children

theorem HasParts.rootLive {window : Nat} (parts : ω.HasParts window) (linked : ω.store.Linked) :
    (ω.windows window).rootGraphics ∈ ω.store.live := (linked.child _ linked.screenLive _ parts.root).1

theorem HasParts.bodyLive {window : Nat} (parts : ω.HasParts window) (linked : ω.store.Linked) :
    (ω.windows window).graphics ∈ ω.store.live := (linked.child _ (parts.rootLive linked) _ parts.body).1

/-- Creating graphics takes no part. -/
theorem HasParts.more {window : Nat} (parts : ω.HasParts window) (linked : ω.store.Linked)
    (more : MoreGraphics ω.store ω'.store) (live : window ∈ ω'.liveWindows)
    (record : ω'.windows window = ω.windows window) : ω'.HasParts window := by
  refine ⟨live, ?_, ?_, ?_⟩ <;> rw [record]
  · rw [more.screen]
    exact more.children _ linked.screenLive _ parts.root
  · exact parts.titleBar.imp_right (more.children _ (parts.rootLive linked) _)
  · exact more.children _ (parts.rootLive linked) _ parts.body

/-- **The windows that the vector holds exist**, each once, and the graphics are linked. -/
structure Sound (ω : WindowSystem) : Prop where
  linked : ω.store.Linked
  distinct : ω.windowsVector.Nodup
  live : ∀ window ∈ ω.windowsVector, window ∈ ω.liveWindows

/-- Windows were created: the others exist as before. -/
structure MoreWindows (ω ω' : WindowSystem) : Prop where
  store : MoreGraphics ω.store ω'.store
  live : ∀ window ∈ ω.liveWindows, window ∈ ω'.liveWindows
  windows : ∀ window ∈ ω.liveWindows, ω'.windows window = ω.windows window

theorem HasParts.moreWindows {window : Nat} (parts : ω.HasParts window) (linked : ω.store.Linked)
    (more : MoreWindows ω ω') : ω'.HasParts window :=
  parts.more linked more.store (more.live window parts.live) (more.windows window parts.live)

/-- Focusing reorders. -/
theorem windowFocus_tree (ω : WindowSystem) (window : Nat) :
    SameTree ω.store (ω.windowFocus window).store ∧ (ω.windowFocus window).windows = ω.windows := by
  have same : SameTree ω.store ω.store := ⟨fun _ => .refl _, rfl, rfl, rfl⟩
  unfold windowFocus
  split
  · exact ⟨same, rfl⟩
  · split
    · exact ⟨same, rfl⟩
    · exact ⟨SameTree.windowBringToTop _ _, rfl⟩

/-- Adding a window reorders. -/
theorem windowAdd_tree (ω : WindowSystem) (window : Nat) :
    SameTree ω.store (ω.windowAdd window).store ∧ (ω.windowAdd window).windows = ω.windows := by
  unfold windowAdd
  dsimp only
  generalize (BitVec.ofNat 32 _ : BitVec 32) = zindex
  obtain ⟨same, windows⟩ :=
    windowFocus_tree (windowSetZIndex { ω with windowsVector := ω.windowsVector ++ [window] } window zindex) window
  exact ⟨(SameTree.graphicsSetZIndex _ _ _).trans same, windows⟩

/-- A window that gets the focus. -/
theorem Sound.focus (sound : ω.Sound) (window : Nat) :
    (ω.windowFocus window).Sound ∧ MoreWindows ω (ω.windowFocus window) := by
  have same := windowFocus_same ω window
  obtain ⟨tree, windows⟩ := windowFocus_tree ω window
  refine ⟨⟨sound.linked.sameTree tree, same.vector.nodup_iff.mpr sound.distinct, fun other inVector => ?_⟩,
    .of_sameTree sound.linked tree, fun other isLive => ?_, fun other _ => by rw [windows]⟩
  · rw [same.live]
    exact sound.live other (same.vector.subset inVector)
  · rw [same.live]
    exact isLive

/-- A window in the screen that is built and added. -/
structure NewWindow (ω : WindowSystem) (window : Nat) (ω' : WindowSystem) : Prop where
  parts : ω'.HasParts window
  root : (ω'.windows window).rootGraphics ∉ ω.store.live
  rootLive : (ω'.windows window).rootGraphics ∈ ω'.store.live

/-- **`window_create`** adds a window with its parts, or only graphics. -/
theorem windowCreate_parts (sound : ω.Sound) {memory : WindowMemory} (fresh : memory.window ∉ ω.liveWindows)
    (new : NewMemory ω.store memory.graphics) (x y width height : BitVec 64) (flags : BitVec 32) :
    let created := ω.windowCreate memory ω.store.screen x y width height flags
    created.2.Sound ∧ MoreWindows ω created.2 ∧
      (created.1 = 0 ∨ created.1 = memory.window ∧ NewWindow ω memory.window created.2) := by
  have same : MoreWindows ω ω := ⟨.refl sound.linked, fun _ isLive => isLive, fun _ _ => rfl⟩
  obtain ⟨more, areChildren⟩ := windowRequests_more sound.linked new sound.linked.screenLive x y width height flags
  dsimp only
  obtain created | created | ⟨nonnull, done, created⟩ :=
    windowCreate_cases ω memory ω.store.screen x y width height flags
  · rw [created]
    exact ⟨sound, same, .inl rfl⟩
  · rw [created]
    exact ⟨⟨more.linked, sound.distinct, sound.live⟩, ⟨more, same.live, same.windows⟩, .inl rfl⟩
  · obtain ⟨rootChild, bodyChild, titleBarChild⟩ := areChildren done
    rw [created]
    generalize (createEach (windowRequests memory ω.store.screen x y width height flags) ω.store).2 = store at *
    dsimp only
    obtain ⟨tree, windows⟩ := windowAdd_tree (ω.withBuilt memory x y width height flags store) memory.window
    obtain ⟨vector, live, -, -⟩ := windowAdd_windows (ω.withBuilt memory x y width height flags store) nonnull
    generalize (ω.withBuilt memory x y width height flags store).windowAdd memory.window = ω' at *
    have grown := more.trans (.of_sameTree more.linked tree)
    have record : ω'.windows memory.window = ω.newWindow memory x y width height flags := by
      rw [windows]
      exact Function.update_self _ _ _
    have isLive : ∀ window, window ∈ ω'.liveWindows ↔ window = memory.window ∨ window ∈ ω.liveWindows := by
      intro window
      rw [live]
      exact List.mem_cons
    have isChild : ∀ graphics child, child ∈ (store.nodes graphics).children →
        child ∈ (ω'.store.nodes graphics).children :=
      fun graphics child => (tree.nodes graphics).children.symm.subset (a := child)
    have screen : ω'.store.screen = ω.store.screen := grown.screen
    have rootIsChild : (ω'.windows memory.window).rootGraphics ∈ (ω'.store.nodes ω'.store.screen).children := by
      rw [record, screen]
      exact isChild _ _ rootChild
    refine ⟨⟨grown.linked, ?_, fun window inVector => ?_⟩, ⟨grown, fun window wasLive => (isLive window).mpr (.inr wasLive),
      fun window wasLive => ?_⟩, .inr ⟨rfl, ⟨(isLive _).mpr (.inl rfl), rootIsChild, ?_, ?_⟩, ?_,
        (grown.linked.child _ grown.linked.screenLive _ rootIsChild).1⟩⟩
    · refine vector.nodup_iff.mpr (List.nodup_append.mpr ⟨sound.distinct, List.pairwise_singleton _ _, ?_⟩)
      intro other inVector added isAdded same
      exact fresh (List.mem_singleton.mp isAdded ▸ same ▸ sound.live other inVector)
    · rcases List.mem_append.mp (vector.subset inVector) with inVector | isNew
      · exact (isLive window).mpr (.inr (sound.live window inVector))
      · exact (isLive window).mpr (.inl (List.mem_singleton.mp isNew))
    · have isOld : window ≠ memory.window := fun same => fresh (same ▸ wasLive)
      rw [windows]
      exact Function.update_of_ne isOld _ _
    · rw [record]
      unfold newWindow
      dsimp only
      split
      · next bordered => exact .inr (isChild _ _ (titleBarChild bordered))
      · exact .inl rfl
    · rw [record]
      exact isChild _ _ bodyChild
    · rw [record]
      exact new.fresh memory.root List.mem_cons_self

/-! ### Closing -/

/-- **A window with its parts is closed.** -/
theorem Sound.close (sound : ω.Sound) {fuel window : Nat} (parts : ω.HasParts window)
    (done : ω.windowClose fuel window = some ω') :
    ω'.Sound ∧ FreedFrom ω.store (ω.windows window).rootGraphics ω'.store := by
  obtain ⟨freed, -, vector, live, -, -⟩ := windowFree_windows done
  have once := graphicsInfoFree_spec sound.linked (.inr (sound.linked.held_child sound.linked.screenLive parts.root)) freed
  refine ⟨⟨once.linked, vector ▸ sound.distinct.erase window, fun other inVector => ?_⟩, once⟩
  rw [vector, sound.distinct.mem_erase_iff] at inVector
  rw [live]
  exact (List.mem_erase_of_ne inVector.1).mpr (sound.live other inVector.2)

/-- **It takes no part of another one.** -/
theorem HasParts.close {fuel window other : Nat} (sound : ω.Sound) (parts : ω.HasParts window)
    (otherParts : ω.HasParts other) (different : (ω.windows other).rootGraphics ≠ (ω.windows window).rootGraphics)
    (done : ω.windowClose fuel window = some ω') : ω'.HasParts other := by
  obtain ⟨-, windows, -, live, -, -⟩ := windowFree_windows done
  obtain ⟨-, once⟩ := sound.close parts done
  have linked := sound.linked
  have isNot : other ≠ window := fun same => different (by rw [same])
  have rootParent : (ω.store.nodes (ω.windows window).rootGraphics).parent = ω.store.screen :=
    (linked.child _ linked.screenLive _ parts.root).2
  have rootNode : ω'.store.nodes (ω.windows other).rootGraphics = ω.store.nodes (ω.windows other).rootGraphics :=
    once.others _ (linked.siblings_apart linked.screenLive parts.root otherParts.root different) (by
      rw [rootParent]
      exact linked.child_notScreen linked.screenLive otherParts.root)
  refine ⟨?_, ?_, ?_, ?_⟩
  · rw [live]
    exact (List.mem_erase_of_ne isNot).mpr otherParts.live
  · have erased := once.parent (linked.held_child linked.screenLive parts.root)
    rw [rootParent] at erased
    rw [windows, once.fewer.screen, erased]
    exact (List.mem_erase_of_ne different).mpr otherParts.root
  · rw [windows, rootNode]
    exact otherParts.titleBar
  · rw [windows, rootNode]
    exact otherParts.body

end WindowSystem

end PeachOS
