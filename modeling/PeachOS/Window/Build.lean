/-
**The graphics of a window: `window_create`.**

A window is built from a root below the screen and from graphics below the root. All other graphics stay as they are.

* `GrownBy`, `graphicsInfoCreateRelative_grown` — what one new graphics changes;
* `Built`, `createEach_built` — what the graphics below a root change;
* `windowCreate_cases` — a window was built and added, or only graphics were created.
-/

import PeachOS.Graphics.ZOrder
import PeachOS.Window.Position

namespace PeachOS

open BubbleSort GraphicsStore

namespace GraphicsStore

variable {σ σ' : GraphicsStore}

/-! ### One new graphics -/

/-- A z index of a graphics changes its own index, and the order of its siblings. -/
theorem graphicsSetZIndex_node (σ : GraphicsStore) (graphics : Nat) (zIndex : BitVec 32) (other : Nat) :
    (σ.graphicsSetZIndex graphics zIndex).nodes other =
      { σ.nodes other with
        children := ((σ.graphicsSetZIndex graphics zIndex).nodes other).children
        zIndex := if other = graphics then zIndex else (σ.nodes other).zIndex } := by
  have same := (SameTree.graphicsSetZIndex σ graphics zIndex).nodes other
  exact GraphicsNode.ext same.info same.relativeX same.relativeY same.parent rfl (graphicsSetZIndex_zIndex _ _ _ _)

/-- All but the graphics and its parent stay as they are. -/
theorem graphicsSetZIndex_other {graphics other : Nat} (isNot : other ≠ graphics)
    (notParent : other ≠ (σ.nodes graphics).parent) (zIndex : BitVec 32) :
    (σ.graphicsSetZIndex graphics zIndex).nodes other = σ.nodes other := by
  rw [graphicsSetZIndex_node, graphicsSetZIndex_children, if_neg fun isParent => notParent isParent.1, if_neg isNot]

/-- A sort keeps the order of two children, unless the first one has the larger z index. -/
theorem graphicsSetZIndex_keeps {graphics top first second : Nat} {zIndex : BitVec 32}
    (before : [first, second].Sublist (σ.nodes top).children)
    (below : (σ.graphicsSetZIndex graphics zIndex).graphicsReorder first second = false) :
    [first, second].Sublist ((σ.graphicsSetZIndex graphics zIndex).nodes top).children := by
  rw [graphicsSetZIndex_children]
  split
  · exact vectorReorder_keeps below _ before
  · exact before

/-- A z index of one graphics keeps the order of the other ones. -/
theorem graphicsSetZIndex_keepsOthers (sorted : σ.SortedChildren) {graphics top first second : Nat}
    (topLive : top ∈ σ.live) {zIndex : BitVec 32} (before : [first, second].Sublist (σ.nodes top).children)
    (isNot : first ≠ graphics) (isNot' : second ≠ graphics) :
    [first, second].Sublist ((σ.graphicsSetZIndex graphics zIndex).nodes top).children := by
  refine graphicsSetZIndex_keeps before ?_
  have below := (sorted top topLive).of_before before
  unfold graphicsReorder at below ⊢
  rwa [graphicsSetZIndex_zIndex, graphicsSetZIndex_zIndex, if_neg isNot, if_neg isNot']

/-- **One new graphics**: it is a child of its source, and nothing else changes but the source's vector, in which the
others keep their order. -/
structure GrownBy (σ : GraphicsStore) (newGraphics sourceGraphics : Nat) (σ' : GraphicsStore) : Prop where
  linked : σ'.Linked
  sorted : σ'.SortedChildren
  live : σ'.live = newGraphics :: σ.live
  screen : σ'.screen = σ.screen
  others : ∀ graphics ∈ σ.live, graphics ≠ sourceGraphics → σ'.nodes graphics = σ.nodes graphics
  source : σ'.nodes sourceGraphics =
    { σ.nodes sourceGraphics with children := (σ'.nodes sourceGraphics).children }
  children : (σ'.nodes sourceGraphics).children.Perm ((σ.nodes sourceGraphics).children ++ [newGraphics])
  order : ∀ first second, [first, second].Sublist (σ.nodes sourceGraphics).children →
    [first, second].Sublist (σ'.nodes sourceGraphics).children
  childless : (σ'.nodes newGraphics).children = []

/-- **What `graphics_info_create_relative` changes.** -/
theorem graphicsInfoCreateRelative_grown (linked : σ.Linked) (sorted : σ.SortedChildren)
    {newGraphics sourceGraphics : Nat} (fresh : newGraphics ∉ σ.live) (sourceLive : sourceGraphics ∈ σ.live)
    (x y width height : BitVec 64) (flags : BitVec 32) :
    σ.graphicsInfoCreateRelative newGraphics sourceGraphics x y width height flags = (0, σ) ∨
      newGraphics ≠ 0 ∧ ∃ σ', σ.graphicsInfoCreateRelative newGraphics sourceGraphics x y width height flags =
          (newGraphics, σ') ∧ GrownBy σ newGraphics sourceGraphics σ' ∧
        ∃ pixels, (σ'.nodes newGraphics).info =
          { PeachOS.newGraphics (σ.nodes sourceGraphics).info x y width height with pixels := pixels } := by
  have keepsLinks := linked.create fresh sourceLive x y width height flags
  have keepsOrder := sorted.create linked fresh sourceLive x y width height flags
  obtain refused | ⟨nonnull, _, pixels, created⟩ :=
    graphicsInfoCreateRelative_cases σ newGraphics sourceGraphics x y width height flags
  · exact .inl refused
  · dsimp only at created
    refine .inr ⟨nonnull, _, created, ?_, pixels, ?_⟩
    · rw [created] at keepsLinks keepsOrder
      have different : newGraphics ≠ sourceGraphics := fun same => fresh (same ▸ sourceLive)
      have isOld : ∀ graphics ∈ σ.live, graphics ≠ newGraphics := fun graphics isLive same => fresh (same ▸ isLive)
      generalize attached : σ.attach newGraphics sourceGraphics _ = τ at keepsLinks keepsOrder ⊢
      have tree := SameTree.graphicsSetZIndex τ newGraphics
        (.ofNat 32 (τ.nodes sourceGraphics).children.length)
      generalize (BitVec.ofNat 32 (τ.nodes sourceGraphics).children.length) = zIndex at *
      have newParent : (τ.nodes newGraphics).parent = sourceGraphics := by
        rw [← attached, attach_new different]
        rfl
      have sourceNode : τ.nodes sourceGraphics =
          { σ.nodes sourceGraphics with children := (σ.nodes sourceGraphics).children ++ [newGraphics] } := by
        rw [← attached, attach_source different]
      refine ⟨keepsLinks, keepsOrder, ?_, ?_, fun graphics isLive isNot => ?_, ?_, ?_, fun first second before => ?_, ?_⟩
      · rw [tree.live, ← attached]
        rfl
      · rw [tree.screen, ← attached]
        rfl
      · rw [graphicsSetZIndex_other (isOld graphics isLive) (newParent ▸ isNot), ← attached,
          attach_other (isOld graphics isLive) isNot]
      · rw [graphicsSetZIndex_node, if_neg different.symm, sourceNode]
      · refine (tree.nodes sourceGraphics).children.trans ?_
        rw [sourceNode]
      · have held := linked.child _ sourceLive
        refine graphicsSetZIndex_keeps ?_ ?_
        · rw [sourceNode]
          exact before.trans (List.sublist_append_left _ _)
        · have below := (sorted _ sourceLive).of_before before
          have kept : ∀ child ∈ (σ.nodes sourceGraphics).children,
              ((τ.graphicsSetZIndex newGraphics zIndex).nodes child).zIndex = (σ.nodes child).zIndex := by
            intro child isChild
            have isLive := (held child isChild).1
            rw [graphicsSetZIndex_zIndex, if_neg (isOld child isLive), ← attached, attach_old different (isOld child isLive)]
          unfold graphicsReorder at below ⊢
          rwa [kept first (before.subset List.mem_cons_self),
            kept second (before.subset (List.mem_cons_of_mem _ List.mem_cons_self))]
      · rw [graphicsSetZIndex_children, newParent, if_neg fun same => different same.1, ← attached,
          attach_new different]
        rfl
    · have different : newGraphics ≠ sourceGraphics := fun same => fresh (same ▸ sourceLive)
      rw [((SameTree.graphicsSetZIndex _ _ _).nodes newGraphics).info, attach_new different]
      rfl

/-! ### Graphics below a root -/

/-- **Graphics that were added below a root**: the root has more children, and nothing else changes. -/
structure Built (σ : GraphicsStore) (root : Nat) (σ' : GraphicsStore) : Prop where
  linked : σ'.Linked
  sorted : σ'.SortedChildren
  live : ∀ graphics ∈ σ.live, graphics ∈ σ'.live
  screen : σ'.screen = σ.screen
  others : ∀ graphics ∈ σ.live, graphics ≠ root → σ'.nodes graphics = σ.nodes graphics
  root : σ'.nodes root = { σ.nodes root with children := (σ'.nodes root).children }

end GraphicsStore

namespace WindowSystem

variable {σ : GraphicsStore}

/-- Requests whose memory is new, and different where there is any. -/
structure NewMemory (σ : GraphicsStore) (addresses : List Nat) : Prop where
  fresh : ∀ address ∈ addresses, address ∉ σ.live
  distinct : addresses.Pairwise fun first second => first ≠ 0 → first ≠ second

theorem NewMemory.sublist {addresses addresses' : List Nat} (new : NewMemory σ addresses)
    (part : addresses'.Sublist addresses) : NewMemory σ addresses' :=
  ⟨fun address isIn => new.fresh address (part.subset isIn), new.distinct.sublist part⟩

/-- After one graphics was created, the rest of the memory is still new. -/
theorem NewMemory.next {σ' : GraphicsStore} {address : Nat} {addresses : List Nat}
    (new : NewMemory σ (address :: addresses)) (nonnull : address ≠ 0) (live : σ'.live = address :: σ.live) :
    NewMemory σ' addresses := by
  obtain ⟨different, distinct⟩ := List.pairwise_cons.mp new.distinct
  refine ⟨fun other isIn isLive => ?_, distinct⟩
  rw [live] at isLive
  rcases List.mem_cons.mp isLive with same | isLive
  · exact different other isIn nonnull same.symm
  · exact new.fresh other (List.mem_cons_of_mem _ isIn) isLive

/-- **Graphics that are created below a root.** -/
theorem createEach_built (linked : σ.Linked) (sorted : σ.SortedChildren) {root : Nat} (rootLive : root ∈ σ.live)
    (requests : List GraphicsRequest) (sources : ∀ request ∈ requests, request.sourceGraphics = root)
    (new : NewMemory σ (requests.map GraphicsRequest.newGraphics)) :
    Built σ root (createEach requests σ).2 ∧ ((createEach requests σ).1 = true →
      (((createEach requests σ).2.nodes root).children.length =
        (σ.nodes root).children.length + requests.length)) := by
  induction requests generalizing σ with
  | nil => exact ⟨⟨linked, sorted, fun _ isLive => isLive, rfl, fun _ _ _ => rfl, rfl⟩, fun _ => rfl⟩
  | cons request requests ih =>
      obtain ⟨newGraphics, sourceGraphics, x, y, width, height, flags⟩ := request
      obtain rfl : sourceGraphics = root := sources _ List.mem_cons_self
      have fresh : newGraphics ∉ σ.live := new.fresh newGraphics List.mem_cons_self
      rw [createEach]
      dsimp only
      obtain refused | ⟨nonnull, next, created, grown, -⟩ :=
        graphicsInfoCreateRelative_grown linked sorted fresh rootLive x y width height flags
      · rw [refused]
        exact ⟨⟨linked, sorted, fun _ isLive => isLive, rfl, fun _ _ _ => rfl, rfl⟩, fun failed => Bool.noConfusion failed⟩
      · rw [created]
        dsimp only
        rw [if_neg nonnull]
        have stillLive : ∀ graphics ∈ σ.live, graphics ∈ next.live := fun graphics isLive => by
          rw [grown.live]
          exact List.mem_cons_of_mem _ isLive
        obtain ⟨built, count⟩ := ih grown.linked grown.sorted (stillLive _ rootLive)
          (fun request isIn => sources request (List.mem_cons_of_mem _ isIn)) (new.next nonnull grown.live)
        refine ⟨⟨built.linked, built.sorted, fun graphics isLive => built.live graphics (stillLive graphics isLive),
          built.screen.trans grown.screen, fun graphics isLive isNot => ?_, ?_⟩, fun done => ?_⟩
        · rw [built.others graphics (stillLive graphics isLive) isNot, grown.others graphics isLive isNot]
        · rw [built.root, grown.source]
        · rw [count done, grown.children.length_eq, List.length_append, List.length_singleton, List.length_cons,
            Nat.add_assoc, Nat.add_comm 1]

/-! ### The graphics of a window -/

/-- The addresses of the graphics of a window. -/
def WindowMemory.graphics (memory : WindowMemory) : List Nat :=
  [memory.root, memory.titleBar, memory.borderLeft, memory.borderRight, memory.borderBottom, memory.body]

/-- How many graphics are below the root of a window. -/
def windowGraphicsCount (flags : BitVec 32) : Nat := if flags &&& windowFlagBorderless = 0 then 5 else 1

/-- The graphics below the root are created from the memory of the window. -/
theorem windowRequests_eq (memory : WindowMemory) (graphicsInfo : Nat) (x y width height : BitVec 64)
    (flags : BitVec 32) :
    ∃ requests, windowRequests memory graphicsInfo x y width height flags =
        ⟨memory.root, graphicsInfo, x, y, totalWindowWidthBounds width flags, totalWindowHeightBounds height flags,
          graphicsFlagDoNotCopyPixels⟩ :: requests ∧
      (∀ request ∈ requests, request.sourceGraphics = memory.root) ∧
      (memory.root :: requests.map GraphicsRequest.newGraphics).Sublist memory.graphics ∧
      requests.length = windowGraphicsCount flags ∧ memory.body ∈ requests.map GraphicsRequest.newGraphics ∧
      (flags &&& windowFlagBorderless = 0 → memory.titleBar ∈ requests.map GraphicsRequest.newGraphics) := by
  refine ⟨_, rfl, ?_, ?_, ?_, ?_, fun bordered => ?_⟩
  · intro request isIn
    split at isIn <;> simp only [List.mem_cons, List.not_mem_nil, or_false] at isIn
    · rcases isIn with rfl | rfl | rfl | rfl | rfl <;> rfl
    · rw [isIn]
  · unfold WindowMemory.graphics
    split
    · exact List.Sublist.refl _
    · exact (((((List.Sublist.refl [memory.body]).cons _).cons _).cons _).cons _).cons_cons _
  · unfold windowGraphicsCount
    split <;> rfl
  · split <;> simp
  · rw [if_pos bordered]
    exact List.mem_cons_self

/-- **The graphics of a window**: nothing was created, or a root in the graphics and some graphics below the root. -/
theorem windowRequests_built (linked : σ.Linked) (sorted : σ.SortedChildren) {memory : WindowMemory}
    (new : NewMemory σ memory.graphics) {graphicsInfo : Nat} (isLive : graphicsInfo ∈ σ.live)
    (x y width height : BitVec 64) (flags : BitVec 32) :
    let created := createEach (windowRequests memory graphicsInfo x y width height flags) σ
    created = (false, σ) ∨ ∃ σ' pixels, GrownBy σ memory.root graphicsInfo σ' ∧ (σ'.nodes memory.root).info =
        { PeachOS.newGraphics (σ.nodes graphicsInfo).info x y (totalWindowWidthBounds width flags)
            (totalWindowHeightBounds height flags) with pixels := pixels } ∧
      Built σ' memory.root created.2 ∧
      (created.1 = true → (created.2.nodes memory.root).children.length = windowGraphicsCount flags) := by
  obtain ⟨requests, same, sources, part, count, -⟩ := windowRequests_eq memory graphicsInfo x y width height flags
  have newPart := new.sublist part
  dsimp only
  rw [same, createEach]
  dsimp only
  obtain refused | ⟨nonnull, next, created, grown, pixels, info⟩ :=
    graphicsInfoCreateRelative_grown linked sorted (newPart.fresh memory.root List.mem_cons_self) isLive x y
      (totalWindowWidthBounds width flags) (totalWindowHeightBounds height flags) graphicsFlagDoNotCopyPixels
  · rw [refused]
    exact .inl rfl
  · rw [created]
    dsimp only
    rw [if_neg nonnull]
    have rootLive : memory.root ∈ next.live := by
      rw [grown.live]
      exact List.mem_cons_self
    obtain ⟨built, total⟩ := createEach_built grown.linked grown.sorted rootLive requests sources
      (newPart.next nonnull grown.live)
    refine .inr ⟨next, pixels, grown, info, built, fun done => ?_⟩
    rw [total done, grown.childless, count, List.length_nil, Nat.zero_add]

/-- **A root with graphics below it was added to a graphics**: in all else nothing changes but the vector of that
graphics, in which the others keep their order. -/
structure Extended (σ : GraphicsStore) (root graphicsInfo : Nat) (σ' : GraphicsStore) : Prop where
  linked : σ'.Linked
  sorted : σ'.SortedChildren
  screen : σ'.screen = σ.screen
  others : ∀ graphics ∈ σ.live, graphics ≠ graphicsInfo → σ'.nodes graphics = σ.nodes graphics
  source : σ'.nodes graphicsInfo = { σ.nodes graphicsInfo with children := (σ'.nodes graphicsInfo).children }
  children : (σ'.nodes graphicsInfo).children.Perm ((σ.nodes graphicsInfo).children ++ [root])
  order : ∀ first second, [first, second].Sublist (σ.nodes graphicsInfo).children →
    [first, second].Sublist (σ'.nodes graphicsInfo).children

theorem Extended.of_built {σ' σ'' : GraphicsStore} {root graphicsInfo : Nat} (isLive : graphicsInfo ∈ σ.live)
    (fresh : root ∉ σ.live) (grown : GrownBy σ root graphicsInfo σ') (built : Built σ' root σ'') :
    Extended σ root graphicsInfo σ'' := by
  have stillLive : ∀ graphics ∈ σ.live, graphics ∈ σ'.live := fun graphics isLive => by
    rw [grown.live]
    exact List.mem_cons_of_mem _ isLive
  have isNot : ∀ graphics ∈ σ.live, graphics ≠ root := fun graphics isLive same => fresh (same ▸ isLive)
  have source := built.others graphicsInfo (stillLive _ isLive) (isNot _ isLive)
  refine ⟨built.linked, built.sorted, built.screen.trans grown.screen, fun graphics isLive notSource => ?_, ?_, ?_, ?_⟩
  · rw [built.others graphics (stillLive _ isLive) (isNot _ isLive), grown.others graphics isLive notSource]
  · rw [source]
    exact grown.source
  · rw [source]
    exact grown.children
  · rw [source]
    exact grown.order

/-- **The graphics of a window extend a graphics**, unless nothing was created. -/
theorem windowRequests_extended (linked : σ.Linked) (sorted : σ.SortedChildren) {memory : WindowMemory}
    (new : NewMemory σ memory.graphics) {graphicsInfo : Nat} (isLive : graphicsInfo ∈ σ.live)
    (x y width height : BitVec 64) (flags : BitVec 32) :
    let created := createEach (windowRequests memory graphicsInfo x y width height flags) σ
    created = (false, σ) ∨ Extended σ memory.root graphicsInfo created.2 ∧
      (∃ pixels, (created.2.nodes memory.root).info =
        { PeachOS.newGraphics (σ.nodes graphicsInfo).info x y (totalWindowWidthBounds width flags)
            (totalWindowHeightBounds height flags) with pixels := pixels }) ∧
      (created.1 = true → (created.2.nodes memory.root).children.length = windowGraphicsCount flags) := by
  dsimp only
  obtain refused | ⟨σ', pixels, grown, info, built, count⟩ :=
    windowRequests_built linked sorted new isLive x y width height flags
  · exact .inl refused
  · refine .inr ⟨Extended.of_built isLive (new.fresh _ List.mem_cons_self) grown built, ⟨pixels, ?_⟩, count⟩
    rw [built.root]
    exact info

/-- The windows with a new one that was built, before it is added. -/
def withBuilt (ω : WindowSystem) (memory : WindowMemory) (x y width height : BitVec 64) (flags : BitVec 32)
    (store : GraphicsStore) : WindowSystem :=
  { (ω.setWindow memory.window (ω.newWindow memory x y width height flags)) with
    store := store
    liveWindows := memory.window :: ω.liveWindows }

/-- **A window is built and added, or there is none** and only graphics were created. -/
theorem windowCreate_cases (ω : WindowSystem) (memory : WindowMemory) (graphicsInfo : Nat)
    (x y width height : BitVec 64) (flags : BitVec 32) :
    let created := createEach (windowRequests memory graphicsInfo x y width height flags) ω.store
    ω.windowCreate memory graphicsInfo x y width height flags = (0, ω) ∨
      ω.windowCreate memory graphicsInfo x y width height flags = (0, { ω with store := created.2 }) ∨
      memory.window ≠ 0 ∧ created.1 = true ∧
        ω.windowCreate memory graphicsInfo x y width height flags =
          (memory.window, (ω.withBuilt memory x y width height flags created.2).windowAdd memory.window) := by
  dsimp only
  unfold windowCreate
  split
  · exact .inl rfl
  · next nonnull =>
      refine .inr ?_
      dsimp only
      split
      · next done => exact .inr ⟨nonnull, (Bool.and_eq_true_iff.mp done).1, rfl⟩
      · exact .inl rfl

end WindowSystem

end PeachOS
