/-
**The tree of graphics as an invariant.**

What the children's vectors hold agrees with the parent pointers, and a graphics is created after its parent. In a tree
the vectors hold everything but the screen.

* `SameTree` — two memories whose graphics have the same places, the children perhaps in another order;
* `graphicsInfoCreateRelative_cases` — a request is refused, or the new graphics is attached to its parent;
* `Linked.create`, `Linked.freeOwn` — links stay right; `Tree.create`, `Tree.freeOwn` — the tree stays one.
-/

import PeachOS.Graphics.Store

namespace PeachOS

namespace GraphicsStore

variable {σ σ' : GraphicsStore}

@[simp] theorem setNode_self (σ : GraphicsStore) (graphics : Nat) (node : GraphicsNode) :
    (σ.setNode graphics node).nodes graphics = node := Function.update_self _ _ _

@[simp] theorem setNode_of_ne {graphics other : Nat} (different : other ≠ graphics) (σ : GraphicsStore)
    (node : GraphicsNode) : (σ.setNode graphics node).nodes other = σ.nodes other :=
  Function.update_of_ne different _ _

@[simp] theorem setChildren_self (σ : GraphicsStore) (graphics : Nat) (children : List Nat) :
    (σ.setChildren graphics children).nodes graphics = { σ.nodes graphics with children := children } :=
  setNode_self _ _ _

@[simp] theorem setChildren_of_ne {graphics other : Nat} (different : other ≠ graphics) (σ : GraphicsStore)
    (children : List Nat) : (σ.setChildren graphics children).nodes other = σ.nodes other :=
  setNode_of_ne different _ _

/-! ### The same tree -/

/-- A node at the same place, with the same pixels. -/
structure SameNode (node node' : GraphicsNode) : Prop where
  info : node'.info = node.info
  relativeX : node'.relativeX = node.relativeX
  relativeY : node'.relativeY = node.relativeY
  parent : node'.parent = node.parent
  children : node'.children.Perm node.children

/-- **The same tree**, apart from the order of the children and the z indices. -/
structure SameTree (σ σ' : GraphicsStore) : Prop where
  nodes : ∀ graphics, SameNode (σ.nodes graphics) (σ'.nodes graphics)
  live : σ'.live = σ.live
  screen : σ'.screen = σ.screen
  freed : σ'.freed = σ.freed

/-- The parents and the children are the same ones. -/
structure SameLinks (σ σ' : GraphicsStore) : Prop where
  parent : ∀ graphics, (σ'.nodes graphics).parent = (σ.nodes graphics).parent
  children : ∀ graphics, (σ'.nodes graphics).children.Perm (σ.nodes graphics).children
  live : σ'.live = σ.live
  screen : σ'.screen = σ.screen

theorem SameTree.links (same : SameTree σ σ') : SameLinks σ σ' :=
  ⟨fun graphics => (same.nodes graphics).parent, fun graphics => (same.nodes graphics).children, same.live, same.screen⟩

theorem SameLinks.symm (same : SameLinks σ σ') : SameLinks σ' σ :=
  ⟨fun graphics => (same.parent graphics).symm, fun graphics => (same.children graphics).symm, same.live.symm,
    same.screen.symm⟩

theorem SameLinks.trans {σ'' : GraphicsStore} (first : SameLinks σ σ') (second : SameLinks σ' σ'') :
    SameLinks σ σ'' :=
  ⟨fun graphics => (second.parent graphics).trans (first.parent graphics),
    fun graphics => (second.children graphics).trans (first.children graphics), second.live.trans first.live,
    second.screen.trans first.screen⟩

theorem SameNode.refl (node : GraphicsNode) : SameNode node node := ⟨rfl, rfl, rfl, rfl, List.Perm.refl _⟩

theorem SameNode.trans {node node' node'' : GraphicsNode} (first : SameNode node node')
    (second : SameNode node' node'') : SameNode node node'' :=
  ⟨second.info.trans first.info, second.relativeX.trans first.relativeX, second.relativeY.trans first.relativeY,
    second.parent.trans first.parent, second.children.trans first.children⟩

theorem SameTree.trans {σ'' : GraphicsStore} (first : SameTree σ σ') (second : SameTree σ' σ'') : SameTree σ σ'' :=
  ⟨fun graphics => (first.nodes graphics).trans (second.nodes graphics), second.live.trans first.live,
    second.screen.trans first.screen, second.freed.trans first.freed⟩

/-- A write to a node that keeps its place. -/
theorem SameTree.setNode {graphics : Nat} {node : GraphicsNode} (same : SameNode (σ.nodes graphics) node) :
    SameTree σ (σ.setNode graphics node) := by
  refine ⟨fun other => ?_, rfl, rfl, rfl⟩
  by_cases isIt : other = graphics
  · rw [isIt, setNode_self]
    exact same
  · rw [setNode_of_ne isIt]
    exact SameNode.refl _

theorem SameTree.reorderChildren (σ : GraphicsStore) (graphics : Nat) : SameTree σ (σ.reorderChildren graphics) :=
  SameTree.setNode ⟨rfl, rfl, rfl, rfl, vectorReorder_perm _⟩

/-- **`graphics_set_z_index` keeps the tree.** -/
theorem SameTree.graphicsSetZIndex (σ : GraphicsStore) (graphics : Nat) (zIndex : BitVec 32) :
    SameTree σ (σ.graphicsSetZIndex graphics zIndex) := by
  have written : SameTree σ (σ.setNode graphics { σ.nodes graphics with zIndex := zIndex }) :=
    SameTree.setNode ⟨rfl, rfl, rfl, rfl, List.Perm.refl _⟩
  unfold GraphicsStore.graphicsSetZIndex
  dsimp only
  split
  · exact written.trans (SameTree.reorderChildren _ _)
  · exact written

theorem SameTree.windowBringToTop (σ : GraphicsStore) (rootGraphics : Nat) :
    SameTree σ (σ.windowBringToTop rootGraphics) := SameTree.graphicsSetZIndex _ _ _

/-! ### Attaching a new graphics -/

/-- A new graphics with its parent, before the children are sorted. -/
def attach (σ : GraphicsStore) (newGraphics sourceGraphics : Nat) (node : GraphicsNode) : GraphicsStore :=
  let σ := { σ.setNode newGraphics node with live := newGraphics :: σ.live }
  σ.setChildren sourceGraphics ((σ.nodes sourceGraphics).children ++ [newGraphics])

section Attach

variable {newGraphics sourceGraphics : Nat} {node : GraphicsNode}

theorem attach_new (different : newGraphics ≠ sourceGraphics) :
    (σ.attach newGraphics sourceGraphics node).nodes newGraphics = node := by
  unfold attach
  rw [setChildren_of_ne different]
  exact setNode_self _ _ _

theorem attach_source (different : newGraphics ≠ sourceGraphics) :
    (σ.attach newGraphics sourceGraphics node).nodes sourceGraphics =
      { σ.nodes sourceGraphics with children := (σ.nodes sourceGraphics).children ++ [newGraphics] } := by
  have before : (σ.setNode newGraphics node).nodes sourceGraphics = σ.nodes sourceGraphics :=
    setNode_of_ne different.symm _ _
  unfold attach
  rw [setChildren_self]
  dsimp only
  rw [before]

theorem attach_other {other : Nat} (isNotNew : other ≠ newGraphics) (isNotSource : other ≠ sourceGraphics) :
    (σ.attach newGraphics sourceGraphics node).nodes other = σ.nodes other := by
  unfold attach
  rw [setChildren_of_ne isNotSource]
  exact setNode_of_ne isNotNew _ _

/-- All other graphics stay, but for the new child of the source. -/
theorem attach_old (different : newGraphics ≠ sourceGraphics) {other : Nat} (isOld : other ≠ newGraphics) :
    (σ.attach newGraphics sourceGraphics node).nodes other =
      { σ.nodes other with
        children := if other = sourceGraphics then (σ.nodes other).children ++ [newGraphics]
          else (σ.nodes other).children } := by
  by_cases isSource : other = sourceGraphics
  · rw [isSource, attach_source different, if_pos rfl]
  · rw [attach_other isOld isSource, if_neg isSource]

end Attach

/-- **A request is refused, or the new graphics is attached to its parent** and its z index is the number of children. -/
theorem graphicsInfoCreateRelative_cases (σ : GraphicsStore) (newGraphics sourceGraphics : Nat)
    (x y width height : BitVec 64) (flags : BitVec 32) :
    σ.graphicsInfoCreateRelative newGraphics sourceGraphics x y width height flags = (0, σ) ∨
      newGraphics ≠ 0 ∧ createAccepts (σ.nodes sourceGraphics).info x y width height flags ∧
        ∃ pixels, let created := { PeachOS.newGraphics (σ.nodes sourceGraphics).info x y width height with
            pixels := pixels }
          let attached := σ.attach newGraphics sourceGraphics (newNode sourceGraphics created x y)
          σ.graphicsInfoCreateRelative newGraphics sourceGraphics x y width height flags =
            (newGraphics, attached.graphicsSetZIndex newGraphics
              (.ofNat 32 (attached.nodes sourceGraphics).children.length)) := by
  unfold GraphicsStore.graphicsInfoCreateRelative
  by_cases none : newGraphics = 0
  · exact .inl (if_pos none)
  · rw [if_neg none]
    by_cases accepts : createAccepts (σ.nodes sourceGraphics).info x y width height flags
    · unfold PeachOS.graphicsInfoCreateRelative
      rw [if_pos accepts]
      exact .inr ⟨none, accepts, _, rfl⟩
    · unfold PeachOS.graphicsInfoCreateRelative
      rw [if_neg accepts]
      exact .inl rfl

/-- **A graphics that was created below a source.** The others keep their places. -/
structure Created (σ : GraphicsStore) (newGraphics sourceGraphics : Nat) (x y width height : BitVec 64)
    (σ' : GraphicsStore) : Prop where
  live : σ'.live = newGraphics :: σ.live
  screen : σ'.screen = σ.screen
  info : ∃ pixels, (σ'.nodes newGraphics).info =
    { PeachOS.newGraphics (σ.nodes sourceGraphics).info x y width height with pixels := pixels }
  relativeX : (σ'.nodes newGraphics).relativeX = x.setWidth 32
  relativeY : (σ'.nodes newGraphics).relativeY = y.setWidth 32
  parent : (σ'.nodes newGraphics).parent = sourceGraphics
  old : ∀ graphics, graphics ≠ newGraphics → σ'.nodes graphics =
    { σ.nodes graphics with
      children := (σ'.nodes graphics).children
      zIndex := (σ'.nodes graphics).zIndex }

theorem Created.old_info {newGraphics sourceGraphics graphics : Nat} {x y width height : BitVec 64}
    (created : Created σ newGraphics sourceGraphics x y width height σ') (isOld : graphics ≠ newGraphics) :
    (σ'.nodes graphics).info = (σ.nodes graphics).info := by rw [created.old graphics isOld]

/-- **What `graphics_info_create_relative` does**: it refuses the request, or creates the graphics. -/
theorem graphicsInfoCreateRelative_created {newGraphics sourceGraphics : Nat} (different : newGraphics ≠ sourceGraphics)
    (σ : GraphicsStore) (x y width height : BitVec 64) (flags : BitVec 32) :
    σ.graphicsInfoCreateRelative newGraphics sourceGraphics x y width height flags = (0, σ) ∨
      newGraphics ≠ 0 ∧ createAccepts (σ.nodes sourceGraphics).info x y width height flags ∧
        ∃ σ', σ.graphicsInfoCreateRelative newGraphics sourceGraphics x y width height flags = (newGraphics, σ') ∧
          Created σ newGraphics sourceGraphics x y width height σ' := by
  obtain refused | ⟨nonnull, accepts, pixels, created⟩ :=
    graphicsInfoCreateRelative_cases σ newGraphics sourceGraphics x y width height flags
  · exact .inl refused
  · refine .inr ⟨nonnull, accepts, _, created, ?_⟩
    have tree := SameTree.graphicsSetZIndex (σ.attach newGraphics sourceGraphics (newNode sourceGraphics
      { PeachOS.newGraphics (σ.nodes sourceGraphics).info x y width height with pixels := pixels } x y)) newGraphics
      (.ofNat 32 ((σ.attach newGraphics sourceGraphics (newNode sourceGraphics
        { PeachOS.newGraphics (σ.nodes sourceGraphics).info x y width height with pixels := pixels } x y)).nodes
          sourceGraphics).children.length)
    have new := tree.nodes newGraphics
    rw [attach_new different] at new
    refine ⟨tree.live, tree.screen, ⟨pixels, new.info⟩, new.relativeX, new.relativeY, new.parent,
      fun graphics isOld => ?_⟩
    have same := tree.nodes graphics
    rw [attach_old different isOld] at same
    exact GraphicsNode.ext same.info same.relativeX same.relativeY same.parent rfl rfl

/-! ### The invariants -/

/-- **Linked graphics**: what a live graphics has as its children is live, has it as its parent, and is newer. There may
be others that no vector holds. -/
structure Linked (σ : GraphicsStore) : Prop where
  nonnull : 0 ∉ σ.live
  distinct : σ.live.Nodup
  screenLive : σ.screen ∈ σ.live
  screenParent : (σ.nodes σ.screen).parent = 0
  child : ∀ graphics ∈ σ.live, ∀ child ∈ (σ.nodes graphics).children,
    child ∈ σ.live ∧ (σ.nodes child).parent = graphics
  childrenDistinct : ∀ graphics ∈ σ.live, (σ.nodes graphics).children.Nodup
  newer : σ.live.Pairwise fun newer older => older ∉ (σ.nodes newer).children
  notOwn : ∀ graphics ∈ σ.live, graphics ∉ (σ.nodes graphics).children

/-- **The tree**: the vectors hold all that the parent pointers say. -/
structure Tree (σ : GraphicsStore) : Prop extends Linked σ where
  parent : ∀ graphics ∈ σ.live, graphics ≠ σ.screen → (σ.nodes graphics).parent ∈ σ.live
  held : ∀ graphics ∈ σ.live, graphics ≠ σ.screen → graphics ∈ (σ.nodes (σ.nodes graphics).parent).children

/-- The screen is no child. -/
theorem Linked.child_notScreen (linked : σ.Linked) {top child : Nat} (topLive : top ∈ σ.live)
    (isChild : child ∈ (σ.nodes top).children) : child ≠ σ.screen := by
  intro isScreen
  have parent := (linked.child top topLive child isChild).2
  rw [isScreen, linked.screenParent] at parent
  exact linked.nonnull (parent ▸ topLive)

/-- The children of a graphics are those that have it as their parent. -/
theorem Tree.children (tree : σ.Tree) (graphics : Nat) (isLive : graphics ∈ σ.live) (child : Nat) :
    child ∈ (σ.nodes graphics).children ↔ child ∈ σ.live ∧ (σ.nodes child).parent = graphics := by
  refine ⟨tree.child graphics isLive child, fun ⟨childLive, isParent⟩ => ?_⟩
  have notScreen : child ≠ σ.screen := by
    rintro rfl
    exact tree.nonnull (tree.screenParent ▸ isParent ▸ isLive)
  exact isParent ▸ tree.held child childLive notScreen

theorem Tree.notSelf (tree : σ.Tree) (graphics : Nat) (isLive : graphics ∈ σ.live) :
    (σ.nodes graphics).parent ≠ graphics :=
  fun isParent => tree.notOwn graphics isLive ((tree.children graphics isLive graphics).mpr ⟨isLive, isParent⟩)

/-- The screen alone is a tree. -/
theorem Tree.alone (live : σ.live = [σ.screen]) (nonnull : σ.screen ≠ 0) (parent : (σ.nodes σ.screen).parent = 0)
    (childless : (σ.nodes σ.screen).children = []) : σ.Tree := by
  have only : ∀ {graphics}, graphics ∈ σ.live → graphics = σ.screen := by
    intro graphics isLive
    rw [live] at isLive
    exact List.mem_singleton.mp isLive
  have none : ∀ graphics ∈ σ.live, (σ.nodes graphics).children = [] :=
    fun graphics isLive => by rw [only isLive, childless]
  have isLive : σ.screen ∈ σ.live := by rw [live]; exact List.mem_cons_self
  refine ⟨⟨?_, ?_, isLive, parent, ?_, ?_, ?_, ?_⟩, ?_, ?_⟩
  · exact fun isNull => nonnull (only isNull).symm
  · rw [live]; exact List.pairwise_singleton _ _
  · intro graphics isLive child isChild
    rw [none graphics isLive] at isChild
    exact absurd isChild List.not_mem_nil
  · intro graphics isLive
    rw [none graphics isLive]
    exact List.nodup_nil
  · rw [live]; exact List.pairwise_singleton _ _
  · intro graphics isLive
    rw [none graphics isLive]
    exact List.not_mem_nil
  · exact fun graphics isLive isNot => absurd (only isLive) isNot
  · exact fun graphics isLive isNot => absurd (only isLive) isNot

theorem graphicsSetup_tree {mainGraphicsInfo : Nat} (nonnull : mainGraphicsInfo ≠ 0) (info : GraphicsInfo) :
    (graphicsSetup mainGraphicsInfo info).Tree := Tree.alone rfl nonnull rfl rfl

/-- The same links are linked. -/
theorem Linked.sameLinks (linked : σ.Linked) (same : SameLinks σ σ') : σ'.Linked := by
  refine ⟨?_, ?_, ?_, ?_, ?_, ?_, ?_, ?_⟩
  · rw [same.live]; exact linked.nonnull
  · rw [same.live]; exact linked.distinct
  · rw [same.live, same.screen]; exact linked.screenLive
  · rw [same.screen, same.parent]; exact linked.screenParent
  · intro graphics isLive child isChild
    rw [same.live] at isLive ⊢
    rw [same.parent]
    exact linked.child graphics isLive child ((same.children graphics).subset isChild)
  · intro graphics isLive
    rw [same.live] at isLive
    exact (same.children graphics).nodup_iff.mpr (linked.childrenDistinct graphics isLive)
  · rw [same.live]
    exact linked.newer.imp fun notChild isChild => notChild ((same.children _).subset isChild)
  · intro graphics isLive isChild
    rw [same.live] at isLive
    exact linked.notOwn graphics isLive ((same.children graphics).subset isChild)

theorem Tree.sameLinks (tree : σ.Tree) (same : SameLinks σ σ') : σ'.Tree := by
  refine ⟨tree.toLinked.sameLinks same, ?_, ?_⟩ <;>
    intro graphics isLive isNot <;>
    rw [same.live] at isLive <;>
    rw [same.screen] at isNot <;>
    rw [same.parent]
  · rw [same.live]
    exact tree.parent graphics isLive isNot
  · exact (same.children _).symm.subset (tree.held graphics isLive isNot)

theorem Linked.sameTree (linked : σ.Linked) (same : SameTree σ σ') : σ'.Linked := linked.sameLinks same.links

theorem Tree.sameTree (tree : σ.Tree) (same : SameTree σ σ') : σ'.Tree := tree.sameLinks same.links

section Create

variable {newGraphics sourceGraphics : Nat} {node : GraphicsNode}

/-- An attached graphics is linked. -/
theorem Linked.attach (linked : σ.Linked) (fresh : newGraphics ∉ σ.live) (nonnull : newGraphics ≠ 0)
    (sourceLive : sourceGraphics ∈ σ.live) (parent : node.parent = sourceGraphics) (childless : node.children = []) :
    (σ.attach newGraphics sourceGraphics node).Linked := by
  have different : newGraphics ≠ sourceGraphics := fun same => fresh (same ▸ sourceLive)
  have old : ∀ graphics ∈ σ.live, graphics ≠ newGraphics := fun graphics isLive same => fresh (same ▸ isLive)
  have parents : ∀ graphics ∈ σ.live,
      ((σ.attach newGraphics sourceGraphics node).nodes graphics).parent = (σ.nodes graphics).parent :=
    fun graphics isLive => by rw [attach_old different (old graphics isLive)]
  have isChildOf : ∀ graphics ∈ σ.live, ∀ child,
      child ∈ ((σ.attach newGraphics sourceGraphics node).nodes graphics).children →
        child ∈ (σ.nodes graphics).children ∨ graphics = sourceGraphics ∧ child = newGraphics := by
    intro graphics isLive child isChild
    rw [attach_old different (old graphics isLive)] at isChild
    dsimp only at isChild
    split at isChild
    · next isSource =>
        exact (List.mem_append.mp isChild).imp_right fun isNew => ⟨isSource, List.mem_singleton.mp isNew⟩
    · exact .inl isChild
  have newChildless : ∀ child, child ∉ ((σ.attach newGraphics sourceGraphics node).nodes newGraphics).children := by
    intro child
    rw [attach_new different, childless]
    exact List.not_mem_nil
  refine ⟨?_, ?_, List.mem_cons_of_mem _ linked.screenLive, ?_, ?_, ?_, ?_, ?_⟩
  · exact fun isNew => (List.mem_cons.mp isNew).elim (fun same => nonnull same.symm) linked.nonnull
  · exact List.nodup_cons.mpr ⟨fresh, linked.distinct⟩
  · exact (parents _ linked.screenLive).trans linked.screenParent
  · intro graphics isLive child isChild
    rcases List.mem_cons.mp isLive with rfl | isLive
    · exact absurd isChild (newChildless child)
    · rcases isChildOf graphics isLive child isChild with wasChild | ⟨rfl, rfl⟩
      · obtain ⟨childLive, isParent⟩ := linked.child graphics isLive child wasChild
        exact ⟨List.mem_cons_of_mem _ childLive, (parents child childLive).trans isParent⟩
      · exact ⟨List.mem_cons_self, by rw [attach_new different, parent]⟩
  · intro graphics isLive
    rcases List.mem_cons.mp isLive with rfl | isLive
    · rw [attach_new different, childless]
      exact List.nodup_nil
    · rw [attach_old different (old graphics isLive)]
      dsimp only
      split
      · refine List.nodup_append.mpr ⟨linked.childrenDistinct _ isLive, List.pairwise_singleton _ _, ?_⟩
        intro child isChild other isNew same
        rw [List.mem_singleton] at isNew
        exact fresh (isNew ▸ same ▸ (linked.child _ isLive child isChild).1)
      · exact linked.childrenDistinct graphics isLive
  · refine List.pairwise_cons.mpr ⟨fun graphics _ => newChildless graphics, ?_⟩
    refine linked.newer.imp_of_mem fun newerLive olderLive notChild isChild => ?_
    rcases isChildOf _ newerLive _ isChild with wasChild | ⟨-, isNew⟩
    · exact notChild wasChild
    · exact old _ olderLive isNew
  · intro graphics isLive isChild
    rcases List.mem_cons.mp isLive with rfl | isLive
    · exact newChildless _ isChild
    · rcases isChildOf graphics isLive graphics isChild with wasChild | ⟨-, isNew⟩
      · exact linked.notOwn graphics isLive wasChild
      · exact old graphics isLive isNew

/-- An attached graphics makes a larger tree. -/
theorem Tree.attach (tree : σ.Tree) (fresh : newGraphics ∉ σ.live) (nonnull : newGraphics ≠ 0)
    (sourceLive : sourceGraphics ∈ σ.live) (parent : node.parent = sourceGraphics) (childless : node.children = []) :
    (σ.attach newGraphics sourceGraphics node).Tree := by
  have different : newGraphics ≠ sourceGraphics := fun same => fresh (same ▸ sourceLive)
  have old : ∀ graphics ∈ σ.live, graphics ≠ newGraphics := fun graphics isLive same => fresh (same ▸ isLive)
  refine ⟨tree.toLinked.attach fresh nonnull sourceLive parent childless, ?_, ?_⟩ <;>
    intro graphics isLive notScreen <;>
    rcases List.mem_cons.mp isLive with rfl | isLive
  · rw [attach_new different, parent]
    exact List.mem_cons_of_mem _ sourceLive
  · rw [attach_old different (old graphics isLive)]
    exact List.mem_cons_of_mem _ (tree.parent graphics isLive notScreen)
  · rw [attach_new different, parent, attach_source different]
    exact List.mem_append_right _ List.mem_cons_self
  · rw [attach_old different (old graphics isLive)]
    dsimp only
    rw [attach_old different (old _ (tree.parent graphics isLive notScreen))]
    dsimp only
    split
    · exact List.mem_append_left _ (tree.held graphics isLive notScreen)
    · exact tree.held graphics isLive notScreen

/-- **Creating graphics keeps the links**, wherever memory is given out. -/
theorem Linked.create (linked : σ.Linked) (fresh : newGraphics ∉ σ.live) (sourceLive : sourceGraphics ∈ σ.live)
    (x y width height : BitVec 64) (flags : BitVec 32) :
    (σ.graphicsInfoCreateRelative newGraphics sourceGraphics x y width height flags).2.Linked := by
  obtain refused | ⟨nonnull, _, pixels, created⟩ :=
    graphicsInfoCreateRelative_cases σ newGraphics sourceGraphics x y width height flags
  · rw [refused]
    exact linked
  · dsimp only at created
    rw [created]
    exact (linked.attach fresh nonnull sourceLive rfl rfl).sameTree (SameTree.graphicsSetZIndex _ _ _)

/-- **Creating graphics keeps the tree.** -/
theorem Tree.create (tree : σ.Tree) (fresh : newGraphics ∉ σ.live) (sourceLive : sourceGraphics ∈ σ.live)
    (x y width height : BitVec 64) (flags : BitVec 32) :
    (σ.graphicsInfoCreateRelative newGraphics sourceGraphics x y width height flags).2.Tree := by
  obtain refused | ⟨nonnull, _, pixels, created⟩ :=
    graphicsInfoCreateRelative_cases σ newGraphics sourceGraphics x y width height flags
  · rw [refused]
    exact tree
  · dsimp only at created
    rw [created]
    exact (tree.attach fresh nonnull sourceLive rfl rfl).sameTree (SameTree.graphicsSetZIndex _ _ _)

end Create

/-! ### Freeing a node -/

section Free

variable {graphicsIn other : Nat}

theorem unlink_eq (σ : GraphicsStore) (graphicsIn : Nat) :
    ∃ nodes, σ.unlink graphicsIn = { σ with nodes := nodes } := by
  unfold unlink
  dsimp only
  split <;> exact ⟨_, rfl⟩

theorem unlink_nodes (σ : GraphicsStore) (graphicsIn other : Nat) :
    (σ.unlink graphicsIn).nodes other =
      { σ.nodes other with
        children := if other = (σ.nodes graphicsIn).parent ∧ other ≠ 0 then (σ.nodes other).children.erase graphicsIn
          else (σ.nodes other).children } := by
  unfold unlink
  dsimp only
  rw [vectorPopElement_elements]
  by_cases hasParent : (σ.nodes graphicsIn).parent = 0
  · rw [if_neg (not_not.mpr hasParent), if_neg fun isParent => isParent.2 (isParent.1.trans hasParent)]
  · rw [if_pos hasParent]
    by_cases isParent : other = (σ.nodes graphicsIn).parent
    · rw [if_pos ⟨isParent, isParent ▸ hasParent⟩, isParent, setChildren_self]
    · rw [if_neg fun both => isParent both.1, setChildren_of_ne isParent]

theorem freePixels_nodes (σ : GraphicsStore) (graphicsIn other : Nat) :
    (σ.freePixels graphicsIn).nodes other =
      { σ.nodes other with
        info := if other = graphicsIn then { (σ.nodes other).info with pixels := [] } else (σ.nodes other).info } := by
  unfold freePixels
  change (σ.setNode graphicsIn _).nodes other = _
  by_cases isIt : other = graphicsIn
  · rw [isIt, setNode_self, if_pos rfl]
  · rw [setNode_of_ne isIt, if_neg isIt]

/-- What freeing does to the nodes: the graphics loses its pixels, and its parent the child. -/
theorem freeOwn_nodes (σ : GraphicsStore) (graphicsIn other : Nat) :
    (σ.freeOwn graphicsIn).nodes other =
      { σ.nodes other with
        info := if other = graphicsIn then { (σ.nodes other).info with pixels := [] } else (σ.nodes other).info
        children := if other = (σ.nodes graphicsIn).parent ∧ other ≠ 0 then (σ.nodes other).children.erase graphicsIn
          else (σ.nodes other).children } := by
  have same : (σ.freeOwn graphicsIn).nodes = ((σ.freePixels graphicsIn).unlink graphicsIn).nodes := by
    unfold freeOwn
    dsimp only
    split <;> rfl
  rw [same, unlink_nodes, freePixels_nodes, freePixels_nodes]

theorem freeOwn_other (isNot : other ≠ graphicsIn) (notParent : other ≠ (σ.nodes graphicsIn).parent) :
    (σ.freeOwn graphicsIn).nodes other = σ.nodes other := by
  rw [freeOwn_nodes, if_neg isNot, if_neg fun isParent => notParent isParent.1]

theorem freeOwn_parent (nonnull : (σ.nodes graphicsIn).parent ≠ 0) (notSelf : (σ.nodes graphicsIn).parent ≠ graphicsIn) :
    (σ.freeOwn graphicsIn).nodes (σ.nodes graphicsIn).parent =
      { σ.nodes (σ.nodes graphicsIn).parent with
        children := (σ.nodes (σ.nodes graphicsIn).parent).children.erase graphicsIn } := by
  rw [freeOwn_nodes, if_neg notSelf, if_pos ⟨rfl, nonnull⟩]

theorem freeOwn_screen (σ : GraphicsStore) (graphicsIn : Nat) : (σ.freeOwn graphicsIn).screen = σ.screen := by
  obtain ⟨nodes, unlinked⟩ := unlink_eq (σ.freePixels graphicsIn) graphicsIn
  unfold freeOwn
  rw [unlinked]
  dsimp only
  split <;> rfl

theorem freeOwn_live (σ : GraphicsStore) (graphicsIn : Nat) :
    (σ.freeOwn graphicsIn).live = if graphicsIn = σ.screen then σ.live else σ.live.erase graphicsIn := by
  obtain ⟨nodes, unlinked⟩ := unlink_eq (σ.freePixels graphicsIn) graphicsIn
  unfold freeOwn
  rw [unlinked]
  dsimp only
  change (if graphicsIn = σ.screen then _ else _ : GraphicsStore).live = _
  split <;> rfl

theorem freeOwn_freed (σ : GraphicsStore) (graphicsIn : Nat) :
    (σ.freeOwn graphicsIn).freed =
      if graphicsIn = σ.screen then .pixels graphicsIn :: σ.freed
      else .node graphicsIn :: .pixels graphicsIn :: σ.freed := by
  obtain ⟨nodes, unlinked⟩ := unlink_eq (σ.freePixels graphicsIn) graphicsIn
  unfold freeOwn
  rw [unlinked]
  dsimp only
  change (if graphicsIn = σ.screen then _ else _ : GraphicsStore).freed = _
  split <;> rfl

/-- A node without children is freed alone. -/
theorem graphicsInfoFree_childless {fuel : Nat} (nonnull : graphicsIn ≠ 0)
    (childless : (σ.nodes graphicsIn).children = []) (freed : graphicsInfoFree fuel σ graphicsIn = some σ') :
    σ' = σ.freeOwn graphicsIn := by
  cases fuel with
  | zero => exact absurd freed (Option.some_ne_none _).symm
  | succ fuel =>
      rw [graphicsInfoFree, if_neg nonnull, graphicsInfoChildrenFree, childless] at freed
      exact (Option.some.inj freed).symm

/-- **Freeing a graphics keeps the links**: its parent's vector no longer holds it. -/
theorem Linked.freeOwn (linked : σ.Linked) (isLive : graphicsIn ∈ σ.live) : (σ.freeOwn graphicsIn).Linked := by
  have parents : ∀ other, ((σ.freeOwn graphicsIn).nodes other).parent = (σ.nodes other).parent :=
    fun other => by rw [freeOwn_nodes]
  have fewer : ∀ other, ((σ.freeOwn graphicsIn).nodes other).children.Sublist (σ.nodes other).children := by
    intro other
    rw [freeOwn_nodes]
    dsimp only
    split
    · exact List.erase_sublist
    · exact List.Sublist.refl _
  have wasLive : ∀ other ∈ (σ.freeOwn graphicsIn).live, other ∈ σ.live := by
    intro other otherLive
    rw [freeOwn_live] at otherLive
    split at otherLive
    · exact otherLive
    · exact List.mem_of_mem_erase otherLive
  have sublist : (σ.freeOwn graphicsIn).live.Sublist σ.live := by
    rw [freeOwn_live]
    split
    · exact List.Sublist.refl _
    · exact List.erase_sublist
  refine ⟨fun isNull => linked.nonnull (wasLive 0 isNull), linked.distinct.sublist sublist, ?_, ?_, ?_, ?_, ?_, ?_⟩
  · rw [freeOwn_screen, freeOwn_live]
    split
    · exact linked.screenLive
    · next isNot => exact (List.mem_erase_of_ne (Ne.symm isNot)).mpr linked.screenLive
  · rw [freeOwn_screen, parents]
    exact linked.screenParent
  · intro other otherLive child isChild
    obtain ⟨childLive, isParent⟩ := linked.child other (wasLive other otherLive) child ((fewer other).subset isChild)
    refine ⟨?_, (parents child).trans isParent⟩
    rw [freeOwn_live]
    split
    · exact childLive
    · -- The vector that held the freed graphics was its parent's.
      refine (List.mem_erase_of_ne ?_).mpr childLive
      rintro rfl
      have nonnull : other ≠ 0 := fun null => linked.nonnull (null ▸ wasLive other otherLive)
      rw [freeOwn_nodes] at isChild
      dsimp only at isChild
      rw [if_pos ⟨isParent.symm, nonnull⟩, (linked.childrenDistinct other (wasLive other otherLive)).mem_erase_iff]
        at isChild
      exact isChild.1 rfl
  · exact fun other otherLive => (linked.childrenDistinct other (wasLive other otherLive)).sublist (fewer other)
  · exact (linked.newer.sublist sublist).imp fun notChild isChild => notChild ((fewer _).subset isChild)
  · exact fun other otherLive isChild => linked.notOwn other (wasLive other otherLive) ((fewer other).subset isChild)

/-- **Freeing a graphics without children keeps the tree.** -/
theorem Tree.freeOwn (tree : σ.Tree) (isLive : graphicsIn ∈ σ.live)
    (childless : (σ.nodes graphicsIn).children = []) : (σ.freeOwn graphicsIn).Tree := by
  have parents : ∀ other, ((σ.freeOwn graphicsIn).nodes other).parent = (σ.nodes other).parent :=
    fun other => by rw [freeOwn_nodes]
  have kept : ∀ other ∈ (σ.freeOwn graphicsIn).live, other ∈ σ.live ∧ (other = graphicsIn → graphicsIn = σ.screen) := by
    intro other otherLive
    rw [freeOwn_live] at otherLive
    split at otherLive
    · next isScreen => exact ⟨otherLive, fun _ => isScreen⟩
    · rw [tree.distinct.mem_erase_iff] at otherLive
      exact ⟨otherLive.2, fun same => absurd same otherLive.1⟩
  refine ⟨tree.toLinked.freeOwn isLive, ?_, ?_⟩ <;>
    intro other otherLive notScreen <;>
    rw [freeOwn_screen] at notScreen <;>
    obtain ⟨wasLive, same⟩ := kept other otherLive <;>
    rw [parents]
  · have parentLive := tree.parent other wasLive notScreen
    rw [freeOwn_live]
    split
    · exact parentLive
    · -- The freed graphics is nobody's parent.
      refine (List.mem_erase_of_ne fun isParent => ?_).mpr parentLive
      have isChild := tree.held other wasLive notScreen
      rw [isParent, childless] at isChild
      exact List.not_mem_nil isChild
  · have isChild := tree.held other wasLive notScreen
    rw [freeOwn_nodes]
    dsimp only
    split
    · exact (List.mem_erase_of_ne fun isIt => notScreen (isIt.trans (same isIt))).mpr isChild
    · exact isChild

end Free

end GraphicsStore

/-! ### A tiny screen -/

open GraphicsStore

/-- A screen of ten by ten pixels. -/
def tinyScreen : GraphicsStore :=
  graphicsSetup 0x1000 ⟨10, 10, 10, List.replicate 100 blackPixel, 0, 0, 0, 0, blackPixel⟩

/-- The tiny screen with one graphics. -/
def tinyScreenOne : GraphicsStore :=
  (tinyScreen.graphicsInfoCreateRelative 0x2000 0x1000 0 0 4 4 graphicsFlagDoNotCopyPixels).2

/-- The tiny screen with two graphics. -/
def tinyScreenTwo : GraphicsStore :=
  (tinyScreenOne.graphicsInfoCreateRelative 0x3000 0x1000 2 2 4 4 graphicsFlagDoNotCopyPixels).2

end PeachOS
