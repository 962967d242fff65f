/-
**Absolute positions: `graphics_info_recalculate`.**

The position of a graphics on the screen is stored with it. It is right when it is the relative position added to the
position of the parent; recalculating a graphics makes it right for the graphics and for all below it.

* `Below` — the graphics below one, by the parent pointers;
* `graphicsInfoRecalculate_spec` — what a recalculation makes right, and that it changes nothing else;
* `graphicsInfoRecalculate_returns` — it returns;
* `AncestorSum`, `placed_sum` — right positions are the sums of relative positions along the ancestors.
-/

import PeachOS.Graphics.Tree

namespace PeachOS

namespace GraphicsStore

variable {σ σ' : GraphicsStore}

/-! ### The graphics below one -/

/-- A graphics is the given one, or a child of one below it. -/
inductive Below (σ : GraphicsStore) (top : Nat) : Nat → Prop
  | self : Below σ top top
  | child {graphics child : Nat} (above : Below σ top graphics) (isChild : child ∈ (σ.nodes graphics).children) :
      Below σ top child

/-- With fewer children there is less below. -/
theorem Below.of_subset {top graphics : Nat} (below : Below σ top graphics)
    (fewer : ∀ other, ∀ child ∈ (σ.nodes other).children, child ∈ (σ'.nodes other).children) :
    Below σ' top graphics := by
  induction below with
  | self => exact .self
  | child _ isChild ih => exact .child ih (fewer _ _ isChild)

theorem Below.of_sameLinks {top graphics : Nat} (below : Below σ top graphics) (same : SameLinks σ σ') :
    Below σ' top graphics := below.of_subset fun other _ isChild => (same.children other).symm.subset isChild

theorem Below.trans {top middle graphics : Nat} (upper : Below σ top middle) (lower : Below σ middle graphics) :
    Below σ top graphics := by
  induction lower with
  | self => exact upper
  | child _ isChild ih => exact .child ih isChild

/-- What is below a graphics is the graphics itself, or below one of its children. -/
theorem Below.cases {top graphics : Nat} (below : Below σ top graphics) :
    graphics = top ∨ ∃ child ∈ (σ.nodes top).children, Below σ child graphics := by
  induction below with
  | self => exact .inl rfl
  | @child graphics child above isChild ih =>
      rcases ih with rfl | ⟨first, isFirst, below⟩
      · exact .inr ⟨child, isChild, .self⟩
      · exact .inr ⟨first, isFirst, .child below isChild⟩

/-- What is below a live graphics is live, and a child of its parent unless it is the graphics itself. -/
theorem Below.held (linked : σ.Linked) {top graphics : Nat} (topLive : top ∈ σ.live) (below : Below σ top graphics) :
    graphics ∈ σ.live ∧ (graphics = top ∨ Below σ top (σ.nodes graphics).parent ∧
      graphics ∈ (σ.nodes (σ.nodes graphics).parent).children) := by
  induction below with
  | self => exact ⟨topLive, .inl rfl⟩
  | child above isChild ih =>
      obtain ⟨isLive, isParent⟩ := linked.child _ ih.1 _ isChild
      exact ⟨isLive, .inr (isParent.symm ▸ ⟨above, isChild⟩)⟩

/-- A live parent holds a graphics. -/
def Held (σ : GraphicsStore) (graphics : Nat) : Prop :=
  (σ.nodes graphics).parent ∈ σ.live ∧ graphics ∈ (σ.nodes (σ.nodes graphics).parent).children

theorem Held.live {graphics : Nat} (held : σ.Held graphics) (linked : σ.Linked) : graphics ∈ σ.live :=
  (linked.child _ held.1 graphics held.2).1

/-- A child is held. -/
theorem Linked.held_child (linked : σ.Linked) {top child : Nat} (topLive : top ∈ σ.live)
    (isChild : child ∈ (σ.nodes top).children) : σ.Held child := by
  unfold Held
  rw [(linked.child top topLive child isChild).2]
  exact ⟨topLive, isChild⟩

theorem Held.of_sameLinks {graphics : Nat} (held : σ.Held graphics) (same : SameLinks σ σ') : σ'.Held graphics := by
  unfold Held
  rw [same.parent, same.live]
  exact ⟨held.1, (same.children _).symm.subset held.2⟩

/-- In a tree every graphics below the screen is held. -/
theorem Tree.isHeld (tree : σ.Tree) {graphics : Nat} (isLive : graphics ∈ σ.live) :
    graphics = σ.screen ∨ σ.Held graphics := by
  by_cases isScreen : graphics = σ.screen
  · exact .inl isScreen
  · exact .inr ⟨tree.parent graphics isLive isScreen, tree.held graphics isLive isScreen⟩

/-- A child comes before its parent in the list of those that exist. -/
theorem Linked.rank (linked : σ.Linked) {graphics child : Nat} (isLive : graphics ∈ σ.live)
    (isChild : child ∈ (σ.nodes graphics).children) : σ.live.idxOf child < σ.live.idxOf graphics := by
  have childLive := (linked.child graphics isLive child isChild).1
  obtain ⟨newer, older, parts⟩ := List.append_of_mem childLive
  have distinct := linked.distinct
  have order := linked.newer
  rw [parts] at distinct order isLive
  have fresh : child ∉ newer :=
    fun isNewer => (List.nodup_append.mp distinct).2.2 _ isNewer _ List.mem_cons_self rfl
  have notNewer : graphics ∉ newer :=
    fun isNewer => (List.pairwise_append.mp order).2.2 _ isNewer child List.mem_cons_self isChild
  have isNot : graphics ≠ child := fun same => linked.notOwn graphics (by rw [parts]; exact isLive) (same.symm ▸ isChild)
  rw [parts, List.idxOf_append_of_notMem fresh, List.idxOf_append_of_notMem notNewer, List.idxOf_cons_self,
    List.idxOf_cons_ne _ isNot.symm]
  omega

/-- What is below a graphics is not older. -/
theorem Below.rank (linked : σ.Linked) {top graphics : Nat} (topLive : top ∈ σ.live) (below : Below σ top graphics) :
    σ.live.idxOf graphics ≤ σ.live.idxOf top := by
  induction below with
  | self => exact le_rfl
  | child above isChild ih => exact (linked.rank (above.held linked topLive).1 isChild).le.trans ih

/-- A graphics is not below its child. -/
theorem Linked.not_below_child (linked : σ.Linked) {top child : Nat} (topLive : top ∈ σ.live)
    (isChild : child ∈ (σ.nodes top).children) : ¬ Below σ child top := by
  intro below
  have upper := below.rank linked (linked.child top topLive child isChild).1
  have lower := linked.rank topLive isChild
  omega

/-- Different children of a graphics are not below each other. -/
theorem Linked.siblings_apart (linked : σ.Linked) {parent child sibling : Nat} (parentLive : parent ∈ σ.live)
    (isChild : child ∈ (σ.nodes parent).children) (isSibling : sibling ∈ (σ.nodes parent).children)
    (different : sibling ≠ child) : ¬ Below σ child sibling := by
  intro below
  rcases (below.held linked (linked.child parent parentLive child isChild).1).2 with same | ⟨above, -⟩
  · exact different same
  · rw [(linked.child parent parentLive sibling isSibling).2] at above
    exact linked.not_below_child parentLive isChild above

/-- The screen is below itself only. -/
theorem Linked.eq_screen_of_below (linked : σ.Linked) {top : Nat} (topLive : top ∈ σ.live)
    (below : Below σ top σ.screen) : top = σ.screen := by
  rcases (below.held linked topLive).2 with isTop | ⟨above, -⟩
  · exact isTop.symm
  · rw [linked.screenParent] at above
    exact absurd (above.held linked topLive).1 linked.nonnull

/-! ### Recalculation -/

/-- **The absolute position of a graphics is right**: modulo `2 ^ 32`, it is the relative one added to the parent's. -/
structure Placed (σ : GraphicsStore) (graphics : Nat) : Prop where
  x : (σ.nodes graphics).info.startingX =
    (σ.nodes graphics).relativeX + (σ.nodes (σ.nodes graphics).parent).info.startingX
  y : (σ.nodes graphics).info.startingY =
    (σ.nodes graphics).relativeY + (σ.nodes (σ.nodes graphics).parent).info.startingY

/-- A node at another position of the screen. -/
structure MovedNode (node node' : GraphicsNode) : Prop where
  moved : node' = { node with
    info := { node.info with startingX := node'.info.startingX, startingY := node'.info.startingY } }

/-- Two memories whose graphics differ by their absolute positions only. -/
structure Moved (σ σ' : GraphicsStore) : Prop where
  nodes : ∀ graphics, MovedNode (σ.nodes graphics) (σ'.nodes graphics)
  live : σ'.live = σ.live
  screen : σ'.screen = σ.screen
  freed : σ'.freed = σ.freed

theorem Moved.refl (σ : GraphicsStore) : Moved σ σ := ⟨fun _ => ⟨rfl⟩, rfl, rfl, rfl⟩

theorem Moved.trans {σ'' : GraphicsStore} (first : Moved σ σ') (second : Moved σ' σ'') : Moved σ σ'' := by
  refine ⟨fun graphics => ⟨?_⟩, second.live.trans first.live, second.screen.trans first.screen,
    second.freed.trans first.freed⟩
  rw [(second.nodes graphics).moved, (first.nodes graphics).moved]

theorem Moved.relativeX (moved : Moved σ σ') (graphics : Nat) :
    (σ'.nodes graphics).relativeX = (σ.nodes graphics).relativeX := by rw [(moved.nodes graphics).moved]

theorem Moved.relativeY (moved : Moved σ σ') (graphics : Nat) :
    (σ'.nodes graphics).relativeY = (σ.nodes graphics).relativeY := by rw [(moved.nodes graphics).moved]

theorem Moved.links (moved : Moved σ σ') : SameLinks σ σ' :=
  ⟨fun graphics => by rw [(moved.nodes graphics).moved], fun graphics => by rw [(moved.nodes graphics).moved],
    moved.live, moved.screen⟩

/-- A position stays right when the graphics and its parent stay as they are. -/
theorem Placed.of_same {graphics : Nat} (placed : Placed σ graphics) (moved : Moved σ σ')
    (own : σ'.nodes graphics = σ.nodes graphics)
    (parent : σ'.nodes (σ.nodes graphics).parent = σ.nodes (σ.nodes graphics).parent) : Placed σ' graphics := by
  have links := moved.links.parent graphics
  exact ⟨by rw [links, parent, own]; exact placed.x, by rw [links, parent, own]; exact placed.y⟩

/-- **A recalculation from a graphics**: it makes the positions of the graphics and of those below it right. -/
structure Recalculated (σ : GraphicsStore) (top : Nat) (σ' : GraphicsStore) : Prop where
  moved : Moved σ σ'
  screen : σ'.nodes σ.screen = σ.nodes σ.screen
  others : ∀ graphics, ¬ Below σ top graphics → σ'.nodes graphics = σ.nodes graphics
  placed : ∀ graphics, graphics ≠ σ.screen → Below σ top graphics → Placed σ' graphics

/-- Positions that were right elsewhere stay so. -/
theorem Recalculated.keeps (tree : σ.Tree) {top graphics : Nat} (done : Recalculated σ top σ')
    (isLive : graphics ∈ σ.live) (notScreen : graphics ≠ σ.screen) (placed : Placed σ graphics) :
    Placed σ' graphics := by
  by_cases below : Below σ top graphics
  · exact done.placed graphics notScreen below
  · exact placed.of_same done.moved (done.others graphics below)
      (done.others _ fun above => below (.child above (tree.held graphics isLive notScreen)))

theorem recalculateOwn_other (σ : GraphicsStore) {graphics other : Nat} (isNot : other ≠ graphics) :
    (σ.recalculateOwn graphics).nodes other = σ.nodes other := by
  unfold recalculateOwn
  dsimp only
  split
  · exact setNode_of_ne isNot _ _
  · rfl

theorem recalculateOwn_moved (σ : GraphicsStore) (graphics : Nat) : Moved σ (σ.recalculateOwn graphics) := by
  refine ⟨fun other => ?_, ?_, ?_, ?_⟩
  · by_cases isIt : other = graphics
    · unfold recalculateOwn
      dsimp only
      split
      · rw [isIt, setNode_self]
        exact ⟨rfl⟩
      · exact ⟨rfl⟩
    · rw [recalculateOwn_other σ isIt]
      exact ⟨rfl⟩
  all_goals
    unfold recalculateOwn
    dsimp only
    split <;> rfl

/-- The first part makes the graphics' own position right, unless it is below nothing. -/
theorem recalculateOwn_placed {graphics : Nat} (nonnull : (σ.nodes graphics).parent ≠ 0)
    (notSelf : (σ.nodes graphics).parent ≠ graphics) : Placed (σ.recalculateOwn graphics) graphics := by
  have links := (recalculateOwn_moved σ graphics).links.parent graphics
  constructor <;>
    rw [links, recalculateOwn_other σ notSelf] <;>
    unfold recalculateOwn <;>
    dsimp only <;>
    rw [if_pos nonnull, setNode_self]

/-- Some children of a graphics that were recalculated, one after the other. -/
theorem recalculateChildren (recalculate : GraphicsStore → Nat → Option GraphicsStore) (linked : σ.Linked)
    (each : ∀ {τ τ' : GraphicsStore} {child : Nat}, τ.Linked → τ.Held child → recalculate τ child = some τ' →
      Recalculated τ child τ')
    {top : Nat} (topLive : top ∈ σ.live) (children : List Nat)
    (isChild : ∀ child ∈ children, child ∈ (σ.nodes top).children) (done : children.foldlM recalculate σ = some σ') :
    Moved σ σ' ∧ (∀ graphics, (∀ child ∈ children, ¬ Below σ child graphics) → σ'.nodes graphics = σ.nodes graphics) ∧
      ∀ graphics, (∃ child ∈ children, Below σ child graphics) → Placed σ' graphics := by
  induction children generalizing σ with
  | nil =>
      obtain rfl := Option.some.inj done
      exact ⟨Moved.refl _, fun _ _ => rfl, fun _ ⟨_, isChild, _⟩ => absurd isChild List.not_mem_nil⟩
  | cons child children ih =>
      rw [List.foldlM_cons] at done
      obtain ⟨τ, first, rest⟩ := Option.bind_eq_some_iff.mp done
      have firstChild := isChild child List.mem_cons_self
      obtain ⟨childLive, childParent⟩ := linked.child top topLive child firstChild
      have once := each linked (linked.held_child topLive firstChild) first
      have links := once.moved.links
      obtain ⟨moved, others, placed⟩ := ih (linked.sameLinks links) (links.live.symm ▸ topLive)
        (fun other isOther => (links.children top).symm.subset (isChild other (List.mem_cons_of_mem _ isOther))) rest
      refine ⟨once.moved.trans moved, fun graphics notBelow => ?_, fun graphics below => ?_⟩
      · rw [others graphics fun other isOther below =>
          notBelow other (List.mem_cons_of_mem _ isOther) (below.of_sameLinks links.symm)]
        exact once.others graphics (notBelow child List.mem_cons_self)
      · by_cases later : ∃ other ∈ children, Below τ other graphics
        · exact placed graphics later
        · -- Nothing recalculated later is above the graphics, or above its parent.
          have notLater : ∀ other ∈ children, ¬ Below σ other graphics := fun other isOther above =>
            later ⟨other, isOther, above.of_sameLinks links⟩
          have belowFirst : Below σ child graphics := by
            obtain ⟨other, isOther, below⟩ := below
            rcases List.mem_cons.mp isOther with rfl | isOther
            · exact below
            · exact absurd below (notLater other isOther)
          obtain ⟨isLive, held⟩ := belowFirst.held linked childLive
          have notScreen : graphics ≠ σ.screen := by
            rintro rfl
            have isScreen := linked.eq_screen_of_below childLive belowFirst
            exact linked.child_notScreen topLive firstChild isScreen
          have notAbove : ∀ other ∈ children, ¬ Below σ other (σ.nodes graphics).parent := by
            intro other isOther above
            rcases held with rfl | ⟨-, isHeld⟩
            · rw [childParent] at above
              exact linked.not_below_child topLive (isChild other (List.mem_cons_of_mem _ isOther)) above
            · exact notLater other isOther (.child above isHeld)
          have parent := links.parent graphics
          refine (once.placed graphics notScreen belowFirst).of_same moved
            (others graphics fun other isOther above => notLater other isOther (above.of_sameLinks links.symm)) ?_
          rw [parent]
          exact others _ fun other isOther above => notAbove other isOther (above.of_sameLinks links.symm)

/-- **What a recalculation does**, from the screen or from a graphics that its parent holds. -/
theorem graphicsInfoRecalculate_spec (linked : σ.Linked) {fuel top : Nat} (held : top = σ.screen ∨ σ.Held top)
    (done : graphicsInfoRecalculate fuel σ top = some σ') : Recalculated σ top σ' := by
  induction fuel generalizing σ σ' top with
  | zero => exact absurd done (Option.some_ne_none _).symm
  | succ fuel ih =>
      rw [graphicsInfoRecalculate] at done
      have topLive : top ∈ σ.live := held.elim (fun isScreen => isScreen ▸ linked.screenLive) fun held => held.live linked
      have own := recalculateOwn_moved σ top
      have links := own.links
      have ownLinked := linked.sameLinks links
      have ownLive : top ∈ (σ.recalculateOwn top).live := links.live.symm ▸ topLive
      obtain ⟨moved, others, placed⟩ := recalculateChildren (graphicsInfoRecalculate fuel) ownLinked
        (fun linked held done => ih linked (.inr held) done) ownLive _ (fun _ isChild => isChild) done
      have notBelowChild : ∀ child ∈ ((σ.recalculateOwn top).nodes top).children,
          ¬ Below (σ.recalculateOwn top) child top := fun child isChild => ownLinked.not_below_child ownLive isChild
      refine ⟨own.trans moved, ?_, fun graphics notBelow => ?_, fun graphics notScreen isBelow => ?_⟩
      · by_cases isScreen : σ.screen = top
        · rw [isScreen, others top notBelowChild]
          unfold recalculateOwn
          dsimp only
          rw [if_neg (not_not.mpr (isScreen ▸ linked.screenParent))]
        · rw [others σ.screen fun child childIn isBelow => ownLinked.child_notScreen ownLive childIn
            (ownLinked.eq_screen_of_below (ownLinked.child top ownLive child childIn).1 (links.screen.symm ▸ isBelow))]
          exact recalculateOwn_other σ isScreen
      · have isNot : graphics ≠ top := fun same => notBelow (same ▸ .self)
        rw [others graphics fun child isChild isBelow => notBelow
          (((Below.self.child isChild).trans isBelow).of_sameLinks links.symm)]
        exact recalculateOwn_other σ isNot
      · rcases (isBelow.of_sameLinks links).cases with rfl | belowChild
        · obtain ⟨parentLive, isHeld⟩ := held.resolve_left notScreen
          have nonnull : (σ.nodes graphics).parent ≠ 0 := fun null => linked.nonnull (null ▸ parentLive)
          have notSelf : (σ.nodes graphics).parent ≠ graphics := by
            intro same
            rw [same] at isHeld
            exact linked.notOwn graphics topLive isHeld
          refine (recalculateOwn_placed nonnull notSelf).of_same moved (others graphics notBelowChild) ?_
          rw [links.parent]
          refine others _ fun child isChild above => ?_
          have lower := (((Below.self.child isChild).trans above).of_sameLinks links.symm).rank linked topLive
          have upper := linked.rank parentLive isHeld
          omega
        · exact placed graphics belowChild

/-- **A recalculation returns**, with fuel for the graphics that are newer. -/
theorem graphicsInfoRecalculate_returns (linked : σ.Linked) {fuel top : Nat} (held : top = σ.screen ∨ σ.Held top)
    (enough : σ.live.idxOf top < fuel) : ∃ σ', graphicsInfoRecalculate fuel σ top = some σ' := by
  induction fuel generalizing σ top with
  | zero => exact absurd enough (Nat.not_lt_zero _)
  | succ fuel ih =>
      have topLive : top ∈ σ.live := held.elim (fun isScreen => isScreen ▸ linked.screenLive) fun held => held.live linked
      have links := (recalculateOwn_moved σ top).links
      have ownLinked := linked.sameLinks links
      have ownLive : top ∈ (σ.recalculateOwn top).live := links.live.symm ▸ topLive
      have children : ∀ child ∈ ((σ.recalculateOwn top).nodes top).children,
          (σ.recalculateOwn top).Held child ∧ (σ.recalculateOwn top).live.idxOf child < fuel := by
        intro child isChild
        have lower := ownLinked.rank ownLive isChild
        rw [links.live] at lower
        refine ⟨ownLinked.held_child ownLive isChild, ?_⟩
        rw [links.live]
        omega
      rw [graphicsInfoRecalculate]
      generalize ((σ.recalculateOwn top).nodes top).children = remaining at children
      clear ownLive links
      generalize σ.recalculateOwn top = τ at ownLinked children
      induction remaining generalizing τ with
      | nil => exact ⟨τ, rfl⟩
      | cons child remaining each =>
          obtain ⟨isHeld, few⟩ := children child List.mem_cons_self
          obtain ⟨τ', first⟩ := ih ownLinked (.inr isHeld) few
          have links := (graphicsInfoRecalculate_spec ownLinked (.inr isHeld) first).moved.links
          obtain ⟨σ', rest⟩ := each τ' (ownLinked.sameLinks links) fun other isOther => by
            obtain ⟨otherHeld, otherFew⟩ := children other (List.mem_cons_of_mem _ isOther)
            exact ⟨otherHeld.of_sameLinks links, links.live.symm ▸ otherFew⟩
          refine ⟨σ', ?_⟩
          rw [List.foldlM_cons, first]
          exact rest

/-! ### Sums along the ancestors -/

/-- The sums of the relative positions of a graphics and of its ancestors below the screen. -/
inductive AncestorSum (σ : GraphicsStore) : Nat → BitVec 32 → BitVec 32 → Prop
  | atScreen : AncestorSum σ σ.screen 0 0
  | step {graphics : Nat} {x y : BitVec 32} (isLive : graphics ∈ σ.live) (notScreen : graphics ≠ σ.screen)
      (above : AncestorSum σ (σ.nodes graphics).parent x y) :
      AncestorSum σ graphics ((σ.nodes graphics).relativeX + x) ((σ.nodes graphics).relativeY + y)

/-- **Right positions are sums of relative positions**, when the screen begins at zero. -/
theorem placed_sum (originX : (σ.nodes σ.screen).info.startingX = 0) (originY : (σ.nodes σ.screen).info.startingY = 0)
    (placed : ∀ graphics ∈ σ.live, graphics ≠ σ.screen → Placed σ graphics) {graphics : Nat} {x y : BitVec 32}
    (sum : AncestorSum σ graphics x y) :
    (σ.nodes graphics).info.startingX = x ∧ (σ.nodes graphics).info.startingY = y := by
  induction sum with
  | atScreen => exact ⟨originX, originY⟩
  | step isLive notScreen _ ih =>
      obtain ⟨placedX, placedY⟩ := placed _ isLive notScreen
      exact ⟨by rw [placedX, ih.1], by rw [placedY, ih.2]⟩

/-- Every graphics of a tree has such sums. -/
theorem Tree.ancestorSum (tree : σ.Tree) {graphics : Nat} (isLive : graphics ∈ σ.live) :
    ∃ x y, AncestorSum σ graphics x y := by
  generalize count : σ.live.length - σ.live.idxOf graphics = left
  induction left using Nat.strong_induction_on generalizing graphics with
  | _ left ih =>
      by_cases isScreen : graphics = σ.screen
      · exact ⟨0, 0, isScreen ▸ .atScreen⟩
      · have parentLive := tree.parent graphics isLive isScreen
        have rank := tree.toLinked.rank parentLive (tree.held graphics isLive isScreen)
        have bound := List.idxOf_lt_length_of_mem parentLive
        obtain ⟨x, y, above⟩ := ih _ (by omega) parentLive rfl
        exact ⟨_, _, .step isLive isScreen above⟩

end GraphicsStore

end PeachOS
