/-
**Freeing graphics: `graphics_info_free`, `graphics_info_children_free`.**

A child that is freed leaves the vector that the loop over the children indexes, so the loop skips the one after it. The
vectors of children are never freed.

* `graphicsInfoFree_spec` — what freeing a graphics changes, and that all else stays;
* `graphicsInfoFree_never` — no graphics is freed with all that belongs to it.
-/

import PeachOS.Graphics.Position

namespace PeachOS

namespace GraphicsStore

variable {σ σ' : GraphicsStore}

/-! ### What freeing changes -/

/-- A node that has lost children, and perhaps its pixels. -/
structure FewerNode (node node' : GraphicsNode) : Prop where
  kept : node' = { node with
    info := { node.info with pixels := node'.info.pixels }
    children := node'.children }
  children : node'.children.Sublist node.children

/-- Two memories of which the second one has fewer graphics. -/
structure Fewer (σ σ' : GraphicsStore) : Prop where
  nodes : ∀ graphics, FewerNode (σ.nodes graphics) (σ'.nodes graphics)
  live : σ'.live.Sublist σ.live
  screen : σ'.screen = σ.screen

theorem Fewer.refl (σ : GraphicsStore) : Fewer σ σ := ⟨fun _ => ⟨rfl, List.Sublist.refl _⟩, List.Sublist.refl _, rfl⟩

theorem Fewer.trans {σ'' : GraphicsStore} (first : Fewer σ σ') (second : Fewer σ' σ'') : Fewer σ σ'' := by
  refine ⟨fun graphics => ⟨?_, (second.nodes graphics).children.trans (first.nodes graphics).children⟩,
    second.live.trans first.live, second.screen.trans first.screen⟩
  rw [(second.nodes graphics).kept, (first.nodes graphics).kept]

theorem Fewer.parent (fewer : Fewer σ σ') (graphics : Nat) :
    (σ'.nodes graphics).parent = (σ.nodes graphics).parent := by rw [(fewer.nodes graphics).kept]

theorem Fewer.zIndex (fewer : Fewer σ σ') (graphics : Nat) :
    (σ'.nodes graphics).zIndex = (σ.nodes graphics).zIndex := by rw [(fewer.nodes graphics).kept]

theorem Fewer.below (fewer : Fewer σ σ') {top graphics : Nat} (below : Below σ' top graphics) : Below σ top graphics :=
  below.of_subset fun other _ isChild => (fewer.nodes other).children.subset isChild

theorem Fewer.freeOwn (σ : GraphicsStore) (graphicsIn : Nat) : Fewer σ (σ.freeOwn graphicsIn) := by
  refine ⟨fun graphics => ⟨?_, ?_⟩, ?_, freeOwn_screen _ _⟩
  · rw [freeOwn_nodes]
    dsimp only
    split <;> rfl
  · rw [freeOwn_nodes]
    dsimp only
    split
    · exact List.erase_sublist
    · exact List.Sublist.refl _
  · rw [freeOwn_live]
    split
    · exact List.Sublist.refl _
    · exact List.erase_sublist

/-- **Freeing from a graphics**: nothing changes that is not below it, but for its parent's vector, and the graphics
itself is gone. -/
structure FreedFrom (σ : GraphicsStore) (top : Nat) (σ' : GraphicsStore) : Prop where
  linked : σ'.Linked
  fewer : Fewer σ σ'
  others : ∀ graphics, ¬ Below σ top graphics → graphics ≠ (σ.nodes top).parent →
    σ'.nodes graphics = σ.nodes graphics
  remain : ∀ graphics ∈ σ.live, ¬ Below σ top graphics → graphics ∈ σ'.live
  parent : σ.Held top → σ'.nodes (σ.nodes top).parent =
    { σ.nodes (σ.nodes top).parent with children := (σ.nodes (σ.nodes top).parent).children.erase top }
  gone : top ≠ σ.screen → top ∉ σ'.live

/-- **A loop with a partial body keeps what each turn keeps.** -/
theorem foldlM_keeps {α β : Type} {turn : β → α → Option β} (holds : β → Prop) (elements : List α)
    (keeps : ∀ state element state', holds state → turn state element = some state' → holds state')
    {state state' : β} (before : holds state) (done : elements.foldlM turn state = some state') : holds state' := by
  induction elements generalizing state with
  | nil => exact Option.some.inj done ▸ before
  | cons element elements ih =>
      rw [List.foldlM_cons] at done
      obtain ⟨next, first, rest⟩ := Option.bind_eq_some_iff.mp done
      exact ih (keeps _ _ _ before first) rest

/-- What the loop over the children keeps. -/
structure FreeingChildren (σ : GraphicsStore) (top : Nat) (τ : GraphicsStore) : Prop where
  linked : τ.Linked
  fewer : Fewer σ τ
  others : ∀ graphics, ¬ Below σ top graphics → τ.nodes graphics = σ.nodes graphics
  remain : ∀ graphics ∈ σ.live, ¬ Below σ top graphics → graphics ∈ τ.live
  topLive : top ∈ τ.live

/-- One child is freed. -/
theorem FreeingChildren.next {top child : Nat} {τ τ' : GraphicsStore} (before : FreeingChildren σ top τ)
    (isChild : child ∈ (τ.nodes top).children) (freed : FreedFrom τ child τ') : FreeingChildren σ top τ' := by
  have wasChild := (before.fewer.nodes top).children.subset isChild
  have childParent := (before.linked.child top before.topLive child isChild).2
  have notBelow : ∀ graphics, ¬ Below σ top graphics → ¬ Below τ child graphics :=
    fun graphics notBelow below => notBelow ((Below.self.child wasChild).trans (before.fewer.below below))
  refine ⟨freed.linked, before.fewer.trans freed.fewer, fun graphics isNot => ?_, fun graphics isLive isNot => ?_, ?_⟩
  · rw [freed.others graphics (notBelow graphics isNot) fun isParent => isNot (isParent.trans childParent ▸ .self)]
    exact before.others graphics isNot
  · exact freed.remain graphics (before.remain graphics isLive isNot) (notBelow graphics isNot)
  · exact freed.remain top before.topLive (before.linked.not_below_child before.topLive isChild)

/-- The second part of freeing, after the children. -/
theorem FreeingChildren.finish {top : Nat} {τ : GraphicsStore} (before : FreeingChildren σ top τ) (linked : σ.Linked)
    (topLive : top ∈ σ.live) : FreedFrom σ top (τ.freeOwn top) := by
  have parent := before.fewer.parent top
  refine ⟨before.linked.freeOwn before.topLive, before.fewer.trans (Fewer.freeOwn _ _), fun graphics isNot notParent => ?_,
    fun graphics isLive isNot => ?_, fun held => ?_, fun notScreen => ?_⟩
  · have different : graphics ≠ top := fun same => isNot (same ▸ .self)
    rw [freeOwn_other different (parent ▸ notParent)]
    exact before.others graphics isNot
  · rw [freeOwn_live]
    split
    · exact before.remain graphics isLive isNot
    · have different : graphics ≠ top := fun same => isNot (same ▸ .self)
      exact (List.mem_erase_of_ne different).mpr (before.remain graphics isLive isNot)
  · have notBelow : ¬ Below σ top (σ.nodes top).parent := by
      intro below
      have upper := below.rank linked topLive
      have lower := linked.rank held.1 held.2
      omega
    have nonnull : (τ.nodes top).parent ≠ 0 := fun null => linked.nonnull (null ▸ parent ▸ held.1)
    have notSelf : (τ.nodes top).parent ≠ top := fun same => notBelow (parent ▸ same.symm ▸ .self)
    rw [← parent, freeOwn_parent nonnull notSelf, parent, before.others _ notBelow]
  · rw [freeOwn_live, before.fewer.screen, if_neg notScreen, before.linked.distinct.mem_erase_iff]
    exact fun isLive => isLive.1 rfl

/-- One turn of the loop over the children. -/
theorem FreeingChildren.turn {top : Nat} (free : GraphicsStore → Nat → Option GraphicsStore)
    (each : ∀ {τ τ' : GraphicsStore} {child : Nat}, τ.Linked → τ.Held child → free τ child = some τ' →
      FreedFrom τ child τ')
    {τ τ' : GraphicsStore} (before : FreeingChildren σ top τ) {i : Nat}
    (taken : (match (τ.nodes top).children[i]? with
      | none => some τ
      | some child => free τ child) = some τ') : FreeingChildren σ top τ' := by
  split at taken
  · exact Option.some.inj taken ▸ before
  · next child found =>
      have isChild := List.mem_of_getElem? found
      exact before.next isChild (each before.linked (before.linked.held_child before.topLive isChild) taken)

/-- **What freeing does**, from the screen or from a graphics that its parent holds. -/
theorem graphicsInfoFree_spec (linked : σ.Linked) {fuel top : Nat} (held : top = σ.screen ∨ σ.Held top)
    (done : graphicsInfoFree fuel σ top = some σ') : FreedFrom σ top σ' := by
  induction fuel generalizing σ σ' top with
  | zero => exact absurd done (Option.some_ne_none _).symm
  | succ fuel ih =>
      have topLive : top ∈ σ.live := held.elim (fun isScreen => isScreen ▸ linked.screenLive) fun held => held.live linked
      have nonnull : top ≠ 0 := fun null => linked.nonnull (null ▸ topLive)
      rw [graphicsInfoFree, if_neg nonnull] at done
      obtain ⟨τ, children, rfl⟩ := Option.map_eq_some_iff.mp done
      have start : FreeingChildren σ top σ := ⟨linked, Fewer.refl σ, fun _ _ => rfl, fun _ isLive _ => isLive, topLive⟩
      refine FreeingChildren.finish ?_ linked topLive
      refine foldlM_keeps (FreeingChildren σ top) _ (fun τ i τ' before taken => ?_) start children
      exact before.turn (graphicsInfoFree fuel) (fun linked held done => ih linked (.inr held) done) taken

/-! ### The second child -/

/-! ### The vectors of children -/

/-- **A graphics is freed with all that belongs to it**: the node, the pixels and the vector of children of everything
below it are freed once, it leaves its parent's vector, and nothing else changes. -/
structure FreesSubtree (σ : GraphicsStore) (top : Nat) (σ' : GraphicsStore) : Prop where
  once : ∀ graphics, Below σ top graphics →
    ∀ block ∈ [GraphicsBlock.node graphics, .pixels graphics, .children graphics],
      σ'.freed.count block = σ.freed.count block + 1
  unlinked : top ∉ (σ'.nodes (σ.nodes top).parent).children
  others : ∀ graphics ∈ σ.live, ¬ Below σ top graphics → graphics ∈ σ'.live ∧
    σ'.nodes graphics = { σ.nodes graphics with children := (σ.nodes graphics).children.erase top }

/-- Freeing a graphics frees no vector of children. -/
theorem graphicsInfoFree_vectors {fuel top : Nat} (done : graphicsInfoFree fuel σ top = some σ') (graphics : Nat) :
    σ'.freed.count (.children graphics) = σ.freed.count (.children graphics) := by
  induction fuel generalizing σ σ' top with
  | zero => exact absurd done (Option.some_ne_none _).symm
  | succ fuel ih =>
      rw [graphicsInfoFree] at done
      split at done
      · exact Option.some.inj done ▸ rfl
      · obtain ⟨τ, children, rfl⟩ := Option.map_eq_some_iff.mp done
        have loop : τ.freed.count (.children graphics) = σ.freed.count (.children graphics) := by
          refine foldlM_keeps (fun τ => τ.freed.count (.children graphics) = σ.freed.count (.children graphics)) _
            (fun τ i τ' before taken => ?_) rfl children
          split at taken
          · exact Option.some.inj taken ▸ before
          · exact (ih taken).trans before
        rw [← loop, freeOwn_freed]
        split
        · rw [List.count_cons_of_ne (by exact GraphicsBlock.noConfusion)]
        · rw [List.count_cons_of_ne (by exact GraphicsBlock.noConfusion),
            List.count_cons_of_ne (by exact GraphicsBlock.noConfusion)]

end GraphicsStore

open GraphicsStore

/-- **No graphics is freed with all that belongs to it**: its vector of children is not. -/
theorem graphicsInfoFree_never (σ : GraphicsStore) (top : Nat) :
    ¬ ∃ fuel σ', graphicsInfoFree fuel σ top = some σ' ∧ FreesSubtree σ top σ' := by
  rintro ⟨fuel, σ', done, frees⟩
  have once := frees.once top .self (.children top) (by simp)
  rw [graphicsInfoFree_vectors done top] at once
  exact absurd once (Nat.succ_ne_self _).symm

/-- **The graphics of a tiny screen** is freed without its vector of children. -/
theorem graphicsInfoFree_leaks : ¬ ∀ (σ : GraphicsStore) (top : Nat), σ.Tree → top ∈ σ.live → top ≠ σ.screen →
    ∃ fuel σ', graphicsInfoFree fuel σ top = some σ' ∧ FreesSubtree σ top σ' := by
  intro claimed
  have tree : tinyScreenOne.Tree :=
    (graphicsSetup_tree (by decide) _).create (by decide) (by decide) 0 0 4 4 graphicsFlagDoNotCopyPixels
  obtain ⟨fuel, σ', done, frees⟩ := claimed tinyScreenOne 0x2000 tree (by decide) (by decide)
  have once := frees.once 0x2000 .self (.children 0x2000) (by simp)
  rw [graphicsInfoFree_vectors done 0x2000] at once
  exact absurd once (Nat.succ_ne_self _).symm

end PeachOS
