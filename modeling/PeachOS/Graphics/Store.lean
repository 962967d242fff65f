/-
**The tree of graphics in memory: `graphics/graphics.c`.**

A `struct graphics_info` has an address; its parent and its children are addresses, and 0 is the null pointer. Memory
keeps what a node was when it is freed, until the address is given out again. A function that follows the children of a
node, and theirs, has fuel for the depth.

* `graphicsSetup` — the screen;
* `graphicsSetZIndex`, `windowBringToTop` — the order of the children;
* `graphicsInfoCreateRelative` — new graphics;
* `graphicsInfoRecalculate` — the absolute positions of a node and of those below it;
* `graphicsInfoFree` — a node goes, with its children.

There is memory for temporary elements. The event handlers and the ignored colour are left out, and the framebuffer of
a clone, which no function sets.
-/

import PeachOS.Graphics.Model
import PeachOS.Vector.Elements
import Mathlib.Logic.Function.Basic

namespace PeachOS

/-- `struct graphics_info` with its place in the tree. -/
@[ext]
structure GraphicsNode where
  info : GraphicsInfo
  relativeX : BitVec 32
  relativeY : BitVec 32
  parent : Nat
  children : List Nat
  zIndex : BitVec 32

/-- What belongs to a graphics in the heap. -/
inductive GraphicsBlock where
  /-- The `struct graphics_info`. -/
  | node (graphics : Nat)
  | pixels (graphics : Nat)
  /-- The vector of the children. -/
  | children (graphics : Nat)
deriving DecidableEq

/-- The graphics in memory. -/
structure GraphicsStore where
  nodes : Nat → GraphicsNode
  /-- The addresses of the graphics that exist, the last one that was created first. -/
  live : List Nat
  /-- `loaded_graphics_info`. -/
  screen : Nat
  /-- What was freed. -/
  freed : List GraphicsBlock

namespace GraphicsStore

/-- `graphics_setup`: the screen, without children. -/
def graphicsSetup (mainGraphicsInfo : Nat) (info : GraphicsInfo) : GraphicsStore where
  nodes _ :=
    { info := { info with
        width := info.horizontalResolution
        height := info.verticalResolution
        startingX := 0
        startingY := 0 }
      relativeX := 0
      relativeY := 0
      parent := 0
      children := []
      zIndex := 0 }
  live := [mainGraphicsInfo]
  screen := mainGraphicsInfo
  freed := []

/-- The memory after a write to a node. -/
def setNode (σ : GraphicsStore) (graphics : Nat) (node : GraphicsNode) : GraphicsStore :=
  { σ with nodes := Function.update σ.nodes graphics node }

/-- The memory after the children of a node have changed. -/
def setChildren (σ : GraphicsStore) (graphics : Nat) (children : List Nat) : GraphicsStore :=
  σ.setNode graphics { σ.nodes graphics with children := children }

/-- `kfree`. -/
def kfree (σ : GraphicsStore) (block : GraphicsBlock) : GraphicsStore := { σ with freed := block :: σ.freed }

/-- `graphics_reorder`. -/
def graphicsReorder (σ : GraphicsStore) (first second : Nat) : Bool :=
  (σ.nodes first).zIndex > (σ.nodes second).zIndex

/-- `vector_reorder(g->children, graphics_reorder)`. -/
def reorderChildren (σ : GraphicsStore) (graphics : Nat) : GraphicsStore :=
  σ.setChildren graphics (vectorReorder σ.graphicsReorder (σ.nodes graphics).children)

/-- `graphics_set_z_index`. -/
def graphicsSetZIndex (σ : GraphicsStore) (graphics : Nat) (zIndex : BitVec 32) : GraphicsStore :=
  let σ := σ.setNode graphics { σ.nodes graphics with zIndex := zIndex }
  let parent := (σ.nodes graphics).parent
  if parent ≠ 0 then σ.reorderChildren parent else σ

/-- `window_bring_to_top` of `graphics/window.c`, for the window with this root graphics. The index is a `size_t`, then
an `int`, then a `uint32_t`. -/
def windowBringToTop (σ : GraphicsStore) (rootGraphics : Nat) : GraphicsStore :=
  let lastIndex : BitVec 64 :=
    match (σ.nodes σ.screen).children.getLast? with
    | none => 0
    | some childGraphics => if childGraphics ≠ 0 then (σ.nodes childGraphics).zIndex.setWidth 64 else 0
  σ.graphicsSetZIndex rootGraphics ((lastIndex + 1).setWidth 32)

/-- A node of `graphics_info_create_relative`, which is not in its parent's vector yet. -/
def newNode (sourceGraphics : Nat) (created : GraphicsInfo) (x y : BitVec 64) : GraphicsNode where
  info := created
  relativeX := x.setWidth 32
  relativeY := y.setWidth 32
  parent := sourceGraphics
  children := []
  zIndex := 0

/-- `graphics_info_create_relative`: the new graphics, or 0, and the memory then. `newGraphics` is what `kzalloc`
returns, 0 when there is no memory for the graphics or for its pixels. -/
def graphicsInfoCreateRelative (σ : GraphicsStore) (newGraphics sourceGraphics : Nat)
    (x y width height : BitVec 64) (flags : BitVec 32) : Nat × GraphicsStore :=
  if newGraphics = 0 then (0, σ)
  else
    match PeachOS.graphicsInfoCreateRelative (σ.nodes sourceGraphics).info x y width height flags with
    | none => (0, σ)
    | some (created, _) =>
        let σ := { σ.setNode newGraphics (newNode sourceGraphics created x y) with live := newGraphics :: σ.live }
        let σ := σ.setChildren sourceGraphics ((σ.nodes sourceGraphics).children ++ [newGraphics])
        let totalChildren := (σ.nodes sourceGraphics).children.length
        (newGraphics, σ.graphicsSetZIndex newGraphics (.ofNat 32 totalChildren))

/-- The first part of `graphics_info_recalculate`: the position of a node below another one. -/
def recalculateOwn (σ : GraphicsStore) (graphics : Nat) : GraphicsStore :=
  let node := σ.nodes graphics
  if node.parent ≠ 0 then
    let above := (σ.nodes node.parent).info
    σ.setNode graphics
      { node with
        info := { node.info with
          startingX := node.relativeX + above.startingX
          startingY := node.relativeY + above.startingY } }
  else σ

/-- `graphics_info_recalculate`. The vectors do not change. -/
def graphicsInfoRecalculate : Nat → GraphicsStore → Nat → Option GraphicsStore
  | 0, _, _ => none
  | fuel + 1, σ, graphics =>
      ((σ.recalculateOwn graphics).nodes graphics).children.foldlM (graphicsInfoRecalculate fuel)
        (σ.recalculateOwn graphics)

/-- `graphics_info_children_free`: the total is read once, and each turn reads the vector as it then is. -/
def graphicsInfoChildrenFree (free : GraphicsStore → Nat → Option GraphicsStore) (σ : GraphicsStore)
    (graphics : Nat) : Option GraphicsStore :=
  let totalChildren := (σ.nodes graphics).children.length
  (List.range totalChildren).foldlM (fun σ i =>
    match (σ.nodes graphics).children[i]? with
    | none => some σ
    | some child => free σ child) σ

/-- A graphics without its pixels. -/
def freePixels (σ : GraphicsStore) (graphicsIn : Nat) : GraphicsStore :=
  (σ.setNode graphicsIn
    { σ.nodes graphicsIn with info := { (σ.nodes graphicsIn).info with pixels := [] } }).kfree (.pixels graphicsIn)

/-- A graphics that is no longer in its parent's vector. -/
def unlink (σ : GraphicsStore) (graphicsIn : Nat) : GraphicsStore :=
  let parent := (σ.nodes graphicsIn).parent
  if parent ≠ 0 then σ.setChildren parent (vectorPopElement true (σ.nodes parent).children graphicsIn).2 else σ

/-- The second part of `graphics_info_free`: the pixels, the place in the parent's vector, and the node, unless it is
the screen. -/
def freeOwn (σ : GraphicsStore) (graphicsIn : Nat) : GraphicsStore :=
  let σ := (σ.freePixels graphicsIn).unlink graphicsIn
  if graphicsIn = σ.screen then σ
  else { σ.kfree (.node graphicsIn) with live := σ.live.erase graphicsIn }

/-- `graphics_info_free`. -/
def graphicsInfoFree : Nat → GraphicsStore → Nat → Option GraphicsStore
  | 0, _, _ => none
  | fuel + 1, σ, graphicsIn =>
      if graphicsIn = 0 then some σ
      else (graphicsInfoChildrenFree (graphicsInfoFree fuel) σ graphicsIn).map fun σ => σ.freeOwn graphicsIn

end GraphicsStore

end PeachOS
