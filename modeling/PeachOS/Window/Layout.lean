/-
**The layout of a window: what `window_create` creates, and what it paints.**

The graphics of a bordered window are created in one block and painted in another. The locals of the right and of the bottom
border are declared again in the first block, so that those of the second one are still null.

* `drawRect_whole` — a graphics that is filled has one colour;
* `windowGraphics_infos` — where the graphics of a window are;
* `laidOut_created` — painted through the graphics that were created, a window is laid out;
* `laidOut_never` — painted through the locals of `window_create`, none is.
-/

import PeachOS.Window.Build
import PeachOS.Graphics.Draw

namespace PeachOS

/-! ### Drawing -/

namespace GraphicsStore

/-- `graphics_draw_rect` of a graphics in memory. `none` is for a null pointer that is followed. -/
def drawRect (σ : GraphicsStore) (graphics : Nat) (x y : BitVec 32) (width height : BitVec 64) (pixelColor : FramebufferPixel) :
    Option GraphicsStore :=
  if graphics = 0 then none
  else
    some (σ.setNode graphics
      { σ.nodes graphics with info := graphicsDrawRect (σ.nodes graphics).info x y width height pixelColor })

/-- `graphics_draw_rect(g, 0, 0, g->width, g->height, pixel_color)`. -/
def drawWhole (σ : GraphicsStore) (graphics : Nat) (pixelColor : FramebufferPixel) : Option GraphicsStore :=
  σ.drawRect graphics 0 0 ((σ.nodes graphics).info.width.setWidth 64) ((σ.nodes graphics).info.height.setWidth 64) pixelColor

/-- `graphics_transparency_key_set`. -/
def graphicsTransparencyKeySet (σ : GraphicsStore) (graphics : Nat) (pixelColor : FramebufferPixel) : GraphicsStore :=
  σ.setNode graphics { σ.nodes graphics with info := { (σ.nodes graphics).info with transparencyKey := pixelColor } }

end GraphicsStore

namespace WindowSystem

open GraphicsStore

/-- `WINDOW_FLAG_BACKGROUND_TRANSPARENT`. -/
def windowFlagBackgroundTransparent : BitVec 32 := 0b00000100#32

/-- `bg_color`, and the transparency key. -/
def bgColor : FramebufferPixel := ⟨0xFF#8, 0xFF#8, 0xFF#8, 0x00#8⟩

/-- `border_color`, and that of the title bar. -/
def borderColor : FramebufferPixel := blackPixel

/-- The root of a transparent window. -/
def rootBackground (σ : GraphicsStore) (root : Nat) (flags : BitVec 32) : Option GraphicsStore :=
  if flags &&& windowFlagBackgroundTransparent ≠ 0 then (σ.graphicsTransparencyKeySet root bgColor).drawWhole root bgColor
  else some σ

/-- The first part of `window_create`: the graphics of a window, if all are created. -/
def windowGraphics (σ : GraphicsStore) (memory : WindowMemory) (graphicsInfo : Nat) (x y width height : BitVec 64)
    (flags : BitVec 32) : Option GraphicsStore :=
  match windowRequests memory graphicsInfo x y width height flags with
  | [] => none
  | root :: parts =>
      let rootCreated := createEach [root] σ
      if !rootCreated.1 then none
      else
        (rootBackground rootCreated.2 memory.root flags).bind fun σ =>
          let created := createEach parts σ
          if created.1 then some created.2 else none

/-- The locals of `window_create` that its second part paints through. -/
structure WindowVariables where
  titleBarGraphicsInfo : Nat
  borderLeftGraphicsInfo : Nat
  borderRightGraphicsInfo : Nat
  borderBottomGraphicsInfo : Nat
  windowGraphicsInfo : Nat

/-- What they are: the block that creates the graphics declares `border_right_graphics_info` and `border_bottom_graphics_info`
again, and assigns to these. -/
def windowVariables (memory : WindowMemory) : WindowVariables where
  titleBarGraphicsInfo := memory.titleBar
  borderLeftGraphicsInfo := memory.borderLeft
  borderRightGraphicsInfo := 0
  borderBottomGraphicsInfo := 0
  windowGraphicsInfo := memory.body

/-- The graphics that were created. -/
def createdVariables (memory : WindowMemory) : WindowVariables :=
  { windowVariables memory with
    borderRightGraphicsInfo := memory.borderRight
    borderBottomGraphicsInfo := memory.borderBottom }

/-- The second part of `window_create`, which paints. The text and the icon of the title bar are left out. -/
def windowPaint (σ : GraphicsStore) (locals : WindowVariables) (width height : BitVec 64) (flags : BitVec 32) :
    Option GraphicsStore :=
  (σ.drawRect locals.windowGraphicsInfo 0 0 width height bgColor).bind fun σ =>
    let σ :=
      if flags &&& windowFlagBackgroundTransparent ≠ 0 then σ.graphicsTransparencyKeySet locals.windowGraphicsInfo bgColor
      else σ
    if flags &&& windowFlagBorderless = 0 then
      (σ.drawRect locals.titleBarGraphicsInfo 0 0 ((σ.nodes locals.titleBarGraphicsInfo).info.width.setWidth 64)
        windowTitleBarHeight borderColor).bind fun σ =>
      (σ.drawWhole locals.borderLeftGraphicsInfo borderColor).bind fun σ =>
      (σ.drawWhole locals.borderRightGraphicsInfo borderColor).bind fun σ =>
      σ.drawWhole locals.borderBottomGraphicsInfo borderColor
    else some σ

/-! ### What is asked for -/

/-- A position of the screen is in a graphics. -/
def Occupies (g : GraphicsInfo) (x y : Nat) : Prop :=
  (g.startingX.toNat ≤ x ∧ x < g.startingX.toNat + g.width.toNat) ∧ g.startingY.toNat ≤ y ∧ y < g.startingY.toNat + g.height.toNat

/-- All pixels of a graphics have one colour. -/
def HasColor (g : GraphicsInfo) (pixelColor : FramebufferPixel) : Prop :=
  ∀ x y, x < g.width → y < g.height → g.pixelAt (g.pixelIndex x y) = pixelColor

/-- The graphics below the root of a bordered window. -/
def windowParts (memory : WindowMemory) : List Nat :=
  [memory.titleBar, memory.borderLeft, memory.borderRight, memory.borderBottom, memory.body]

/-- **A window is laid out**: no null pointer is followed, its graphics are apart and inside the root, and the borders and the
body have their colours. -/
structure LaidOut (σ : GraphicsStore) (memory : WindowMemory) (locals : WindowVariables) (width height : BitVec 64)
    (flags : BitVec 32) : Prop where
  apart : (windowParts memory).Pairwise fun part part' =>
    ∀ x y, ¬ (Occupies (σ.nodes part).info x y ∧ Occupies (σ.nodes part').info x y)
  inside : ∀ part ∈ windowParts memory, ∀ x y, Occupies (σ.nodes part).info x y → Occupies (σ.nodes memory.root).info x y
  painted : ∃ σ', windowPaint σ locals width height flags = some σ' ∧
    (∀ border ∈ [memory.borderLeft, memory.borderRight, memory.borderBottom], HasColor (σ'.nodes border).info borderColor) ∧
    HasColor (σ'.nodes memory.body).info bgColor

/-! ### Null pointers -/

/-- The second part of `window_create` follows a null pointer, in every bordered window. -/
theorem windowPaint_null (σ : GraphicsStore) (memory : WindowMemory) (width height : BitVec 64) {flags : BitVec 32}
    (bordered : flags &&& windowFlagBorderless = 0) : windowPaint σ (windowVariables memory) width height flags = none := by
  unfold windowPaint
  refine Option.bind_eq_none_iff.mpr fun body _ => ?_
  dsimp only
  rw [if_pos bordered]
  refine Option.bind_eq_none_iff.mpr fun titleBar _ => ?_
  refine Option.bind_eq_none_iff.mpr fun left _ => ?_
  exact Option.bind_eq_none_iff.mpr fun right isRight => absurd isRight (Option.some_ne_none right).symm

/-- **No bordered window is laid out**, whatever its place and its size, when all its graphics were created. -/
theorem laidOut_never (σ : GraphicsStore) (memory : WindowMemory) (graphicsInfo : Nat) (x y width height : BitVec 64)
    (flags : BitVec 32) (bordered : flags &&& windowFlagBorderless = 0) :
    ¬ ∃ σ', windowGraphics σ memory graphicsInfo x y width height flags = some σ' ∧
      LaidOut σ' memory (windowVariables memory) width height flags := by
  rintro ⟨σ', -, laidOut⟩
  obtain ⟨painted, isPainted, -⟩ := laidOut.painted
  rw [windowPaint_null σ' memory width height bordered] at isPainted
  exact absurd isPainted (Option.some_ne_none painted).symm

/-! ### One colour -/

/-- **A graphics that is filled has one colour.** -/
theorem drawRect_whole {g : GraphicsInfo} (sized : g.Sized) {width height : BitVec 64} (sameWidth : width.setWidth 32 = g.width)
    (sameHeight : height.setWidth 32 = g.height) (pixelColor : FramebufferPixel) :
    DrawnIn g pixelColor (graphicsDrawRect g 0 0 width height pixelColor) ∧
      HasColor (graphicsDrawRect g 0 0 width height pixelColor) pixelColor := by
  obtain ⟨drawn, each⟩ := drawPixels_drawn (rectPositions 0 0 width height) pixelColor sized
  refine ⟨drawn, fun x y column row => ?_⟩
  unfold graphicsDrawRect at column row ⊢
  have isIn : x < g.width ∧ y < g.height := by
    rw [drawn.same] at column row
    exact ⟨column, row⟩
  have sameIndex := congrArg (fun info : GraphicsInfo => info.pixelIndex x y) drawn.same
  have here := each (x, y) (mem_rectPositions (sameWidth ▸ isIn.1) (sameHeight ▸ isIn.2)) isIn.1 isIn.2
  rw [sameIndex]
  exact here

/-! ### Painting -/

section Painting

variable {σ : GraphicsStore} {graphics : Nat}

/-- A rectangle in one graphics. -/
theorem drawRect_frame (nonnull : graphics ≠ 0) (x y : BitVec 32) (width height : BitVec 64) (pixelColor : FramebufferPixel) :
    ∃ σ', σ.drawRect graphics x y width height pixelColor = some σ' ∧ ∀ other ≠ graphics, σ'.nodes other = σ.nodes other := by
  unfold GraphicsStore.drawRect
  rw [if_neg nonnull]
  exact ⟨_, rfl, fun other isOther => setNode_of_ne isOther _ _⟩

/-- **A graphics is filled**, and no other one changes. -/
theorem fill_graphics (nonnull : graphics ≠ 0) (sized : (σ.nodes graphics).info.Sized) {width height : BitVec 64}
    (sameWidth : width.setWidth 32 = (σ.nodes graphics).info.width)
    (sameHeight : height.setWidth 32 = (σ.nodes graphics).info.height) (pixelColor : FramebufferPixel) :
    ∃ σ', σ.drawRect graphics 0 0 width height pixelColor = some σ' ∧ HasColor (σ'.nodes graphics).info pixelColor ∧
      ∀ other ≠ graphics, σ'.nodes other = σ.nodes other := by
  unfold GraphicsStore.drawRect
  rw [if_neg nonnull]
  refine ⟨_, rfl, ?_, fun other isOther => setNode_of_ne isOther _ _⟩
  rw [setNode_self]
  exact (drawRect_whole sized sameWidth sameHeight pixelColor).2

theorem drawWhole_graphics (nonnull : graphics ≠ 0) (sized : (σ.nodes graphics).info.Sized) (pixelColor : FramebufferPixel) :
    ∃ σ', σ.drawWhole graphics pixelColor = some σ' ∧ HasColor (σ'.nodes graphics).info pixelColor ∧
      ∀ other ≠ graphics, σ'.nodes other = σ.nodes other := by
  have back : ∀ size : BitVec 32, (size.setWidth 64).setWidth 32 = size := fun size =>
    BitVec.setWidth_setWidth_of_le size (by decide)
  exact fill_graphics nonnull sized (back _) (back _) pixelColor

end Painting

theorem forall_windowParts {memory : WindowMemory} {holds : Nat → Prop} : (∀ part ∈ windowParts memory, holds part) ↔
    holds memory.titleBar ∧ holds memory.borderLeft ∧ holds memory.borderRight ∧ holds memory.borderBottom ∧
      holds memory.body := by
  unfold windowParts
  simp only [List.mem_cons, List.not_mem_nil, or_false, forall_eq_or_imp, forall_eq]

/-- **Painted through the graphics that were created**, the borders and the body have their colours. -/
theorem windowPaint_created {σ : GraphicsStore} {memory : WindowMemory} {width height : BitVec 64} {flags : BitVec 32}
    (bordered : flags &&& windowFlagBorderless = 0) (nonnull : ∀ part ∈ windowParts memory, part ≠ 0)
    (distinct : (windowParts memory).Nodup) (sized : ∀ part ∈ windowParts memory, (σ.nodes part).info.Sized)
    (sameWidth : width.setWidth 32 = (σ.nodes memory.body).info.width)
    (sameHeight : height.setWidth 32 = (σ.nodes memory.body).info.height) :
    ∃ σ', windowPaint σ (createdVariables memory) width height flags = some σ' ∧
      (∀ border ∈ [memory.borderLeft, memory.borderRight, memory.borderBottom], HasColor (σ'.nodes border).info borderColor) ∧
      HasColor (σ'.nodes memory.body).info bgColor := by
  obtain ⟨titleNonnull, leftNonnull, rightNonnull, bottomNonnull, bodyNonnull⟩ := forall_windowParts.mp nonnull
  obtain ⟨titleSized, leftSized, rightSized, bottomSized, bodySized⟩ := forall_windowParts.mp sized
  unfold windowParts at distinct
  simp only [List.nodup_cons, List.mem_cons, not_or, List.not_mem_nil, not_false_eq_true, and_true, List.nodup_nil] at distinct
  obtain ⟨⟨titleLeft, titleRight, titleBottom, titleBody⟩, ⟨leftRight, leftBottom, leftBody⟩, ⟨rightBottom, rightBody⟩,
    bottomBody⟩ := distinct
  obtain ⟨σ₁, body, bodyColor, others₁⟩ := fill_graphics bodyNonnull bodySized sameWidth sameHeight bgColor
  -- the key of a transparent window changes no pixel of the body, and nothing else
  generalize isKeyed : (if flags &&& windowFlagBackgroundTransparent ≠ 0 then
    σ₁.graphicsTransparencyKeySet (createdVariables memory).windowGraphicsInfo bgColor else σ₁) = σ₂
  have keyed : HasColor (σ₂.nodes memory.body).info bgColor ∧ ∀ other ≠ memory.body, σ₂.nodes other = σ.nodes other := by
    rw [← isKeyed]
    split
    · refine ⟨?_, fun other isOther => (setNode_of_ne isOther _ _).trans (others₁ other isOther)⟩
      change HasColor ((σ₁.setNode memory.body _).nodes memory.body).info bgColor
      rw [setNode_self]
      exact bodyColor
    · exact ⟨bodyColor, others₁⟩
  obtain ⟨bodyColor₂, others₂⟩ := keyed
  obtain ⟨σ₃, title, others₃⟩ := @drawRect_frame σ₂ memory.titleBar titleNonnull 0 0
    ((σ₂.nodes memory.titleBar).info.width.setWidth 64) windowTitleBarHeight borderColor
  have left₃ : σ₃.nodes memory.borderLeft = σ.nodes memory.borderLeft := by
    rw [others₃ _ (Ne.symm titleLeft), others₂ _ leftBody]
  obtain ⟨σ₄, left, leftColor, others₄⟩ := @drawWhole_graphics σ₃ memory.borderLeft leftNonnull (left₃ ▸ leftSized) borderColor
  have right₄ : σ₄.nodes memory.borderRight = σ.nodes memory.borderRight := by
    rw [others₄ _ (Ne.symm leftRight), others₃ _ (Ne.symm titleRight), others₂ _ rightBody]
  obtain ⟨σ₅, right, rightColor, others₅⟩ :=
    @drawWhole_graphics σ₄ memory.borderRight rightNonnull (right₄ ▸ rightSized) borderColor
  have bottom₅ : σ₅.nodes memory.borderBottom = σ.nodes memory.borderBottom := by
    rw [others₅ _ (Ne.symm rightBottom), others₄ _ (Ne.symm leftBottom), others₃ _ (Ne.symm titleBottom), others₂ _ bottomBody]
  obtain ⟨σ₆, bottom, bottomColor, others₆⟩ :=
    @drawWhole_graphics σ₅ memory.borderBottom bottomNonnull (bottom₅ ▸ bottomSized) borderColor
  refine ⟨σ₆, ?_, ?_, ?_⟩
  · unfold windowPaint
    rw [show (createdVariables memory).windowGraphicsInfo = memory.body from rfl, body, Option.bind_some]
    dsimp only
    rw [show (createdVariables memory).windowGraphicsInfo = memory.body from rfl] at isKeyed
    rw [isKeyed, if_pos bordered, show (createdVariables memory).titleBarGraphicsInfo = memory.titleBar from rfl, title,
      Option.bind_some, show (createdVariables memory).borderLeftGraphicsInfo = memory.borderLeft from rfl, left,
      Option.bind_some, show (createdVariables memory).borderRightGraphicsInfo = memory.borderRight from rfl, right,
      Option.bind_some]
    exact bottom
  · simp only [List.forall_mem_cons, List.not_mem_nil, false_imp_iff, implies_true, and_true]
    rw [others₆ _ leftBottom, others₅ _ leftRight, others₆ _ rightBottom]
    exact ⟨leftColor, rightColor, bottomColor⟩
  · rw [others₆ _ (Ne.symm bottomBody), others₅ _ (Ne.symm rightBody), others₄ _ (Ne.symm leftBody),
      others₃ _ (Ne.symm titleBody)]
    exact bodyColor₂

/-! ### Where the graphics are -/

/-- A graphics with some pixels, as many as another one has. -/
def SameButPixels (g g' : GraphicsInfo) : Prop := g' = { g with pixels := g'.pixels } ∧ g'.pixels.length = g.pixels.length

theorem SameButPixels.of_eq {g g' : GraphicsInfo} {pixels : List FramebufferPixel} (same : g' = { g with pixels := pixels })
    (length : pixels.length = g.pixels.length) : SameButPixels g g' := by
  subst same
  exact ⟨rfl, length⟩

theorem pasteToPixels_length (graphicsInfoIn graphicsInfoOut : GraphicsInfo) (srcX srcY dx dy flags : BitVec 32)
    (paste : PixelPaste) :
    (pasteToPixels graphicsInfoIn graphicsInfoOut srcX srcY dx dy flags paste).pixels.length = paste.pixels.length := by
  unfold pasteToPixels
  dsimp only
  split
  · rfl
  · exact List.length_set

/-- A loop that keeps a length. -/
theorem foldl_keeps {α β : Type} (size : α → Nat) (step : α → β → α) (keeps : ∀ a b, size (step a b) = size a) (items : List β) :
    ∀ a, size (items.foldl step a) = size a := by
  induction items with
  | nil => exact fun _ => rfl
  | cons item items ih => exact fun a => (ih (step a item)).trans (keeps a item)

/-- The pixels that are copied replace others. -/
theorem paste_length (graphicsInfoIn graphicsInfoOut : GraphicsInfo) (srcX srcY width height dstX dstY flags : BitVec 32) :
    (graphicsPastePixelsToPixels graphicsInfoIn graphicsInfoOut srcX srcY width height dstX dstY flags).pixels.length =
      graphicsInfoOut.pixels.length := by
  unfold graphicsPastePixelsToPixels
  refine foldl_keeps (fun paste : PixelPaste => paste.pixels.length) _ (fun paste lx => ?_) _ _
  exact foldl_keeps (fun paste : PixelPaste => paste.pixels.length) _
    (fun paste ly => pasteToPixels_length _ _ _ _ _ _ _ paste) _ _

/-- **What `graphics_info_create_relative` creates**, if it does, with as many pixels as it has allocated. -/
theorem create_info {σ σ' : GraphicsStore} {newGraphics sourceGraphics : Nat} (different : newGraphics ≠ sourceGraphics)
    {x y width height : BitVec 64} {flags : BitVec 32} {created : Nat} (nonnull : created ≠ 0)
    (isCreated : σ.graphicsInfoCreateRelative newGraphics sourceGraphics x y width height flags = (created, σ')) :
    newGraphics ≠ 0 ∧
      SameButPixels (PeachOS.newGraphics (σ.nodes sourceGraphics).info x y width height) (σ'.nodes newGraphics).info ∧
      ∀ other ≠ newGraphics, (σ'.nodes other).info = (σ.nodes other).info := by
  unfold GraphicsStore.graphicsInfoCreateRelative PeachOS.graphicsInfoCreateRelative at isCreated
  by_cases noMemory : newGraphics = 0
  · rw [if_pos noMemory, Prod.mk.injEq] at isCreated
    exact absurd isCreated.1.symm nonnull
  · rw [if_neg noMemory] at isCreated
    by_cases accepts : createAccepts (σ.nodes sourceGraphics).info x y width height flags
    · rw [if_pos accepts] at isCreated
      dsimp only at isCreated
      generalize isPaste : (if flags &&& graphicsFlagDoNotCopyPixels = 0 then _ else _ : PixelPaste) = paste at isCreated
      have length : paste.pixels.length = (PeachOS.newGraphics (σ.nodes sourceGraphics).info x y width height).pixels.length := by
        rw [← isPaste]
        split
        · exact paste_length _ _ _ _ _ _ _ _ _
        · rfl
      rw [Prod.mk.injEq] at isCreated
      obtain ⟨-, rfl⟩ := isCreated
      generalize BitVec.ofNat 32 _ = zIndex
      have tree := SameTree.graphicsSetZIndex (σ.attach newGraphics sourceGraphics (newNode sourceGraphics
        { PeachOS.newGraphics (σ.nodes sourceGraphics).info x y width height with pixels := paste.pixels } x y))
          newGraphics zIndex
      refine ⟨noMemory, ?_, fun other isOther => ?_⟩
      · have new := (tree.nodes newGraphics).info
        rw [attach_new different] at new
        exact .of_eq new length
      · have old := (tree.nodes other).info
        rw [attach_old different isOther] at old
        exact old
    · rw [if_neg accepts] at isCreated
      dsimp only at isCreated
      rw [Prod.mk.injEq] at isCreated
      exact absurd isCreated.1.symm nonnull

/-- **Graphics that are created below one root**: each where it was asked for, and nothing else changes. -/
theorem createEach_infos {root : Nat} (requests : List GraphicsRequest) : ∀ {σ : GraphicsStore},
    (∀ request ∈ requests, request.sourceGraphics = root ∧ request.newGraphics ≠ root) →
    (requests.Pairwise fun first second => first.newGraphics ≠ 0 → first.newGraphics ≠ second.newGraphics) →
    (createEach requests σ).1 = true →
    (∀ request ∈ requests, request.newGraphics ≠ 0 ∧
      SameButPixels (PeachOS.newGraphics (σ.nodes root).info request.x request.y request.width request.height)
        ((createEach requests σ).2.nodes request.newGraphics).info) ∧
      ∀ other ∉ requests.map GraphicsRequest.newGraphics,
        ((createEach requests σ).2.nodes other).info = (σ.nodes other).info := by
  induction requests with
  | nil => exact fun _ _ _ => ⟨fun request isIn => absurd isIn List.not_mem_nil, fun other _ => rfl⟩
  | cons first requests ih =>
      intro σ sources distinct done
      obtain ⟨isRoot, notRoot⟩ := sources first List.mem_cons_self
      obtain ⟨different, distinct⟩ := List.pairwise_cons.mp distinct
      rw [createEach] at done ⊢
      cases isCreated : σ.graphicsInfoCreateRelative first.newGraphics first.sourceGraphics first.x first.y first.width
        first.height
          first.flags with
      | mk created next =>
          rw [isCreated] at done
          dsimp only at done ⊢
          by_cases isNull : created = 0
          · rw [if_pos isNull] at done
            exact absurd done Bool.false_ne_true
          · rw [if_neg isNull] at done ⊢
            rw [isRoot] at isCreated
            obtain ⟨nonnull, own, old⟩ := create_info notRoot isNull isCreated
            obtain ⟨each, kept⟩ := ih (fun request isIn => sources request (List.mem_cons_of_mem _ isIn)) distinct done
            rw [old root (Ne.symm notRoot)] at each
            have notLater : first.newGraphics ∉ requests.map GraphicsRequest.newGraphics := by
              intro isLater
              obtain ⟨request, isIn, same⟩ := List.mem_map.mp isLater
              exact different request isIn nonnull same.symm
            refine ⟨fun request isIn => ?_, fun other isOther => ?_⟩
            · rcases List.mem_cons.mp isIn with rfl | isIn
              · rw [kept _ notLater]
                exact ⟨nonnull, own⟩
              · exact each request isIn
            · rw [List.map_cons, List.mem_cons, not_or] at isOther
              rw [kept other isOther.2, old other isOther.1]

/-! ### The layout -/

/-- The place and the size of a graphics, and one pixel for each position. -/
structure PlacedAt (g : GraphicsInfo) (x y width height : Nat) : Prop where
  startingX : g.startingX.toNat = x
  startingY : g.startingY.toNat = y
  width : g.width.toNat = width
  height : g.height.toNat = height

theorem PlacedAt.occupies_iff {g : GraphicsInfo} {x y width height : Nat} (placed : PlacedAt g x y width height) (px py : Nat) :
    Occupies g px py ↔ (x ≤ px ∧ px < x + width) ∧ y ≤ py ∧ py < y + height := by
  unfold Occupies
  rw [placed.startingX, placed.startingY, placed.width, placed.height]

/-- **A new graphics, by numbers.** -/
theorem SameButPixels.placed {g g' : GraphicsInfo} {x y width height : BitVec 64}
    (same : SameButPixels (PeachOS.newGraphics g x y width height) g') (right : g.startingX.toNat + x.toNat < 2 ^ 32)
    (bottom : g.startingY.toNat + y.toNat < 2 ^ 32) (wide : width.toNat < 2 ^ 32) (high : height.toNat < 2 ^ 32) :
    PlacedAt g' (g.startingX.toNat + x.toNat) (g.startingY.toNat + y.toNat) width.toNat height.toNat := by
  have position : ∀ {start : BitVec 32} {offset : BitVec 64}, start.toNat + offset.toNat < 2 ^ 32 →
      ((start.setWidth 64 + offset).setWidth 32).toNat = start.toNat + offset.toNat := by
    intro start offset small
    rw [BitVec.toNat_setWidth, BitVec.toNat_add, BitVec.toNat_setWidth]
    omega
  have size : ∀ {length : BitVec 64}, length.toNat < 2 ^ 32 → (length.setWidth 32).toNat = length.toNat := by
    intro length small
    rw [BitVec.toNat_setWidth]
    omega
  constructor
  · rw [same.1]
    exact position right
  · rw [same.1]
    exact position bottom
  · rw [same.1]
    exact size wide
  · rw [same.1]
    exact size high

/-- It has a pixel for each of its positions, if these can be counted. -/
theorem SameButPixels.sized {g g' : GraphicsInfo} {x y width height : BitVec 64}
    (same : SameButPixels (PeachOS.newGraphics g x y width height) g')
    (area : (width.setWidth 32).toNat * (height.setWidth 32).toNat < 2 ^ 32) : g'.Sized := by
  have length : (PeachOS.newGraphics g x y width height).pixels.length = (width.setWidth 32 * height.setWidth 32).toNat :=
    List.length_replicate
  unfold GraphicsInfo.Sized
  rw [same.2, length, BitVec.toNat_mul, Nat.mod_eq_of_lt area, same.1]
  rfl

/-- **A window fits on the screen**: its root ends inside, and the screen's pixels can be counted. -/
structure WindowFits (g : GraphicsInfo) (x y width height : BitVec 64) : Prop where
  right : g.startingX.toNat + x.toNat + (width.toNat + 4) ≤ g.horizontalResolution.toNat
  bottom : g.startingY.toNat + y.toNat + (height.toNat + 34) ≤ g.verticalResolution.toNat
  area : g.horizontalResolution.toNat * g.verticalResolution.toNat < 2 ^ 32

/-- The place of the root is kept when it is filled. -/
theorem rootBackground_placed {σ σ' : GraphicsStore} {root : Nat} {flags : BitVec 32} {x y width height : Nat}
    (filled : rootBackground σ root flags = some σ') (placed : PlacedAt (σ.nodes root).info x y width height)
    (sized : (σ.nodes root).info.Sized) : PlacedAt (σ'.nodes root).info x y width height := by
  unfold rootBackground at filled
  split at filled
  · unfold GraphicsStore.drawWhole GraphicsStore.drawRect at filled
    split at filled
    · exact absurd filled (Option.some_ne_none σ').symm
    · rw [Option.some.injEq] at filled
      rw [← filled, setNode_self]
      unfold GraphicsStore.graphicsTransparencyKeySet
      rw [setNode_self]
      have keySized : ({ (σ.nodes root).info with transparencyKey := bgColor } : GraphicsInfo).Sized := sized
      obtain ⟨drawn, -⟩ := drawPixels_drawn (rectPositions 0 0 ((σ.nodes root).info.width.setWidth 64)
        ((σ.nodes root).info.height.setWidth 64)) bgColor keySized
      dsimp only
      unfold graphicsDrawRect
      rw [drawn.same]
      exact ⟨placed.startingX, placed.startingY, placed.width, placed.height⟩
  · rw [Option.some.injEq] at filled
    rw [← filled]
    exact placed

/-- Where the graphics of a bordered window are, from the corner of its root. -/
structure PartsPlaced (σ : GraphicsStore) (memory : WindowMemory) (x y width height : Nat) : Prop where
  root : PlacedAt (σ.nodes memory.root).info x y (width + 4) (height + 34)
  titleBar : PlacedAt (σ.nodes memory.titleBar).info (x + 2) y width 32
  borderLeft : PlacedAt (σ.nodes memory.borderLeft).info x (y + 32) 2 height
  borderRight : PlacedAt (σ.nodes memory.borderRight).info (x + (width + 2)) (y + 32) 2 height
  borderBottom : PlacedAt (σ.nodes memory.borderBottom).info x (y + (height + 32)) width 2
  body : PlacedAt (σ.nodes memory.body).info (x + 2) (y + 32) width height
  nonnull : ∀ part ∈ windowParts memory, part ≠ 0
  sized : ∀ part ∈ windowParts memory, (σ.nodes part).info.Sized

/-- The size of a part is that of a part of the screen. -/
theorem area_small {width height width' height' : Nat} (area : width * height < 2 ^ 32) (wide : width' ≤ width)
    (high : height' ≤ height) : width' * height' < 2 ^ 32 :=
  lt_of_le_of_lt (Nat.mul_le_mul wide high) area

/-- The requests for the graphics below the root of a bordered window. -/
def partRequests (memory : WindowMemory) (totalWidth totalHeight width height : BitVec 64) : List GraphicsRequest :=
  [⟨memory.titleBar, memory.root, windowBorderPixelSize, 0, width, windowTitleBarHeight, 0⟩,
    ⟨memory.borderLeft, memory.root, 0, windowTitleBarHeight, windowBorderPixelSize, height, 0⟩,
    ⟨memory.borderRight, memory.root, totalWidth - windowBorderPixelSize, windowTitleBarHeight, windowBorderPixelSize, height, 0⟩,
    ⟨memory.borderBottom, memory.root, 0, totalHeight - windowBorderPixelSize, width, windowBorderPixelSize, 0⟩,
    ⟨memory.body, memory.root, windowBorderPixelSize, windowTitleBarHeight, width, height, 0⟩]

/-- **The graphics below a root** are where they were asked for. -/
theorem partRequests_placed {τ : GraphicsStore} {memory : WindowMemory}
    {totalWidth totalHeight width height : BitVec 64} {x y : Nat}
    (rootPlaced : PlacedAt (τ.nodes memory.root).info x y (width.toNat + 4) (height.toNat + 34))
    (isTotalWidth : totalWidth.toNat = width.toNat + 4) (isTotalHeight : totalHeight.toNat = height.toNat + 34)
    (right : x + (width.toNat + 4) < 2 ^ 32) (bottom : y + (height.toNat + 34) < 2 ^ 32)
    (area : (width.toNat + 4) * (height.toNat + 34) < 2 ^ 32)
    (distinct : (memory.root :: windowParts memory).Pairwise fun first second => first ≠ 0 → first ≠ second)
    (rootNonnull : memory.root ≠ 0)
    (done : (createEach (partRequests memory totalWidth totalHeight width height) τ).1 = true) :
    PartsPlaced (createEach (partRequests memory totalWidth totalHeight width height) τ).2 memory x y width.toNat
      height.toNat := by
  obtain ⟨notRoot, distinct⟩ := List.pairwise_cons.mp distinct
  have sources : ∀ request ∈ partRequests memory totalWidth totalHeight width height,
      request.sourceGraphics = memory.root ∧ request.newGraphics ≠ memory.root := by
    intro request isIn
    have isPart : request.newGraphics ∈ windowParts memory :=
      List.mem_map_of_mem (f := GraphicsRequest.newGraphics) isIn
    refine ⟨?_, Ne.symm (notRoot _ isPart rootNonnull)⟩
    unfold partRequests at isIn
    simp only [List.mem_cons, List.not_mem_nil, or_false] at isIn
    rcases isIn with rfl | rfl | rfl | rfl | rfl <;> rfl
  have distinctRequests : ((partRequests memory totalWidth totalHeight width height).map GraphicsRequest.newGraphics).Pairwise
      fun first second => first ≠ 0 → first ≠ second := distinct
  obtain ⟨each, kept⟩ := createEach_infos _ sources (List.pairwise_map.mp distinctRequests) done
  have rootKept := kept memory.root fun isPart => by
    obtain ⟨request, isIn, same⟩ := List.mem_map.mp isPart
    exact (sources request isIn).2 same
  generalize (createEach (partRequests memory totalWidth totalHeight width height) τ).2 = σ' at each rootKept ⊢
  unfold partRequests at each
  simp only [List.mem_cons, List.not_mem_nil, or_false, forall_eq_or_imp, forall_eq] at each
  obtain ⟨⟨titleNonnull, title⟩, ⟨leftNonnull, left⟩, ⟨rightNonnull, rightPart⟩, ⟨bottomNonnull, bottomPart⟩,
    bodyNonnull, body⟩ :=
    each
  have two : windowBorderPixelSize.toNat = 2 := rfl
  have thirtyTwo : windowTitleBarHeight.toNat = 32 := rfl
  have zero : (0 : BitVec 64).toNat = 0 := rfl
  have rightOffset : (totalWidth - windowBorderPixelSize).toNat = width.toNat + 2 := by
    rw [BitVec.toNat_sub_of_le (by change 2 ≤ totalWidth.toNat; omega), isTotalWidth, two]
    rfl
  have bottomOffset : (totalHeight - windowBorderPixelSize).toNat = height.toNat + 32 := by
    rw [BitVec.toNat_sub_of_le (by change 2 ≤ totalHeight.toNat; omega), isTotalHeight, two]
    rfl
  have startX := rootPlaced.startingX
  have startY := rootPlaced.startingY
  -- a part is placed by numbers, and its pixels are no more than those of the root
  have place : ∀ {g' : GraphicsInfo} {offsetX offsetY partWidth partHeight : BitVec 64},
      SameButPixels (PeachOS.newGraphics (τ.nodes memory.root).info offsetX offsetY partWidth partHeight) g' →
      offsetX.toNat + partWidth.toNat ≤ width.toNat + 4 → offsetY.toNat + partHeight.toNat ≤ height.toNat + 34 →
      PlacedAt g' (x + offsetX.toNat) (y + offsetY.toNat) partWidth.toNat partHeight.toNat ∧ g'.Sized := by
    intro g' offsetX offsetY partWidth partHeight same inWidth inHeight
    have placed := same.placed (by omega) (by omega) (by omega) (by omega)
    rw [startX, startY] at placed
    have sameSize : (partWidth.setWidth 32).toNat = partWidth.toNat ∧ (partHeight.setWidth 32).toNat = partHeight.toNat := by
      rw [BitVec.toNat_setWidth, BitVec.toNat_setWidth]
      exact ⟨Nat.mod_eq_of_lt (by omega), Nat.mod_eq_of_lt (by omega)⟩
    refine ⟨placed, same.sized ?_⟩
    rw [sameSize.1, sameSize.2]
    exact area_small area (by omega) (by omega)
  obtain ⟨titlePlaced, titleSized⟩ := place title (by omega) (by omega)
  obtain ⟨leftPlaced, leftSized⟩ := place left (by omega) (by omega)
  obtain ⟨rightPlaced, rightSized⟩ := place rightPart (by omega) (by omega)
  obtain ⟨bottomPlaced, bottomSized⟩ := place bottomPart (by omega) (by omega)
  obtain ⟨bodyPlaced, bodySized⟩ := place body (by omega) (by omega)
  rw [rightOffset, two, thirtyTwo] at rightPlaced
  rw [bottomOffset, two, zero] at bottomPlaced
  rw [two, thirtyTwo, zero] at titlePlaced leftPlaced
  rw [two, thirtyTwo] at bodyPlaced
  refine ⟨?_, titlePlaced, leftPlaced, rightPlaced, bottomPlaced, bodyPlaced,
    forall_windowParts.mpr ⟨titleNonnull, leftNonnull, rightNonnull, bottomNonnull, bodyNonnull⟩,
    forall_windowParts.mpr ⟨titleSized, leftSized, rightSized, bottomSized, bodySized⟩⟩
  rw [rootKept]
  exact rootPlaced

/-- **Where the graphics of a window are.** -/
theorem windowGraphics_infos {σ σ' : GraphicsStore} {memory : WindowMemory} (new : NewMemory σ memory.graphics)
    {graphicsInfo : Nat}
    (isLive : graphicsInfo ∈ σ.live) {x y width height : BitVec 64} {flags : BitVec 32}
    (bordered : flags &&& windowFlagBorderless = 0) (fits : WindowFits (σ.nodes graphicsInfo).info x y width height)
    (created : windowGraphics σ memory graphicsInfo x y width height flags = some σ') :
    PartsPlaced σ' memory ((σ.nodes graphicsInfo).info.startingX.toNat + x.toNat)
      ((σ.nodes graphicsInfo).info.startingY.toNat + y.toNat) width.toNat height.toNat := by
  obtain ⟨right, bottom, area⟩ := fits
  have wide := (σ.nodes graphicsInfo).info.horizontalResolution.isLt
  have high := (σ.nodes graphicsInfo).info.verticalResolution.isLt
  have isTotalWidth : (totalWindowWidthBounds width flags).toNat = width.toNat + 4 := by
    unfold totalWindowWidthBounds
    rw [if_pos bordered, BitVec.toNat_add]
    exact Nat.mod_eq_of_lt (by change width.toNat + 4 < _; omega)
  have isTotalHeight : (totalWindowHeightBounds height flags).toNat = height.toNat + 34 := by
    unfold totalWindowHeightBounds
    rw [if_pos bordered, BitVec.toNat_add]
    exact Nat.mod_eq_of_lt (by change height.toNat + 34 < _; omega)
  have rootArea : (width.toNat + 4) * (height.toNat + 34) < 2 ^ 32 := area_small area (by omega) (by omega)
  have notSource : memory.root ≠ graphicsInfo := fun same => new.fresh memory.root List.mem_cons_self (same ▸ isLive)
  unfold windowGraphics windowRequests at created
  dsimp only at created
  rw [if_pos bordered] at created
  generalize totalWindowWidthBounds width flags = totalWidth at created isTotalWidth
  generalize totalWindowHeightBounds height flags = totalHeight at created isTotalHeight
  split at created
  · exact absurd created (Option.some_ne_none σ').symm
  · next rootDone =>
      rw [Bool.not_eq_true, Bool.not_eq_false'] at rootDone
      obtain ⟨rootEach, -⟩ := createEach_infos _ (List.forall_mem_singleton.mpr ⟨Eq.refl graphicsInfo, notSource⟩)
        (List.pairwise_singleton _ _) rootDone
      obtain ⟨rootNonnull, rootInfo⟩ := rootEach _ List.mem_cons_self
      dsimp only at rootNonnull rootInfo
      have rootPlaced := rootInfo.placed (by omega) (by omega) (by omega) (by omega)
      rw [isTotalWidth, isTotalHeight] at rootPlaced
      have rootSized := rootInfo.sized (by
        rw [BitVec.toNat_setWidth, BitVec.toNat_setWidth, Nat.mod_eq_of_lt (by omega), Nat.mod_eq_of_lt (by omega), isTotalWidth,
          isTotalHeight]
        exact rootArea)
      obtain ⟨τ, filled, created⟩ := Option.bind_eq_some_iff.mp created
      split at created
      · next done =>
          rw [Option.some.injEq] at created
          rw [← created]
          exact partRequests_placed (rootBackground_placed filled rootPlaced rootSized) isTotalWidth isTotalHeight (by omega)
            (by omega) rootArea new.distinct rootNonnull done
      · exact absurd created (Option.some_ne_none σ').symm

/-- **A window that fits on the screen is laid out**, if it is painted through the graphics that were created. -/
theorem laidOut_created {σ σ' : GraphicsStore} {memory : WindowMemory} (new : NewMemory σ memory.graphics) {graphicsInfo : Nat}
    (isLive : graphicsInfo ∈ σ.live) {x y width height : BitVec 64} {flags : BitVec 32}
    (bordered : flags &&& windowFlagBorderless = 0) (fits : WindowFits (σ.nodes graphicsInfo).info x y width height)
    (created : windowGraphics σ memory graphicsInfo x y width height flags = some σ') :
    LaidOut σ' memory (createdVariables memory) width height flags := by
  obtain ⟨root, title, left, right, bottom, body, nonnull, sized⟩ := windowGraphics_infos new isLive bordered fits created
  have wide := (σ.nodes graphicsInfo).info.horizontalResolution.isLt
  have high := (σ.nodes graphicsInfo).info.verticalResolution.isLt
  have distinct : (windowParts memory).Nodup := by
    have apart := (List.pairwise_cons.mp new.distinct).2
    exact (List.Pairwise.and_mem.mp apart).imp fun ⟨isIn, _, different⟩ => different (nonnull _ isIn)
  refine ⟨?_, forall_windowParts.mpr ⟨?_, ?_, ?_, ?_, ?_⟩, windowPaint_created bordered nonnull distinct sized ?_ ?_⟩
  · unfold windowParts
    simp only [List.pairwise_cons, List.mem_cons, List.not_mem_nil, or_false, forall_eq_or_imp, forall_eq, false_imp_iff,
      implies_true, List.Pairwise.nil, and_true, title.occupies_iff, left.occupies_iff, right.occupies_iff, bottom.occupies_iff,
      body.occupies_iff]
    refine ⟨⟨?_, ?_, ?_, ?_⟩, ⟨?_, ?_, ?_⟩, ⟨?_, ?_⟩, ?_⟩ <;> intro px py <;> omega
  · intro px py
    rw [title.occupies_iff, root.occupies_iff]
    omega
  · intro px py
    rw [left.occupies_iff, root.occupies_iff]
    omega
  · intro px py
    rw [right.occupies_iff, root.occupies_iff]
    omega
  · intro px py
    rw [bottom.occupies_iff, root.occupies_iff]
    omega
  · intro px py
    rw [body.occupies_iff, root.occupies_iff]
    omega
  · refine BitVec.eq_of_toNat_eq ?_
    rw [BitVec.toNat_setWidth, body.width]
    exact Nat.mod_eq_of_lt (by have fitsX := fits.right; omega)
  · refine BitVec.eq_of_toNat_eq ?_
    rw [BitVec.toNat_setWidth, body.height]
    exact Nat.mod_eq_of_lt (by have fitsY := fits.bottom; omega)

/-- A screen of 8 by 40 pixels. -/
def narrowScreen : GraphicsStore :=
  graphicsSetup 1
    { horizontalResolution := 8
      verticalResolution := 40
      pixelsPerScanline := 8
      pixels := List.replicate 320 blackPixel
      width := 8
      height := 40
      startingX := 0
      startingY := 0
      transparencyKey := blackPixel }

/-- Memory for a window. -/
def narrowMemory : WindowMemory := ⟨10, 11, 12, 13, 14, 15, 16, true⟩

/-- A bordered window of one pixel is not laid out on it. -/
theorem laidOut_never_narrow : ¬ ∃ σ', windowGraphics narrowScreen narrowMemory 1 0 0 1 1 0 = some σ' ∧
    LaidOut σ' narrowMemory (windowVariables narrowMemory) 1 1 0 :=
  laidOut_never narrowScreen narrowMemory 1 0 0 1 1 0 (by decide)

/-- **Its graphics are all created**, and it follows a null pointer. -/
theorem narrowWindow_null : ∃ σ', windowGraphics narrowScreen narrowMemory 1 0 0 1 1 0 = some σ' ∧
    ¬ LaidOut σ' narrowMemory (windowVariables narrowMemory) 1 1 0 := by
  have created : (windowGraphics narrowScreen narrowMemory 1 0 0 1 1 0).isSome = true := by decide +kernel
  obtain ⟨σ', isCreated⟩ := Option.isSome_iff_exists.mp created
  refine ⟨σ', isCreated, fun laidOut => ?_⟩
  obtain ⟨painted, isPainted, -⟩ := laidOut.painted
  rw [windowPaint_null σ' narrowMemory 1 1 (by decide)] at isPainted
  exact absurd isPainted (Option.some_ne_none painted).symm

/-- **Through its own graphics**, the same window would be laid out. -/
theorem laidOut_created_narrow : ∃ σ', windowGraphics narrowScreen narrowMemory 1 0 0 1 1 0 = some σ' ∧
    LaidOut σ' narrowMemory (createdVariables narrowMemory) 1 1 0 := by
  have created : (windowGraphics narrowScreen narrowMemory 1 0 0 1 1 0).isSome = true := by decide +kernel
  obtain ⟨σ', isCreated⟩ := Option.isSome_iff_exists.mp created
  exact ⟨σ', isCreated, laidOut_created ⟨by decide, by decide⟩ (by decide) (by decide) ⟨by decide, by decide, by decide⟩
    isCreated⟩

end WindowSystem

end PeachOS
