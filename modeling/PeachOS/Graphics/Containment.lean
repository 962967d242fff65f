/-
**Graphics inside their parents: `graphics_info_create_relative`.**

The end of a request is compared with the resolution of the source, which is that of the screen at every depth, and it is
a sum modulo `2 ^ 64`.

* `contained_or_refused_iff` — which requests are inside the parent or refused;
* `containment_run` — in every run of such requests all graphics are inside their parents;
* `containment_escapes` — a graphics that is wider than its parent.
-/

import PeachOS.Graphics.Redraw
import PeachOS.Lib.StepRun
import PeachOS.Window.Model

namespace PeachOS

open StepRun WindowSystem

namespace GraphicsStore

variable {σ σ' : GraphicsStore} {request : GraphicsRequest}

/-- A call of `graphics_info_create_relative`. -/
def create (σ : GraphicsStore) (request : GraphicsRequest) : Nat × GraphicsStore :=
  σ.graphicsInfoCreateRelative request.newGraphics request.sourceGraphics request.x request.y request.width
    request.height request.flags

/-- The source of a request. -/
def source (σ : GraphicsStore) (request : GraphicsRequest) : GraphicsInfo := (σ.nodes request.sourceGraphics).info

/-! ### The test of a request -/

/-- A request is inside the source. -/
def RequestFits (source : GraphicsInfo) (request : GraphicsRequest) : Prop :=
  request.x.toNat + request.width.toNat ≤ source.width.toNat ∧
    request.y.toNat + request.height.toNat ≤ source.height.toNat

/-- An end, modulo `2 ^ 64`, is beyond the resolution, counted from the start of the source. -/
def EndsBeyond (start resolution : BitVec 32) (offset size : BitVec 64) : Prop :=
  start.toNat + resolution.toNat < (start.toNat + offset.toNat + size.toNat) % 2 ^ 64

theorem endsBeyond_iff (start resolution : BitVec 32) (offset size : BitVec 64) :
    ¬ start.setWidth 64 + offset + size ≤ start.setWidth 64 + resolution.setWidth 64 ↔
      EndsBeyond start resolution offset size := by
  have startLt := start.isLt
  have resolutionLt := resolution.isLt
  have narrow : (start.setWidth 64 + resolution.setWidth 64).toNat = start.toNat + resolution.toNat := by
    rw [BitVec.toNat_add, BitVec.toNat_setWidth, BitVec.toNat_setWidth]
    omega
  have sum : (start.setWidth 64 + offset + size).toNat = (start.toNat + offset.toNat + size.toNat) % 2 ^ 64 := by
    rw [BitVec.toNat_add, BitVec.toNat_add, BitVec.toNat_setWidth]
    omega
  rw [BitVec.le_def, narrow, sum, not_le]
  exact Iff.rfl

/-- What is accepted without `GRAPHICS_FLAG_ALLOW_OUT_OF_BOUNDS`. -/
theorem createAccepts_iff (source : GraphicsInfo) (bounded : request.flags &&& graphicsFlagAllowOutOfBounds = 0) :
    createAccepts source request.x request.y request.width request.height request.flags ↔
      ¬ (EndsBeyond source.startingX source.horizontalResolution request.x request.width ∨
        EndsBeyond source.startingY source.verticalResolution request.y request.height) := by
  rw [← endsBeyond_iff, ← endsBeyond_iff, ← not_and_or, not_not]
  exact ⟨fun accepts => accepts.resolve_left (not_not.mpr bounded), .inr⟩

/-- A request is refused when there is no memory or the test fails. -/
theorem create_refused_iff : σ.create request = (0, σ) ↔ request.newGraphics = 0 ∨
    ¬ createAccepts (σ.source request) request.x request.y request.width request.height request.flags := by
  unfold create source GraphicsStore.graphicsInfoCreateRelative
  by_cases null : request.newGraphics = 0
  · rw [if_pos null]
    exact iff_of_true rfl (.inl null)
  · rw [if_neg null]
    unfold PeachOS.graphicsInfoCreateRelative
    by_cases accepts : createAccepts (σ.nodes request.sourceGraphics).info request.x request.y request.width
        request.height request.flags
    · rw [if_pos accepts]
      exact iff_of_false (fun refused => null (congrArg Prod.fst refused)) (not_or.mpr ⟨null, not_not.mpr accepts⟩)
    · rw [if_neg accepts]
      exact iff_of_true rfl (.inr accepts)

/-- A request is treated as it should be: it is inside its source, or refused. -/
def ContainedOrRefused (σ : GraphicsStore) (request : GraphicsRequest) : Prop :=
  RequestFits (σ.source request) request ∨ σ.create request = (0, σ)

/-- The requests that are inside the source, or end beyond its resolution, or get no memory. -/
def insideOrBeyond (σ : GraphicsStore) (request : GraphicsRequest) : Prop :=
  RequestFits (σ.source request) request ∨ request.newGraphics = 0 ∨
    EndsBeyond (σ.source request).startingX (σ.source request).horizontalResolution request.x request.width ∨
    EndsBeyond (σ.source request).startingY (σ.source request).verticalResolution request.y request.height

/-- **Which requests are inside the source or refused.** -/
theorem contained_or_refused_iff (bounded : request.flags &&& graphicsFlagAllowOutOfBounds = 0) :
    σ.ContainedOrRefused request ↔ σ.insideOrBeyond request := by
  unfold ContainedOrRefused insideOrBeyond
  rw [create_refused_iff, createAccepts_iff _ bounded, not_not]

/-! ### Containment -/

/-- **A graphics is inside its parent**, by its relative position and by its absolute one. -/
structure Contained (σ : GraphicsStore) (graphics : Nat) : Prop where
  x : (σ.nodes graphics).relativeX.toNat + (σ.nodes graphics).info.width.toNat ≤
    (σ.nodes (σ.nodes graphics).parent).info.width.toNat
  y : (σ.nodes graphics).relativeY.toNat + (σ.nodes graphics).info.height.toNat ≤
    (σ.nodes (σ.nodes graphics).parent).info.height.toNat
  rect : (σ.nodes graphics).info.rect.Within (σ.nodes (σ.nodes graphics).parent).info.rect

/-- All graphics but the screen are inside their parents. -/
def AllContained (σ : GraphicsStore) : Prop := ∀ graphics ∈ σ.live, graphics ≠ σ.screen → σ.Contained graphics

/-- What requests inside their sources keep. -/
structure ContainmentKept (σ : GraphicsStore) : Prop where
  tree : σ.Tree
  originX : (σ.nodes σ.screen).info.startingX = 0
  originY : (σ.nodes σ.screen).info.startingY = 0
  contained : σ.AllContained
  onScreen : ∀ graphics ∈ σ.live, (σ.nodes graphics).info.rect.Within (σ.nodes σ.screen).info.rect

/-- On one axis: the start of a graphics inside a source that is on the screen. -/
theorem newStart_toNat {start width extent : BitVec 32} {offset size : BitVec 64}
    (fits : offset.toNat + size.toNat ≤ width.toNat) (onScreen : start.toNat + width.toNat ≤ extent.toNat) :
    ((start.setWidth 64 + offset).setWidth 32).toNat = start.toNat + offset.toNat ∧
      (offset.setWidth 32).toNat = offset.toNat ∧ (size.setWidth 32).toNat = size.toNat := by
  have extentLt := extent.isLt
  rw [BitVec.toNat_setWidth, BitVec.toNat_add, BitVec.toNat_setWidth, BitVec.toNat_setWidth, BitVec.toNat_setWidth]
  omega

/-- The new rectangle is inside the one of a source that is on the screen. -/
theorem newGraphics_within {source : GraphicsInfo} {extentX extentY : BitVec 32} (fits : RequestFits source request)
    (right : source.startingX.toNat + source.width.toNat ≤ extentX.toNat)
    (bottom : source.startingY.toNat + source.height.toNat ≤ extentY.toNat) :
    (newGraphics source request.x request.y request.width request.height).rect.Within source.rect := by
  obtain ⟨startX, -, width⟩ := newStart_toNat fits.1 right
  obtain ⟨startY, -, height⟩ := newStart_toNat fits.2 bottom
  have fitsX := fits.1
  have fitsY := fits.2
  unfold newGraphics GraphicsInfo.rect
  refine ⟨?_, ?_, ?_, ?_⟩ <;> dsimp only
  · rw [startX]
    exact Nat.le_add_right _ _
  · rw [startY]
    exact Nat.le_add_right _ _
  · rw [startX, width]
    omega
  · rw [startY, height]
    omega

/-- **A request inside its source** keeps the containment. -/
theorem ContainmentKept.create (kept : σ.ContainmentKept) (fresh : request.newGraphics ∉ σ.live)
    (sourceLive : request.sourceGraphics ∈ σ.live) (fits : RequestFits (σ.source request) request) :
    (σ.create request).2.ContainmentKept := by
  have tree := kept.tree.create fresh sourceLive request.x request.y request.width request.height request.flags
  have different : request.newGraphics ≠ request.sourceGraphics := fun same => fresh (same ▸ sourceLive)
  unfold GraphicsStore.create
  obtain refused | ⟨_, _, σ', created, once⟩ := graphicsInfoCreateRelative_created different σ request.x request.y
    request.width request.height request.flags
  · rw [refused]
    exact kept
  · rw [created] at tree ⊢
    have isOld : ∀ graphics ∈ σ.live, graphics ≠ request.newGraphics := fun graphics isLive same => fresh (same ▸ isLive)
    have sameInfo : ∀ graphics ∈ σ.live, (σ'.nodes graphics).info = (σ.nodes graphics).info :=
      fun graphics isLive => by rw [once.old graphics (isOld graphics isLive)]
    have screenInfo := sameInfo σ.screen kept.tree.screenLive
    have above := kept.onScreen request.sourceGraphics sourceLive
    have right : (σ.source request).startingX.toNat + (σ.source request).width.toNat ≤
        (σ.nodes σ.screen).info.width.toNat := by
      have right := above.right
      change _ ≤ (σ.nodes σ.screen).info.startingX.toNat + _ at right
      rwa [kept.originX, show (0 : BitVec 32).toNat = 0 from rfl, Nat.zero_add] at right
    have bottom : (σ.source request).startingY.toNat + (σ.source request).height.toNat ≤
        (σ.nodes σ.screen).info.height.toNat := by
      have bottom := above.bottom
      change _ ≤ (σ.nodes σ.screen).info.startingY.toNat + _ at bottom
      rwa [kept.originY, show (0 : BitVec 32).toNat = 0 from rfl, Nat.zero_add] at bottom
    obtain ⟨startX, offsetX, width⟩ := newStart_toNat fits.1 right
    obtain ⟨startY, offsetY, height⟩ := newStart_toNat fits.2 bottom
    obtain ⟨pixels, info⟩ := once.info
    have fitsX := fits.1
    have fitsY := fits.2
    have rect : (σ'.nodes request.newGraphics).info.rect.Within (σ.source request).rect := by
      rw [info]
      exact newGraphics_within fits right bottom
    refine ⟨tree, ?_, ?_, fun graphics isLive notScreen => ?_, fun graphics isLive => ?_⟩
    · rw [once.screen, screenInfo]; exact kept.originX
    · rw [once.screen, screenInfo]; exact kept.originY
    · rw [once.live] at isLive
      rw [once.screen] at notScreen
      rcases List.mem_cons.mp isLive with rfl | isLive
      · refine ⟨?_, ?_, ?_⟩
        · rw [once.relativeX, once.parent, sameInfo _ sourceLive, info]
          change (BitVec.setWidth 32 _).toNat + (BitVec.setWidth 32 _).toNat ≤ _
          rw [offsetX, width]
          exact fitsX
        · rw [once.relativeY, once.parent, sameInfo _ sourceLive, info]
          change (BitVec.setWidth 32 _).toNat + (BitVec.setWidth 32 _).toNat ≤ _
          rw [offsetY, height]
          exact fitsY
        · rw [once.parent, sameInfo _ sourceLive]
          exact rect
      · have inside := kept.contained graphics isLive notScreen
        have same := once.old graphics (isOld graphics isLive)
        have parentInfo := sameInfo _ (kept.tree.parent graphics isLive notScreen)
        refine ⟨?_, ?_, ?_⟩ <;> rw [same] <;> dsimp only <;> rw [parentInfo]
        · exact inside.x
        · exact inside.y
        · exact inside.rect
    · rw [once.live] at isLive
      rw [once.screen, screenInfo]
      rcases List.mem_cons.mp isLive with rfl | isLive
      · exact rect.trans above
      · rw [sameInfo graphics isLive]
        exact kept.onScreen graphics isLive

/-! ### Runs -/

/-- There is the screen only, as `graphics_setup` leaves it. -/
def SetUp (σ : GraphicsStore) : Prop :=
  ∃ (mainGraphicsInfo : Nat) (info : GraphicsInfo), mainGraphicsInfo ≠ 0 ∧ σ = graphicsSetup mainGraphicsInfo info

/-- **One request** without `GRAPHICS_FLAG_ALLOW_OUT_OF_BOUNDS`, below graphics that exist and in new memory. -/
def createStep (σ : GraphicsStore) (request : GraphicsRequest) (σ' : GraphicsStore) : Prop :=
  request.newGraphics ∉ σ.live ∧ request.sourceGraphics ∈ σ.live ∧
    request.flags &&& graphicsFlagAllowOutOfBounds = 0 ∧ σ' = (σ.create request).2

theorem SetUp.kept (begins : σ.SetUp) : σ.ContainmentKept := by
  obtain ⟨mainGraphicsInfo, info, nonnull, rfl⟩ := begins
  have only : ∀ graphics ∈ (graphicsSetup mainGraphicsInfo info).live, graphics = mainGraphicsInfo :=
    fun graphics isLive => List.mem_singleton.mp isLive
  refine ⟨graphicsSetup_tree nonnull info, rfl, rfl, fun graphics isLive notScreen => ?_, fun graphics isLive => ?_⟩
  · exact absurd (only graphics isLive) notScreen
  · exact ⟨le_rfl, le_rfl, le_rfl, le_rfl⟩

/-- **One request** that is inside its source or refused. -/
theorem ContainmentKept.step (kept : σ.ContainmentKept) (inside : σ.insideOrBeyond request)
    (taken : σ.createStep request σ') : σ'.ContainmentKept := by
  obtain ⟨fresh, sourceLive, bounded, rfl⟩ := taken
  rcases (contained_or_refused_iff bounded).mpr inside with fits | refused
  · exact kept.create fresh sourceLive fits
  · rw [refused]
    exact kept

end GraphicsStore

open GraphicsStore

/-- **In every run** of requests that are inside their sources, or end beyond the resolution, all graphics are inside
their parents; and exactly such requests are inside or refused. -/
theorem containment_run (σ : GraphicsStore) (reached : Reachable (Guarded insideOrBeyond createStep) SetUp σ) :
    σ.AllContained ∧ ∀ request : GraphicsRequest, request.flags &&& graphicsFlagAllowOutOfBounds = 0 →
      (σ.ContainedOrRefused request ↔ σ.insideOrBeyond request) := by
  have kept : σ.ContainmentKept :=
    reached.invariant ContainmentKept (fun _ begins => begins.kept) fun _ _ _ kept taken => kept.step taken.1 taken.2
  exact ⟨kept.contained, fun request bounded => contained_or_refused_iff bounded⟩

/-- **The first graphics below a tiny screen** is inside it. -/
theorem containment_run_one : tinyScreenOne.Contained 0x2000 := by
  have start : tinyScreen.SetUp := ⟨0x1000, _, by decide, rfl⟩
  have inside : tinyScreen.insideOrBeyond ⟨0x2000, 0x1000, 0, 0, 4, 4, graphicsFlagDoNotCopyPixels⟩ :=
    .inl ⟨by decide, by decide⟩
  have reached : Reachable (Guarded insideOrBeyond createStep) SetUp tinyScreenOne :=
    .next ⟨0x2000, 0x1000, 0, 0, 4, 4, graphicsFlagDoNotCopyPixels⟩ (.start start)
      ⟨inside, by decide, by decide, by decide, rfl⟩
  exact (containment_run _ reached).1 0x2000 (by decide) (by decide)

/-- Eight by four pixels in a graphics of four by four. -/
def wideRequest : GraphicsRequest := ⟨0x3000, 0x2000, 0, 0, 8, 4, 0⟩

/-- **A graphics that is wider than its parent**: the screen is wide enough. -/
theorem containment_escapes : ¬ ∀ σ, Reachable createStep SetUp σ → σ.AllContained := by
  intro claimed
  have one : Reachable createStep SetUp tinyScreenOne :=
    .next ⟨0x2000, 0x1000, 0, 0, 4, 4, graphicsFlagDoNotCopyPixels⟩ (.start ⟨0x1000, _, by decide, rfl⟩)
      ⟨by decide, by decide, by decide, rfl⟩
  have contained := claimed _ (.next wideRequest one ⟨by decide, by decide, by decide, rfl⟩)
  have different : wideRequest.newGraphics ≠ wideRequest.sourceGraphics := by decide
  obtain refused | ⟨_, _, σ', created, once⟩ := graphicsInfoCreateRelative_created different tinyScreenOne
    wideRequest.x wideRequest.y wideRequest.width wideRequest.height wideRequest.flags
  · exact absurd (create_refused_iff.mp refused) (by decide)
  · rw [show tinyScreenOne.create wideRequest = (_, σ') from created] at contained
    have wider := (contained wideRequest.newGraphics (once.live ▸ List.mem_cons_self)
      (by rw [once.screen]; decide)).x
    obtain ⟨pixels, info⟩ := once.info
    have parentInfo : (σ'.nodes wideRequest.sourceGraphics).info =
        (tinyScreenOne.nodes wideRequest.sourceGraphics).info := by
      rw [once.old _ different.symm]
    rw [once.relativeX, once.parent, parentInfo, info] at wider
    dsimp only at wider
    exact absurd wider (by decide)

end PeachOS
