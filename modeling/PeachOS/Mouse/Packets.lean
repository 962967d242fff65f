/-
**The packets of the mouse: `mouse/ps2mouse.c` and `mouse/mouse.c`.**

The mouse interrupts for every byte. A packet begins with a byte whose bit 3 is set, and moves the pointer when it is complete.

* `ps2MouseHandleInterrupt` — one interrupt, with what it tells the window and the handlers;
* `ps2Mouse_framed` — what is handled, in any stream of bytes, are its packets;
* `ps2Mouse_onScreen` — the pointer never leaves the screen.

The mouse is initialised. Its handlers and `window_position_set` are what is told; what they do is not modelled here.
-/

import PeachOS.Lib.ByteStore
import PeachOS.Lib.Framing
import PeachOS.Machine
import Mathlib.Data.List.GetD
import Mathlib.Data.List.Induction

namespace PeachOS

open ByteStore Framing

/-! ### Model -/

/-- `MOUSE_CLICK_TYPE`. -/
inductive MouseClickType where
  | noClick
  | leftButtonClicked
  | rightButtonClicked
  | middleButtonClicked
deriving DecidableEq

/-- The screen, and what `struct mouse` has besides the coordinates. -/
structure MouseScene where
  screenWidth : BitVec 32
  screenHeight : BitVec 32
  graphicWidth : BitVec 32
  graphicHeight : BitVec 32
  clickHandlers : List Nat
  moveHandlers : List Nat

/-- What a packet tells the others. -/
inductive MouseEvent where
  | windowPositionSet (x y : Nat)
  | clickHandler (handler : Nat) (x y : Int) (type : MouseClickType)
  | moveHandler (handler : Nat) (x y : Int)
deriving DecidableEq

/-- The coordinates, and the `static` variables of `ps2_mouse_handle_interrupt`. -/
structure Ps2Mouse where
  coords : Int × Int
  packet : Store Byte
  packetByteCount : Nat

/-- `mouse_packet_size`, as `ps2_mouse_init` sets it. -/
def mousePacketSize (deviceId : Byte) : Nat := if deviceId = 0x03#8 then 4 else 3

/-- `mouse_click`: null pointers are left out. -/
def mouseClick (scene : MouseScene) (coords : Int × Int) (type : MouseClickType) : List MouseEvent :=
  (scene.clickHandlers.filter (· ≠ 0)).map fun handler => .clickHandler handler coords.1 coords.2 type

/-- `mouse_moved`. -/
def mouseMoved (scene : MouseScene) (coords : Int × Int) : List MouseEvent :=
  (scene.moveHandlers.filter (· ≠ 0)).map fun handler => .moveHandler handler coords.1 coords.2

/-- The two tests of a coordinate. -/
def clampCoord (result : Int) (screen graphic : BitVec 32) : Int :=
  let result := if result < 0 then 0 else result
  if (screen - graphic).toInt < result then (screen - graphic).toInt else result

/-- `click_type`, from the first byte of a packet. -/
def packetClickType (first : Byte) : MouseClickType :=
  let leftButton := first &&& 0x01#8
  let rightButton := first >>> 1 &&& 0x01#8
  if leftButton ≠ 0 then .leftButtonClicked else if rightButton ≠ 0 then .rightButtonClicked else .noClick

/-- What `ps2_mouse_handle_interrupt` does with a complete packet. -/
def ps2MousePacket (scene : MouseScene) (coords : Int × Int) (packet : Store Byte) : (Int × Int) × List MouseEvent :=
  let dx := (packet 1).toInt
  -- The `int8_t` is negated as an `int` and made an `int8_t` again.
  let dy := (-packet 2).toInt
  let coords := (clampCoord (coords.1 + dx) scene.screenWidth scene.graphicWidth,
    clampCoord (coords.2 + dy) scene.screenHeight scene.graphicHeight)
  let clickType := packetClickType (packet 0)
  (coords, .windowPositionSet (toWord coords.1) (toWord coords.2) ::
    ((if clickType ≠ .noClick then mouseClick scene coords clickType else []) ++ mouseMoved scene coords))

/-- A byte that can begin a packet. -/
def StartsPacket (data : Byte) : Prop := data &&& 0x08#8 ≠ 0

instance (data : Byte) : Decidable (StartsPacket data) := inferInstanceAs (Decidable (_ ≠ _))

/-- `ps2_mouse_handle_interrupt`. -/
def ps2MouseHandleInterrupt (scene : MouseScene) (packetSize : Nat) (σ : Ps2Mouse) (data : Byte) :
    Ps2Mouse × List MouseEvent :=
  if σ.packetByteCount = 0 ∧ ¬ StartsPacket data then (σ, [])
  else
    let packet := put σ.packet σ.packetByteCount data
    let packetByteCount := σ.packetByteCount + 1
    if packetByteCount < packetSize then ({ σ with packet := packet, packetByteCount := packetByteCount }, [])
    else
      let handled := ps2MousePacket scene σ.coords packet
      (⟨handled.1, packet, 0⟩, handled.2)

/-- The interrupts for a stream of bytes. -/
def Ps2Mouse.run (scene : MouseScene) (packetSize : Nat) (σ : Ps2Mouse) (stream : List Byte) : Ps2Mouse × List MouseEvent :=
  stream.foldl (fun τ data =>
    let after := ps2MouseHandleInterrupt scene packetSize τ.1 data
    (after.1, τ.2 ++ after.2)) (σ, [])

/-! ### Packets -/

/-- A packet as a list. -/
def packetOf (frame : List Byte) : Store Byte := fun i => frame.getD i 0x00#8

/-- **Packets one after the other.** -/
def handlePackets (scene : MouseScene) (coords : Int × Int) (packets : List (List Byte)) : (Int × Int) × List MouseEvent :=
  packets.foldl (fun τ packet =>
    let handled := ps2MousePacket scene τ.1 (packetOf packet)
    (handled.1, τ.2 ++ handled.2)) (coords, [])

/-- The buffer holds the bytes of a packet that has begun. -/
structure Ps2Mouse.Holds (σ : Ps2Mouse) (rest : List Byte) : Prop where
  count : σ.packetByteCount = rest.length
  bytes : ∀ i (inside : i < rest.length), σ.packet i = rest.get ⟨i, inside⟩

/-- One more byte in the buffer. -/
theorem Ps2Mouse.Holds.put {σ : Ps2Mouse} {rest : List Byte} (holds : σ.Holds rest) (data : Byte) {i : Nat}
    (inside : i < rest.length + 1) : put σ.packet σ.packetByteCount data i = packetOf (rest ++ [data]) i := by
  unfold packetOf
  rw [holds.count]
  by_cases last : i = rest.length
  · rw [last, put_same, List.getD_append_right _ _ _ _ le_rfl, Nat.sub_self]
    rfl
  · have before : i < rest.length := by omega
    rw [put_other _ last, holds.bytes i before, List.getD_append _ _ _ _ before, List.getD_eq_getElem _ _ before]
    rfl

/-- Three bytes of a packet are read. -/
theorem ps2MousePacket_congr (scene : MouseScene) (coords : Int × Int) {packet other : Store Byte}
    (same : ∀ i < 3, packet i = other i) : ps2MousePacket scene coords packet = ps2MousePacket scene coords other := by
  unfold ps2MousePacket
  rw [same 0 (by decide), same 1 (by decide), same 2 (by decide)]

theorem run_snoc (scene : MouseScene) (packetSize : Nat) (σ : Ps2Mouse) (stream : List Byte) (data : Byte) :
    σ.run scene packetSize (stream ++ [data]) =
      let before := σ.run scene packetSize stream
      let after := ps2MouseHandleInterrupt scene packetSize before.1 data
      (after.1, before.2 ++ after.2) := by
  unfold Ps2Mouse.run
  rw [List.foldl_append]
  rfl

theorem handlePackets_snoc (scene : MouseScene) (coords : Int × Int) (packets : List (List Byte)) (packet : List Byte) :
    handlePackets scene coords (packets ++ [packet]) =
      let before := handlePackets scene coords packets
      let handled := ps2MousePacket scene before.1 (packetOf packet)
      (handled.1, before.2 ++ handled.2) := by
  unfold handlePackets
  rw [List.foldl_append]
  rfl

/-- **The packets of a stream are handled**, one after the other, and nothing else is told anyone. What has come of the next
packet is in the buffer. -/
theorem ps2Mouse_framed (scene : MouseScene) (deviceId : Byte) (coords : Int × Int) (packet : Store Byte) (stream : List Byte) :
    ∃ packets rest, Framed StartsPacket (mousePacketSize deviceId) stream packets rest ∧
      (Ps2Mouse.run scene (mousePacketSize deviceId) ⟨coords, packet, 0⟩ stream).1.Holds rest ∧
      (Ps2Mouse.run scene (mousePacketSize deviceId) ⟨coords, packet, 0⟩ stream).1.coords =
        (handlePackets scene coords packets).1 ∧
      (Ps2Mouse.run scene (mousePacketSize deviceId) ⟨coords, packet, 0⟩ stream).2 =
        (handlePackets scene coords packets).2 := by
  have three : 3 ≤ mousePacketSize deviceId := by
    unfold mousePacketSize
    split <;> decide
  generalize mousePacketSize deviceId = size at three
  induction stream using List.reverseRecOn with
  | nil => exact ⟨[], [], .begun (by show 0 < size; omega) (by simp), ⟨rfl, by simp⟩, rfl, rfl⟩
  | append_singleton stream data ih =>
      obtain ⟨packets, rest, framed, holds, sameCoords, sameEvents⟩ := ih
      rw [run_snoc]
      generalize Ps2Mouse.run scene size ⟨coords, packet, 0⟩ stream = before at holds sameCoords sameEvents ⊢
      unfold ps2MouseHandleInterrupt
      dsimp only
      by_cases skipped : before.1.packetByteCount = 0 ∧ ¬ StartsPacket data
      · -- out of sync
        rw [if_pos skipped, List.append_nil]
        have between : rest = [] := List.length_eq_zero_iff.mp (holds.count.symm.trans skipped.1)
        exact ⟨packets, [], framed.skip between skipped.2, between ▸ holds, sameCoords, sameEvents⟩
      · rw [if_neg skipped]
        have joins : rest = [] → StartsPacket data := by
          rintro rfl
          by_contra noStart
          exact skipped ⟨holds.count, noStart⟩
        by_cases more : before.1.packetByteCount + 1 < size
        · rw [if_pos more, List.append_nil]
          refine ⟨packets, rest ++ [data], framed.extend joins (holds.count ▸ more), ⟨?_, fun i inside => ?_⟩, sameCoords,
            sameEvents⟩
          · rw [List.length_append]
            exact congrArg (· + 1) holds.count
          · refine (holds.put data (by rwa [List.length_append] at inside)).trans ?_
            rw [packetOf, List.getD_eq_getElem _ _ inside]
            rfl
        · rw [if_neg more]
          have last : rest.length + 1 = size := by
            have short := framed.short
            have count := holds.count
            omega
          have handled : ps2MousePacket scene before.1.coords (put before.1.packet before.1.packetByteCount data) =
              ps2MousePacket scene (handlePackets scene coords packets).1 (packetOf (rest ++ [data])) := by
            rw [sameCoords]
            exact ps2MousePacket_congr scene _ fun i low => holds.put data (by omega)
          refine ⟨packets ++ [rest ++ [data]], [], framed.complete joins last, ⟨rfl, by simp⟩, ?_, ?_⟩
          · rw [handlePackets_snoc, handled]
          · rw [handlePackets_snoc, handled, sameEvents]

/-! ### The pointer -/

/-- **A graphic that fits on the screen.** -/
structure MouseScene.Fits (scene : MouseScene) : Prop where
  width : scene.graphicWidth.toNat ≤ scene.screenWidth.toNat ∧ scene.screenWidth.toNat < 2 ^ 31
  height : scene.graphicHeight.toNat ≤ scene.screenHeight.toNat ∧ scene.screenHeight.toNat < 2 ^ 31

/-- The coordinates along one side at which the graphic is on the screen. -/
def OnSide (coord : Int) (screen graphic : BitVec 32) : Prop := 0 ≤ coord ∧ coord + graphic.toNat ≤ screen.toNat

/-- **The whole graphic is on the screen.** -/
def MouseScene.Shows (scene : MouseScene) (coords : Int × Int) : Prop :=
  OnSide coords.1 scene.screenWidth scene.graphicWidth ∧ OnSide coords.2 scene.screenHeight scene.graphicHeight

/-- Where an event says that the pointer is. -/
def MouseEvent.coords : MouseEvent → Int × Int
  | .windowPositionSet x y => (x, y)
  | .clickHandler _ x y _ => (x, y)
  | .moveHandler _ x y => (x, y)

theorem clampCoord_onSide {screen graphic : BitVec 32} (fits : graphic.toNat ≤ screen.toNat ∧ screen.toNat < 2 ^ 31)
    (result : Int) : OnSide (clampCoord result screen graphic) screen graphic := by
  have limit : (screen - graphic).toInt = screen.toNat - graphic.toNat := by
    have difference : (screen - graphic).toNat = screen.toNat - graphic.toNat := BitVec.toNat_sub_of_le fits.1
    rw [BitVec.toInt_eq_toNat_of_lt (by omega), difference, Nat.cast_sub fits.1]
  unfold OnSide clampCoord
  dsimp only
  rw [limit]
  split <;> split <;> omega

/-- **A packet keeps the pointer on the screen**, wherever it was, and tells so. -/
theorem ps2MousePacket_shows {scene : MouseScene} (fits : scene.Fits) (coords : Int × Int) (packet : Store Byte) :
    scene.Shows (ps2MousePacket scene coords packet).1 ∧
      ∀ event ∈ (ps2MousePacket scene coords packet).2, event.coords = (ps2MousePacket scene coords packet).1 := by
  have shows : scene.Shows (ps2MousePacket scene coords packet).1 :=
    ⟨clampCoord_onSide fits.width _, clampCoord_onSide fits.height _⟩
  refine ⟨shows, fun event isEvent => ?_⟩
  have small := And.intro fits.width.2 fits.height.2
  obtain ⟨⟨left, right⟩, top, bottom⟩ := shows
  unfold ps2MousePacket at isEvent left right top bottom ⊢
  dsimp only at isEvent left right top bottom ⊢
  generalize clampCoord _ scene.screenWidth scene.graphicWidth = x at isEvent left right ⊢
  generalize clampCoord _ scene.screenHeight scene.graphicHeight = y at isEvent top bottom ⊢
  rcases List.mem_cons.mp isEvent with rfl | isTold
  · have word : ∀ coord : Int, 0 ≤ coord → coord < 2 ^ 31 → (toWord coord : Int) = coord := by
      intro coord low high
      unfold toWord
      omega
    exact Prod.ext (word x left (by omega)) (word y top (by omega))
  · rcases List.mem_append.mp isTold with isClick | isMove
    · split at isClick
      · obtain ⟨handler, -, rfl⟩ := List.mem_map.mp isClick
        rfl
      · exact absurd isClick List.not_mem_nil
    · obtain ⟨handler, -, rfl⟩ := List.mem_map.mp isMove
      rfl

/-- **The pointer never leaves the screen**, for packets of any size and any bytes, and neither does a position that is told. -/
theorem ps2Mouse_onScreen {scene : MouseScene} (fits : scene.Fits) (packetSize : Nat) {σ : Ps2Mouse}
    (shows : scene.Shows σ.coords) (stream : List Byte) :
    scene.Shows (σ.run scene packetSize stream).1.coords ∧
      ∀ event ∈ (σ.run scene packetSize stream).2, scene.Shows event.coords := by
  induction stream using List.reverseRecOn with
  | nil => exact ⟨shows, fun event isEvent => absurd isEvent List.not_mem_nil⟩
  | append_singleton stream data ih =>
      rw [run_snoc]
      generalize σ.run scene packetSize stream = before at ih ⊢
      unfold ps2MouseHandleInterrupt
      dsimp only
      split
      · rwa [List.append_nil]
      · split
        · rwa [List.append_nil]
        · obtain ⟨after, told⟩ := ps2MousePacket_shows fits before.1.coords
            (put before.1.packet before.1.packetByteCount data)
          refine ⟨after, fun event isEvent => ?_⟩
          rcases List.mem_append.mp isEvent with isEarlier | isNew
          · exact ih.2 event isEarlier
          · rw [told event isNew]
            exact after

/-- A pointer of ten pixels in the middle of a screen. -/
def tenPixels : MouseScene := ⟨640, 480, 10, 10, [0xC000], [0xD000, 0]⟩

/-- It is moved far to the left and up, with a click. -/
theorem ps2Mouse_onScreen_ten : tenPixels.Fits ∧ tenPixels.Shows (320, 240) ∧
    tenPixels.Shows ((⟨(320, 240), fun _ => 0x00#8, 0⟩ : Ps2Mouse).run tenPixels 3
      [0x00#8, 0x09#8, 0x80#8, 0x7F#8]).1.coords ∧
    ∀ event ∈ ((⟨(320, 240), fun _ => 0x00#8, 0⟩ : Ps2Mouse).run tenPixels 3 [0x00#8, 0x09#8, 0x80#8, 0x7F#8]).2,
      tenPixels.Shows event.coords := by
  have fits : tenPixels.Fits := ⟨by decide, by decide⟩
  have shows : tenPixels.Shows (320, 240) := ⟨⟨by decide, by decide⟩, by decide, by decide⟩
  exact ⟨fits, shows, ps2Mouse_onScreen fits 3 shows _⟩

end PeachOS
