/-
**Painting layers, whole and clipped.**

A layer paints its area and then the layers above it. Positions and values are arbitrary: painting changes the value
at each position on its own. A clipped painter paints what lies in a clip, and hands the clip, cut to the area, to the
layers above.

* `draw_outside` — nested layers paint nothing outside the area of the lowest one;
* `drawWithin_eq` — so the clipped painter agrees with the plain one in the clip, and changes nothing outside.
-/

import Mathlib.Data.Set.Basic

namespace Layers

variable {P V : Type}

/-- An area with what paints it, and the layers above. -/
inductive Layer (P V : Type) where
  | node (area : Set P) (paint : P → V → V) (above : List (Layer P V))

/-- The area of the lowest layer. -/
def Layer.area : Layer P V → Set P
  | .node area _ _ => area

mutual

/-- Every layer above lies in the area of the one below it. -/
def Layer.Nested : Layer P V → Prop
  | .node area _ above => NestedIn above area

/-- Layers that lie in an area. -/
def NestedIn : List (Layer P V) → Set P → Prop
  | [], _ => True
  | layer :: layers, area => layer.area ⊆ area ∧ layer.Nested ∧ NestedIn layers area

end

noncomputable section

open Classical in
/-- Painting one area. -/
def paintIn (area : Set P) (paint : P → V → V) (p : P) (v : V) : V := if p ∈ area then paint p v else v

mutual

/-- **The plain painter**: the value at a position after the layers are painted. -/
def Layer.draw : Layer P V → P → V → V
  | .node area paint above, p, v => drawAll above p (paintIn area paint p v)

/-- Layers one after the other. -/
def drawAll : List (Layer P V) → P → V → V
  | [], _, v => v
  | layer :: layers, p, v => drawAll layers p (layer.draw p v)

end

mutual

/-- **The clipped painter.** -/
def Layer.drawWithin : Layer P V → Set P → P → V → V
  | .node area paint above, clip, p, v => drawAllWithin above (clip ∩ area) p (paintIn (clip ∩ area) paint p v)

/-- Layers one after the other, in the same clip. -/
def drawAllWithin : List (Layer P V) → Set P → P → V → V
  | [], _, _, v => v
  | layer :: layers, clip, p, v => drawAllWithin layers clip p (layer.drawWithin clip p v)

end

end

theorem paintIn_of_mem {area : Set P} {p : P} (inside : p ∈ area) (paint : P → V → V) (v : V) :
    paintIn area paint p v = paint p v := if_pos inside

theorem paintIn_of_notMem {area : Set P} {p : P} (outside : p ∉ area) (paint : P → V → V) (v : V) :
    paintIn area paint p v = v := if_neg outside

/-- One painting after another one, in the same area. -/
theorem paintIn_paintIn (area : Set P) (first second : P → V → V) (p : P) (v : V) :
    paintIn area second p (paintIn area first p v) = paintIn area (fun p v => second p (first p v)) p v := by
  by_cases inside : p ∈ area
  · rw [paintIn_of_mem inside, paintIn_of_mem inside, paintIn_of_mem inside]
  · rw [paintIn_of_notMem inside, paintIn_of_notMem inside, paintIn_of_notMem inside]

mutual

/-- **Nothing is painted outside.** -/
theorem Layer.draw_outside : ∀ (layer : Layer P V) {p : P}, layer.Nested → p ∉ layer.area →
    ∀ v, layer.draw p v = v
  | .node area paint above, p, nested, outside, v => by
      have outside : p ∉ area := outside
      unfold Layer.draw
      rw [paintIn_of_notMem outside, drawAll_outside above nested outside]

theorem drawAll_outside {area : Set P} : ∀ (layers : List (Layer P V)) {p : P}, NestedIn layers area → p ∉ area →
    ∀ v, drawAll layers p v = v
  | [], _, _, _, _ => rfl
  | layer :: layers, p, nested, outside, v => by
      unfold drawAll
      rw [Layer.draw_outside layer nested.2.1 (fun found => outside (nested.1 found)),
        drawAll_outside layers nested.2.2 outside]

end

mutual

theorem Layer.drawWithin_of_notMem : ∀ (layer : Layer P V) {clip : Set P} {p : P}, p ∉ clip →
    ∀ v, layer.drawWithin clip p v = v
  | .node area paint above, clip, p, outside, v => by
      have outside : p ∉ clip ∩ area := fun found => outside found.1
      unfold Layer.drawWithin
      rw [paintIn_of_notMem outside, drawAllWithin_of_notMem above outside]

/-- A clipped painter changes nothing outside of the clip. -/
theorem drawAllWithin_of_notMem : ∀ (layers : List (Layer P V)) {clip : Set P} {p : P}, p ∉ clip →
    ∀ v, drawAllWithin layers clip p v = v
  | [], _, _, _, _ => rfl
  | layer :: layers, clip, p, outside, v => by
      unfold drawAllWithin
      rw [Layer.drawWithin_of_notMem layer outside, drawAllWithin_of_notMem layers outside]

end

mutual

theorem Layer.drawWithin_of_mem : ∀ (layer : Layer P V) {clip : Set P} {p : P}, layer.Nested → p ∈ clip →
    ∀ v, layer.drawWithin clip p v = layer.draw p v
  | .node area paint above, clip, p, nested, inside, v => by
      unfold Layer.drawWithin Layer.draw
      by_cases own : p ∈ area
      · have both : p ∈ clip ∩ area := ⟨inside, own⟩
        rw [paintIn_of_mem own, paintIn_of_mem both, drawAllWithin_of_mem above nested both]
      · have neither : p ∉ clip ∩ area := fun found => own found.2
        rw [paintIn_of_notMem own, paintIn_of_notMem neither, drawAllWithin_of_notMem above neither,
          drawAll_outside above nested own]

/-- A clipped painter is the plain one in the clip. -/
theorem drawAllWithin_of_mem {area : Set P} : ∀ (layers : List (Layer P V)) {clip : Set P} {p : P},
    NestedIn layers area → p ∈ clip → ∀ v, drawAllWithin layers clip p v = drawAll layers p v
  | [], _, _, _, _, _ => rfl
  | layer :: layers, clip, p, nested, inside, v => by
      unfold drawAllWithin drawAll
      rw [Layer.drawWithin_of_mem layer nested.2.1 inside, drawAllWithin_of_mem layers nested.2.2 inside]

end

open Classical in
/-- **The clipped painter** agrees with the plain one in the clip, and changes nothing outside. -/
theorem drawWithin_eq {layer : Layer P V} (nested : layer.Nested) (clip : Set P) (p : P) (v : V) :
    layer.drawWithin clip p v = if p ∈ clip then layer.draw p v else v := by
  by_cases inside : p ∈ clip
  · rw [if_pos inside, layer.drawWithin_of_mem nested inside]
  · rw [if_neg inside, layer.drawWithin_of_notMem inside]

/-- Only the part of a clip that lies in the area matters. -/
theorem Layer.drawWithin_congr (layer : Layer P V) {clip clip' : Set P} (same : clip ∩ layer.area = clip' ∩ layer.area) :
    layer.drawWithin clip = layer.drawWithin clip' := by
  cases layer with
  | node area paint above =>
      funext p v
      unfold Layer.drawWithin
      rw [show clip ∩ area = clip' ∩ area from same]

/-- A clip beside the area paints nothing. -/
theorem Layer.drawWithin_of_disjoint (layer : Layer P V) {clip : Set P} (beside : clip ∩ layer.area = ∅)
    (p : P) (v : V) : layer.drawWithin clip p v = v := by
  rw [layer.drawWithin_congr (beside.trans (Set.empty_inter _).symm), layer.drawWithin_of_notMem (Set.notMem_empty p)]

end Layers
