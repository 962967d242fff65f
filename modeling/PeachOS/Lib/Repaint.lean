/-
**Repainting after the top layer has moved.**

At a position a layer does one of two things: it leaves the value, or it stamps its own on it. The same is then true of all
layers together, so painting twice is painting once. When a layer is moved to the top and to another place, it is enough to
repaint what it uncovers and then the layer itself, but for one kind of position: where the layer showed something before,
covers the position again, and is clear there now. There the old value stays.

* `Layer.draw_stamp` — layers that stamp, together stamp;
* `drawAll_append`, `drawWithin_root` — parts of a picture;
* `repainted`, `repaint_iff` — a position that is repainted shows the new picture; one that is not, exactly when the layer
  stamps there, or the value is that of the picture without the layer.
-/

import PeachOS.Lib.Layers

namespace Layers

variable {P V : Type}

/-- The value is left. -/
def Clear (f : V → V) : Prop := ∀ v, f v = v

/-- **The value is left, or it is replaced** by one that does not depend on it. -/
def Stamp (f : V → V) : Prop := Clear f ∨ ∃ c, ∀ v, f v = c

theorem Stamp.comp {f g : V → V} (first : Stamp f) (second : Stamp g) : Stamp fun v => g (f v) := by
  rcases second with clear | ⟨c, constant⟩
  · rcases first with clear' | ⟨c, constant⟩
    · exact Or.inl fun v => (clear _).trans (clear' v)
    · exact Or.inr ⟨c, fun v => (clear _).trans (constant v)⟩
  · exact Or.inr ⟨c, fun v => constant _⟩

/-- **Painting twice is painting once.** -/
theorem Stamp.twice {f : V → V} (stamp : Stamp f) (v : V) : f (f v) = f v := by
  rcases stamp with clear | ⟨c, constant⟩
  · exact clear _
  · rw [constant, constant]

mutual

/-- Every layer stamps. -/
def Layer.Stamps : Layer P V → Prop
  | .node _ paint above => (∀ p, Stamp (paint p)) ∧ AllStamp above

/-- The same for a list of layers. -/
def AllStamp : List (Layer P V) → Prop
  | [] => True
  | layer :: layers => layer.Stamps ∧ AllStamp layers

end

theorem paintIn_stamp {area : Set P} {paint : P → V → V} {p : P} (stamp : Stamp (paint p)) : Stamp (paintIn area paint p) := by
  by_cases inside : p ∈ area
  · rwa [show paintIn area paint p = paint p from funext (paintIn_of_mem inside paint)]
  · exact Or.inl (paintIn_of_notMem inside paint)

mutual

/-- **Layers that stamp, together stamp.** -/
theorem Layer.draw_stamp : ∀ (layer : Layer P V), layer.Stamps → ∀ p, Stamp (layer.draw p)
  | .node _ _ above, stamps, p => (paintIn_stamp (stamps.1 p)).comp (drawAll_stamp above stamps.2 p)

theorem drawAll_stamp : ∀ (layers : List (Layer P V)), AllStamp layers → ∀ p, Stamp (drawAll layers p)
  | [], _, _ => Or.inl fun _ => rfl
  | layer :: layers, stamps, p => (layer.draw_stamp stamps.1 p).comp (drawAll_stamp layers stamps.2 p)

end

/-- Layers are painted one after the other. -/
theorem drawAll_append (first second : List (Layer P V)) (p : P) (v : V) :
    drawAll (first ++ second) p v = drawAll second p (drawAll first p v) := by
  induction first generalizing v with
  | nil => rfl
  | cons layer layers ih => exact ih (layer.draw p v)

open Classical in
/-- A clip of the lowest layer, above which there are nested layers that may leave its area. -/
theorem drawWithin_root {area wide : Set P} {paint : P → V → V} {above : List (Layer P V)} (nested : NestedIn above wide)
    (clip : Set P) (p : P) (v : V) :
    (Layer.node area paint above).drawWithin clip p v =
      if p ∈ clip ∩ area then (Layer.node area paint above).draw p v else v := by
  unfold Layer.drawWithin Layer.draw
  by_cases inside : p ∈ clip ∩ area
  · rw [if_pos inside, drawAllWithin_of_mem above nested inside, paintIn_of_mem inside, paintIn_of_mem inside.2]
  · rw [if_neg inside, drawAllWithin_of_notMem above inside, paintIn_of_notMem inside]

/-! ### One position -/

section Position

variable {below moved : V → V}

/-- **A position that is repainted** shows the new picture. -/
theorem repainted (stampBelow : Stamp below) (stampMoved : Stamp moved) (v : V) :
    moved (below (moved (moved (below v)))) = moved (moved (below v)) := by
  have picture := stampBelow.comp stampMoved
  rw [stampMoved.twice]
  exact picture.twice v

/-- **A position that is not** shows it exactly when the layer stamps there, or nothing but the rest is seen. -/
theorem repaint_iff (stampMoved : Stamp moved) (v : V) :
    moved (below (moved v)) = moved v ↔ (Clear moved → below v = v) := by
  constructor
  · intro same clear
    rwa [clear, clear] at same
  · intro rest
    rcases stampMoved with clear | ⟨c, constant⟩
    · rw [clear, clear]
      exact rest clear
    · rw [constant, constant]

end Position

end Layers
