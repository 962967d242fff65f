/-
**Frames in a stream.**

A frame has a fixed size and begins with an item that marks a start. Up to the next start, items are skipped.

* `Framed` — a stream, its frames, and the frame that has begun at its end;
* `Framed.skip`, `Framed.extend`, `Framed.complete` — one more item behind the stream.
-/

import Mathlib.Data.List.Basic

namespace Framing

variable {α : Type} {starts : α → Prop} {size : Nat}

/-- **The frames of a stream**, and the items of the frame that is not complete. -/
inductive Framed (starts : α → Prop) (size : Nat) : (stream : List α) → (frames : List (List α)) → (rest : List α) → Prop
  | begun {rest : List α} (short : rest.length < size) (first : ∀ item ∈ rest.head?, starts item) :
      Framed starts size rest [] rest
  | skipped {item : α} {stream rest : List α} {frames : List (List α)} (noStart : ¬ starts item)
      (more : Framed starts size stream frames rest) : Framed starts size (item :: stream) frames rest
  | taken {frame stream rest : List α} {frames : List (List α)} (whole : frame.length = size)
      (first : ∀ item ∈ frame.head?, starts item) (more : Framed starts size stream frames rest) :
      Framed starts size (frame ++ stream) (frame :: frames) rest

namespace Framed

variable {stream rest : List α} {frames : List (List α)} {item : α}

theorem short (framed : Framed starts size stream frames rest) : rest.length < size := by
  induction framed with
  | begun short first => exact short
  | skipped noStart more ih => exact ih
  | taken whole first more ih => exact ih

/-- Between two frames, an item that is no start is skipped. -/
theorem skip (framed : Framed starts size stream frames rest) (between : rest = []) (noStart : ¬ starts item) :
    Framed starts size (stream ++ [item]) frames [] := by
  induction framed with
  | begun short first =>
      subst between
      exact .skipped noStart (.begun short first)
  | skipped none_ more ih => exact .skipped none_ (ih between)
  | taken whole first more ih =>
      rw [List.append_assoc]
      exact .taken whole first (ih between)

theorem first_snoc (first : ∀ other ∈ rest.head?, starts other) (joins : rest = [] → starts item) :
    ∀ other ∈ (rest ++ [item]).head?, starts other := by
  cases rest with
  | nil =>
      intro other isFirst
      obtain rfl := Option.some.inj isFirst
      exact joins rfl
  | cons other rest => exact first

/-- A start, and any item behind it, joins the frame. -/
theorem extend (framed : Framed starts size stream frames rest) (joins : rest = [] → starts item)
    (more : rest.length + 1 < size) : Framed starts size (stream ++ [item]) frames (rest ++ [item]) := by
  induction framed with
  | begun short first => exact .begun (by rwa [List.length_append]) (first_snoc first joins)
  | skipped noStart _ ih => exact .skipped noStart (ih joins more)
  | taken whole first _ ih =>
      rw [List.append_assoc]
      exact .taken whole first (ih joins more)

/-- The last item of a frame completes it. -/
theorem complete (framed : Framed starts size stream frames rest) (joins : rest = [] → starts item)
    (last : rest.length + 1 = size) : Framed starts size (stream ++ [item]) (frames ++ [rest ++ [item]]) [] := by
  induction framed with
  | @begun rest short first =>
      have alone : Framed starts size (rest ++ [item] ++ []) [rest ++ [item]] [] :=
        .taken (by rwa [List.length_append]) (first_snoc first joins)
          (.begun (Nat.zero_lt_of_lt short) (by simp))
      rwa [List.append_nil] at alone
  | skipped noStart _ ih => exact .skipped noStart (ih joins last)
  | taken whole first _ ih =>
      rw [List.append_assoc]
      exact .taken whole first (ih joins last)

end Framed

end Framing
