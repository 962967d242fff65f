/-
**Linked lists: the nodes that a chain of pointers visits.**

A `next` pointer leads from node to node; `null` ends a list. `Segment next start nodes stop` says that
following `next` from `start` visits the nodes in order and arrives at `stop`; a list is a segment that
stops at `null`.

* `segment_append` — segments are put together and taken apart;
* `segment_congr` — pointers of other nodes do not matter;
* `Segment.snoc` and `Segment.dropLast` — a node behind the last one, and the last one cut off;
* `Segment.unlink` — a node cut out of the middle;
* `Segment.next_last` and `Segment.next_mem` — where the pointers of the nodes lead.
-/

import Mathlib.Data.List.Basic
import Mathlib.Data.List.Nodup

namespace LinkedList

variable {Node : Type} {null : Node}

/-- **Following `next` from `start` visits the nodes and arrives at `stop`.** -/
def Segment (null : Node) (next : Node → Node) : Node → List Node → Node → Prop
  | start, [], stop => start = stop
  | start, node :: rest, stop => start = node ∧ node ≠ null ∧ Segment null next (next node) rest stop

variable {next next' : Node → Node} {start stop : Node} {nodes more : List Node}

theorem segment_nil : Segment null next start [] stop ↔ start = stop := Iff.rfl

theorem segment_cons {node : Node} : Segment null next start (node :: nodes) stop ↔
    start = node ∧ node ≠ null ∧ Segment null next (next node) nodes stop := Iff.rfl

theorem segment_append : Segment null next start (nodes ++ more) stop ↔
    ∃ middle, Segment null next start nodes middle ∧ Segment null next middle more stop := by
  induction nodes generalizing start with
  | nil =>
      simp only [List.nil_append, segment_nil]
      exact ⟨fun rest => ⟨start, rfl, rest⟩, fun ⟨_, same, rest⟩ => same ▸ rest⟩
  | cons node nodes ih =>
      simp only [List.cons_append, segment_cons, ih]
      constructor
      · rintro ⟨same, nonnull, middle, front, back⟩
        exact ⟨middle, ⟨same, nonnull, front⟩, back⟩
      · rintro ⟨middle, ⟨same, nonnull, front⟩, back⟩
        exact ⟨same, nonnull, middle, front, back⟩

/-- The pointers of other nodes do not matter. -/
theorem segment_congr (same : ∀ node ∈ nodes, next' node = next node) :
    Segment null next' start nodes stop ↔ Segment null next start nodes stop := by
  induction nodes generalizing start with
  | nil => exact Iff.rfl
  | cons node nodes ih =>
      rw [segment_cons, segment_cons, same node List.mem_cons_self,
        ih fun other member => same other (List.mem_cons_of_mem _ member)]

/-- Two nodes in a row in two lists put together: both are in one of them, or they are where the lists meet. -/
theorem adjacent_append {front back before after : List Node} {first second : Node}
    (together : front ++ back = before ++ first :: second :: after) :
    (∃ rest, front = before ++ first :: second :: rest) ∨ (front = before ++ [first] ∧ back = second :: after) ∨
      ∃ start, back = start ++ first :: second :: after := by
  rcases List.append_eq_append_iff.mp together with ⟨start, _, inBack⟩ | ⟨rest, inFront, behind⟩
  · exact Or.inr (Or.inr ⟨start, inBack⟩)
  · match rest, behind with
    | [], behind => exact Or.inr (Or.inr ⟨[], behind.symm⟩)
    | [node], behind =>
        rw [List.singleton_append, List.cons.injEq] at behind
        rw [behind.1]
        exact Or.inr (Or.inl ⟨inFront, behind.2.symm⟩)
    | node :: other :: rest, behind =>
        rw [List.cons_append, List.cons_append, List.cons.injEq, List.cons.injEq] at behind
        rw [behind.1, behind.2.1]
        exact Or.inl ⟨rest, inFront⟩

namespace Segment

/-- No node is null. -/
theorem ne_null (segment : Segment null next start nodes stop) : ∀ node ∈ nodes, node ≠ null := by
  induction nodes generalizing start with
  | nil => exact fun _ member => absurd member List.not_mem_nil
  | cons node nodes ih =>
      intro other member
      rcases List.mem_cons.mp member with rfl | later
      · exact segment.2.1
      · exact ih segment.2.2 other later

/-- The first node is the start. -/
theorem head (segment : Segment null next start nodes stop) : start = nodes.head?.getD stop := by
  cases nodes with
  | nil => exact segment
  | cons node nodes => exact segment.1

/-- The pointer of a node leads to the node behind it, or out of the segment. -/
theorem next_eq {front : List Node} {node : Node} (segment : Segment null next start (front ++ node :: more) stop) :
    next node = more.head?.getD stop := by
  obtain ⟨_, _, back⟩ := segment_append.mp segment
  exact back.2.2.head

/-- The pointer of the last node leads to the end. -/
theorem next_last {node : Node} (segment : Segment null next start (nodes ++ [node]) stop) : next node = stop :=
  segment.next_eq

/-- The pointers of the nodes lead to nodes or to the end. -/
theorem next_mem (segment : Segment null next start nodes stop) {node : Node} (member : node ∈ nodes) :
    next node = stop ∨ next node ∈ nodes := by
  obtain ⟨front, back, rfl⟩ := List.append_of_mem member
  rw [segment.next_eq]
  cases back with
  | nil => exact Or.inl rfl
  | cons other back => exact Or.inr (by simp)

/-- Only the last node leads to null. -/
theorem next_eq_null (segment : Segment null next start nodes null) {node : Node} (member : node ∈ nodes)
    (ends : next node = null) : ∃ front, nodes = front ++ [node] := by
  obtain ⟨front, back, rfl⟩ := List.append_of_mem member
  cases back with
  | nil => exact ⟨front, rfl⟩
  | cons other back =>
      have following := segment.next_eq
      simp only [List.head?_cons, Option.getD_some] at following
      exact absurd (following.symm.trans ends) (segment.ne_null other (by simp))

/-- **A node behind the last one.** -/
theorem snoc {last node : Node} (segment : Segment null next start (nodes ++ [last]) null)
    (nonnull : node ≠ null) (same : ∀ other ∈ nodes, next' other = next other) (link : next' last = node)
    (ends : next' node = null) : Segment null next' start (nodes ++ [last] ++ [node]) null := by
  obtain ⟨middle, front, back⟩ := segment_append.mp segment
  rw [List.append_assoc, segment_append]
  refine ⟨middle, (segment_congr same).mpr front, back.1, back.2.1, ?_⟩
  rw [link]
  exact ⟨rfl, nonnull, ends⟩

/-- **The last node cut off.** -/
theorem dropLast {last node : Node} (segment : Segment null next start (nodes ++ [last] ++ [node]) stop)
    (same : ∀ other ∈ nodes, next' other = next other) (link : next' last = null) :
    Segment null next' start (nodes ++ [last]) null := by
  obtain ⟨middle, front, _⟩ := segment_append.mp segment
  obtain ⟨before, front', back⟩ := segment_append.mp front
  rw [segment_append]
  exact ⟨before, (segment_congr same).mpr front', back.1, back.2.1, link⟩

/-- **A node cut out**: the pointer of the node before it skips it. -/
theorem unlink {front : List Node} {last node : Node} (segment : Segment null next start (front ++ last :: node :: more) stop)
    (same : ∀ other, other ∈ front ∨ other ∈ more → next' other = next other) (link : next' last = next node) :
    Segment null next' start (front ++ last :: more) stop := by
  obtain ⟨middle, before, isLast, nonnull, _, _, behind⟩ := segment_append.mp segment
  refine segment_append.mpr ⟨middle, (segment_congr fun other member => same other (Or.inl member)).mpr before, isLast,
    nonnull, ?_⟩
  rw [link]
  exact (segment_congr fun other member => same other (Or.inr member)).mpr behind

end Segment

end LinkedList
