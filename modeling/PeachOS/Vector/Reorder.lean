/-
**`vector_reorder` sorts its elements in memory.**

The bubble sort of `vector_reorder` copies two neighbours to two buffers, compares them there and writes them back exchanged.
`vector_at` takes the index as a `size_t`, but `vector_overwrite` as an `int`: an element behind index `2 ^ 31 - 1` is never
written. So the sort is right when no element there has to move.

* `reorderOuter_settled` — on the list of the elements the loops are the passes, when nothing there has to move;
* `reorderOuter_keepsEnd` — these elements stay in any case;
* `vectorReorderOuter_agrees` — the loops in memory are those on the list;
* `vectorReorder_iff` — so the sort is stable exactly then.
-/

import PeachOS.Kheap.Ledger
import PeachOS.Vector.Elements
import PeachOS.Vector.Refinement

namespace PeachOS

open ByteStore BlockArray BubbleSort SpanTable

/-! ### The code -/

/-- A turn of the inner loop of `vector_reorder`, and whether it goes to `cleanup`. -/
def vectorReorderTurn (reorderFunction : List Byte → List Byte → Int) (vec : Vector) (elem1 elem2 j : Nat) (k : Kernel) :
    Kernel × Bool :=
  let first := vectorAtOut k vec j elem1 vec.eSize
  if first.res < 0 then (first.kernel, true)
  else
    let second := vectorAtOut first.kernel vec (j + 1) elem2 vec.eSize
    if second.res < 0 then (second.kernel, true)
    else if reorderFunction (window second.kernel.mem elem1 vec.eSize) (window second.kernel.mem elem2 vec.eSize) > 0 then
      let lower := vectorOverwriteElem second.kernel vec (toInt32 j) elem2 vec.eSize
      if lower.res < 0 then (lower.kernel, true)
      else
        let upper := vectorOverwriteElem lower.kernel vec (toInt32 (j + 1 : Nat)) elem1 vec.eSize
        (upper.kernel, upper.res < 0)
    else (second.kernel, false)

/-- The inner loop, from the index `j` on. -/
def vectorReorderInner (reorderFunction : List Byte → List Byte → Int) (vec : Vector) (elem1 elem2 : Nat) :
    (fuel j : Nat) → Kernel → Kernel × Bool
  | 0, _, k => (k, false)
  | fuel + 1, j, k =>
      let turn := vectorReorderTurn reorderFunction vec elem1 elem2 j k
      if turn.2 then turn else vectorReorderInner reorderFunction vec elem1 elem2 fuel (j + 1) turn.1

/-- The outer loop, with `count - i - 1` for its counter `i`. -/
def vectorReorderOuter (reorderFunction : List Byte → List Byte → Int) (vec : Vector) (elem1 elem2 : Nat) :
    Nat → Kernel → Kernel × Bool
  | 0, k => (k, false)
  | n + 1, k =>
      let inner := vectorReorderInner reorderFunction vec elem1 elem2 (n + 1) 0 k
      if inner.2 then inner else vectorReorderOuter reorderFunction vec elem1 elem2 n inner.1

/-- `vector_reorder`. The comparison is given the bytes of the two buffers. -/
def vectorReorderElems (k : Kernel) (vec : Vector) (reorderFunction : List Byte → List Byte → Int) : Kernel :=
  let count := vectorCount vec
  if count < 2 then k
  else
    let elem1 := kzalloc k vec.eSize
    let elem2 := kzalloc elem1.2 vec.eSize
    if elem1.1 = 0 ∨ elem2.1 = 0 then
      let k := if elem1.1 ≠ 0 then kfree elem2.2 elem1.1 else elem2.2
      if elem2.1 ≠ 0 then kfree k elem2.1 else k
    else
      let loops := vectorReorderOuter reorderFunction vec elem1.1 elem2.1 (count - 1) elem2.2
      kfree (kfree loops.1 elem1.1) elem2.1

/-! ### The loops on the list of the elements -/

section Lists

variable {α : Type} (exceeds : α → α → Bool)

/-- `vector_overwrite` at an index that becomes an `int`, and whether it is refused. -/
def overwriteAt (elements : List α) (j : Nat) (element : α) : List α × Bool :=
  if toWord (toInt32 j) < elements.length then (elements.set (toWord (toInt32 j)) element, false) else (elements, true)

/-- A turn of the inner loop. -/
def reorderTurn (j : Nat) (elements : List α) : List α × Bool :=
  match elements[j]?, elements[j + 1]? with
  | some first, some second =>
      if exceeds first second then
        let lower := overwriteAt elements j second
        if lower.2 then lower else overwriteAt lower.1 (j + 1) first
      else (elements, false)
  | _, _ => (elements, true)

/-- The inner loop. -/
def reorderInner : (fuel j : Nat) → List α → List α × Bool
  | 0, _, elements => (elements, false)
  | fuel + 1, j, elements =>
      let turn := reorderTurn exceeds j elements
      if turn.2 then turn else reorderInner fuel (j + 1) turn.1

/-- The outer loop. -/
def reorderOuter : Nat → List α → List α × Bool
  | 0, elements => (elements, false)
  | n + 1, elements =>
      let inner := reorderInner exceeds (n + 1) 0 elements
      if inner.2 then inner else reorderOuter n inner.1

end Lists

/-- The length and the end of a list are kept. -/
structure KeepsEnd {α : Type} (elements elements' : List α) : Prop where
  length : elements'.length = elements.length
  last : elements'.drop (2 ^ 31) = elements.drop (2 ^ 31)

section End

variable {α : Type} {exceeds : α → α → Bool} {elements elements' elements'' : List α}

theorem KeepsEnd.refl (elements : List α) : KeepsEnd elements elements := ⟨rfl, rfl⟩

theorem KeepsEnd.trans (first : KeepsEnd elements elements') (second : KeepsEnd elements' elements'') :
    KeepsEnd elements elements'' := ⟨second.length.trans first.length, second.last.trans first.last⟩

/-- An index that is an `int` is below `2 ^ 31`, or behind every list. -/
theorem overwriteAt_keepsEnd (short : elements.length < 2 ^ 63) (j : Nat) (element : α) :
    KeepsEnd elements (overwriteAt elements j element).1 := by
  unfold overwriteAt
  split
  · next inside =>
      refine ⟨List.length_set, List.drop_set_of_lt ?_⟩
      unfold toWord toInt32 at inside ⊢
      split at inside <;> omega
  · exact .refl elements

theorem reorderTurn_keepsEnd (j : Nat) (short : elements.length < 2 ^ 63) :
    KeepsEnd elements (reorderTurn exceeds j elements).1 := by
  unfold reorderTurn
  split
  · next first second _ _ =>
      -- The writes are generalized, since their indices are hard to compute.
      have lower := overwriteAt_keepsEnd short j second
      generalize overwriteAt elements j second = lowered at lower ⊢
      have upper := lower.trans (overwriteAt_keepsEnd (lower.length ▸ short) (j + 1) first)
      dsimp only
      generalize overwriteAt lowered.1 (j + 1) first = raised at upper ⊢
      split
      · split
        · exact lower
        · exact upper
      · exact .refl elements
  · exact .refl elements

theorem reorderInner_keepsEnd (fuel j : Nat) (elements : List α) (short : elements.length < 2 ^ 63) :
    KeepsEnd elements (reorderInner exceeds fuel j elements).1 := by
  induction fuel generalizing j elements with
  | zero => exact .refl elements
  | succ fuel ih =>
      have kept := @reorderTurn_keepsEnd α exceeds elements j short
      rw [reorderInner]
      split
      · exact kept
      · exact kept.trans (ih (j + 1) _ (kept.length ▸ short))

/-- **The elements behind index `2 ^ 31 - 1` stay where they are.** -/
theorem reorderOuter_keepsEnd (n : Nat) (elements : List α) (short : elements.length < 2 ^ 63) :
    KeepsEnd elements (reorderOuter exceeds n elements).1 := by
  induction n generalizing elements with
  | zero => exact .refl elements
  | succ n ih =>
      rw [reorderOuter]
      have kept := @reorderInner_keepsEnd α exceeds (n + 1) 0 elements short
      split
      · exact kept
      · exact kept.trans (ih _ (kept.length ▸ short))

/-- At an index that an `int` holds, the element is set. -/
theorem overwriteAt_small {j : Nat} (inside : j < elements.length) (small : j < 2 ^ 31) (element : α) :
    overwriteAt elements j element = (elements.set j element, false) := by
  have index : toWord (toInt32 j) = j := by
    rw [toInt32_of_bounds (by omega) (by omega)]
    exact toWord_natCast (by omega)
  unfold overwriteAt
  rw [index, if_pos inside]

/-- A turn, at an index in the list. -/
theorem reorderTurn_eq {j : Nat} (below : j + 1 < elements.length) :
    reorderTurn exceeds j elements =
      if exceeds elements[j] elements[j + 1] then
        if (overwriteAt elements j elements[j + 1]).2 then overwriteAt elements j elements[j + 1]
        else overwriteAt (overwriteAt elements j elements[j + 1]).1 (j + 1) elements[j]
      else (elements, false) := by
  unfold reorderTurn
  rw [List.getElem?_eq_getElem below, List.getElem?_eq_getElem (Nat.lt_of_succ_lt below)]

/-- A turn leaves two neighbours in order. -/
theorem reorderTurn_settled (done rest : List α) (x y : α) (settled : Settled exceeds (2 ^ 31 - done.length) (x :: y :: rest)) :
    reorderTurn exceeds done.length (done ++ x :: y :: rest) =
      (if exceeds x y then done ++ y :: x :: rest else done ++ x :: y :: rest, false) := by
  have first : (done ++ x :: y :: rest)[done.length]? = some x := by simp
  have second : (done ++ x :: y :: rest)[done.length + 1]? = some y := by simp
  unfold reorderTurn
  simp only [first, second]
  by_cases above : exceeds x y = true
  · have high : 1 < 2 ^ 31 - done.length := by
      by_contra low
      rw [settled.neighbours (not_lt.mp low)] at above
      exact Bool.noConfusion above
    have lowered : overwriteAt (done ++ x :: y :: rest) done.length y = (done ++ y :: y :: rest, false) := by
      rw [overwriteAt_small (by simp) (by omega)]
      simp
    have raised : overwriteAt (done ++ y :: y :: rest) (done.length + 1) x = (done ++ y :: x :: rest, false) := by
      rw [overwriteAt_small (by simp) (by omega), List.set_append_right _ _ (by omega)]
      simp
    rw [if_pos above, if_pos above, lowered, if_neg Bool.false_ne_true, raised]
  · rw [if_neg above, if_neg above]

/-- **The inner loop is a pass**, where nothing at the end has to move. -/
theorem reorderInner_settled (fuel : Nat) (done rest : List α) (enough : fuel < rest.length)
    (settled : Settled exceeds (2 ^ 31 - done.length) rest) :
    reorderInner exceeds fuel done.length (done ++ rest) = (done ++ pass exceeds fuel rest, false) := by
  induction fuel generalizing done rest with
  | zero => rw [reorderInner, pass.eq_2 exceeds 0 rest (by simp)]
  | succ fuel ih =>
      rcases rest with _ | ⟨x, _ | ⟨y, rest⟩⟩
      · exact absurd enough (Nat.not_lt_zero _)
      · exact absurd enough (by simp)
      · have shorter : fuel < rest.length + 1 := Nat.lt_of_succ_lt_succ enough
        have next : 2 ^ 31 - done.length - 1 = 2 ^ 31 - (done.length + 1) := by omega
        have after : ∀ z front, Settled exceeds (2 ^ 31 - done.length - 1) (front :: rest) →
            reorderInner exceeds fuel (done.length + 1) (done ++ z :: front :: rest) =
              (done ++ z :: pass exceeds fuel (front :: rest), false) := by
          intro z front settled'
          have rest' := ih (done ++ [z]) (front :: rest) shorter (by
            rw [List.length_append, List.length_singleton, ← next]
            exact settled')
          rwa [List.length_append, List.length_singleton, List.append_assoc, List.append_assoc] at rest'
        rw [reorderInner, reorderTurn_settled done rest x y settled, BubbleSort.pass]
        by_cases above : exceeds x y = true
        · have high : 1 < 2 ^ 31 - done.length := by
            by_contra low
            rw [settled.neighbours (not_lt.mp low)] at above
            exact Bool.noConfusion above
          rw [if_pos above, if_pos above]
          exact after y x (settled.skip high)
        · rw [if_neg above, if_neg above]
          exact after x y settled.tail

/-- **The outer loop makes the passes.** -/
theorem reorderOuter_settled (n : Nat) (elements : List α) (enough : n < elements.length ∨ n = 0)
    (settled : Settled exceeds (2 ^ 31) elements) : reorderOuter exceeds n elements = (passes exceeds n elements, false) := by
  induction n generalizing elements with
  | zero => rfl
  | succ n ih =>
      have inside : n + 1 < elements.length := enough.resolve_right (Nat.succ_ne_zero n)
      have inner := reorderInner_settled (n + 1) [] elements inside settled
      rw [List.nil_append, List.nil_append, List.length_nil] at inner
      have length := (@pass_perm α exceeds (n + 1) elements).length_eq
      rw [reorderOuter, inner, passes]
      exact ih _ (Or.inl (by show n < (pass exceeds (n + 1) elements).length; omega)) (settled.pass (n + 1))

end End

/-! ### The loops in memory -/

/-- **A vector whose elements lie in a live chain of the kernel heap**, and are of a size that `memcpy` counts in an `int`. -/
structure Vector.HoldsIn (k : Kernel) (chains : Set Span) (vec : Vector) (elements : List (List Byte)) : Prop where
  heap : KernelHeap k chains
  count : vec.tElems = elements.length
  holds : HoldsBlocks k.mem vec.memory vec.eSize elements
  memory : ∃ chain ∈ chains, vec.memory = k.address chain ∧ vec.tElems * vec.eSize ≤ chain.len * peachosHeapBlockSize
  small : vec.eSize < 2 ^ 31

/-- An address is before or behind an interval that it is not in. -/
theorem outside_interval {a base count : Nat} (outside : a ∉ Set.Ico base (base + count)) : a < base ∨ base + count ≤ a := by
  rw [Set.mem_Ico, not_and_or] at outside
  omega

/-- The bytes of the elements. -/
def Vector.elementBytes (vec : Vector) : Set Nat := Set.Ico vec.memory (vec.memory + vec.tElems * vec.eSize)

/-- A buffer for an element, apart from the elements. -/
structure Vector.Buffer (vec : Vector) (elem : Nat) : Prop where
  nonnull : elem ≠ 0
  apart : Disjoint (Set.Ico elem (elem + vec.eSize)) vec.elementBytes

/-- **The elements in memory during the sort.** -/
structure Vector.During (vec : Vector) (mem : Memory) (elements : List (List Byte)) : Prop where
  count : vec.tElems = elements.length
  holds : HoldsBlocks mem vec.memory vec.eSize elements
  range : vec.memory + vec.tElems * vec.eSize ≤ 2 ^ 48
  some : 0 < vec.eSize
  small : vec.eSize < 2 ^ 31

namespace Vector.During

variable {vec : Vector} {mem mem' : Memory} {elements elements' : List (List Byte)}

theorem short (during : vec.During mem elements) : elements.length < 2 ^ 63 := by
  have range := during.range
  have bound := Nat.le_mul_of_pos_right vec.tElems during.some
  rw [← during.count]
  omega

/-- An element lies among the bytes of all. -/
theorem element_inside (during : vec.During mem elements) {j : Nat} (below : j < elements.length) :
    vec.memory + j * vec.eSize + vec.eSize ≤ vec.memory + vec.tElems * vec.eSize := by
  have bound := Nat.mul_le_mul_right vec.eSize (Nat.succ_le_of_lt below)
  rw [Nat.succ_mul] at bound
  rw [during.count]
  omega

/-- The address of an element. -/
theorem address (during : vec.During mem elements) {j : Nat} (below : j < elements.length) :
    vectorMemoryAtIndex vec j = vec.memory + j * vec.eSize := by
  have inside := during.element_inside below
  have range := during.range
  unfold vectorMemoryAtIndex
  rw [Nat.mul_comm j] at inside ⊢
  exact_mod_cast toWord_natCast (show vec.memory + vec.eSize * j < 2 ^ 64 by omega)

/-- The elements stay where their bytes do. -/
theorem frame (during : vec.During mem elements) (same : ∀ a ∈ vec.elementBytes, mem' a = mem a) :
    vec.During mem' elements where
  count := during.count
  holds := during.holds.congr fun offset inside => by
    rw [← during.count] at inside
    exact same _ ⟨Nat.le_add_right _ _, Nat.add_lt_add_left inside _⟩
  range := during.range
  some := during.some
  small := during.small

/-- **`vector_at` copies an element** to a buffer. -/
theorem read {k : Kernel} (during : vec.During k.mem elements) {j elem : Nat} (below : j < elements.length)
    (buffer : vec.Buffer elem) :
    (vectorAtOut k vec j elem vec.eSize).res = 0 ∧ vec.During (vectorAtOut k vec j elem vec.eSize).kernel.mem elements ∧
      window (vectorAtOut k vec j elem vec.eSize).kernel.mem elem vec.eSize = elements[j] ∧
      ∀ a ∉ Set.Ico elem (elem + vec.eSize), (vectorAtOut k vec j elem vec.eSize).kernel.mem a = k.mem a := by
  have small := during.small
  have inside : Set.Ico (vec.memory + j * vec.eSize) (vec.memory + j * vec.eSize + vec.eSize) ⊆ vec.elementBytes := by
    rintro a ⟨low, high⟩
    have bound := during.element_inside below
    exact ⟨(Nat.le_add_right _ _).trans low, high.trans_le bound⟩
  have done : vectorAtOut k vec j elem vec.eSize =
      ⟨0, vec, { k with mem := memcpy k.mem elem (vec.memory + j * vec.eSize) vec.eSize },
        [⟨elem, vec.eSize % 2 ^ 32⟩, ⟨vec.memory + j * vec.eSize, vec.eSize % 2 ^ 32⟩]⟩ := by
    unfold vectorAtOut vectorValidBounds
    simp only [lt_irrefl, if_false, buffer.nonnull, during.count, below, if_true, during.address below]
  have others : ∀ a ∉ Set.Ico elem (elem + vec.eSize), memcpy k.mem elem (vec.memory + j * vec.eSize) vec.eSize a = k.mem a := by
    intro a outside
    exact memcpy_outside (outside_interval outside)
  rw [done]
  refine ⟨rfl, during.frame fun a isIn => others a fun between => ?_, ?_, others⟩
  · exact Set.disjoint_left.mp buffer.apart between isIn
  · rw [← during.holds.block j below]
    exact window_memcpy small (Set.disjoint_of_subset_right inside buffer.apart)

/-- `vector_overwrite` at an index in the vector. -/
theorem overwrite_inside {k : Kernel} (during : vec.During k.mem elements) {index : Int} {elem : Nat} (buffer : vec.Buffer elem)
    (below : toWord index < elements.length) :
    ¬ (vectorOverwriteElem k vec index elem vec.eSize).res < 0 ∧
    vec.During (vectorOverwriteElem k vec index elem vec.eSize).kernel.mem
      (elements.set (toWord index) (window k.mem elem vec.eSize)) ∧
    ∀ a ∉ vec.elementBytes, (vectorOverwriteElem k vec index elem vec.eSize).kernel.mem a = k.mem a := by
  unfold vectorOverwriteElem vectorValidBounds
  generalize toWord index = i at below ⊢
  have inside := during.element_inside below
  have subset : Set.Ico (vec.memory + i * vec.eSize) (vec.memory + i * vec.eSize + vec.eSize) ⊆ vec.elementBytes := by
    rintro a ⟨low, high⟩
    exact ⟨(Nat.le_add_right _ _).trans low, high.trans_le inside⟩
  have written : window (memcpy k.mem (vec.memory + i * vec.eSize) elem vec.eSize) (vec.memory + i * vec.eSize) vec.eSize =
      window k.mem elem vec.eSize :=
    window_memcpy during.small (Set.disjoint_of_subset_left subset buffer.apart.symm)
  rw [during.count, if_pos below, if_neg (lt_irrefl _), if_neg (lt_irrefl _), during.address below]
  refine ⟨lt_irrefl _, ⟨?_, ?_, during.range, during.some, during.small⟩, fun a outside => memcpy_outside ?_⟩
  · rw [List.length_set]
    exact during.count
  · exact during.holds.set (length_window _ _ _) written fun offset _ outside => memcpy_outside (by omega)
  · exact outside_interval fun isIn => outside (subset isIn)

/-- `vector_overwrite` behind the vector. -/
theorem overwrite_outside {k : Kernel} (during : vec.During k.mem elements) {index : Int} (elem : Nat)
    (behind : ¬ toWord index < elements.length) :
    vectorOverwriteElem k vec index elem vec.eSize = ⟨einvarg, vec, k, []⟩ := by
  have refused : einvarg < 0 := by decide
  unfold vectorOverwriteElem vectorValidBounds
  rw [during.count, if_neg behind, if_pos refused]

/-- **`vector_overwrite` writes an element** at an index that becomes an `int`, or refuses it. -/
theorem overwrite {k : Kernel} (during : vec.During k.mem elements) {j elem : Nat} (buffer : vec.Buffer elem)
    {result : VectorResult} (inMemory : vectorOverwriteElem k vec (toInt32 j) elem vec.eSize = result)
    {written : List (List Byte) × Bool} (onList : overwriteAt elements j (window k.mem elem vec.eSize) = written) :
    (result.res < 0 ↔ written.2 = true) ∧ vec.During result.kernel.mem written.1 ∧
    ∀ a ∉ vec.elementBytes, result.kernel.mem a = k.mem a := by
  unfold overwriteAt at onList
  generalize toInt32 j = index at inMemory onList
  subst inMemory onList
  by_cases below : toWord index < elements.length
  · obtain ⟨accepted, during', others⟩ := during.overwrite_inside buffer below
    rw [if_pos below]
    exact ⟨iff_of_false accepted Bool.false_ne_true, during', others⟩
  · rw [if_neg below, during.overwrite_outside elem below]
    exact ⟨iff_of_true (show einvarg < 0 by decide) rfl, during, fun _ _ => rfl⟩

end Vector.During

/-- Two buffers, apart from each other. -/
structure Vector.Buffers (vec : Vector) (elem1 elem2 : Nat) : Prop where
  first : vec.Buffer elem1
  second : vec.Buffer elem2
  disjoint : Disjoint (Set.Ico elem1 (elem1 + vec.eSize)) (Set.Ico elem2 (elem2 + vec.eSize))

/-- A buffer is kept where its bytes are. -/
theorem window_kept {mem mem' : Memory} {base count : Nat} {written : Set Nat}
    (apart : Disjoint (Set.Ico base (base + count)) written)
    (others : ∀ a ∉ written, mem' a = mem a) : window mem' base count = window mem base count :=
  window_move fun _ inside => others _ (Set.disjoint_left.mp apart ⟨Nat.le_add_right _ _, Nat.add_lt_add_left inside _⟩)

/-- The order of a comparison's sign. -/
def exceedsBy (reorderFunction : List Byte → List Byte → Int) (first second : List Byte) : Bool :=
  reorderFunction first second > 0

/-- **A loop in memory ends as one on the list.** -/
structure Vector.Agrees (vec : Vector) (inMemory : Kernel × Bool) (onList : List (List Byte) × Bool) : Prop where
  flag : inMemory.2 = onList.2
  during : vec.During inMemory.1.mem onList.1

/-- A write ends a loop when it is refused. -/
theorem Vector.Agrees.of_refused {vec : Vector} {result : VectorResult} {written : List (List Byte) × Bool}
    (flag : written.2 = true) (during : vec.During result.kernel.mem written.1) : vec.Agrees (result.kernel, true) written :=
  ⟨flag.symm, during⟩

theorem Vector.Agrees.of_write {vec : Vector} {result : VectorResult} {written : List (List Byte) × Bool}
    (refused : result.res < 0 ↔ written.2 = true) (during : vec.During result.kernel.mem written.1) :
    vec.Agrees (result.kernel, result.res < 0) written :=
  ⟨Bool.eq_iff_iff.mpr (decide_eq_true_iff.trans refused), during⟩

section Simulation

variable (reorderFunction : List Byte → List Byte → Int) {vec : Vector} {elem1 elem2 : Nat}

/-- A turn of the inner loop. -/
theorem vectorReorderTurn_agrees {k : Kernel} {elements : List (List Byte)} (during : vec.During k.mem elements)
    (buffers : vec.Buffers elem1 elem2) {j : Nat} (below : j + 1 < elements.length) :
    vec.Agrees (vectorReorderTurn reorderFunction vec elem1 elem2 j k) (reorderTurn (exceedsBy reorderFunction) j elements) := by
  rw [reorderTurn_eq below]
  unfold vectorReorderTurn
  -- Both elements are copied to the buffers.
  obtain ⟨read1, during1, copied1, -⟩ := during.read (Nat.lt_of_succ_lt below) buffers.first
  generalize vectorAtOut k vec j elem1 vec.eSize = first at read1 during1 copied1 ⊢
  obtain ⟨read2, during2, copied2, others2⟩ := during1.read below buffers.second
  generalize hsecond : vectorAtOut first.kernel vec (j + 1) elem2 vec.eSize = second at read2 during2 copied2 others2 ⊢
  have kept1 : window second.kernel.mem elem1 vec.eSize = elements[j] := (window_kept buffers.disjoint others2).trans copied1
  simp only [read1, read2, lt_irrefl, if_false, hsecond, kept1, copied2]
  by_cases above : reorderFunction elements[j] elements[j + 1] > 0
  · -- They are written back, exchanged.
    rw [if_pos above, if_pos (show exceedsBy reorderFunction _ _ = true from decide_eq_true above)]
    generalize onList : overwriteAt elements j elements[j + 1] = lowered
    generalize inMemory : vectorOverwriteElem second.kernel vec (toInt32 j) elem2 vec.eSize = lower
    obtain ⟨refused, during3, others3⟩ := during2.overwrite buffers.second inMemory (copied2.symm ▸ onList)
    by_cases fails : lower.res < 0
    · rw [if_pos fails, if_pos (refused.mp fails)]
      exact .of_refused (refused.mp fails) during3
    · rw [if_neg fails, if_neg (fun flag => fails (refused.mpr flag))]
      have kept3 := (window_kept buffers.first.apart others3).trans kept1
      generalize onList' : overwriteAt lowered.1 (j + 1) elements[j] = raised
      generalize inMemory' : vectorOverwriteElem lower.kernel vec (toInt32 (j + 1 : Nat)) elem1 vec.eSize = upper
      obtain ⟨refused', during4, -⟩ := during3.overwrite buffers.first inMemory' (kept3.symm ▸ onList')
      exact .of_write refused' during4
  · rw [if_neg above, if_neg (show ¬ exceedsBy reorderFunction _ _ = true from fun exceeds => above (of_decide_eq_true exceeds))]
    exact ⟨rfl, during2⟩

/-- **The inner loop in memory is the one on the list.** -/
theorem vectorReorderInner_agrees (buffers : vec.Buffers elem1 elem2) (fuel j : Nat) (k : Kernel) (elements : List (List Byte))
    (during : vec.During k.mem elements) (reach : j + fuel < elements.length) :
    vec.Agrees (vectorReorderInner reorderFunction vec elem1 elem2 fuel j k)
      (reorderInner (exceedsBy reorderFunction) fuel j elements) := by
  induction fuel generalizing j k elements with
  | zero => exact ⟨rfl, during⟩
  | succ fuel ih =>
      have turn := vectorReorderTurn_agrees reorderFunction during buffers (show j + 1 < elements.length by omega)
      rw [vectorReorderInner, reorderInner]
      generalize vectorReorderTurn reorderFunction vec elem1 elem2 j k = inMemory at turn ⊢
      generalize reorderTurn (exceedsBy reorderFunction) j elements = onList at turn ⊢
      have length : onList.1.length = elements.length := turn.during.count.symm.trans during.count
      simp only [turn.flag]
      split
      · exact turn
      · exact ih (j + 1) _ _ turn.during (by omega)

/-- **The outer loop in memory is the one on the list.** -/
theorem vectorReorderOuter_agrees (buffers : vec.Buffers elem1 elem2) (n : Nat) (k : Kernel) (elements : List (List Byte))
    (during : vec.During k.mem elements) (reach : n < elements.length) :
    vec.Agrees (vectorReorderOuter reorderFunction vec elem1 elem2 n k)
      (reorderOuter (exceedsBy reorderFunction) n elements) := by
  induction n generalizing k elements with
  | zero => exact ⟨rfl, during⟩
  | succ n ih =>
      have inner := vectorReorderInner_agrees reorderFunction buffers (n + 1) 0 k elements during (by omega)
      rw [vectorReorderOuter, reorderOuter]
      generalize vectorReorderInner reorderFunction vec elem1 elem2 (n + 1) 0 k = inMemory at inner ⊢
      generalize reorderInner (exceedsBy reorderFunction) (n + 1) 0 elements = onList at inner ⊢
      have length : onList.1.length = elements.length := inner.during.count.symm.trans during.count
      simp only [inner.flag]
      split
      · exact inner
      · exact ih _ _ inner.during (by omega)

end Simulation

/-! ### The sort -/

/-- A granted chain holds the bytes that were asked for. -/
theorem Granted.interval {k k' : Kernel} {chains : Set Span} {start size ptr : Nat}
    (granted : Granted k chains ⟨start, heapBlocks size⟩ ptr k') (word : size < 2 ^ 64) :
    Set.Ico ptr (ptr + size) ⊆ k.bytes ⟨start, heapBlocks size⟩ := by
  rintro a ⟨low, high⟩
  have fits := le_heapBlocks_mul word granted.nonempty
  rw [granted.pointer] at low high
  exact ⟨low, high.trans_le (Nat.add_le_add_left fits _)⟩

section Elements

variable {k : Kernel} {chains : Set Span} {vec : Vector} {elements : List (List Byte)}
  {reorderFunction : List Byte → List Byte → Int}

/-- The buffers of the sort lie apart from the elements, which they leave as they are. -/
theorem Vector.HoldsIn.buffers (holds : vec.HoldsIn k chains elements) (elem1 : (kzalloc k vec.eSize).1 ≠ 0)
    (elem2 : (kzalloc (kzalloc k vec.eSize).2 vec.eSize).1 ≠ 0) :
    vec.Buffers (kzalloc k vec.eSize).1 (kzalloc (kzalloc k vec.eSize).2 vec.eSize).1 ∧
      vec.During (kzalloc (kzalloc k vec.eSize).2 vec.eSize).2.mem elements := by
  have word : vec.eSize < 2 ^ 64 := holds.small.trans (by norm_num)
  obtain ⟨chain, live, pointer, fits⟩ := holds.memory
  have inChain : vec.elementBytes ⊆ k.bytes chain := by
    rintro a ⟨low, high⟩
    rw [pointer] at low high
    exact ⟨low, high.trans_le (Nat.add_le_add_left fits _)⟩
  rcases kzalloc_cases holds.heap word with failed | ⟨start1, granted1, -⟩
  · exact absurd (congrArg Prod.fst failed) elem1
  generalize kzalloc k vec.eSize = first at elem1 elem2 granted1 ⊢
  rcases kzalloc_cases granted1.heap word with failed | ⟨start2, granted2, -⟩
  · exact absurd (congrArg Prod.fst failed) elem2
  generalize kzalloc first.2 vec.eSize = second at elem2 granted2 ⊢
  have place1 := granted1.interval word
  have place2 := granted2.interval word
  rw [granted1.same.bytes] at place2
  have apart1 := KernelHeap.bytes_disjoint (k := k) (granted1.apart chain live)
  have apart2 := KernelHeap.bytes_disjoint (k := k) (granted2.apart chain (Set.mem_insert_of_mem _ live))
  have apart12 := KernelHeap.bytes_disjoint (k := k) (granted2.apart _ (Set.mem_insert _ chains))
  have positive : 0 < vec.eSize := by
    by_contra none
    have blocks := granted1.nonempty
    rw [Nat.eq_zero_of_not_pos none] at blocks
    exact absurd blocks (show ¬ 0 < heapBlocks 0 by decide)
  refine ⟨⟨⟨elem1, apart1.mono place1 inChain⟩, ⟨elem2, apart2.mono place2 inChain⟩, (apart12.mono place2 place1).symm⟩, ?_⟩
  have start : vec.During k.mem elements := by
    refine ⟨holds.count, holds.holds, ?_, positive, holds.small⟩
    have inHeap := (holds.heap.bytes_in_heap live).2
    have physical := holds.heap.physical
    rw [pointer]
    exact ((Nat.add_le_add_left fits _).trans inHeap).trans physical
  refine start.frame fun a isIn => ?_
  have kept2 := granted2.kept chain (Set.mem_insert_of_mem _ live) a (by rw [granted1.same.bytes]; exact inChain isIn)
  rw [kept2, granted1.kept chain live a (inChain isIn)]

/-- **`vector_reorder` is the sort of the list of the elements.** -/
theorem vectorReorderElems_agrees (holds : vec.HoldsIn k chains elements) (elem1 : (kzalloc k vec.eSize).1 ≠ 0)
    (elem2 : (kzalloc (kzalloc k vec.eSize).2 vec.eSize).1 ≠ 0) :
    HoldsBlocks (vectorReorderElems k vec reorderFunction).mem vec.memory vec.eSize
      (reorderOuter (exceedsBy reorderFunction) (elements.length - 1) elements).1 := by
  unfold vectorReorderElems vectorCount
  rw [holds.count]
  by_cases few : elements.length < 2
  · rw [if_pos few, show elements.length - 1 = 0 by omega]
    exact holds.holds
  · obtain ⟨buffers, during⟩ := holds.buffers elem1 elem2
    have loops := vectorReorderOuter_agrees reorderFunction buffers (elements.length - 1) _ elements during
      (by omega)
    rw [if_neg few, if_neg (not_or.mpr ⟨elem1, elem2⟩)]
    exact loops.during.holds

/-- Neither of two elements exceeds the other. -/
def equivalentBy (reorderFunction : List Byte → List Byte → Int) (first second : List Byte) : Bool :=
  !exceedsBy reorderFunction first second && !exceedsBy reorderFunction second first

/-- **A stable sort**: a permutation in order, with equivalent elements as they were. -/
structure StableSort (reorderFunction : List Byte → List Byte → Int) (elements sorted : List (List Byte)) : Prop where
  perm : sorted.Perm elements
  ordered : sorted.Pairwise fun first second => ¬ reorderFunction first second > 0
  stable : ∀ element, sorted.filter (equivalentBy reorderFunction element) =
    elements.filter (equivalentBy reorderFunction element)

theorem sorted_exceedsBy (sorted : List (List Byte)) :
    Sorted (exceedsBy reorderFunction) sorted ↔ sorted.Pairwise fun first second => ¬ reorderFunction first second > 0 := by
  unfold Sorted exceedsBy
  simp only [decide_eq_false_iff_not]

/-- The passes are a stable sort. -/
theorem passes_stableSort (order : IsOrder (exceedsBy reorderFunction)) (elements : List (List Byte)) :
    StableSort reorderFunction elements (passes (exceedsBy reorderFunction) (elements.length - 1) elements) where
  perm := passes_perm _ _
  ordered := (sorted_exceedsBy _).mp (passes_sorted order elements)
  stable := fun element => by
    refine passes_filter (fun x y above level => ?_) _ _
    unfold equivalentBy at level ⊢
    rw [Bool.and_eq_true, Bool.not_eq_true', Bool.not_eq_true'] at level
    rw [Bool.and_eq_false_iff, Bool.not_eq_false']
    -- The element would be between the two.
    by_contra apart
    rw [not_or, Bool.not_eq_true] at apart
    exact absurd above (by rw [order.trans x element y level.2 apart.1]; exact Bool.false_ne_true)

/-- A sort of the elements moves none behind index `2 ^ 31 - 1`. -/
theorem settled_of_stableSort (holds : vec.HoldsIn k chains elements) (elem1 : (kzalloc k vec.eSize).1 ≠ 0)
    (elem2 : (kzalloc (kzalloc k vec.eSize).2 vec.eSize).1 ≠ 0) {sorted : List (List Byte)}
    (holds' : HoldsBlocks (vectorReorderElems k vec reorderFunction).mem vec.memory vec.eSize sorted)
    (stable : StableSort reorderFunction elements sorted) : Settled (exceedsBy reorderFunction) (2 ^ 31) elements := by
  have result := @vectorReorderElems_agrees k chains vec elements reorderFunction holds elem1 elem2
  obtain ⟨-, during⟩ := holds.buffers elem1 elem2
  have kept := @reorderOuter_keepsEnd _ (exceedsBy reorderFunction) (elements.length - 1) elements during.short
  generalize (reorderOuter (exceedsBy reorderFunction) (elements.length - 1) elements).1 = final at result kept
  obtain rfl : sorted = final := result.unique holds' (stable.perm.length_eq.trans kept.length.symm)
  have settled := Settled.of_sorted ((sorted_exceedsBy sorted).mpr stable.ordered) (2 ^ 31)
  exact settled.of_perm stable.perm.symm kept.last.symm

/-- **`vector_reorder` sorts where no element behind index `2 ^ 31 - 1` has to move**, and nowhere else. -/
theorem vectorReorder_iff (holds : vec.HoldsIn k chains elements) (order : IsOrder (exceedsBy reorderFunction))
    (elem1 : (kzalloc k vec.eSize).1 ≠ 0) (elem2 : (kzalloc (kzalloc k vec.eSize).2 vec.eSize).1 ≠ 0) :
    (∃ sorted, HoldsBlocks (vectorReorderElems k vec reorderFunction).mem vec.memory vec.eSize sorted ∧
      StableSort reorderFunction elements sorted) ↔ Settled (exceedsBy reorderFunction) (2 ^ 31) elements := by
  refine ⟨fun ⟨_, holds', stable⟩ => settled_of_stableSort holds elem1 elem2 holds' stable, fun settled => ?_⟩
  have result := @vectorReorderElems_agrees k chains vec elements reorderFunction holds elem1 elem2
  rw [reorderOuter_settled (elements.length - 1) elements (by omega) settled] at result
  exact ⟨_, result, passes_stableSort order elements⟩

end Elements

/-! ### A vector of bytes that begins with its largest one -/

/-- A kernel whose heap has `2 ^ 20` free blocks. -/
def largeHeap : Kernel where
  mem := fun _ => 0x00#8
  heaps := fun _ =>
    { table := { entries := 0x1000, total := 2 ^ 20 }, saddr := 0x200000, eaddr := 0x200000 + 2 ^ 32, totalBlocks := 2 ^ 20,
      freeBlocks := 2 ^ 20, usedBlocks := 0, blockAllocatedCallback := false, blockFreeCallback := false }
  multiheap :=
    { startingHeap := .kernelMinimalHeap, heaps := [⟨.kernelMinimalHeap, none, multiheapHeapFlagExternallyOwned⟩],
      maxEndDataAddr := 0x200000 + 2 ^ 32, flags := multiheapFlagIsReady, totalHeaps := 1 }
  calls := []

theorem kernelHeap_largeHeap : KernelHeap largeHeap ∅ where
  list := ⟨_, rfl⟩
  top := by decide
  physical := by decide
  sound := ⟨by decide, by decide, by decide, by decide, by decide, by decide, by decide, by decide⟩
  decodes := .empty fun _ _ => rfl

/-- A one, and `n` zeros behind it. -/
def oneAndZeros (n : Nat) : List (List Byte) := [0x01#8] :: List.replicate n [0x00#8]

/-- They are stored at the pointer that `kmalloc` returns. -/
def oneAndZerosKernel (n : Nat) : Kernel :=
  { (kmalloc largeHeap (n + 1)).2 with
    mem := fun a =>
      if a = (kmalloc largeHeap (n + 1)).1 then 0x01#8
      else if (kmalloc largeHeap (n + 1)).1 < a ∧ a < (kmalloc largeHeap (n + 1)).1 + (n + 1) then 0x00#8
      else (kmalloc largeHeap (n + 1)).2.mem a }

def oneAndZerosVector (n : Nat) : Vector := ⟨(kmalloc largeHeap (n + 1)).1, 1, n + 1, n + 1, 0⟩

/-- The difference of the bytes. -/
def byteOrder (first second : List Byte) : Int := ((first.headD 0x00#8).toNat : Int) - (second.headD 0x00#8).toNat

theorem isOrder_byteOrder : IsOrder (exceedsBy byteOrder) where
  total := fun x y above => by
    unfold exceedsBy byteOrder at above ⊢
    rw [decide_eq_true_iff] at above
    rw [decide_eq_false_iff_not]
    omega
  trans := fun x y z first second => by
    unfold exceedsBy byteOrder at first second ⊢
    rw [decide_eq_false_iff_not] at first second ⊢
    omega

/-- The zeros have to move before the one. -/
theorem oneAndZeros_unsettled {n : Nat} (some : 0 < n) : ¬ Settled (exceedsBy byteOrder) n (oneAndZeros n) := by
  intro settled
  obtain ⟨n, rfl⟩ := Nat.exists_eq_add_of_le' (Nat.succ_le_of_lt some)
  have first : [0x01#8] ∈ (oneAndZeros (n + 1)).take (n + 1) := List.mem_cons_self
  have last : [0x00#8] ∈ (oneAndZeros (n + 1)).drop (n + 1) := by
    show [0x00#8] ∈ (List.replicate (n + 1) [0x00#8]).drop n
    rw [List.drop_replicate, Nat.add_sub_cancel_left]
    exact List.mem_singleton_self _
  exact absurd (settled.across _ first _ last) (by decide)

/-- Where they lie. -/
theorem holdsBlocks_oneAndZeros {mem : Memory} {base n : Nat} (first : mem base = 0x01#8)
    (behind : ∀ a, base < a → a < base + (n + 1) → mem a = 0x00#8) : HoldsBlocks mem base 1 (oneAndZeros n) where
  sizes := fun element isIn => by
    rcases List.mem_cons.mp isIn with rfl | isIn
    · rfl
    · rw [List.eq_of_mem_replicate isIn]
      rfl
  block := fun i inside => by
    rw [oneAndZeros, List.length_cons, List.length_replicate] at inside
    simp only [window, oneAndZeros, Nat.mul_one]
    cases i with
    | zero => exact congrArg (fun byte => [byte]) first
    | succ i =>
        rw [List.getElem_cons_succ, List.getElem_replicate, behind _ (by omega) (by omega)]

/-- The heap grants them a chain. -/
theorem largeHeap_grants {size : Nat} (some : 0 < size) (room : size ≤ 2 ^ 31 + 1) :
    ∃ start, Granted largeHeap ∅ ⟨start, heapBlocks size⟩ (kmalloc largeHeap size).1 (kmalloc largeHeap size).2 := by
  rcases kmalloc_cases kernelHeap_largeHeap size with failed | granted
  · exfalso
    have null : (heapMalloc largeHeap.minimalState size).1 = 0 := by
      rw [kmalloc_eq kernelHeap_largeHeap] at failed
      exact congrArg Prod.fst failed
    have blocks := heapBlocks_eq (show size ≤ 2 ^ 64 - 4096 by omega)
    rcases heapMalloc_cases kernelHeap_largeHeap.sound (s := largeHeap.minimalState) size with ⟨-, -, full⟩ | ⟨start, allocated⟩
    · refine full (by omega) 0 ⟨?_, fun _ _ => ?_⟩
      · show 0 + heapBlocks size ≤ 2 ^ 20
        omega
      · show typeFree 0x00#8
        decide
    · exact (allocated.pointer_pos kernelHeap_largeHeap.sound).ne' null
  · exact granted

/-- **It has room for them** and for the buffers. -/
theorem oneAndZeros_holdsIn {n : Nat} (room : n ≤ 2 ^ 31) :
    (∃ chains, (oneAndZerosVector n).HoldsIn (oneAndZerosKernel n) chains (oneAndZeros n)) ∧
      (kzalloc (oneAndZerosKernel n) 1).1 ≠ 0 ∧ (kzalloc (kzalloc (oneAndZerosKernel n) 1).2 1).1 ≠ 0 := by
  obtain ⟨start, granted⟩ := largeHeap_grants (Nat.succ_pos n) (Nat.succ_le_succ room)
  have blocks := heapBlocks_eq (show n + 1 ≤ 2 ^ 64 - 4096 by omega)
  have fits := le_heapBlocks_mul (show n + 1 < 2 ^ 64 by omega) granted.nonempty
  have interval := granted.interval (show n + 1 < 2 ^ 64 by omega)
  unfold oneAndZerosKernel oneAndZerosVector
  generalize kmalloc largeHeap (n + 1) = result at granted interval ⊢
  generalize chainEq : (⟨start, heapBlocks (n + 1)⟩ : Span) = chain at granted interval
  have live : chain ∈ insert chain (∅ : Set Span) := Set.mem_insert _ _
  have heap : KernelHeap { result.2 with mem := fun a => if a = result.1 then 0x01#8
      else if result.1 < a ∧ a < result.1 + (n + 1) then 0x00#8 else result.2.mem a } (insert chain ∅) :=
    granted.heap.withMem live fun a outside => by
      rw [granted.same.bytes] at outside
      have apart := outside_interval fun inside => outside (interval inside)
      rw [if_neg (by omega), if_neg (by omega)]
  have spares : SpareBlocks { result.2 with mem := fun a => if a = result.1 then 0x01#8
      else if result.1 < a ∧ a < result.1 + (n + 1) then 0x00#8 else result.2.mem a } (insert chain ∅) (0 + 1 + 1) := by
    refine ⟨Finset.Ico start (start + heapBlocks (n + 1)), ?_, fun other isIn block inside => ?_⟩
    · show _ ≤ result.2.minimal.table.total
      rw [granted.same.geometry.table, Nat.card_Ico]
      show _ ≤ 2 ^ 20
      omega
    · obtain rfl : other = chain := isIn.resolve_right (Set.notMem_empty _)
      rw [← chainEq] at inside
      exact Finset.mem_Ico.mpr inside
  refine ⟨⟨_, heap, ?_, ?_, ⟨chain, live, ?_, ?_⟩, ?_⟩, ?_⟩
  · show n + 1 = _
    rw [oneAndZeros, List.length_cons, List.length_replicate]
  · exact holdsBlocks_oneAndZeros (if_pos rfl) fun a low high => by
      show (if a = result.1 then _ else _) = _
      rw [if_neg low.ne', if_pos ⟨low, high⟩]
  · exact granted.pointer.trans granted.same.address.symm
  · rw [← chainEq]
    show (n + 1) * 1 ≤ _
    rwa [Nat.mul_one]
  · show 1 < 2 ^ 31
    norm_num
  · have one : heapBlocks 1 = 1 := by decide
    obtain ⟨start1, granted1, -, spares1⟩ := kzalloc_spare (0 + 1) heap spares (show 1 < 2 ^ 64 by norm_num) one
    obtain ⟨start2, granted2, -, -⟩ := kzalloc_spare 0 granted1.heap spares1 (show 1 < 2 ^ 64 by norm_num) one
    refine ⟨?_, ?_⟩
    · rw [granted1.pointer]
      exact (heap.address_pos _).ne'
    · rw [granted2.pointer]
      exact (granted1.heap.address_pos _).ne'

/-- **A one before `2 ^ 31` zeros stays there**, and the zero at the end too. -/
theorem vectorReorder_leavesLast : ¬ ∀ k chains vec elements reorderFunction, Vector.HoldsIn k chains vec elements →
    IsOrder (exceedsBy reorderFunction) → (kzalloc k vec.eSize).1 ≠ 0 → (kzalloc (kzalloc k vec.eSize).2 vec.eSize).1 ≠ 0 →
    ∃ sorted, HoldsBlocks (vectorReorderElems k vec reorderFunction).mem vec.memory vec.eSize sorted ∧
      StableSort reorderFunction elements sorted := by
  intro always
  obtain ⟨⟨chains, holds⟩, elem1, elem2⟩ := oneAndZeros_holdsIn (le_refl (2 ^ 31))
  obtain ⟨sorted, holds', stable⟩ := always _ _ _ _ _ holds isOrder_byteOrder elem1 elem2
  exact oneAndZeros_unsettled (by norm_num) (settled_of_stableSort holds elem1 elem2 holds' stable)

/-- Of a one and a zero, both move. -/
theorem vectorReorder_iff_oneAndZero : ∃ sorted, HoldsBlocks (vectorReorderElems (oneAndZerosKernel 1) (oneAndZerosVector 1)
    byteOrder).mem (oneAndZerosVector 1).memory 1 sorted ∧ StableSort byteOrder [[0x01#8], [0x00#8]] sorted := by
  obtain ⟨⟨chains, holds⟩, elem1, elem2⟩ := @oneAndZeros_holdsIn 1 (by norm_num)
  refine (vectorReorder_iff holds isOrder_byteOrder elem1 elem2).mpr ⟨fun _ _ y isLater => ?_, ?_⟩
  · rw [List.drop_of_length_le (by rw [oneAndZeros, List.length_cons, List.length_replicate]; norm_num)] at isLater
    exact absurd isLater List.not_mem_nil
  · rw [List.drop_of_length_le (by rw [oneAndZeros, List.length_cons, List.length_replicate]; norm_num)]
    exact List.Pairwise.nil

end PeachOS
