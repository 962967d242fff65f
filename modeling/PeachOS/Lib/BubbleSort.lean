/-
**Bubble sort, with the comparisons of its two loops.**

A pass compares neighbours from the front and swaps those that are out of order; each pass makes one comparison fewer
than the one before. The order is given by a test of two elements.

* `passes_sorted` — the passes sort;
* `passes_keeps`, `passes_filter` — they are stable;
* `pass_settled` — an end that no earlier element exceeds is left alone;
* `passes_raised` — an element that was raised above all others moves to the end, and the others keep their order.
-/

import Mathlib.Data.List.Basic

namespace BubbleSort

variable {α : Type}

/-- So many comparisons from the front. Two neighbours are swapped when the first one exceeds the second one. -/
def pass (exceeds : α → α → Bool) : Nat → List α → List α
  | n + 1, x :: y :: rest =>
      if exceeds x y then y :: pass exceeds n (x :: rest) else x :: pass exceeds n (y :: rest)
  | _, xs => xs

/-- A pass of so many comparisons, then passes of one comparison fewer each. -/
def passes (exceeds : α → α → Bool) : Nat → List α → List α
  | 0, xs => xs
  | n + 1, xs => passes exceeds n (pass exceeds (n + 1) xs)

/-- No element exceeds a later one. -/
def Sorted (exceeds : α → α → Bool) (xs : List α) : Prop := xs.Pairwise fun x y => exceeds x y = false

/-- The test is the one of an order: not exceeding is total and transitive. -/
structure IsOrder (exceeds : α → α → Bool) : Prop where
  total : ∀ x y, exceeds x y = true → exceeds y x = false
  trans : ∀ x y z, exceeds x y = false → exceeds y z = false → exceeds x z = false

variable {exceeds : α → α → Bool}

theorem IsOrder.refl (order : IsOrder exceeds) (x : α) : exceeds x x = false := by
  cases same : exceeds x x with
  | false => rfl
  | true => exact same ▸ order.total x x same

/-! ### The elements -/

theorem pass_perm (n : Nat) (xs : List α) : (pass exceeds n xs).Perm xs := by
  induction n, xs using pass.induct exceeds with
  | case1 n x y rest above ih =>
      rw [pass, if_pos above]
      exact (ih.cons y).trans (List.Perm.swap x y rest)
  | case2 n x y rest notAbove ih =>
      rw [pass, if_neg notAbove]
      exact ih.cons x
  | case3 n xs short => rw [pass.eq_2 exceeds n xs short]

theorem passes_perm (n : Nat) (xs : List α) : (passes exceeds n xs).Perm xs := by
  induction n generalizing xs with
  | zero => exact List.Perm.refl xs
  | succ n ih => exact (ih _).trans (pass_perm (n + 1) xs)

/-- What a pass does not reach. -/
theorem pass_append (n : Nat) (front back : List α) (reach : n < front.length) :
    pass exceeds n (front ++ back) = pass exceeds n front ++ back := by
  induction n generalizing front with
  | zero => rw [pass.eq_2 _ _ _ (by simp), pass.eq_2 _ _ _ (by simp)]
  | succ n ih =>
      match front, reach with
      | [x], reach => exact absurd reach (by simp)
      | x :: y :: rest, reach =>
          have shorter : n < rest.length + 1 := Nat.lt_of_succ_lt_succ reach
          change pass exceeds (n + 1) (x :: y :: (rest ++ back)) = _
          rw [pass, pass]
          split
          · exact congrArg (y :: ·) (ih (x :: rest) shorter)
          · exact congrArg (x :: ·) (ih (y :: rest) shorter)

/-! ### Sorting -/

/-- A pass moves an element that is exceeded by none to the end. -/
theorem pass_last (order : IsOrder exceeds) (n : Nat) (front : List α) (length : front.length = n + 1) :
    ∃ rest last, pass exceeds n front = rest ++ [last] ∧ rest.length = n ∧
      ∀ x ∈ front, exceeds x last = false := by
  induction n generalizing front with
  | zero =>
      obtain ⟨x, rfl⟩ := List.length_eq_one_iff.mp length
      refine ⟨[], x, rfl, rfl, fun y isIn => ?_⟩
      rw [List.mem_singleton.mp isIn]
      exact order.refl x
  | succ n ih =>
      match front, length with
      | x :: y :: rest, length =>
          have shorter : rest.length + 1 = n + 1 := Nat.succ.inj length
          rw [pass]
          split
          · next above =>
              obtain ⟨kept, last, same, count, exceeded⟩ := ih (x :: rest) shorter
              refine ⟨y :: kept, last, by rw [same]; rfl, by rw [List.length_cons, count], fun z isIn => ?_⟩
              have first := exceeded x List.mem_cons_self
              rcases List.mem_cons.mp isIn with rfl | isIn
              · exact first
              · rcases List.mem_cons.mp isIn with rfl | isIn
                · exact order.trans _ _ _ (order.total _ _ above) first
                · exact exceeded z (List.mem_cons_of_mem _ isIn)
          · next notAbove =>
              obtain ⟨kept, last, same, count, exceeded⟩ := ih (y :: rest) shorter
              refine ⟨x :: kept, last, by rw [same]; rfl, by rw [List.length_cons, count], fun z isIn => ?_⟩
              have second := exceeded y List.mem_cons_self
              rcases List.mem_cons.mp isIn with rfl | isIn
              · exact order.trans _ _ _ (Bool.eq_false_iff.mpr notAbove) second
              · exact exceeded z isIn

/-- The passes sort what is in front of a sorted end that nothing in front exceeds. -/
theorem passes_sorted_append (order : IsOrder exceeds) (n : Nat) (front back : List α) (length : front.length = n + 1)
    (sorted : Sorted exceeds back) (below : ∀ x ∈ front, ∀ y ∈ back, exceeds x y = false) :
    Sorted exceeds (passes exceeds n (front ++ back)) := by
  induction n generalizing front back with
  | zero =>
      obtain ⟨x, rfl⟩ := List.length_eq_one_iff.mp length
      exact List.pairwise_cons.mpr ⟨below x List.mem_cons_self, sorted⟩
  | succ n ih =>
      obtain ⟨rest, last, same, count, exceeded⟩ := pass_last order (n + 1) front length
      have elements : ∀ x, x ∈ rest ∨ x = last → x ∈ front := by
        intro x isIn
        refine (pass_perm (n + 1) front).subset (same ▸ List.mem_append.mpr ?_)
        exact isIn.imp_right List.mem_singleton.mpr
      rw [passes, pass_append (n + 1) front back (by omega), same, List.append_assoc]
      refine ih rest ([last] ++ back) count ?_ fun x isIn y above => ?_
      · exact List.pairwise_cons.mpr ⟨below last (elements last (.inr rfl)), sorted⟩
      · rcases List.mem_cons.mp above with rfl | above
        · exact exceeded x (elements x (.inl isIn))
        · exact below x (elements x (.inl isIn)) y above

/-- **The passes sort.** -/
theorem passes_sorted (order : IsOrder exceeds) (xs : List α) :
    Sorted exceeds (passes exceeds (xs.length - 1) xs) := by
  cases xs with
  | nil => exact List.Pairwise.nil
  | cons x rest =>
      have sorted := passes_sorted_append order rest.length (x :: rest) [] rfl List.Pairwise.nil
        fun _ _ _ none => absurd none List.not_mem_nil
      rwa [List.append_nil] at sorted

/-! ### Sorted lists, and one element that was raised -/

theorem pass_of_sorted (n : Nat) (xs : List α) (sorted : Sorted exceeds xs) : pass exceeds n xs = xs := by
  induction n, xs using pass.induct exceeds with
  | case1 n x y rest above ih =>
      exact absurd ((List.pairwise_cons.mp sorted).1 y List.mem_cons_self) (by rw [above]; exact Bool.noConfusion)
  | case2 n x y rest notAbove ih => rw [pass, if_neg notAbove, ih (List.pairwise_cons.mp sorted).2]
  | case3 n xs short => rw [pass.eq_2 exceeds n xs short]

theorem passes_of_sorted (n : Nat) (xs : List α) (sorted : Sorted exceeds xs) : passes exceeds n xs = xs := by
  induction n with
  | zero => rfl
  | succ n ih => rw [passes, pass_of_sorted (n + 1) xs sorted, ih]

/-- A pass moves an element over those that it exceeds. -/
theorem pass_over (raised : α) (above : List α) (exceeded : ∀ x ∈ above, exceeds raised x = true) :
    pass exceeds above.length (raised :: above) = above ++ [raised] := by
  induction above with
  | nil => rfl
  | cons x rest ih =>
      rw [List.length_cons, pass, if_pos (exceeded x List.mem_cons_self),
        ih fun y isIn => exceeded y (List.mem_cons_of_mem x isIn)]
      rfl

/-- A pass leaves a sorted front, and then moves an element over those that it exceeds. -/
theorem pass_raised (before : List α) (raised : α) (above : List α) (sorted : Sorted exceeds (before ++ [raised]))
    (exceeded : ∀ x ∈ above, exceeds raised x = true) :
    pass exceeds (before.length + above.length) (before ++ raised :: above) = before ++ (above ++ [raised]) := by
  induction before with
  | nil => rw [List.length_nil, Nat.zero_add]; exact pass_over raised above exceeded
  | cons x rest ih =>
      have moved := ih (List.pairwise_cons.mp sorted).2
      have first := (List.pairwise_cons.mp sorted).1
      rw [List.length_cons, Nat.add_right_comm]
      cases rest with
      | nil =>
          rw [List.nil_append] at moved
          rw [List.singleton_append, pass, if_neg (by rw [first raised List.mem_cons_self]; exact Bool.noConfusion),
            moved]
          rfl
      | cons y rest =>
          rw [List.cons_append, List.cons_append, pass,
            if_neg (by rw [first y List.mem_cons_self]; exact Bool.noConfusion)]
          rw [List.cons_append] at moved
          rw [moved]
          rfl

/-- **An element that exceeds all others moves to the end**, and the others, which are sorted, keep their order. -/
theorem passes_raised (order : IsOrder exceeds) (before : List α) (raised : α) (above : List α)
    (sorted : Sorted exceeds (before ++ above)) (below : ∀ x ∈ before, exceeds raised x = true)
    (exceeded : ∀ x ∈ above, exceeds raised x = true) :
    passes exceeds (before.length + above.length) (before ++ raised :: above) = before ++ (above ++ [raised]) := by
  obtain ⟨sortedBefore, sortedAbove, across⟩ := List.pairwise_append.mp sorted
  have front : Sorted exceeds (before ++ [raised]) := by
    refine List.pairwise_append.mpr ⟨sortedBefore, List.pairwise_singleton _ _, fun x isIn y same => ?_⟩
    rw [List.mem_singleton.mp same]
    exact order.total _ _ (below x isIn)
  have whole : Sorted exceeds (before ++ (above ++ [raised])) := by
    rw [← List.append_assoc]
    refine List.pairwise_append.mpr ⟨sorted, List.pairwise_singleton _ _, fun x isIn y same => ?_⟩
    rw [List.mem_singleton.mp same]
    exact order.total _ _ ((List.mem_append.mp isIn).elim (below x) (exceeded x))
  have moved := pass_raised before raised above front exceeded
  cases count : before.length + above.length with
  | zero =>
      obtain ⟨none, empty⟩ := Nat.add_eq_zero_iff.mp count
      rw [List.length_eq_zero_iff.mp none, List.length_eq_zero_iff.mp empty]
      rfl
  | succ n =>
      rw [count] at moved
      rw [passes, moved, passes_of_sorted n _ whole]

/-! ### The order of two elements -/

/-- A pass keeps the order of two elements of which the first one does not exceed the second one. -/
theorem pass_keeps {x y : α} (below : exceeds x y = false) (n : Nat) (xs : List α) (before : [x, y].Sublist xs) :
    [x, y].Sublist (pass exceeds n xs) := by
  induction n, xs using pass.induct exceeds with
  | case1 n u v rest above ih =>
      rw [pass, if_pos above]
      rcases List.cons_sublist_cons'.mp before with later | ⟨rfl, isIn⟩
      · rcases List.cons_sublist_cons'.mp later with later | ⟨rfl, isIn⟩
        · exact (ih (later.cons u)).cons v
        · have isIn : y ∈ pass exceeds n (u :: rest) :=
            (pass_perm n (u :: rest)).symm.subset (List.mem_cons_of_mem u (List.singleton_sublist.mp isIn))
          exact (List.singleton_sublist.mpr isIn).cons_cons x
      · rcases List.mem_cons.mp (List.singleton_sublist.mp isIn) with rfl | isIn
        · rw [below] at above
          exact Bool.noConfusion above
        · exact (ih ((List.singleton_sublist.mpr isIn).cons_cons x)).cons v
  | case2 n u v rest notAbove ih =>
      rw [pass, if_neg notAbove]
      rcases List.cons_sublist_cons'.mp before with later | ⟨rfl, isIn⟩
      · exact (ih later).cons u
      · have isIn : y ∈ pass exceeds n (v :: rest) :=
          (pass_perm n (v :: rest)).symm.subset (List.singleton_sublist.mp isIn)
        exact (List.singleton_sublist.mpr isIn).cons_cons x
  | case3 n xs short => rwa [pass.eq_2 exceeds n xs short]

/-- **The passes are stable.** -/
theorem passes_keeps {x y : α} (below : exceeds x y = false) (n : Nat) (xs : List α) (before : [x, y].Sublist xs) :
    [x, y].Sublist (passes exceeds n xs) := by
  induction n generalizing xs with
  | zero => exact before
  | succ n ih => exact ih _ (pass_keeps below (n + 1) xs before)

/-- A pass leaves a part of the elements in order, when none of these exceeds another. -/
theorem pass_filter {part : α → Bool} (level : ∀ x y, exceeds x y = true → part x = true → part y = false) (n : Nat)
    (xs : List α) : (pass exceeds n xs).filter part = xs.filter part := by
  induction n, xs using pass.induct exceeds with
  | case1 n x y rest above ih =>
      rw [pass, if_pos above]
      cases inPart : part x with
      | true =>
          have other := level x y above inPart
          rw [List.filter_cons_of_neg (by simp [other]), ih, List.filter_cons_of_pos inPart, List.filter_cons_of_pos inPart,
            List.filter_cons_of_neg (by simp [other])]
      | false =>
          have skipped : ¬ part x = true := by simp [inPart]
          rw [List.filter_cons_of_neg skipped, List.filter_cons, List.filter_cons, ih, List.filter_cons_of_neg skipped]
  | case2 n x y rest notAbove ih =>
      rw [pass, if_neg notAbove, List.filter_cons, ih, @List.filter_cons _ x]
  | case3 n xs short => rw [pass.eq_2 exceeds n xs short]

theorem passes_filter {part : α → Bool} (level : ∀ x y, exceeds x y = true → part x = true → part y = false) (n : Nat)
    (xs : List α) : (passes exceeds n xs).filter part = xs.filter part := by
  induction n generalizing xs with
  | zero => rfl
  | succ n ih => rw [passes, ih, pass_filter level]

/-! ### A settled end -/

/-- **No earlier element exceeds one from the index `limit` on.** -/
structure Settled (exceeds : α → α → Bool) (limit : Nat) (xs : List α) : Prop where
  across : ∀ x ∈ xs.take limit, ∀ y ∈ xs.drop limit, exceeds x y = false
  sorted : Sorted exceeds (xs.drop limit)

namespace Settled

variable {limit : Nat} {x y : α} {rest xs : List α}

/-- The end of a sorted list is settled. -/
theorem of_sorted (sorted : Sorted exceeds xs) (limit : Nat) : Settled exceeds limit xs := by
  rw [← List.take_append_drop limit xs] at sorted
  obtain ⟨-, sortedEnd, across⟩ := List.pairwise_append.mp sorted
  exact ⟨across, sortedEnd⟩

/-- Neighbours at the end are in order. -/
theorem neighbours (settled : Settled exceeds limit (x :: y :: rest)) (low : limit ≤ 1) : exceeds x y = false := by
  match limit, low with
  | 0, _ => exact (List.pairwise_cons.mp settled.sorted).1 y List.mem_cons_self
  | 1, _ => exact settled.across x List.mem_cons_self y List.mem_cons_self

theorem tail (settled : Settled exceeds limit (x :: rest)) : Settled exceeds (limit - 1) rest := by
  cases limit with
  | zero =>
      refine ⟨fun z isIn => absurd isIn List.not_mem_nil, ?_⟩
      exact (List.pairwise_cons.mp settled.sorted).2
  | succ limit => exact ⟨fun z isIn => settled.across z (List.mem_cons_of_mem x isIn), settled.sorted⟩

/-- Without the second element, which is not at the end. -/
theorem skip (settled : Settled exceeds limit (x :: y :: rest)) (high : 1 < limit) :
    Settled exceeds (limit - 1) (x :: rest) := by
  obtain ⟨limit, rfl⟩ := Nat.exists_eq_add_of_le' (Nat.succ_le_of_lt high)
  refine ⟨fun z isIn => settled.across z ?_, settled.sorted⟩
  rcases List.mem_cons.mp isIn with rfl | isIn
  · exact List.mem_cons_self
  · exact List.mem_cons_of_mem x (List.mem_cons_of_mem y isIn)

end Settled

/-- **A pass leaves a settled end alone.** -/
theorem pass_settled (n : Nat) (xs : List α) : ∀ {limit : Nat}, Settled exceeds limit xs →
    (pass exceeds n xs).drop limit = xs.drop limit := by
  induction n, xs using pass.induct exceeds with
  | case1 n x y rest above ih =>
      intro limit settled
      have high : 1 < limit := by
        by_contra low
        rw [settled.neighbours (Nat.le_of_not_lt low)] at above
        exact Bool.noConfusion above
      have kept := ih (settled.skip high)
      obtain ⟨limit, rfl⟩ := Nat.exists_eq_add_of_le' (Nat.succ_le_of_lt high)
      rw [pass, if_pos above]
      exact kept
  | case2 n x y rest notAbove ih =>
      intro limit settled
      have kept := ih settled.tail
      rw [pass, if_neg notAbove]
      cases limit with
      | zero => exact congrArg (x :: ·) kept
      | succ limit => exact kept
  | case3 n xs short =>
      intro limit _
      rw [pass.eq_2 exceeds n xs short]

/-- Settled is what a permutation of the front leaves so. -/
theorem Settled.of_perm {limit : Nat} {xs ys : List α} (settled : Settled exceeds limit xs) (perm : ys.Perm xs)
    (kept : ys.drop limit = xs.drop limit) : Settled exceeds limit ys := by
  have front : (ys.take limit).Perm (xs.take limit) := by
    rw [← List.take_append_drop limit ys, ← List.take_append_drop limit xs, kept] at perm
    exact (List.perm_append_right_iff _).mp perm
  refine ⟨fun x isIn y isLater => ?_, ?_⟩
  · rw [kept] at isLater
    exact settled.across x (front.subset isIn) y isLater
  · rw [kept]
    exact settled.sorted

/-- What is settled stays so. -/
theorem Settled.pass {limit : Nat} {xs : List α} (settled : Settled exceeds limit xs) (n : Nat) :
    Settled exceeds limit (pass exceeds n xs) :=
  settled.of_perm (pass_perm n xs) (pass_settled n xs settled)

/-! ### Sorted lists -/

/-- In a sorted list an element comes before one that exceeds it. -/
theorem Sorted.before (order : IsOrder exceeds) {xs : List α} (sorted : Sorted exceeds xs) {x y : α} (isIn : x ∈ xs)
    (isIn' : y ∈ xs) (above : exceeds y x = true) : [x, y].Sublist xs := by
  obtain ⟨front, back, rfl⟩ := List.append_of_mem isIn
  have across := (List.pairwise_append.mp sorted).2.2
  rcases List.mem_append.mp isIn' with inFront | inBack
  · have notAbove := across y inFront x List.mem_cons_self
    rw [above] at notAbove
    exact Bool.noConfusion notAbove
  · rcases List.mem_cons.mp inBack with rfl | inBack
    · rw [order.refl] at above
      exact Bool.noConfusion above
    · exact ((List.singleton_sublist.mpr inBack).cons_cons x).trans (List.sublist_append_right _ _)

/-- In a sorted list an element exceeds none that comes later. -/
theorem Sorted.of_before {xs : List α} (sorted : Sorted exceeds xs) {x y : α} (before : [x, y].Sublist xs) :
    exceeds x y = false :=
  (List.pairwise_cons.mp (List.Pairwise.sublist before sorted)).1 y List.mem_cons_self

end BubbleSort
