/-
**Depth-first walks that do not remember where they have been.**

The nodes of a network have items, and an item may lead to a node. The walk goes through the items of a node in their order,
records each, and goes into the node that the item leads to before it goes on.

* `visit_count` — an item is recorded once for each recorded item that leads to its node;
* `Trail.nodup` — with one way to each node the nodes of a trail are different, and so the walk ends (`visit_returns`);
* `visitsOnce_iff` — **the walk ends and records each item that can be reached once, exactly when no two of them lead to the
  same node with items**.
-/

import Mathlib.Data.Fintype.EquivFin
import Mathlib.Data.List.Nodup

/-- Nodes, the items of each in their order, and where the items lead to. No item leads to the root. -/
structure Network (β ι : Type) where
  root : β
  items : β → List ι
  next : ι → Option β
  items_nodup : ∀ b, (items b).Nodup
  node_unique : ∀ {b b' i}, i ∈ items b → i ∈ items b' → b = b'
  root_unled : ∀ i, next i ≠ some root

namespace Network

variable {β ι : Type} (N : Network β ι)

/-! ### The walk -/

/-- An item is recorded, and the walk goes on into its node. -/
def enter (visitNext : β → List ι → Option (List ι)) (found : List ι) (i : ι) : Option (List ι) :=
  match N.next i with
  | none => some (found ++ [i])
  | some m => visitNext m (found ++ [i])

/-- The walk from a node, with what was recorded before; `none` where it goes deeper than a depth. -/
def visit : Nat → β → List ι → Option (List ι)
  | 0, _, _ => none
  | depth + 1, b, found => (N.items b).foldlM (N.enter (visit depth)) found

/-- A node that can be reached. -/
inductive Reaches : β → Prop
  | root : Reaches N.root
  | step {b i n} : Reaches b → i ∈ N.items b → N.next i = some n → Reaches n

/-- An item that can be reached. -/
def Found (i : ι) : Prop := ∃ b, N.Reaches b ∧ i ∈ N.items b

/-- **The walk ends, and has recorded every item that can be reached, once.** -/
def VisitsOnce : Prop := ∃ depth found, N.visit depth N.root [] = some found ∧ found.Nodup ∧ ∀ i, i ∈ found ↔ N.Found i

/-- **No two items that can be reached lead to one node with items.** -/
def LedOnce : Prop := ∀ i j n, N.Found i → N.Found j → N.next i = some n → N.next j = some n → N.items n ≠ [] → i = j

variable {N}

theorem enter_none {visitNext : β → List ι → Option (List ι)} {i : ι} (nowhere : N.next i = none) (found : List ι) :
    N.enter visitNext found i = some (found ++ [i]) := by
  unfold enter
  rw [nowhere]

theorem enter_some {visitNext : β → List ι → Option (List ι)} {i : ι} {n : β} (leadsTo : N.next i = some n) (found : List ι) :
    N.enter visitNext found i = visitNext n (found ++ [i]) := by
  unfold enter
  rw [leadsTo]

/-! ### What is recorded -/

/-- All that is recorded can be reached. -/
theorem visit_sound {depth : Nat} {b : β} {found after : List ι} (reaches : N.Reaches b)
    (visited : N.visit depth b found = some after) : ∀ i ∈ after, i ∈ found ∨ N.Found i := by
  induction depth generalizing b found after with
  | zero => exact absurd visited (by simp [visit])
  | succ depth ih =>
      have rest : ∀ (items : List ι) (found : List ι), (∀ i ∈ items, i ∈ N.items b) →
          items.foldlM (N.enter (N.visit depth)) found = some after → ∀ i ∈ after, i ∈ found ∨ N.Found i := by
        intro items
        induction items with
        | nil =>
            intro found own folded i isIn
            obtain rfl : found = after := Option.some_injective _ folded
            exact Or.inl isIn
        | cons item items inner =>
            intro found own folded i isIn
            rw [List.foldlM_cons] at folded
            obtain ⟨mid, entered, folded⟩ := Option.bind_eq_some_iff.mp folded
            have isFound : N.Found item := ⟨b, reaches, own item List.mem_cons_self⟩
            have recorded : i ∈ found ++ [item] → i ∈ found ∨ N.Found i := by
              intro isIn
              rcases List.mem_append.mp isIn with isIn | isIn
              · exact Or.inl isIn
              · rw [List.mem_singleton.mp isIn]
                exact Or.inr isFound
            rcases inner mid (fun i isIn => own i (List.mem_cons_of_mem _ isIn)) folded i isIn with isIn | isFound
            · cases isNext : N.next item with
              | none =>
                  rw [enter_none isNext] at entered
                  obtain rfl : found ++ [item] = mid := Option.some_injective _ entered
                  exact recorded isIn
              | some n =>
                  rw [enter_some isNext] at entered
                  rcases ih (reaches.step (own item List.mem_cons_self) isNext) entered i isIn with isIn | isFound
                  · exact recorded isIn
                  · exact Or.inr isFound
            · exact Or.inr isFound
      exact rest (N.items b) found (fun i isIn => isIn) visited

section Count

variable [DecidableEq β] [DecidableEq ι]

/-- The item leads to a node. -/
def leads (N : Network β ι) (n : β) (i : ι) : Bool := N.next i = some n

/-- A node's items are its own, each once. -/
theorem count_items {n : β} {x : ι} (isAt : x ∈ N.items n) (b : β) : (N.items b).count x = if b = n then 1 else 0 := by
  split
  · next same => exact same ▸ List.count_eq_one_of_mem (N.items_nodup n) isAt
  · next different => exact List.count_eq_zero.mpr fun isIn => different (N.node_unique isIn isAt)

/-- **An item is recorded once for each recorded item that leads to its node**, and once more by a walk from there. -/
theorem visit_count {depth : Nat} {b : β} {found after : List ι} (visited : N.visit depth b found = some after) {n : β} {x : ι}
    (isAt : x ∈ N.items n) :
    after.count x + found.countP (N.leads n) = found.count x + after.countP (N.leads n) + if b = n then 1 else 0 := by
  induction depth generalizing b found after with
  | zero => exact absurd visited (by simp [visit])
  | succ depth ih =>
      -- Entering an item adds the item, and as many of `x` as of items that lead to it.
      have one : ∀ (item : ι) (found after : List ι), N.enter (N.visit depth) found item = some after →
          after.count x + found.countP (N.leads n) = found.count x + after.countP (N.leads n) + [item].count x := by
        intro item found after entered
        cases isNext : N.next item with
        | none =>
            rw [enter_none isNext] at entered
            obtain rfl : found ++ [item] = after := Option.some_injective _ entered
            have nowhere : [item].countP (N.leads n) = 0 := by simp [leads, isNext]
            rw [List.count_append, List.countP_append, nowhere]
            omega
        | some m =>
            rw [enter_some isNext] at entered
            have inner := ih entered
            have there : [item].countP (N.leads n) = if m = n then 1 else 0 := by
              by_cases same : m = n
              · simp [leads, isNext, same]
              · simp [leads, isNext, same]
            rw [List.count_append, List.countP_append, there] at inner
            omega
      have rest : ∀ (items found : List ι), items.foldlM (N.enter (N.visit depth)) found = some after →
          after.count x + found.countP (N.leads n) = found.count x + after.countP (N.leads n) + items.count x := by
        intro items
        induction items with
        | nil =>
            intro found folded
            obtain rfl : found = after := Option.some_injective _ folded
            rfl
        | cons item items inner =>
            intro found folded
            rw [List.foldlM_cons] at folded
            obtain ⟨mid, entered, folded⟩ := Option.bind_eq_some_iff.mp folded
            have first := one item found mid entered
            have later := inner mid folded
            rw [← List.singleton_append, List.count_append]
            omega
      rw [← count_items isAt b]
      exact rest (N.items b) found visited

/-- The same for the whole walk. -/
theorem visit_count_root {depth : Nat} {after : List ι} (visited : N.visit depth N.root [] = some after) {n : β} {x : ι}
    (isAt : x ∈ N.items n) : after.count x = after.countP (N.leads n) + if N.root = n then 1 else 0 := by
  have counts := visit_count visited isAt
  rw [List.count_nil, List.countP_nil] at counts
  omega

/-- **With one way to each node, what can be reached is recorded once**, by induction on the way. -/
theorem LedOnce.count (once : N.LedOnce) {depth : Nat} {after : List ι} (visited : N.visit depth N.root [] = some after) {n : β}
    (reaches : N.Reaches n) {x : ι} (isAt : x ∈ N.items n) : after.count x = 1 := by
  have sound : ∀ i ∈ after, N.Found i := fun i isIn =>
    (visit_sound Reaches.root visited i isIn).resolve_left List.not_mem_nil
  induction reaches generalizing x with
  | root =>
      have unled : after.countP (N.leads N.root) = 0 :=
        List.countP_eq_zero.mpr fun i isIn => by simpa [leads] using N.root_unled i
      rw [visit_count_root visited isAt, unled, if_pos rfl]
  | @step b i n reaches isIn leadsTo ih =>
      have notRoot : N.root ≠ n := fun same => N.root_unled i (same ▸ leadsTo)
      have only : after.countP (N.leads n) = after.count i := by
        refine List.countP_congr fun j isFound => ?_
        rw [leads, decide_eq_true_iff, beq_iff_eq]
        constructor
        · exact fun other => once j i n (sound j isFound) ⟨b, reaches, isIn⟩ other leadsTo (List.ne_nil_of_mem isAt)
        · exact fun same => same ▸ leadsTo
      rw [visit_count_root visited isAt, only, ih isIn, if_neg notRoot]

end Count

/-! ### The end of the walk -/

/-- The nodes that the walk is in, the last one first. -/
inductive Trail (N : Network β ι) : List β → Prop
  | root : Trail N [N.root]
  | step {b t i n} : Trail N (b :: t) → i ∈ N.items b → N.next i = some n → Trail N (n :: b :: t)

/-- All of them can be reached. -/
theorem Trail.reaches {t : List β} (trail : N.Trail t) : ∀ b ∈ t, N.Reaches b := by
  induction trail with
  | root =>
      intro b isIn
      rw [List.mem_singleton.mp isIn]
      exact Reaches.root
  | step before isIn leadsTo ih =>
      intro b isAt
      rcases List.mem_cons.mp isAt with rfl | isAt
      · exact (ih _ List.mem_cons_self).step isIn leadsTo
      · exact ih b isAt

/-- A node of a trail is the root, or an item of a node before it leads to it. -/
theorem Trail.origin {t : List β} (trail : N.Trail t) {n : β} (isIn : n ∈ t) :
    n = N.root ∨ ∃ b ∈ t.tail, ∃ i ∈ N.items b, N.next i = some n := by
  induction trail with
  | root => exact Or.inl (List.mem_singleton.mp isIn)
  | @step b t i m before isItem leadsTo ih =>
      rcases List.mem_cons.mp isIn with rfl | isIn
      · exact Or.inr ⟨b, List.mem_cons_self, i, isItem, leadsTo⟩
      · rcases ih isIn with isRoot | ⟨b', isBefore, led⟩
        · exact Or.inl isRoot
        · exact Or.inr ⟨b', List.mem_cons_of_mem _ isBefore, led⟩

/-- The nodes before the last one have items. -/
theorem Trail.items_ne_nil {t : List β} (trail : N.Trail t) {n : β} (isIn : n ∈ t.tail) : N.items n ≠ [] := by
  induction trail with
  | root => exact absurd isIn List.not_mem_nil
  | @step b t i m before isItem leadsTo ih =>
      rcases List.mem_cons.mp isIn with rfl | isIn
      · exact List.ne_nil_of_mem isItem
      · exact ih isIn

/-- **With one way to each node the nodes of a trail are different.** -/
theorem Trail.nodup (once : N.LedOnce) {t : List β} (trail : N.Trail t) : t.Nodup := by
  induction trail with
  | root => exact List.nodup_singleton _
  | @step b t i n before isItem leadsTo ih =>
      refine List.nodup_cons.mpr ⟨fun again => ?_, ih⟩
      have hasItems : N.items n ≠ [] := (before.step isItem leadsTo).items_ne_nil again
      rcases before.origin again with isRoot | ⟨b', isBefore, j, isItem', leadsTo'⟩
      · exact N.root_unled i (isRoot ▸ leadsTo)
      · -- The item that led to the node the first time is this one, and its node is the last of the trail.
        have reaches := before.reaches b List.mem_cons_self
        have reaches' := before.reaches b' (List.mem_of_mem_tail isBefore)
        have same : i = j := once i j n ⟨b, reaches, isItem⟩ ⟨b', reaches', isItem'⟩ leadsTo leadsTo' hasItems
        have here : b' = b := N.node_unique isItem' (same ▸ isItem)
        exact (List.nodup_cons.mp ih).1 (here ▸ isBefore)

/-- **The walk ends**: a trail is not longer than there are nodes. -/
theorem visit_returns [Fintype β] (once : N.LedOnce) (depth : Nat) {b : β} {t : List β} (trail : N.Trail (b :: t))
    (deep : Fintype.card β < depth + (b :: t).length) (found : List ι) : ∃ after, N.visit depth b found = some after := by
  induction depth generalizing b t found with
  | zero =>
      have short := (trail.nodup once).length_le_card
      omega
  | succ depth ih =>
      have rest : ∀ (items found : List ι), (∀ i ∈ items, i ∈ N.items b) →
          ∃ after, items.foldlM (N.enter (N.visit depth)) found = some after := by
        intro items
        induction items with
        | nil => exact fun found own => ⟨found, rfl⟩
        | cons item items inner =>
            intro found own
            have entered : ∃ mid, N.enter (N.visit depth) found item = some mid := by
              cases isNext : N.next item with
              | none => exact ⟨_, enter_none isNext found⟩
              | some n =>
                  have longer := trail.step (own item List.mem_cons_self) isNext
                  rw [enter_some isNext]
                  exact ih longer (by rw [List.length_cons]; omega) _
            obtain ⟨mid, entered⟩ := entered
            obtain ⟨after, folded⟩ := inner mid fun i isIn => own i (List.mem_cons_of_mem _ isIn)
            exact ⟨after, by rw [List.foldlM_cons, entered]; exact folded⟩
      exact rest (N.items b) found fun i isIn => isIn

/-! ### Each item once -/

/-- A walk that records each item once was led to each node with items once. -/
theorem VisitsOnce.ledOnce [DecidableEq β] [DecidableEq ι] (visits : N.VisitsOnce) : N.LedOnce := by
  obtain ⟨depth, after, visited, nodup, exact⟩ := visits
  intro i j n isFound isFound' leadsTo leadsTo' hasItems
  by_contra different
  obtain ⟨x, isAt⟩ := List.exists_mem_of_ne_nil _ hasItems
  have atMost : after.count x ≤ 1 := List.nodup_iff_count_le_one.mp nodup x
  have counts := visit_count_root visited isAt
  have both : 2 ≤ after.countP (N.leads n) := by
    have pair : [i, j].Subperm after := by
      refine List.subperm_of_subset (by simp [different]) fun k isIn => ?_
      rcases List.mem_cons.mp isIn with rfl | isIn
      · exact (exact _).mpr isFound
      · rw [List.mem_singleton.mp isIn]
        exact (exact j).mpr isFound'
    have counted := pair.countP_le (N.leads n)
    simpa [leads, leadsTo, leadsTo'] using counted
  omega

/-- **The walk ends and records each item that can be reached once, exactly when no two of them lead to one node with
items.** -/
theorem visitsOnce_iff [Finite β] [DecidableEq β] [DecidableEq ι] : N.VisitsOnce ↔ N.LedOnce := by
  refine ⟨VisitsOnce.ledOnce, fun once => ?_⟩
  have := Fintype.ofFinite β
  obtain ⟨after, visited⟩ := visit_returns once (Fintype.card β) Trail.root (Nat.lt_succ_self _) []
  refine ⟨_, after, visited, List.nodup_iff_count_le_one.mpr fun x => ?_, fun i => ⟨fun isIn => ?_, fun isFound => ?_⟩⟩
  · by_cases isIn : x ∈ after
    · obtain ⟨n, reaches, isAt⟩ := (visit_sound Reaches.root visited x isIn).resolve_left List.not_mem_nil
      exact (once.count visited reaches isAt).le
    · rw [List.count_eq_zero.mpr isIn]
      exact Nat.zero_le _
  · exact (visit_sound Reaches.root visited i isIn).resolve_left List.not_mem_nil
  · obtain ⟨n, reaches, isAt⟩ := isFound
    exact List.count_pos_iff.mp ((once.count visited reaches isAt).symm ▸ Nat.one_pos)

end Network
