/-
**The tokens of a list: its longest parts without a separator, and where they start.**

* `tokensAt_separators`, `tokensAt_token` — the tokens are found from the front;
* `tokens_cases` — a list is separators only, or separators, a token and what a separator divides from it;
* `tokensAt_splitOnP` — they are the parts between the separators that are not empty.
-/

import Mathlib.Data.List.TakeWhile

namespace Tokens

variable {α : Type} (separator : α → Bool)

/-- The tokens of a list that starts at a place. -/
def tokensAt : (start : Nat) → List α → List (Nat × List α)
  | _, [] => []
  | start, x :: xs =>
      if separator x then tokensAt (start + 1) xs
      else
        match tokensAt (start + 1) xs with
        | [] => [(start, [x])]
        | token :: tokens =>
            if token.1 = start + 1 then (start, x :: token.2) :: tokens else (start, [x]) :: token :: tokens

variable {separator} {start : Nat} {xs : List α}

/-- A list that is empty or starts with a separator. -/
def Divided (separator : α → Bool) (xs : List α) : Prop := ∀ x ∈ xs.head?, separator x = true

theorem tokensAt_start_le (start : Nat) (xs : List α) : ∀ token ∈ tokensAt separator start xs, start ≤ token.1 := by
  induction xs generalizing start with
  | nil => exact fun token isIn => absurd isIn List.not_mem_nil
  | cons x xs ih =>
      have later := ih (start + 1)
      rw [tokensAt]
      split
      · exact fun token isIn => Nat.le_of_succ_le (later token isIn)
      · cases tokens : tokensAt separator (start + 1) xs with
        | nil => exact fun token isIn => (List.mem_singleton.mp isIn ▸ Nat.le_refl start)
        | cons first rest =>
            rw [tokens] at later
            dsimp only
            intro token isIn
            split at isIn
            · rcases List.mem_cons.mp isIn with rfl | isIn
              · exact Nat.le_refl start
              · exact Nat.le_of_succ_le (later token (List.mem_cons_of_mem first isIn))
            · rcases List.mem_cons.mp isIn with rfl | isIn
              · exact Nat.le_refl start
              · exact Nat.le_of_succ_le (later token isIn)

/-- Separators in front are left out. -/
theorem tokensAt_separators {front : List α} (separators : ∀ x ∈ front, separator x = true) (start : Nat) (xs : List α) :
    tokensAt separator start (front ++ xs) = tokensAt separator (start + front.length) xs := by
  induction front generalizing start with
  | nil => rfl
  | cons x front ih =>
      rw [List.cons_append, tokensAt, if_pos (separators x List.mem_cons_self),
        ih (fun y isIn => separators y (List.mem_cons_of_mem x isIn)), List.length_cons, Nat.add_right_comm, Nat.add_assoc]

/-- A list that is divided from what is before it has no token at its start. -/
theorem tokensAt_divided (divided : Divided separator xs) (start : Nat) :
    tokensAt separator start xs = tokensAt separator (start + 1) xs.tail := by
  cases xs with
  | nil => rfl
  | cons x xs => rw [tokensAt, if_pos (divided x rfl), List.tail_cons]

/-- **The first token.** -/
theorem tokensAt_token {token : List α} (some : token ≠ []) (noSeparator : ∀ x ∈ token, separator x = false)
    (divided : Divided separator xs) (start : Nat) :
    tokensAt separator start (token ++ xs) = (start, token) :: tokensAt separator (start + token.length + 1) xs.tail := by
  induction token generalizing start with
  | nil => exact absurd rfl some
  | cons x token ih =>
      have notOne : ¬ separator x = true := by rw [noSeparator x List.mem_cons_self]; exact Bool.false_ne_true
      rw [List.cons_append, tokensAt, if_neg notOne]
      cases token with
      | nil =>
          have later := @tokensAt_start_le _ separator (start + 1 + 1) xs.tail
          rw [List.nil_append, tokensAt_divided divided, List.length_singleton]
          cases tokens : tokensAt separator (start + 1 + 1) xs.tail with
          | nil => rfl
          | cons first rest =>
              rw [tokens] at later
              have apart := later first List.mem_cons_self
              dsimp only
              rw [if_neg (by omega)]
      | cons y token =>
          rw [ih (by simp) fun z isIn => noSeparator z (List.mem_cons_of_mem x isIn)]
          dsimp only
          rw [if_pos rfl, Nat.add_right_comm start 1, Nat.add_assoc start, ← List.length_cons]

/-- **Separators only, or separators, a token and a divided rest.** -/
theorem tokens_cases (separator : α → Bool) (xs : List α) :
    (∀ x ∈ xs, separator x = true) ∨ ∃ front token rest, xs = front ++ (token ++ rest) ∧ (∀ x ∈ front, separator x = true) ∧
      token ≠ [] ∧ (∀ x ∈ token, separator x = false) ∧ Divided separator rest := by
  induction xs with
  | nil => exact Or.inl fun x isIn => absurd isIn List.not_mem_nil
  | cons x xs ih =>
      by_cases isOne : separator x = true
      · rcases ih with separators | ⟨front, token, rest, rfl, separators, found⟩
        · exact Or.inl (List.forall_mem_cons.mpr ⟨isOne, separators⟩)
        · exact Or.inr ⟨x :: front, token, rest, rfl, List.forall_mem_cons.mpr ⟨isOne, separators⟩, found⟩
      · have notOne := Bool.eq_false_iff.mpr isOne
        refine Or.inr ⟨[], x :: xs.takeWhile (fun y => !separator y), xs.dropWhile (fun y => !separator y), ?_, ?_, ?_, ?_, ?_⟩
        · rw [List.nil_append, List.cons_append, List.takeWhile_append_dropWhile]
        · exact fun y isIn => absurd isIn List.not_mem_nil
        · exact List.cons_ne_nil _ _
        · refine List.forall_mem_cons.mpr ⟨notOne, fun y isIn => ?_⟩
          have kept := @List.mem_takeWhile_imp _ (fun y => !separator y) _ _ isIn
          exact (Bool.not_eq_true' _).mp kept
        · intro y isHead
          have stops := List.head?_dropWhile_not (fun y => !separator y) xs
          rw [Option.mem_def.mp isHead] at stops
          simpa using stops

/-- The tokens of separators. -/
theorem tokensAt_eq_nil (separators : ∀ x ∈ xs, separator x = true) (start : Nat) : tokensAt separator start xs = [] := by
  have skipped := tokensAt_separators separators start []
  rwa [List.append_nil] at skipped

/-- **Induction over the tokens.** -/
theorem tokens_induction {motive : List α → Prop} (separators : ∀ xs, (∀ x ∈ xs, separator x = true) → motive xs)
    (token : ∀ front token rest, (∀ x ∈ front, separator x = true) → token ≠ [] → (∀ x ∈ token, separator x = false) →
      Divided separator rest → motive rest.tail → motive (front ++ (token ++ rest))) (xs : List α) : motive xs := by
  induction length : xs.length using Nat.strong_induction_on generalizing xs with
  | _ n ih =>
      rcases tokens_cases separator xs with none | ⟨front, first, rest, rfl, skipped, some, noSeparator, divided⟩
      · exact separators xs none
      · refine token front first rest skipped some noSeparator divided (ih rest.tail.length ?_ rest.tail rfl)
        have nonempty := List.length_pos_iff.mpr some
        rw [List.length_append, List.length_append] at length
        rw [List.length_tail]
        omega

/-- Parts that are not empty, behind separators. -/
theorem splitOnP_separators {front : List α} (separators : ∀ x ∈ front, separator x = true) (xs : List α) :
    ((front ++ xs).splitOnP separator).filter (fun part => !part.isEmpty) =
      (xs.splitOnP separator).filter fun part => !part.isEmpty := by
  induction front with
  | nil => rfl
  | cons x front ih =>
      rw [List.cons_append, List.splitOnP_cons_eq_if_modifyHead, if_pos (separators x List.mem_cons_self),
        List.filter_cons_of_neg (by simp)]
      exact ih fun y isIn => separators y (List.mem_cons_of_mem x isIn)

/-- **The tokens are the parts between the separators that are not empty.** -/
theorem tokensAt_splitOnP (start : Nat) (xs : List α) :
    (tokensAt separator start xs).map Prod.snd = (xs.splitOnP separator).filter fun part => !part.isEmpty := by
  induction xs using @tokens_induction _ separator generalizing start with
  | separators xs separators =>
      have parts := splitOnP_separators separators []
      rw [List.append_nil] at parts
      rw [tokensAt_eq_nil separators, parts, List.splitOnP_nil]
      rfl
  | token front token rest separators some noSeparator divided ih =>
      rw [tokensAt_separators separators, tokensAt_token some noSeparator divided, splitOnP_separators separators,
        List.map_cons, ih]
      have kept (parts : List (List α)) : (token :: parts).filter (fun part => !part.isEmpty) =
          token :: parts.filter fun part => !part.isEmpty :=
        @List.filter_cons_of_pos _ (fun part => !part.isEmpty) token parts (by simpa using some)
      cases rest with
      | nil =>
          rw [List.append_nil, List.splitOnP_eq_singleton noSeparator, kept, List.tail_nil,
            List.splitOnP_nil]
          rfl
      | cons x rest =>
          rw [List.splitOnP_append_cons_of_forall_mem noSeparator x (divided x rfl), kept, List.tail_cons]

end Tokens
