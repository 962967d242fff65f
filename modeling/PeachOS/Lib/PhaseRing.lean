/-
**A ring of slots that tells new entries by their phase.**

Two parties go round a ring with a cursor each: the writer puts entry after entry, the reader takes them. An entry carries the
phase of the writer's cursor, a bit that changes from round to round, and the reader takes a slot for written when its phase
is that of its own cursor. Neither party sees the cursor of the other.

* `cursor_advance` — the cursor after so many entries;
* `Written.write` — writing an entry that is less than a round ahead;
* `Written.fresh_iff` — **the reader is right**: the phase is its own exactly when the next entry has been written, and the
  slot then holds that entry (`Written.recent`).
-/

import PeachOS.Lib.ByteStore
import Mathlib.Data.Nat.ModEq

namespace PhaseRing

open ByteStore

/-- The slots of a round: a ring without slots goes round in its first one. -/
def lap (size : Nat) : Nat := max size 1

theorem lap_pos (size : Nat) : 0 < lap size := lt_max_of_lt_right Nat.one_pos

/-- A place on the ring, with the phase of its round. -/
structure Cursor where
  index : Nat
  phase : Bool
deriving DecidableEq

/-- The next place: at the end of the ring the phase changes. -/
def Cursor.advance (size : Nat) (cursor : Cursor) : Cursor :=
  if cursor.index + 1 ≥ size then ⟨0, !cursor.phase⟩ else ⟨cursor.index + 1, cursor.phase⟩

/-- The cursor at the entry of a number: the first round has the phase `true`. -/
def cursor (size n : Nat) : Cursor := ⟨n % lap size, n / lap size % 2 = 0⟩

/-- **The cursor after one more entry.** -/
theorem cursor_advance (size n : Nat) : (cursor size n).advance size = cursor size (n + 1) := by
  have positive := lap_pos size
  have inside := Nat.mod_lt n positive
  have whole := Nat.div_add_mod n (lap size)
  unfold Cursor.advance cursor
  dsimp only
  by_cases last : n % lap size + 1 = lap size
  · have next : n + 1 = lap size * (n / lap size + 1) := by
      rw [Nat.mul_succ]
      omega
    rw [if_pos (by unfold lap at *; omega), next, Nat.mul_mod_right, Nat.mul_div_cancel_left _ positive]
    congr 1
    by_cases even : n / lap size % 2 = 0
    · have odd : (n / lap size + 1) % 2 ≠ 0 := by omega
      simp [even, odd]
    · have next_even : (n / lap size + 1) % 2 = 0 := by omega
      simp [even, next_even]
  · have below : n % lap size + 1 < lap size := by omega
    have next : n + 1 = n % lap size + 1 + lap size * (n / lap size) := by omega
    have index : (n + 1) % lap size = n % lap size + 1 := by
      rw [next, Nat.add_mul_mod_self_left, Nat.mod_eq_of_lt below]
    have round : (n + 1) / lap size = n / lap size := by
      rw [next, Nat.add_mul_div_left _ _ positive, Nat.div_eq_of_lt below, Nat.zero_add]
    rw [if_neg (by unfold lap at *; omega), index, round]

/-- A round later the phase is the other one. -/
theorem cursor_lap (size n : Nat) : (cursor size (n + lap size)).phase = !(cursor size n).phase := by
  have round : (n + lap size) / lap size = n / lap size + 1 := Nat.add_div_right n (lap_pos size)
  unfold cursor
  dsimp only
  rw [round]
  by_cases even : n / lap size % 2 = 0
  · have odd : (n / lap size + 1) % 2 ≠ 0 := by omega
    simp [even, odd]
  · have next_even : (n / lap size + 1) % 2 = 0 := by omega
    simp [even, next_even]

/-- Numbers less than a round apart have slots of their own. -/
theorem index_inj {size m n : Nat} (before : m ≤ n) (near : n < m + lap size)
    (same : (cursor size m).index = (cursor size n).index) : m = n := by
  have congruent : (n - m) % lap size = 0 := Nat.sub_mod_eq_zero_of_mod_eq same.symm
  rw [Nat.mod_eq_of_lt (by omega)] at congruent
  omega

/-- **The ring after a list of entries**: the last round of them, and blanks where there was no entry yet. -/
structure Written {Entry : Type} (tag : Entry → Bool) (size : Nat) (slots : Store Entry) (written : List Entry) : Prop where
  tags : ∀ n (inside : n < written.length), tag written[n] = (cursor size n).phase
  recent : ∀ n (inside : n < written.length), written.length ≤ n + lap size → slots (cursor size n).index = written[n]
  blank : ∀ n, written.length ≤ n → n < lap size → tag (slots n) = false

namespace Written

variable {Entry : Type} {tag : Entry → Bool} {size : Nat} {slots : Store Entry} {written : List Entry}

/-- A cleared ring. -/
theorem empty (cleared : ∀ n < lap size, tag (slots n) = false) : Written tag size slots [] where
  tags n inside := absurd inside (Nat.not_lt_zero n)
  recent n inside := absurd inside (Nat.not_lt_zero n)
  blank n _ inside := cleared n inside

/-- **Writing an entry** with the phase of the writer's cursor. -/
theorem write (holds : Written tag size slots written) {entry : Entry} (phase : tag entry = (cursor size written.length).phase) :
    Written tag size (put slots (cursor size written.length).index entry) (written ++ [entry]) where
  tags n inside := by
    rw [List.length_append, List.length_singleton] at inside
    by_cases last : n = written.length
    · subst last
      rw [List.getElem_concat_length rfl, phase]
    · have earlier : n < written.length := by omega
      rw [List.getElem_append_left earlier]
      exact holds.tags n earlier
  recent n inside near := by
    rw [List.length_append, List.length_singleton] at inside near
    by_cases last : n = written.length
    · subst last
      rw [put_same, List.getElem_concat_length rfl]
    · have earlier : n < written.length := by omega
      rw [put_other _ fun same => last (index_inj earlier.le (by omega) same), List.getElem_append_left earlier]
      exact holds.recent n earlier (by omega)
  blank n behind inside := by
    rw [List.length_append, List.length_singleton] at behind
    have other : n ≠ (cursor size written.length).index := fun same => by
      have first : (cursor size n).index = n := Nat.mod_eq_of_lt inside
      exact absurd (index_inj (show written.length ≤ n by omega) (by omega) (same.symm.trans first.symm)) (by omega)
    rw [put_other _ other]
    exact holds.blank n (by omega) inside

/-- **The reader is right**: its phase is that of its slot exactly when the next entry has been written. -/
theorem fresh_iff (holds : Written tag size slots written) {read : Nat} (behind : read ≤ written.length)
    (near : written.length ≤ read + lap size) :
    tag (slots (cursor size read).index) = (cursor size read).phase ↔ read < written.length := by
  constructor
  · intro same
    by_contra none_
    have all : written.length = read := by omega
    rcases Nat.lt_or_ge read (lap size) with first | later
    · -- in the first round the slot is still blank
      have index : (cursor size read).index = read := Nat.mod_eq_of_lt first
      have phase : (cursor size read).phase = true := by
        show decide (read / lap size % 2 = 0) = true
        rw [Nat.div_eq_of_lt first]
        rfl
      rw [index, phase, holds.blank read all.le first] at same
      exact absurd same (by decide)
    · -- later it holds the entry of the round before
      have round : read - lap size + lap size = read := Nat.sub_add_cancel later
      have positive := lap_pos size
      have inside : read - lap size < written.length := by omega
      have slot : (cursor size (read - lap size)).index = (cursor size read).index := (Nat.mod_eq_sub_mod later).symm
      have other := cursor_lap size (read - lap size)
      rw [round] at other
      rw [← slot, holds.recent _ inside (by omega), holds.tags _ inside, other] at same
      revert same
      cases (cursor size (read - lap size)).phase <;> decide
  · intro inside
    rw [holds.recent read inside near, holds.tags read inside]

end Written

end PhaseRing
