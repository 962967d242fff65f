/-
**A queue in a ring of slots with a blank entry.**

The entries of the queue lie in consecutive slots from the head on, going round the ring, and all other slots are
blank; neither a length nor a tail is stored. `Holds` says so, and

* `Holds.push`, `Holds.pop` — writing behind the last entry and clearing the first one are the queue operations;
* `Holds.front`, `Holds.drained` — the slot at the head is the first entry, or blank when there is none;
* `Holds.room_iff` — the slot behind the last entry is blank exactly when the ring is not full.
-/

import PeachOS.Lib.ByteStore
import Mathlib.Data.Nat.ModEq

namespace RingQueue

open ByteStore

variable {Entry : Type}

/-- **A ring holds a queue** from a head on. -/
structure Holds (blank : Entry) (size : Nat) (slots : Store Entry) (head : Nat) (queue : List Entry) : Prop where
  fits : queue.length ≤ size
  marked : blank ∉ queue
  entry : ∀ place (inside : place < queue.length), slots ((head + place) % size) = queue[place]
  rest : ∀ slot < size, (∀ place < queue.length, (head + place) % size ≠ slot) → slots slot = blank

/-- Places less than a round apart have slots of their own. -/
theorem place_inj {size head place place' : Nat} (inside : place < size) (inside' : place' < size)
    (same : (head + place) % size = (head + place') % size) : place = place' := by
  have congruent : place % size = place' % size := Nat.ModEq.add_left_cancel' head same
  rwa [Nat.mod_eq_of_lt inside, Nat.mod_eq_of_lt inside'] at congruent

namespace Holds

variable {blank : Entry} {size head : Nat} {slots : Store Entry} {queue : List Entry}

/-- A blank ring holds the empty queue. -/
theorem empty (size head : Nat) (cleared : ∀ slot < size, slots slot = blank) : Holds blank size slots head [] where
  fits := Nat.zero_le size
  marked := List.not_mem_nil
  entry := fun place inside => absurd inside (Nat.not_lt_zero place)
  rest := fun slot inside _ => cleared slot inside

/-- Going round the ring with the head changes nothing. -/
theorem congr_head (holds : Holds blank size slots head queue) {head' : Nat} (same : head' % size = head % size) :
    Holds blank size slots head' queue := by
  have places : ∀ place, (head' + place) % size = (head + place) % size := fun place => by
    rw [Nat.add_mod, same, ← Nat.add_mod]
  refine ⟨holds.fits, holds.marked, fun place inside => ?_, fun slot inside outside => ?_⟩
  · rw [places]
    exact holds.entry place inside
  · refine holds.rest slot inside fun place below => ?_
    rw [← places]
    exact outside place below

/-- **The first entry** is in the slot at the head. -/
theorem front {first : Entry} {queue : List Entry} (holds : Holds blank size slots head (first :: queue)) :
    slots (head % size) = first := holds.entry 0 (Nat.succ_pos _)

/-- Without entries, the slot at the head is blank. -/
theorem drained (holds : Holds blank size slots head []) (positive : 0 < size) : slots (head % size) = blank :=
  holds.rest _ (Nat.mod_lt _ positive) fun place inside => absurd inside (Nat.not_lt_zero place)

/-- **The slot behind the last entry** is blank exactly when there is room. -/
theorem room_iff (holds : Holds blank size slots head queue) (positive : 0 < size) :
    slots ((head + queue.length) % size) = blank ↔ queue.length < size := by
  constructor
  · intro isBlank
    by_contra full
    -- a full ring has its first entry there
    have length : queue.length = size := by
      have := holds.fits
      omega
    rw [length, Nat.add_mod_right] at isBlank
    have first := holds.entry 0 (by omega)
    rw [Nat.add_zero, isBlank] at first
    exact holds.marked (first ▸ List.getElem_mem _)
  · intro room
    refine holds.rest _ (Nat.mod_lt _ positive) fun place inside same => ?_
    exact absurd (place_inj (by omega) room same) (by omega)

/-- **Pushing** writes behind the last entry. -/
theorem push (holds : Holds blank size slots head queue) (room : queue.length < size) {value : Entry}
    (notBlank : value ≠ blank) :
    Holds blank size (put slots ((head + queue.length) % size) value) head (queue ++ [value]) := by
  refine ⟨?_, ?_, fun place inside => ?_, fun slot inside outside => ?_⟩
  · rw [List.length_append, List.length_singleton]
    exact room
  · rw [List.mem_append, List.mem_singleton, not_or]
    exact ⟨holds.marked, notBlank.symm⟩
  · rw [List.length_append, List.length_singleton] at inside
    by_cases last : place = queue.length
    · subst last
      rw [put_same, List.getElem_concat_length rfl]
    · have earlier : place < queue.length := by omega
      rw [put_other _ fun same => last (place_inj (by omega) room same), List.getElem_append_left earlier]
      exact holds.entry place earlier
  · have notLast : slot ≠ (head + queue.length) % size := fun same =>
      outside queue.length (by rw [List.length_append, List.length_singleton]; omega) same.symm
    rw [put_other _ notLast]
    refine holds.rest slot inside fun place below => outside place ?_
    rw [List.length_append]
    omega

/-- **Popping** clears the slot at the head. -/
theorem pop {first : Entry} (holds : Holds blank size slots head (first :: queue)) :
    Holds blank size (put slots (head % size) blank) (head + 1) queue := by
  have fits : queue.length + 1 ≤ size := holds.fits
  have next : ∀ place, head + 1 + place = head + (place + 1) := fun place => by omega
  refine ⟨by omega, fun isIn => holds.marked (List.mem_cons_of_mem _ isIn), fun place inside => ?_,
    fun slot inside outside => ?_⟩
  · have later : (head + (place + 1)) % size ≠ (head + 0) % size := fun same =>
      absurd (place_inj (by omega) (by omega) same) (Nat.succ_ne_zero place)
    simp only [Nat.add_zero] at later
    rw [next, put_other _ later]
    exact holds.entry (place + 1) (Nat.succ_lt_succ inside)
  · by_cases here : slot = head % size
    · rw [here, put_same]
    · rw [put_other _ here]
      refine holds.rest slot inside fun place below => ?_
      cases place with
      | zero => exact fun same => here same.symm
      | succ place =>
          rw [← next]
          exact outside place (Nat.lt_of_succ_lt_succ below)

end Holds

end RingQueue
