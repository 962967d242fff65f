/-
**Loops that run until there is nothing left to do.**

`drain next` repeats `next` until it has no next state, with a limit to the number of steps.

* `drain_keeps` — what the steps keep holds where the loop ends;
* `drain_ends` — with a measure that every step lowers, the loop ends.
-/

namespace Drain

variable {State : Type} {next : State → Option State}

/-- The loop, for `fuel` steps at most. -/
def drain (next : State → Option State) : (fuel : Nat) → State → Option State
  | 0, state =>
      match next state with
      | none => some state
      | some _ => none
  | fuel + 1, state =>
      match next state with
      | none => some state
      | some state' => drain next fuel state'

theorem drain_done {state : State} (done : next state = none) (fuel : Nat) : drain next fuel state = some state := by
  cases fuel <;> rw [drain, done]

theorem drain_step {state state' : State} (step : next state = some state') (fuel : Nat) :
    drain next (fuel + 1) state = drain next fuel state' := by
  rw [drain, step]

theorem drain_stuck {state state' : State} (step : next state = some state') : drain next 0 state = none := by
  rw [drain, step]

/-- **What every step keeps holds where the loop ends**, and there nothing is left to do. -/
theorem drain_keeps (holds : State → Prop) (keeps : ∀ state state', holds state → next state = some state' → holds state')
    {fuel : Nat} {state last : State} (start : holds state) (ends : drain next fuel state = some last) :
    holds last ∧ next last = none := by
  induction fuel generalizing state with
  | zero =>
      cases step : next state with
      | none =>
          rw [drain_done step, Option.some.injEq] at ends
          exact ends ▸ ⟨start, step⟩
      | some state' =>
          rw [drain_stuck step] at ends
          cases ends
  | succ fuel ih =>
      cases step : next state with
      | none =>
          rw [drain_done step, Option.some.injEq] at ends
          exact ends ▸ ⟨start, step⟩
      | some state' =>
          rw [drain_step step] at ends
          exact ih (keeps state state' start step) ends

/-- **A loop whose steps lower a measure ends.** -/
theorem drain_ends (measure : State → Nat) (lowers : ∀ state state', next state = some state' → measure state' < measure state)
    (state : State) : ∃ fuel last, drain next fuel state = some last := by
  induction n : measure state using Nat.strongRecOn generalizing state with
  | ind n ih =>
      cases step : next state with
      | none => exact ⟨0, state, drain_done step 0⟩
      | some state' =>
          obtain ⟨fuel, last, ends⟩ := ih _ (n ▸ lowers state state' step) state' rfl
          exact ⟨fuel + 1, last, (drain_step step fuel).trans ends⟩

end Drain
