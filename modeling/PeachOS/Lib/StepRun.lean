/-
**Runs of a step relation, and properties that every run keeps.**

A step relation `step s i t` says that input `i` can take state `s` to state `t`. `Reachable` are the
states of all runs from the initial ones, in any order of inputs. `Guarded ok step` keeps the steps
whose state and input meet a condition; the states of its runs are the states reached by runs whose
steps all meet the condition. `Reachable.invariant` is the induction over runs.
-/

import Mathlib.Logic.Basic

namespace StepRun

variable {State Input : Type}

/-- The states of the runs from the initial states. -/
inductive Reachable (step : State → Input → State → Prop) (initial : State → Prop) : State → Prop
  | start {state : State} (begins : initial state) : Reachable step initial state
  | next {state state' : State} (input : Input) (reached : Reachable step initial state)
      (taken : step state input state') : Reachable step initial state'

/-- The steps whose state and input meet a condition. -/
def Guarded (ok : State → Input → Prop) (step : State → Input → State → Prop) :
    State → Input → State → Prop :=
  fun state input state' => ok state input ∧ step state input state'

variable {step : State → Input → State → Prop} {initial : State → Prop} {ok : State → Input → Prop}

/-- **Induction over runs**: what holds initially and is kept by every step holds everywhere. -/
theorem Reachable.invariant (holds : State → Prop) (base : ∀ state, initial state → holds state)
    (keeps : ∀ state input state', holds state → step state input state' → holds state')
    {state : State} (reached : Reachable step initial state) : holds state := by
  induction reached with
  | start begins => exact base _ begins
  | next _ _ taken ih => exact keeps _ _ _ ih taken

/-- Dropping the condition on the steps only adds runs. -/
theorem Reachable.of_guarded {state : State} (reached : Reachable (Guarded ok step) initial state) :
    Reachable step initial state :=
  reached.invariant _ (fun _ begins => .start begins) fun _ _ _ before taken => .next _ before taken.2

end StepRun
