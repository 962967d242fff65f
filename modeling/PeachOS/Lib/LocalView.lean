/-
**What the parties of a system see of each other.**

The calls of several parties are interleaved, and a run records each of them with its result. A system is local when a
party's view only changes in its own calls, and the result of a call and the next view are a function of the view and
the party's input. What a party gets is then the replay of its own inputs, whatever the others do.

* `Runs.split` — the state before each event of a run;
* `Local.replays` — the view and the results of a party are the replay of its inputs;
* `Local.same` — they are the same in two runs with the same inputs.
-/

import Mathlib.Data.List.Basic

namespace LocalView

variable {State Party Call Result View Input : Type}

/-- A call of a party, with its result. -/
structure Event (Party Call Result : Type) where
  party : Party
  call : Call
  result : Result

/-- The runs, with their events in order. -/
inductive Runs (step : State → Event Party Call Result → State → Prop) (initial : State → Prop) :
    List (Event Party Call Result) → State → Prop
  | start {state : State} (begins : initial state) : Runs step initial [] state
  | next {events : List (Event Party Call Result)} {state state' : State} {event : Event Party Call Result}
      (reached : Runs step initial events state) (taken : step state event state') :
      Runs step initial (events ++ [event]) state'

variable {step : State → Event Party Call Result → State → Prop} {initial : State → Prop}

/-- The events before and after one of them. -/
theorem Runs.split {events before after : List (Event Party Call Result)} {event : Event Party Call Result}
    {state : State} (run : Runs step initial events state) (parts : events = before ++ event :: after) :
    ∃ state₁ state₂, Runs step initial before state₁ ∧ step state₁ event state₂ := by
  induction run generalizing after with
  | start begins => exact absurd parts.symm (List.append_ne_nil_of_right_ne_nil _ (List.cons_ne_nil _ _))
  | @next events state state' last reached taken ih =>
      rcases List.eq_nil_or_concat after with rfl | ⟨middle, final, rfl⟩
      · obtain ⟨rfl, same⟩ := List.append_inj' parts rfl
        obtain rfl := List.singleton_inj.mp same
        exact ⟨state, state', reached, taken⟩
      · rw [List.concat_eq_append, ← List.cons_append, ← List.append_assoc] at parts
        exact ih (List.append_inj' parts rfl).1

/-- A property that holds initially and is kept by every step. -/
theorem Runs.invariant (holds : State → Prop) (base : ∀ state, initial state → holds state)
    (keeps : ∀ state event state', holds state → step state event state' → holds state')
    {events : List (Event Party Call Result)} {state : State} (run : Runs step initial events state) : holds state := by
  induction run with
  | start begins => exact base _ begins
  | next _ taken ih => exact keeps _ _ _ ih taken

/-! ### The replay of some inputs -/

/-- The view after some inputs, and the result of each. -/
def replay (react : View → Input → View × Result) : View → List Input → View × List Result
  | view, [] => (view, [])
  | view, input :: inputs =>
      let reaction := react view input
      let rest := replay react reaction.1 inputs
      (rest.1, reaction.2 :: rest.2)

theorem replay_concat (react : View → Input → View × Result) (view : View) (inputs : List Input) (input : Input) :
    replay react view (inputs ++ [input]) =
      ((react (replay react view inputs).1 input).1,
        (replay react view inputs).2 ++ [(react (replay react view inputs).1 input).2]) := by
  induction inputs generalizing view with
  | nil => rfl
  | cons first inputs ih =>
      rw [List.cons_append, replay, ih]
      rfl

section Parties

variable [DecidableEq Party]

/-- The events of a party. -/
def own (party : Party) (events : List (Event Party Call Result)) : List (Event Party Call Result) :=
  events.filter fun event => event.party = party

theorem own_concat (party : Party) (events : List (Event Party Call Result)) (event : Event Party Call Result) :
    own party (events ++ [event]) = own party events ++ if event.party = party then [event] else [] := by
  unfold own
  rw [List.filter_append]
  by_cases isOwn : event.party = party
  · rw [List.filter_cons_of_pos (by exact decide_eq_true isOwn), List.filter_nil, if_pos isOwn]
  · rw [List.filter_cons_of_neg (by simpa using isOwn), List.filter_nil, if_neg isOwn]

/-- **A system is local**, as far as inputs are allowed: a party's view only changes in its own calls, by a function of
the view and the input, which also gives the result. -/
structure Local (step : State → Event Party Call Result → State → Prop) (initial : State → Prop)
    (invariant : State → Prop) (view : Party → State → View) (input : Event Party Call Result → Input)
    (allowed : View → Input → Prop) (react : View → Input → View × Result) (fresh : View) : Prop where
  base : ∀ state, initial state → invariant state
  keeps : ∀ state event state', invariant state → step state event state' → invariant state'
  begins : ∀ party state, initial state → view party state = fresh
  reacts : ∀ state event state', invariant state → step state event state' →
    allowed (view event.party state) (input event) →
      react (view event.party state) (input event) = (view event.party state', event.result)
  others : ∀ state event state' party, invariant state → step state event state' → party ≠ event.party →
    view party state' = view party state

variable {invariant : State → Prop} {view : Party → State → View} {input : Event Party Call Result → Input}
  {allowed : View → Input → Prop} {react : View → Input → View × Result} {fresh : View}

/-- The inputs of a party are allowed, each when its turn comes. -/
def Allowed (step : State → Event Party Call Result → State → Prop) (initial : State → Prop)
    (view : Party → State → View) (input : Event Party Call Result → Input) (allowed : View → Input → Prop)
    (party : Party) (events : List (Event Party Call Result)) : Prop :=
  ∀ before event after state, events = before ++ event :: after → Runs step initial before state →
    event.party = party → allowed (view party state) (input event)

/-- **A party's view and results are the replay of its inputs.** -/
theorem Local.replays (system : Local step initial invariant view input allowed react fresh) {party : Party}
    {events : List (Event Party Call Result)} {state : State} (run : Runs step initial events state)
    (allows : Allowed step initial view input allowed party events) :
    replay react fresh ((own party events).map input) = (view party state, (own party events).map Event.result) := by
  induction run with
  | start begins => exact congrArg (fun seen => (seen, [])) (system.begins party _ begins).symm
  | @next events state state' event reached taken ih =>
      have holds := reached.invariant invariant system.base system.keeps
      have before := ih fun before event' after state parts =>
        allows before event' (after ++ [event]) state (by rw [parts, List.append_assoc, List.cons_append])
      rw [own_concat]
      by_cases isOwn : event.party = party
      · obtain rfl := isOwn
        have reaction := system.reacts _ _ _ holds taken (allows events event [] state rfl reached rfl)
        rw [if_pos rfl, List.map_append, List.map_singleton, List.map_append, List.map_singleton, replay_concat, before,
          reaction]
      · rw [if_neg isOwn, List.append_nil, before, system.others _ _ _ party holds taken fun same => isOwn same.symm]

/-- **What a party sees is the same in two runs with the same inputs.** -/
theorem Local.same (system : Local step initial invariant view input allowed react fresh) {party : Party}
    {events events' : List (Event Party Call Result)} {state state' : State} (run : Runs step initial events state)
    (run' : Runs step initial events' state') (allows : Allowed step initial view input allowed party events)
    (allows' : Allowed step initial view input allowed party events')
    (inputs : (own party events).map input = (own party events').map input) :
    (own party events).map Event.result = (own party events').map Event.result ∧ view party state = view party state' := by
  have replays := system.replays run allows
  rw [inputs, system.replays run' allows', Prod.mk.injEq] at replays
  exact ⟨replays.2.symm, replays.1.symm⟩

end Parties

end LocalView
