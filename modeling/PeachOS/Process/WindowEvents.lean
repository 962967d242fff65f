/-
**The window events of a process: `task/process.c`.**

`process_push_window_event` overwrites the slot of an index, which no function advances, and counts;
`process_pop_window_event` reads the first slot and counts back. So one event is kept at a time.

* `windowEvents_run` — while an event is pushed only when none is waiting, or when it equals the one that is, events
  are popped in push order;
* `windowEvents_lost` — of two different events that wait together, the first one is lost.

The process exists, and the event of a pop has a place. An event is recorded without the pointer to its window.
-/

import PeachOS.Lib.StepRun
import PeachOS.Machine

namespace PeachOS

open StepRun (Reachable Guarded)

/-- `PROCESS_MAX_WINDOW_EVENTS_RECORDED`. -/
abbrev processMaxWindowEventsRecorded : Nat := 1000

/-- `struct window_event`, its `data` being the bits of the union. -/
structure WindowEvent where
  type : Int
  winId : Int
  window : Nat
  data : BitVec 64
deriving DecidableEq

/-- `window_events` of a process; the elements of its vector are a list. -/
structure WindowEvents where
  vector : List WindowEvent
  index : Nat
  totalUnpopped : Nat

/-- The event without the pointer to its window. -/
def WindowEvent.recorded (event : WindowEvent) : WindowEvent := { event with window := 0 }

/-- The event of zeros, which a failing `vector_at` leaves. -/
def WindowEvent.cleared : WindowEvent := { type := 0, winId := 0, window := 0, data := 0#64 }

/-- `process_push_window_event`. A slot that the vector does not have is not written. -/
def processPushWindowEvent (events : WindowEvents) (event : WindowEvent) : WindowEvents :=
  let elementIndex := events.index % processMaxWindowEventsRecorded
  { events with
    vector := events.vector.set elementIndex event.recorded
    totalUnpopped := toWord (events.totalUnpopped + 1) }

/-- `process_pop_window_event`: the result, the event when it succeeds, and the events then. -/
def processPopWindowEvent (events : WindowEvents) : Int × WindowEvent × WindowEvents :=
  if events.totalUnpopped > 0 then
    (0, events.vector.headD .cleared, { events with totalUnpopped := toWord (events.totalUnpopped - 1) })
  else (eoutofrange, .cleared, events)

/-! ### Runs -/

/-- The events of a process, with what was pushed and what successful pops have returned. -/
structure WindowEventRun where
  events : WindowEvents
  pushed : List WindowEvent
  popped : List WindowEvent

/-- A call for the events of one process. -/
inductive WindowEventCall where
  | push (event : WindowEvent)
  | pop
deriving DecidableEq

namespace WindowEventRun

/-- A new process. Its vector has as many elements as it could be grown to. -/
def Initial (σ : WindowEventRun) : Prop :=
  σ.events.index = 0 ∧ σ.events.totalUnpopped = 0 ∧ σ.pushed = [] ∧ σ.popped = []

/-- **One call**, with at most so many events waiting as can be recorded. -/
def step (σ : WindowEventRun) (call : WindowEventCall) (σ' : WindowEventRun) : Prop :=
  match call with
  | .push event => σ.pushed.length < σ.popped.length + processMaxWindowEventsRecorded ∧
      σ' = ⟨processPushWindowEvent σ.events event, σ.pushed ++ [event.recorded], σ.popped⟩
  | .pop => σ' = ⟨(processPopWindowEvent σ.events).2.2, σ.pushed,
      if (processPopWindowEvent σ.events).1 < 0 then σ.popped else σ.popped ++ [(processPopWindowEvent σ.events).2.1]⟩

/-- **Events are kept**: the popped ones are the first that were pushed, in that order, and a pop fails exactly when
all were popped. -/
structure Kept (σ : WindowEventRun) : Prop where
  ordered : σ.popped <+: σ.pushed
  fails : (processPopWindowEvent σ.events).1 < 0 ↔ σ.popped = σ.pushed

/-- **An event is pushed when none is waiting**, or when it equals the one that is. -/
def oneWaiting (σ : WindowEventRun) : WindowEventCall → Prop
  | .push event => σ.events.vector ≠ [] ∧
      (σ.events.totalUnpopped = 0 ∨ σ.events.vector.headD .cleared = event.recorded)
  | .pop => True

/-- What such runs keep: all that wait is the event of the first slot, so many times. -/
structure Waiting (σ : WindowEventRun) : Prop where
  index : σ.events.index = 0
  few : σ.events.totalUnpopped ≤ processMaxWindowEventsRecorded
  all : σ.pushed = σ.popped ++ List.replicate σ.events.totalUnpopped (σ.events.vector.headD .cleared)

variable {σ σ' : WindowEventRun}

theorem Waiting.length (waiting : σ.Waiting) : σ.pushed.length = σ.popped.length + σ.events.totalUnpopped := by
  rw [waiting.all, List.length_append, List.length_replicate]

/-- A push that meets the condition. -/
theorem Waiting.push (waiting : σ.Waiting) {event : WindowEvent}
    (room : σ.pushed.length < σ.popped.length + processMaxWindowEventsRecorded) (one : σ.oneWaiting (.push event)) :
    Waiting ⟨processPushWindowEvent σ.events event, σ.pushed ++ [event.recorded], σ.popped⟩ := by
  obtain ⟨slots, same⟩ := one
  have length := waiting.length
  have few : σ.events.totalUnpopped < 1000 := by
    have bound : σ.pushed.length < σ.popped.length + 1000 := room
    omega
  have counted : toWord ((σ.events.totalUnpopped : Int) + 1) = σ.events.totalUnpopped + 1 :=
    toWord_eq (by omega) (by omega)
  have first : (σ.events.vector.set 0 event.recorded).headD .cleared = event.recorded := by
    cases vector : σ.events.vector with
    | nil => exact absurd vector slots
    | cons head rest => rfl
  have pushed : processPushWindowEvent σ.events event =
      { σ.events with
        vector := σ.events.vector.set 0 event.recorded
        totalUnpopped := σ.events.totalUnpopped + 1 } := by
    unfold processPushWindowEvent
    rw [counted, show σ.events.index % processMaxWindowEventsRecorded = 0 by rw [waiting.index, Nat.zero_mod]]
  rw [pushed]
  refine ⟨waiting.index, few, ?_⟩
  dsimp only
  rw [first, waiting.all, List.append_assoc, List.replicate_succ']
  rcases same with none | equal
  · rw [none]
    rfl
  · rw [equal]

/-- A pop. -/
theorem Waiting.pop (waiting : σ.Waiting) (taken : σ.step .pop σ') : σ'.Waiting := by
  rw [taken]
  unfold processPopWindowEvent
  by_cases some : σ.events.totalUnpopped > 0
  · have few := waiting.few
    have counted : toWord ((σ.events.totalUnpopped : Int) - 1) = σ.events.totalUnpopped - 1 := by
      simp only [processMaxWindowEventsRecorded] at few
      exact toWord_eq (by omega) (by omega)
    simp only [if_pos some, counted, lt_irrefl, if_false]
    refine ⟨waiting.index, (Nat.sub_le _ _).trans few, ?_⟩
    dsimp only
    rw [waiting.all, List.append_assoc, List.singleton_append, ← List.replicate_succ, Nat.sub_add_cancel some]
  · simp only [if_neg some]
    rw [if_pos (show eoutofrange < 0 by decide)]
    exact waiting

/-- What waits comes out in order. -/
theorem Waiting.kept (waiting : σ.Waiting) : σ.Kept := by
  have length := waiting.length
  refine ⟨⟨_, waiting.all.symm⟩, ?_⟩
  unfold processPopWindowEvent
  split
  · refine iff_of_false (lt_irrefl 0) fun same => ?_
    rw [same] at length
    omega
  · refine iff_of_true (show eoutofrange < 0 by decide) ?_
    rw [waiting.all, show σ.events.totalUnpopped = 0 by omega, List.replicate_zero, List.append_nil]

end WindowEventRun

open WindowEventRun

/-- **Events are kept in every run** that pushes an event only when none is waiting, or when it equals the one that is. -/
theorem windowEvents_run (σ : WindowEventRun) (reached : Reachable (Guarded oneWaiting step) Initial σ) : σ.Kept := by
  have waiting : σ.Waiting := by
    refine reached.invariant Waiting (fun σ begins => ?_) fun σ call σ' waiting taken => ?_
    · obtain ⟨index, none, pushed, popped⟩ := begins
      refine ⟨index, none ▸ Nat.zero_le _, ?_⟩
      rw [pushed, popped, none, List.replicate_zero, List.append_nil]
    · obtain ⟨one, taken⟩ := taken
      cases call with
      | push event =>
          obtain ⟨room, rfl⟩ := taken
          exact waiting.push room one
      | pop => exact waiting.pop taken
  exact waiting.kept

/-- A process whose vector has all its elements. -/
def newWindowEvents : WindowEventRun where
  events := { vector := List.replicate processMaxWindowEventsRecorded .cleared, index := 0, totalUnpopped := 0 }
  pushed := []
  popped := []

theorem newWindowEvents_initial : newWindowEvents.Initial := ⟨rfl, rfl, rfl, rfl⟩

/-- A click on window 1. -/
def clickEvent : WindowEvent := { type := 4, winId := 1, window := 0x5000, data := 0x0000000A00000014#64 }

/-- A key that is pressed. -/
def keyEvent : WindowEvent := { type := 6, winId := 1, window := 0x5000, data := 0x61#64 }

/-- The run after a push. -/
def pushedOne : WindowEventRun := ⟨processPushWindowEvent newWindowEvents.events clickEvent, [clickEvent.recorded], []⟩

/-- **A click that is pushed** waits for its pop. -/
theorem windowEvents_run_click : pushedOne.Kept :=
  windowEvents_run _ (.next (.push clickEvent) (.start newWindowEvents_initial)
    ⟨⟨by decide, Or.inl rfl⟩, by decide, rfl⟩)

/-- The run after two pushes and a pop. -/
def pushedTwo : WindowEventRun :=
  ⟨(processPopWindowEvent (processPushWindowEvent pushedOne.events keyEvent)).2.2,
    [clickEvent.recorded, keyEvent.recorded], [keyEvent.recorded]⟩

/-- **Of two events that wait together, the first one is lost.** -/
theorem windowEvents_lost : ¬ ∀ σ, Reachable step Initial σ → σ.Kept := by
  intro kept
  have one : Reachable step Initial pushedOne :=
    .next (.push clickEvent) (.start newWindowEvents_initial) ⟨by decide, rfl⟩
  have two : Reachable step Initial
      ⟨processPushWindowEvent pushedOne.events keyEvent, [clickEvent.recorded, keyEvent.recorded], []⟩ :=
    .next (.push keyEvent) one ⟨by decide, rfl⟩
  have popped : Reachable step Initial pushedTwo := .next .pop two rfl
  exact absurd (kept pushedTwo popped).ordered (by decide)

end PeachOS
