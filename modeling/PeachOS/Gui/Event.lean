/-
**The events of `programs/guilib`.**

The queue of a gui is drained from its newest end. The handler of an element may push events of its own: a click on an element
with the default handler takes the focus away from the old element and gives it to this one, and both are told to all roots; a
click on a list area selects an item. Unless the handler says that it has finished, each child then gets a clone of the event.

An event is given with the element that it is on and what hangs below it. The code does not keep which event a clone comes
from; `Sent` records it, and `EventQueue` what became of the events.

* `guiElementEventsProcess` — the loop;
* `handle_guiEvents`, `handle_focusedElement` — what the handlers push, and where the focus is then;
* `processNewest_spec` — one round of the loop.
-/

import PeachOS.Gui.Element
import PeachOS.Lib.Drain

namespace PeachOS

open Drain

/-! ### Trees of elements -/

/-- An element with its children. -/
inductive GuiTree where
  | node (element : GuiElement) (children : List GuiTree)

namespace GuiTree

def element : GuiTree → GuiElement
  | node element _ => element

def children : GuiTree → List GuiTree
  | node _ children => children

mutual

/-- A tree and those below it. -/
def subtrees : GuiTree → List GuiTree
  | node element children => node element children :: subtreesOf children

def subtreesOf : List GuiTree → List GuiTree
  | [] => []
  | child :: children => child.subtrees ++ subtreesOf children

end

theorem subtreesOf_eq (children : List GuiTree) : subtreesOf children = children.flatMap subtrees := by
  induction children with
  | nil => rfl
  | cons child children ih => rw [subtreesOf, List.flatMap_cons, ih]

/-- A tree is itself and the trees below its children. -/
theorem subtrees_eq (tree : GuiTree) : tree.subtrees = tree :: tree.children.flatMap subtrees := by
  cases tree with
  | node element children => rw [subtrees, subtreesOf_eq, GuiTree.children]

/-- **The elements of a tree**: its own and its descendants. -/
def elements (tree : GuiTree) : List GuiElement := tree.subtrees.map element

theorem elements_eq (tree : GuiTree) : tree.elements = tree.element :: tree.children.flatMap elements := by
  unfold elements
  rw [subtrees_eq, List.map_cons, List.map_flatMap]

end GuiTree

/-! ### Events -/

/-- The type of a `struct gui_event`, with its data. -/
inductive GuiEventData where
  | elementClicked (type x y : Int)
  | elementFocused (element : GuiElement)
  | elementUnfocused (element : GuiElement)
  | keystroke (key : Int)
  | exit
  | listareaItemSelected (selectedIndex : Int)
deriving DecidableEq

/-- `struct gui_event` on the heap: its address, and the event that it is a clone of, or its own. -/
structure GuiEvent where
  ptr : Nat
  data : GuiEventData
  element : GuiTree
  origin : Nat

/-- An event that was queued on an element other than as a clone for a child. -/
structure Sent where
  event : Nat
  element : GuiTree
  data : GuiEventData

/-- A call of an event handler. -/
structure Delivery where
  origin : Nat
  element : GuiElement
  data : GuiEventData
deriving DecidableEq

/-- `gui_events`, the newest first, with the next address of an event and what became of the events. -/
structure EventQueue where
  queue : List GuiEvent
  nextEvent : Nat
  sent : List Sent
  delivered : List Delivery
  freed : List Nat

/-- `struct gui`: its roots, the focus, the events, and what the handlers change of the elements. -/
structure Gui where
  elements : List GuiTree
  focusedElement : Option GuiElement
  guiEvents : EventQueue
  mustDraw : Bool
  redrawRequired : Nat → Bool
  selectedIndex : Nat → Int

namespace EventQueue

/-- The queue before there is any event. -/
def empty : EventQueue := ⟨[], 0, [], [], []⟩

/-- `gui_element_event_push`, of a clone or of an event of its own. -/
def push (events : EventQueue) (element : GuiTree) (data : GuiEventData) (origin : Option Nat) : EventQueue :=
  { events with
    queue := ⟨events.nextEvent, data, element, origin.getD events.nextEvent⟩ :: events.queue
    nextEvent := events.nextEvent + 1
    sent := if origin.isSome then events.sent else ⟨events.nextEvent, element, data⟩ :: events.sent }

/-- Events pushed one after the other. -/
def pushAll (events : EventQueue) (origin : Option Nat) (list : List (GuiTree × GuiEventData)) : EventQueue :=
  list.foldl (fun events event => events.push event.1 event.2 origin) events

/-- The call of a handler. -/
def deliver (events : EventQueue) (event : GuiEvent) : EventQueue :=
  { events with delivered := ⟨event.origin, event.element.element, event.data⟩ :: events.delivered }

/-- `gui_event_free`. -/
def free (events : EventQueue) (ptr : Nat) : EventQueue := { events with freed := ptr :: events.freed }

end EventQueue

def guiElementEventPush (gui : Gui) (element : GuiTree) (data : GuiEventData) (origin : Option Nat) : Gui :=
  { gui with guiEvents := gui.guiEvents.push element data origin }

/-- `gui_event_push`, to the roots that the check lets pass. -/
def guiEventPush (gui : Gui) (data : GuiEventData) (chckFunc : GuiElement → Bool) : Gui :=
  gui.elements.foldl (fun gui child => if chckFunc child.element then guiElementEventPush gui child data none else gui) gui

def guiElementExistsInPosition (element : GuiElement) (x y : Int) : Bool :=
  if x < 0 ∨ y < 0 then false
  else
    let endingX := toInt32 (element.x + element.width)
    let endingY := toInt32 (element.y + element.height)
    x ≥ element.x ∧ x ≤ endingX ∧ y ≥ element.y ∧ y ≤ endingY

def guiEventPushEventMouseClick (gui : Gui) (windowRelClickX windowRelClickY type : Int) : Gui :=
  guiEventPush gui (.elementClicked type windowRelClickX windowRelClickY)
    fun recvElement => guiElementExistsInPosition recvElement windowRelClickX windowRelClickY

/-! ### Handlers -/

/-- `GUI_EVENT_HANDLER_RESPONSE_ERROR`. -/
def guiEventHandlerResponseError : Int := -1

/-- `GUI_EVENT_HANDLER_RESPONSE_IGNORED`. -/
def guiEventHandlerResponseIgnored : Int := 0

/-- `GUI_EVENT_HANDLER_RESPONSE_PROCESSED_CONTINUE_WITH_CHILDREN`. -/
def guiEventHandlerResponseProcessedContinueWithChildren : Int := 1

/-- `GUI_EVENT_HANDLER_RESPONSE_PROCESSED_AND_FINISHED`. -/
def guiEventHandlerResponseProcessedAndFinished : Int := 2

def guiUnfocusElement (gui : Gui) : Gui :=
  match gui.focusedElement with
  | none => gui
  | some oldFocusedElem =>
      guiEventPush { gui with focusedElement := none } (.elementUnfocused oldFocusedElem) fun _ => true

def guiFocusOnElement (gui : Gui) (element : GuiElement) : Gui :=
  let gui := guiUnfocusElement gui
  if gui.focusedElement = some element then gui
  else guiEventPush { gui with focusedElement := some element } (.elementFocused element) fun _ => true

def guiElementMarkForRedraw (gui : Gui) (element : GuiElement) : Gui :=
  { gui with mustDraw := true, redrawRequired := Function.update gui.redrawRequired element.ptr true }

/-- `gui_element_event_handler`, the default. -/
def guiElementEventHandler (gui : Gui) (event : GuiEvent) : Int × Gui :=
  let res := guiEventHandlerResponseIgnored
  match event.data with
  | .elementClicked .. =>
      if gui.focusedElement ≠ some event.element.element then (res, guiFocusOnElement gui event.element.element) else (res, gui)
  | _ => (res, gui)

def guiElementPlaneEventHandler (gui : Gui) (event : GuiEvent) : Int × Gui :=
  let gui :=
    match event.data with
    | .elementFocused _ | .elementUnfocused _ => guiElementMarkForRedraw gui event.element.element
    | _ => gui
  (guiEventHandlerResponseProcessedContinueWithChildren, gui)

/-- `gui_element_textfield_event_handler`, without the text: its editing pushes no event. -/
def guiElementTextfieldEventHandler (readOnly : Bool) (gui : Gui) (event : GuiEvent) : Int × Gui :=
  match event.data with
  | .keystroke _ =>
      if readOnly then (guiEventHandlerResponseIgnored, gui)
      else (guiEventHandlerResponseProcessedContinueWithChildren, gui)
  | _ => (guiEventHandlerResponseIgnored, gui)

/-- `gui_element_listarea_select`; the `int` index is compared as a `size_t`. -/
def guiElementListareaSelect (totalElements : Nat) (gui : Gui) (listareaElement : GuiTree) (index : Int) : Int × Gui :=
  if toWord index ≥ totalElements then (einvarg, gui)
  else
    let gui := { gui with selectedIndex := Function.update gui.selectedIndex listareaElement.element.ptr index }
    let gui := guiElementMarkForRedraw gui listareaElement.element
    (0, guiElementEventPush gui listareaElement (.listareaItemSelected index) none)

/-- `gui_element_listarea_event_handler_click`: the height of a character is a `size_t`, the quotient an `int` again. -/
def guiElementListareaEventHandlerClick (totalElements bitsHeightPerCharacter : Nat) (gui : Gui) (listareaElement : GuiTree)
    (y : Int) : Gui :=
  let calculatedSelectedIndex := toInt32 (toWord y / toWord (bitsHeightPerCharacter + 3) : Nat)
  if toWord calculatedSelectedIndex ≥ totalElements then gui
  else (guiElementListareaSelect totalElements gui listareaElement calculatedSelectedIndex).2

def guiElementListareaEventHandler (totalElements bitsHeightPerCharacter : Nat) (gui : Gui) (event : GuiEvent) : Int × Gui :=
  let gui :=
    match event.data with
    | .elementClicked _ _ y => guiElementListareaEventHandlerClick totalElements bitsHeightPerCharacter gui event.element y
    | _ => gui
  (guiEventHandlerResponseProcessedContinueWithChildren, gui)

def guiElementButtonEventHandler (gui : Gui) (_event : GuiEvent) : Int × Gui :=
  (guiEventHandlerResponseProcessedAndFinished, gui)

/-- The call of `functions.event_handler`. -/
def GuiHandler.handle (gui : Gui) (event : GuiEvent) : GuiHandler → Int × Gui
  | element => guiElementEventHandler gui event
  | plane => guiElementPlaneEventHandler gui event
  | textfield readOnly => guiElementTextfieldEventHandler readOnly gui event
  | listarea totalElements bitsHeightPerCharacter =>
      guiElementListareaEventHandler totalElements bitsHeightPerCharacter gui event
  | button => guiElementButtonEventHandler gui event

/-! ### The loop -/

def guiEventShouldContinuePropergatingChildern (res : Int) : Bool :=
  res = guiEventHandlerResponseIgnored ∨ res = guiEventHandlerResponseError ∨
    res = guiEventHandlerResponseProcessedContinueWithChildren

def guiEventPropergateThroughChildren (gui : Gui) (guiEvent : GuiEvent) : Gui :=
  guiEvent.element.children.foldl (fun gui child => guiElementEventPush gui child guiEvent.data (some guiEvent.origin)) gui

def guiElementCallEventHandlers (gui : Gui) (event : GuiEvent) : Gui :=
  let gui := { gui with guiEvents := gui.guiEvents.deliver event }
  let result := event.element.element.eventHandler.handle gui event
  if guiEventShouldContinuePropergatingChildern result.1 then guiEventPropergateThroughChildren result.2 event else result.2

/-- `gui_element_events_process_event`, of an element without property listeners. -/
def guiElementEventsProcessEvent (gui : Gui) (event : GuiEvent) : Gui := guiElementCallEventHandlers gui event

/-- One round of the loop: the newest event. -/
def processNewest (gui : Gui) : Option Gui :=
  match gui.guiEvents.queue with
  | [] => none
  | event :: older =>
      let gui := guiElementEventsProcessEvent { gui with guiEvents := { gui.guiEvents with queue := older } } event
      some { gui with guiEvents := gui.guiEvents.free event.ptr }

/-- **`gui_element_events_process`**, for `fuel` events at most. -/
def guiElementEventsProcess (fuel : Nat) (gui : Gui) : Option Gui := drain processNewest fuel gui

/-! ### What a handler does -/

/-- The handlers that let an event go on to the children. -/
def GuiHandler.passes : GuiHandler → Bool
  | button => false
  | _ => true

/-- A click. -/
def GuiEventData.isClick : GuiEventData → Bool
  | elementClicked .. => true
  | _ => false

/-- An event that gives its element the focus. -/
def GuiEvent.TakesFocus (event : GuiEvent) : Prop := event.element.element.eventHandler = .element ∧ event.data.isClick = true

instance (event : GuiEvent) : Decidable event.TakesFocus := inferInstanceAs (Decidable (_ ∧ _))

/-- The same event for each of several elements. -/
def forAll (trees : List GuiTree) (data : GuiEventData) : List (GuiTree × GuiEventData) := trees.map fun tree => (tree, data)

/-- The broadcasts of a new focus. -/
def focusSends (roots : List GuiTree) (focused : Option GuiElement) (element : GuiElement) : List (GuiTree × GuiEventData) :=
  match focused with
  | none => forAll roots (.elementFocused element)
  | some old => forAll roots (.elementUnfocused old) ++ forAll roots (.elementFocused element)

/-- **What the handler of an element pushes.** -/
def GuiEvent.sends (event : GuiEvent) (roots : List GuiTree) (focused : Option GuiElement) : List (GuiTree × GuiEventData) :=
  match event.element.element.eventHandler, event.data with
  | .element, .elementClicked .. =>
      if focused = some event.element.element then [] else focusSends roots focused event.element.element
  | .listarea totalElements bitsHeightPerCharacter, .elementClicked _ _ y =>
      let index := toInt32 (toWord y / toWord (bitsHeightPerCharacter + 3) : Nat)
      if toWord index ≥ totalElements then [] else [(event.element, .listareaItemSelected index)]
  | _, _ => []

theorem EventQueue.pushAll_append (events : EventQueue) (origin : Option Nat) (first second : List (GuiTree × GuiEventData)) :
    events.pushAll origin (first ++ second) = (events.pushAll origin first).pushAll origin second :=
  List.foldl_append

/-- The loop of a broadcast. -/
theorem foldl_push (roots : List GuiTree) (gui : Gui) (data : GuiEventData) (chckFunc : GuiElement → Bool) :
    roots.foldl (fun gui child => if chckFunc child.element then guiElementEventPush gui child data none else gui) gui =
      { gui with
        guiEvents := gui.guiEvents.pushAll none (forAll (roots.filter fun child => chckFunc child.element) data) } := by
  induction roots generalizing gui with
  | nil => rfl
  | cons child roots ih =>
      rw [List.foldl_cons, ih, List.filter_cons]
      by_cases passes : chckFunc child.element = true
      · rw [if_pos passes, if_pos passes]
        rfl
      · rw [if_neg passes, if_neg passes]

/-- **A broadcast** pushes to the roots that the check lets pass. -/
theorem guiEventPush_eq (gui : Gui) (data : GuiEventData) (chckFunc : GuiElement → Bool) :
    guiEventPush gui data chckFunc = { gui with
      guiEvents := gui.guiEvents.pushAll none (forAll (gui.elements.filter fun child => chckFunc child.element) data) } :=
  foldl_push gui.elements gui data chckFunc

theorem guiEventPush_roots (gui : Gui) (data : GuiEventData) :
    guiEventPush gui data (fun _ => true) =
      { gui with guiEvents := gui.guiEvents.pushAll none (forAll gui.elements data) } := by
  rw [guiEventPush_eq, List.filter_true]

/-- The focus is taken from the old element and given to the new one. -/
theorem guiFocusOnElement_eq (gui : Gui) (element : GuiElement) :
    guiFocusOnElement gui element = { gui with
      focusedElement := some element
      guiEvents := gui.guiEvents.pushAll none (focusSends gui.elements gui.focusedElement element) } := by
  obtain ⟨roots, focused, events, mustDraw, redrawRequired, selectedIndex⟩ := gui
  unfold guiFocusOnElement guiUnfocusElement
  cases focused with
  | none =>
      dsimp only
      rw [if_neg (by simp), guiEventPush_roots]
      rfl
  | some old =>
      dsimp only [focusSends]
      rw [guiEventPush_roots, if_neg (by simp), guiEventPush_roots, EventQueue.pushAll_append]

section Handle

variable (gui : Gui) (event : GuiEvent)

/-- The response of a handler says whether it passes the event on. -/
theorem handle_continues : guiEventShouldContinuePropergatingChildern
    (event.element.element.eventHandler.handle gui event).1 = event.element.element.eventHandler.passes := by
  cases event.element.element.eventHandler with
  | element =>
      unfold GuiHandler.handle guiElementEventHandler
      dsimp only
      split
      · split <;> rfl
      · rfl
  | plane => rfl
  | textfield readOnly =>
      unfold GuiHandler.handle guiElementTextfieldEventHandler
      dsimp only
      split
      · split <;> rfl
      · rfl
  | listarea totalElements bitsHeightPerCharacter => rfl
  | button => rfl

/-- The state after a click on a list area. -/
theorem listareaClick_cases (totalElements bitsHeightPerCharacter : Nat) (tree : GuiTree) (y : Int) :
    let index := toInt32 (toWord y / toWord (bitsHeightPerCharacter + 3) : Nat)
    let after := guiElementListareaEventHandlerClick totalElements bitsHeightPerCharacter gui tree y
    after.elements = gui.elements ∧ after.focusedElement = gui.focusedElement ∧
      after.guiEvents = gui.guiEvents.pushAll none
        (if toWord index ≥ totalElements then [] else [(tree, .listareaItemSelected index)]) := by
  unfold guiElementListareaEventHandlerClick
  dsimp only
  by_cases outside : toWord (toInt32 (toWord y / toWord (bitsHeightPerCharacter + 3) : Nat)) ≥ totalElements
  · rw [if_pos outside, if_pos outside]
    exact ⟨rfl, rfl, rfl⟩
  · unfold guiElementListareaSelect
    rw [if_neg outside, if_neg outside, if_neg outside]
    exact ⟨rfl, rfl, rfl⟩

/-- **The state after a handler**: the same roots, the focus, and what was pushed. -/
theorem handle_spec :
    (event.element.element.eventHandler.handle gui event).2.elements = gui.elements ∧
      (event.element.element.eventHandler.handle gui event).2.focusedElement =
        (if event.TakesFocus then some event.element.element else gui.focusedElement) ∧
      (event.element.element.eventHandler.handle gui event).2.guiEvents =
        gui.guiEvents.pushAll none (event.sends gui.elements gui.focusedElement) := by
  have noFocus : event.element.element.eventHandler ≠ .element → ¬ event.TakesFocus := fun other takes => other takes.1
  unfold GuiEvent.sends
  cases handler : event.element.element.eventHandler with
  | element =>
      unfold GuiHandler.handle guiElementEventHandler
      cases data : event.data with
      | elementClicked type x y =>
          have takes : event.TakesFocus := ⟨handler, by rw [data]; rfl⟩
          dsimp only
          by_cases same : gui.focusedElement = some event.element.element
          · rw [if_neg (not_not.mpr same), if_pos takes, if_pos same]
            exact ⟨rfl, same, rfl⟩
          · rw [if_pos same, if_pos takes, if_neg same, guiFocusOnElement_eq]
            exact ⟨rfl, rfl, rfl⟩
      | _ =>
          rw [if_neg fun takes => Bool.false_ne_true (by rw [← takes.2, data]; rfl)]
          exact ⟨rfl, rfl, rfl⟩
  | plane =>
      unfold GuiHandler.handle guiElementPlaneEventHandler
      rw [if_neg (noFocus (by rw [handler]; decide))]
      cases event.data <;> exact ⟨rfl, rfl, rfl⟩
  | textfield readOnly =>
      unfold GuiHandler.handle guiElementTextfieldEventHandler
      rw [if_neg (noFocus (by rw [handler]; simp))]
      cases event.data with
      | keystroke key => cases readOnly <;> exact ⟨rfl, rfl, rfl⟩
      | _ => exact ⟨rfl, rfl, rfl⟩
  | listarea totalElements bitsHeightPerCharacter =>
      unfold GuiHandler.handle guiElementListareaEventHandler
      rw [if_neg (noFocus (by rw [handler]; simp))]
      cases event.data with
      | elementClicked type x y => exact listareaClick_cases gui totalElements bitsHeightPerCharacter event.element y
      | _ => exact ⟨rfl, rfl, rfl⟩
  | button =>
      rw [if_neg (noFocus (by rw [handler]; decide))]
      exact ⟨rfl, rfl, rfl⟩

end Handle

/-- The clones for the children. -/
theorem propergate_eq (gui : Gui) (event : GuiEvent) : guiEventPropergateThroughChildren gui event =
    { gui with guiEvents := gui.guiEvents.pushAll (some event.origin) (forAll event.element.children event.data) } := by
  unfold guiEventPropergateThroughChildren
  generalize event.element.children = children
  induction children generalizing gui with
  | nil => rfl
  | cons child children ih =>
      rw [List.foldl_cons, ih]
      rfl

/-- The events after one round: the newest is taken, delivered and freed, what its handler pushes follows, and the clones. -/
def EventQueue.round (events : EventQueue) (event : GuiEvent) (older : List GuiEvent) (sends : List (GuiTree × GuiEventData)) :
    EventQueue :=
  ((({ events with queue := older }.deliver event).pushAll none sends).pushAll (some event.origin)
    (if event.element.element.eventHandler.passes then forAll event.element.children event.data else [])).free event.ptr

/-- **One round of the loop.** -/
theorem processNewest_spec {gui gui' : Gui} (round : processNewest gui = some gui') :
    ∃ event older, gui.guiEvents.queue = event :: older ∧ gui'.elements = gui.elements ∧
      gui'.focusedElement = (if event.TakesFocus then some event.element.element else gui.focusedElement) ∧
      gui'.guiEvents = gui.guiEvents.round event older (event.sends gui.elements gui.focusedElement) := by
  unfold processNewest at round
  cases queue : gui.guiEvents.queue with
  | nil =>
      rw [queue] at round
      cases round
  | cons event older =>
      rw [queue] at round
      dsimp only at round
      rw [Option.some.injEq] at round
      refine ⟨event, older, rfl, ?_⟩
      unfold guiElementEventsProcessEvent guiElementCallEventHandlers at round
      dsimp only at round
      rw [handle_continues, propergate_eq] at round
      obtain ⟨elements, focused, pushed⟩ := handle_spec
        { gui with guiEvents := { gui.guiEvents with queue := older }.deliver event } event
      dsimp only at elements focused pushed
      unfold EventQueue.round
      cases passes : event.element.element.eventHandler.passes with
      | true =>
          rw [passes, if_pos rfl, pushed] at round
          rw [← round, if_pos rfl]
          exact ⟨elements, focused, rfl⟩
      | false =>
          rw [passes, if_neg Bool.false_ne_true, pushed] at round
          rw [← round, if_neg Bool.false_ne_true]
          exact ⟨elements, focused, rfl⟩

/-- Where the loop stops there are no events. -/
theorem processNewest_done {gui : Gui} : processNewest gui = none ↔ gui.guiEvents.queue = [] := by
  unfold processNewest
  cases queue : gui.guiEvents.queue <;> simp

end PeachOS
