/-
**Where a click goes, and the focus.**

`gui_event_push_event_mouse_click` tests the position for the roots only, with the right and the lower edge counted in; from a
root that is hit, the click goes to every element below, up to those whose handler says that it has finished. Only the default
handler takes the focus.

* `clickRight_iff` — a click goes to elements under the point only, and the focus to one of them, exactly when all elements that
  can be reached from the roots that are hit lie under the point, and one of them has the default handler, unless no root
  contains the point or the focus is under it already;
* `click_beside` — a click beside a child.
-/

import PeachOS.Gui.Drained

namespace PeachOS

open Drain

/-! ### Receivers -/

/-- **The elements that an event on a tree goes to.** -/
inductive GuiTree.Receives : GuiTree → GuiElement → Prop where
  | here (tree : GuiTree) : Receives tree tree.element
  | child {tree child : GuiTree} {element : GuiElement} (passes : tree.element.eventHandler.passes = true)
      (isChild : child ∈ tree.children) (receives : Receives child element) : Receives tree element

/-- The elements that a click goes to: those below the roots that are hit. -/
def Gui.Receiver (gui : Gui) (x y : Int) (element : GuiElement) : Prop :=
  ∃ root ∈ gui.elements, guiElementExistsInPosition root.element x y = true ∧ root.Receives element

/-- The rectangle of an element, in the window, contains a point. -/
def GuiElement.Contains (element : GuiElement) (x y : Int) : Prop :=
  element.x ≤ x ∧ x < element.x + element.width ∧ element.y ≤ y ∧ y < element.y + element.height

instance (element : GuiElement) (x y : Int) : Decidable (element.Contains x y) :=
  inferInstanceAs (Decidable (_ ∧ _ ∧ _ ∧ _))

/-- A gui without events, after a click. -/
def Gui.click (gui : Gui) (x y type : Int) : Gui :=
  guiEventPushEventMouseClick { gui with guiEvents := EventQueue.empty } x y type

/-- **A click is delivered to elements under the point only, and gives the focus to one, if a root contains the point.** -/
def ClickRight (gui : Gui) (x y type : Int) : Prop :=
  ∃ fuel last, guiElementEventsProcess fuel (gui.click x y type) = some last ∧
    (∀ delivery ∈ last.guiEvents.delivered, delivery.data = .elementClicked type x y → delivery.element.Contains x y) ∧
    ((∃ root ∈ gui.elements, root.element.Contains x y) →
      ∃ focused, last.focusedElement = some focused ∧ focused.Contains x y)

/-! ### What a round keeps -/

/-- The deliveries after pushing. -/
theorem EventQueue.pushAll_delivered (events : EventQueue) (origin : Option Nat) (list : List (GuiTree × GuiEventData)) :
    (events.pushAll origin list).delivered = events.delivered := by
  induction list generalizing events with
  | nil => rfl
  | cons send rest ih => exact ih (events.push send.1 send.2 origin)

theorem EventQueue.round_delivered (events : EventQueue) (event : GuiEvent) (older : List GuiEvent)
    (sends : List (GuiTree × GuiEventData)) : (events.round event older sends).delivered =
      ⟨event.origin, event.element.element, event.data⟩ :: events.delivered := by
  show ((({ events with queue := older }.deliver event).pushAll none sends).pushAll (some event.origin) _).delivered = _
  rw [pushAll_delivered, pushAll_delivered]
  rfl

/-- **What the rounds after a click keep**: the click is queued and delivered for receivers only, no receiver is left out, and
the focus is as before, or on an element with the default handler that the click was delivered to. -/
structure ClickKept (gui : Gui) (x y type : Int) (state : Gui) : Prop where
  elements : state.elements = gui.elements
  queued : ∀ content ∈ state.guiEvents.queue.map GuiEvent.content, content.2.isClick = true →
    content.2 = .elementClicked type x y ∧ ∀ element, content.1.Receives element → gui.Receiver x y element
  delivered : ∀ delivery ∈ state.guiEvents.delivered, delivery.data = .elementClicked type x y →
    gui.Receiver x y delivery.element
  complete : ∀ element, gui.Receiver x y element →
    (∃ delivery ∈ state.guiEvents.delivered, delivery.data = .elementClicked type x y ∧ delivery.element = element) ∨
      ∃ content ∈ state.guiEvents.queue.map GuiEvent.content,
        content.2 = .elementClicked type x y ∧ content.1.Receives element
  focus : (state.focusedElement = gui.focusedElement ∧ ∀ delivery ∈ state.guiEvents.delivered,
      delivery.data = .elementClicked type x y → delivery.element.eventHandler ≠ .element) ∨
    ∃ delivery ∈ state.guiEvents.delivered, delivery.data = .elementClicked type x y ∧
      delivery.element.eventHandler = .element ∧ state.focusedElement = some delivery.element

section Click

variable {gui state state' : Gui} {x y type : Int}

/-- The click is pushed to the roots that are hit. -/
theorem clickKept_start : ClickKept gui x y type (gui.click x y type) := by
  have contents : (gui.click x y type).guiEvents.queue.map GuiEvent.content = (forAll (gui.elements.filter fun child =>
      guiElementExistsInPosition child.element x y) (.elementClicked type x y)).reverse := by
    unfold Gui.click guiEventPushEventMouseClick
    rw [guiEventPush_eq]
    show (EventQueue.empty.pushAll none _).queue.map GuiEvent.content = _
    rw [EventQueue.pushAll_contents]
    exact List.append_nil _
  have quiet : (gui.click x y type).guiEvents.delivered = [] ∧ (gui.click x y type).elements = gui.elements ∧
      (gui.click x y type).focusedElement = gui.focusedElement := by
    unfold Gui.click guiEventPushEventMouseClick
    rw [guiEventPush_eq]
    exact ⟨EventQueue.pushAll_delivered _ _ _, rfl, rfl⟩
  have isHit : ∀ content, content ∈ (gui.click x y type).guiEvents.queue.map GuiEvent.content ↔
      ∃ root ∈ gui.elements, guiElementExistsInPosition root.element x y = true ∧
        (root, GuiEventData.elementClicked type x y) = content := fun content => by
    rw [contents, List.mem_reverse]
    unfold forAll
    rw [List.mem_map]
    constructor
    · rintro ⟨root, member, same⟩
      obtain ⟨isRoot, hit⟩ := List.mem_filter.mp member
      exact ⟨root, isRoot, hit, same⟩
    · rintro ⟨root, isRoot, hit, same⟩
      exact ⟨root, List.mem_filter.mpr ⟨isRoot, hit⟩, same⟩
  obtain ⟨silent, roots, focused⟩ := quiet
  refine ⟨roots, fun content member _ => ?_, fun delivery member => ?_, fun element receiver => Or.inr ?_,
    Or.inl ⟨focused, ?_⟩⟩
  · obtain ⟨root, isRoot, hit, rfl⟩ := (isHit content).mp member
    exact ⟨rfl, fun element receives => ⟨root, isRoot, hit, receives⟩⟩
  · rw [silent] at member
    cases member
  · obtain ⟨root, isRoot, hit, receives⟩ := receiver
    exact ⟨_, (isHit _).mpr ⟨root, isRoot, hit, rfl⟩, rfl, receives⟩
  · intro delivery member
    rw [silent] at member
    cases member

/-- **A round keeps it.** -/
theorem ClickKept.round (kept : ClickKept gui x y type state) (round : processNewest state = some state') :
    ClickKept gui x y type state' := by
  obtain ⟨event, older, queue, elements, focused, events⟩ := processNewest_spec round
  have contents := state.guiEvents.round_contents event older (event.sends state.elements state.focusedElement)
  have delivered := state.guiEvents.round_delivered event older (event.sends state.elements state.focusedElement)
  rw [← events] at contents delivered
  have before : state.guiEvents.queue.map GuiEvent.content = event.content :: older.map GuiEvent.content := by
    rw [queue, List.map_cons]
  have mine := kept.queued event.content (by rw [before]; exact List.mem_cons_self)
  have isNew : ∀ content ∈ state'.guiEvents.queue.map GuiEvent.content, content.2.isClick = true →
      (event.element.element.eventHandler.passes = true ∧
        ∃ child ∈ event.element.children, (child, event.data) = content) ∨
        content ∈ older.map GuiEvent.content := fun content member click => by
    rw [contents, List.mem_append, List.mem_append, List.mem_reverse, List.mem_reverse] at member
    rcases member with clone | send | old
    · split at clone
      · next passes => exact Or.inl ⟨passes, List.mem_map.mp clone⟩
      · cases clone
    · exact absurd click (by rw [(mem_sends send).1]; exact Bool.false_ne_true)
    · exact Or.inr old
  refine ⟨elements.trans kept.elements, fun content member click => ?_, fun delivery member isClick => ?_,
    fun element receiver => ?_, ?_⟩
  · rcases isNew content member click with ⟨passes, child, isChild, rfl⟩ | old
    · obtain ⟨same, receives⟩ := mine click
      exact ⟨same, fun element below => receives element (.child passes isChild below)⟩
    · exact kept.queued content (by rw [before]; exact List.mem_cons_of_mem _ old) click
  · rw [delivered] at member
    rcases List.mem_cons.mp member with rfl | old
    · change event.data = _ at isClick
      exact (mine (by show event.data.isClick = true; rw [isClick]; rfl)).2 _ (.here event.element)
    · exact kept.delivered delivery old isClick
  · rw [delivered]
    rcases kept.complete element receiver with ⟨delivery, member, isClick⟩ | ⟨content, member, isClick, receives⟩
    · exact Or.inl ⟨delivery, List.mem_cons_of_mem _ member, isClick⟩
    · rw [before] at member
      rcases List.mem_cons.mp member with rfl | old
      · cases receives with
        | here => exact Or.inl ⟨_, List.mem_cons_self, isClick, rfl⟩
        | @child _ child _ passes isChild receives =>
            refine Or.inr ⟨(child, event.data), ?_, isClick, receives⟩
            have passes : event.element.element.eventHandler.passes = true := passes
            rw [contents, if_pos passes]
            exact List.mem_append_left _ (List.mem_reverse.mpr (List.mem_map.mpr ⟨child, isChild, rfl⟩))
      · refine Or.inr ⟨content, ?_, isClick, receives⟩
        rw [contents]
        exact List.mem_append_right _ (List.mem_append_right _ old)
  · rw [delivered]
    by_cases takes : event.TakesFocus
    · rw [if_pos takes] at focused
      exact Or.inr ⟨_, List.mem_cons_self, (mine takes.2).1, takes.1, focused⟩
    · rw [if_neg takes] at focused
      rcases kept.focus with ⟨same, none_⟩ | ⟨delivery, member, isClick, default, isFocused⟩
      · refine Or.inl ⟨focused.trans same, fun delivery member isClick default => ?_⟩
        rcases List.mem_cons.mp member with rfl | old
        · change event.data = _ at isClick
          exact takes ⟨default, by rw [isClick]; rfl⟩
        · exact none_ delivery old isClick default
      · exact Or.inr ⟨delivery, List.mem_cons_of_mem _ member, isClick, default, focused.trans isFocused⟩

/-- **Where the loop ends after a click**, every receiver has had it. -/
theorem click_ended {fuel : Nat} {last : Gui} (ends : guiElementEventsProcess fuel (gui.click x y type) = some last) :
    ClickKept gui x y type last ∧ ∀ element, gui.Receiver x y element →
      ∃ delivery ∈ last.guiEvents.delivered, delivery.data = .elementClicked type x y ∧ delivery.element = element := by
  obtain ⟨kept, done⟩ := drain_keeps (ClickKept gui x y type) (fun _ _ kept round => kept.round round) clickKept_start ends
  refine ⟨kept, fun element receiver => (kept.complete element receiver).resolve_right ?_⟩
  rw [processNewest_done.mp done]
  rintro ⟨content, member, -⟩
  cases member

/-! ### The theorem -/

/-- **A click goes to the right elements, and the focus with it, exactly when every receiver lies under the point, and one has
the default handler, unless no root contains the point or the focus is under it already.** -/
theorem clickRight_iff (gui : Gui) (x y type : Int) : ClickRight gui x y type ↔
    (∀ element, gui.Receiver x y element → element.Contains x y) ∧
      ((∃ root ∈ gui.elements, root.element.Contains x y) →
        (∃ element, gui.Receiver x y element ∧ element.eventHandler = .element) ∨
          ∃ focused, gui.focusedElement = some focused ∧ focused.Contains x y) := by
  constructor
  · rintro ⟨fuel, last, ends, inside, focus⟩
    obtain ⟨kept, all⟩ := click_ended ends
    refine ⟨fun element receiver => ?_, fun isHit => ?_⟩
    · obtain ⟨delivery, member, isClick, rfl⟩ := all element receiver
      exact inside delivery member isClick
    · rcases kept.focus with ⟨same, -⟩ | ⟨delivery, member, isClick, default, -⟩
      · rw [← same]
        exact Or.inr (focus isHit)
      · exact Or.inl ⟨delivery.element, kept.delivered delivery member isClick, default⟩
  · rintro ⟨inside, focus⟩
    obtain ⟨fuel, last, ends⟩ := guiElementEventsProcess_ends (gui.click x y type)
    obtain ⟨kept, all⟩ := click_ended ends
    refine ⟨fuel, last, ends, fun delivery member isClick => inside _ (kept.delivered delivery member isClick),
      fun isHit => ?_⟩
    rcases kept.focus with ⟨same, none_⟩ | ⟨delivery, member, isClick, -, isFocused⟩
    · rw [same]
      refine (focus isHit).resolve_left ?_
      rintro ⟨element, receiver, default⟩
      obtain ⟨delivery, member, isClick, rfl⟩ := all element receiver
      exact none_ delivery member isClick default
    · exact ⟨delivery.element, isFocused, inside _ (kept.delivered delivery member isClick)⟩

end Click

/-- **A click on a plane beside its child** goes to the child, too. -/
theorem click_beside : ¬ ∀ gui x y type, ClickRight gui x y type := by
  intro always
  obtain ⟨fuel, last, ends, inside, -⟩ := always planeGui 80 5 0
  have receiver : planeGui.Receiver 80 5 (handled 2 (some planeElement) 50 50 (.listarea 3 16)) :=
    ⟨planeTree, List.mem_cons_self, by decide, .child rfl List.mem_cons_self (.here (.node _ []))⟩
  obtain ⟨delivery, member, isClick, same⟩ := (click_ended ends).2 _ receiver
  have contains := inside delivery member isClick
  rw [same] at contains
  exact absurd contains (by decide)

end PeachOS
