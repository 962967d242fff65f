/-
**The events of a gui are drained, each delivered once to each element below.**

A click can make a handler push events to all roots, or to its own element, but those are no clicks, and the handlers push
nothing for them. So every round lowers the sum of what the queued events can still cause (`guiElementEventsProcess_ends`).

An event that was queued on an element owes a delivery to each element of its tree. What was given and what the queue still
owes stay the same together: a round delivers to one element and queues clones for its children (`Balanced`).

* `guiEvents_drained` — **the loop ends with an empty queue, every event was delivered once to its element and to each
  descendant, and every clone was freed once**.
-/

import Mathlib.Data.List.Nodup
import PeachOS.Gui.Event

namespace PeachOS

open Drain

/-! ### What an event can still cause -/

/-- An event without its address. -/
def GuiEvent.content (event : GuiEvent) : GuiTree × GuiEventData := (event.element, event.data)

theorem EventQueue.pushAll_cons (events : EventQueue) (origin : Option Nat) (tree : GuiTree) (data : GuiEventData)
    (rest : List (GuiTree × GuiEventData)) :
    events.pushAll origin ((tree, data) :: rest) = (events.push tree data origin).pushAll origin rest := rfl

/-- What is pushed stands before what was queued, the last first. -/
theorem EventQueue.pushAll_contents (events : EventQueue) (origin : Option Nat) (list : List (GuiTree × GuiEventData)) :
    (events.pushAll origin list).queue.map GuiEvent.content = list.reverse ++ events.queue.map GuiEvent.content := by
  induction list generalizing events with
  | nil => rfl
  | cons event rest ih =>
      obtain ⟨tree, data⟩ := event
      rw [pushAll_cons, ih, List.reverse_cons, List.append_assoc]
      rfl

/-- **The events after a round.** -/
theorem EventQueue.round_contents (events : EventQueue) (event : GuiEvent) (older : List GuiEvent)
    (sends : List (GuiTree × GuiEventData)) :
    (events.round event older sends).queue.map GuiEvent.content =
      (if event.element.element.eventHandler.passes then forAll event.element.children event.data else []).reverse ++
        (sends.reverse ++ older.map GuiEvent.content) := by
  show (((({ events with queue := older }.deliver event).pushAll none sends).pushAll (some event.origin) _).queue.map
    GuiEvent.content) = _
  rw [pushAll_contents, pushAll_contents]
  rfl

/-- The elements of a tree. -/
def GuiTree.size (tree : GuiTree) : Nat := tree.subtrees.length

/-- The elements of several trees. -/
def sizes (trees : List GuiTree) : Nat := (trees.map GuiTree.size).sum

/-- What a click can cause: at each element a focus and an unfocus event for all roots, or a selection. -/
def GuiTree.clickWeight (rootSizes : Nat) (tree : GuiTree) : Nat :=
  (tree.subtrees.map fun below => 1 + 2 * rootSizes + below.size).sum

/-- **What an event can still cause.** -/
def weight (rootSizes : Nat) (content : GuiTree × GuiEventData) : Nat :=
  if content.2.isClick then content.1.clickWeight rootSizes else content.1.size

/-- What the queued events can still cause. -/
def EventQueue.weights (rootSizes : Nat) (events : EventQueue) : Nat :=
  ((events.queue.map GuiEvent.content).map (weight rootSizes)).sum

theorem GuiTree.size_eq (tree : GuiTree) : tree.size = 1 + sizes tree.children := by
  unfold size sizes
  rw [subtrees_eq, List.length_cons, List.length_flatMap, Nat.add_comm]
  rfl

theorem GuiTree.clickWeight_eq (rootSizes : Nat) (tree : GuiTree) :
    tree.clickWeight rootSizes = 1 + 2 * rootSizes + tree.size + (tree.children.map (GuiTree.clickWeight rootSizes)).sum := by
  unfold clickWeight
  rw [subtrees_eq, List.map_cons, List.sum_cons, List.map_flatMap, List.flatMap_def, List.sum_flatten, List.map_map]
  rfl

/-- The weight of one event for several elements, no click. -/
theorem weights_forAll {data : GuiEventData} (noClick : data.isClick = false) (rootSizes : Nat) (trees : List GuiTree) :
    ((forAll trees data).map (weight rootSizes)).sum = sizes trees := by
  unfold forAll sizes
  rw [List.map_map]
  refine congrArg List.sum (List.map_congr_left fun tree _ => ?_)
  show (if data.isClick then _ else _) = _
  rw [noClick]
  rfl

theorem weights_forAll_click {data : GuiEventData} (click : data.isClick = true) (rootSizes : Nat) (trees : List GuiTree) :
    ((forAll trees data).map (weight rootSizes)).sum = (trees.map (GuiTree.clickWeight rootSizes)).sum := by
  unfold forAll
  rw [List.map_map]
  refine congrArg List.sum (List.map_congr_left fun tree _ => ?_)
  show (if data.isClick then _ else _) = _
  rw [click]
  rfl

/-- Nothing is pushed for an event that is no click. -/
theorem sends_of_noClick {event : GuiEvent} (noClick : event.data.isClick = false) (roots : List GuiTree)
    (focused : Option GuiElement) : event.sends roots focused = [] := by
  unfold GuiEvent.sends
  cases data : event.data with
  | elementClicked type x y =>
      rw [data] at noClick
      cases noClick
  | _ => cases event.element.element.eventHandler <;> rfl

/-- **What a handler pushes** is no click, on the roots or on its own element. -/
theorem mem_sends {event : GuiEvent} {roots : List GuiTree} {focused : Option GuiElement} {send : GuiTree × GuiEventData}
    (member : send ∈ event.sends roots focused) : send.2.isClick = false ∧ (send.1 ∈ roots ∨ send.1 = event.element) := by
  have broadcast : ∀ data : GuiEventData, data.isClick = false → send ∈ forAll roots data →
      send.2.isClick = false ∧ (send.1 ∈ roots ∨ send.1 = event.element) := fun data noClick inAll => by
    obtain ⟨tree, root, rfl⟩ := List.mem_map.mp inAll
    exact ⟨noClick, Or.inl root⟩
  unfold GuiEvent.sends at member
  split at member
  · split at member
    · cases member
    · unfold focusSends at member
      split at member
      · exact broadcast _ rfl member
      · rcases List.mem_append.mp member with old | new
        · exact broadcast _ rfl old
        · exact broadcast _ rfl new
  · dsimp only at member
    split at member
    · cases member
    · rw [List.mem_singleton.mp member]
      exact ⟨rfl, Or.inr rfl⟩
  · cases member

/-- The weight of what a handler pushes. -/
theorem weights_sends (event : GuiEvent) (roots : List GuiTree) (focused : Option GuiElement) :
    ((event.sends roots focused).map (weight (sizes roots))).sum ≤ 2 * sizes roots + event.element.size := by
  unfold GuiEvent.sends
  split
  · split
    · exact Nat.zero_le _
    · unfold focusSends
      split
      · rw [weights_forAll rfl]
        omega
      · rw [List.map_append, List.sum_append, weights_forAll rfl, weights_forAll rfl]
        omega
  · dsimp only
    split
    · exact Nat.zero_le _
    · show event.element.size + 0 ≤ _
      omega
  · exact Nat.zero_le _

/-- **A round lowers what the events can still cause.** -/
theorem round_lowers {events : EventQueue} {event : GuiEvent} {older : List GuiEvent} (queue : events.queue = event :: older)
    (roots : List GuiTree) (focused : Option GuiElement) :
    (events.round event older (event.sends roots focused)).weights (sizes roots) < events.weights (sizes roots) := by
  unfold EventQueue.weights
  rw [EventQueue.round_contents, queue, List.map_cons, List.map_cons, List.sum_cons, List.map_append, List.map_append,
    List.sum_append, List.sum_append, List.map_reverse, List.sum_reverse, List.map_reverse, List.sum_reverse]
  have sends := weights_sends event roots focused
  have clones : ((if event.element.element.eventHandler.passes then forAll event.element.children event.data else []).map
      (weight (sizes roots))).sum ≤ ((forAll event.element.children event.data).map (weight (sizes roots))).sum := by
    split
    · exact le_rfl
    · exact Nat.zero_le _
  cases click : event.data.isClick with
  | true =>
      have own : weight (sizes roots) event.content = event.element.clickWeight (sizes roots) := if_pos click
      rw [weights_forAll_click click] at clones
      rw [own, GuiTree.clickWeight_eq]
      omega
  | false =>
      have own : weight (sizes roots) event.content = event.element.size :=
        if_neg fun isClick => Bool.false_ne_true (click.symm.trans isClick)
      rw [weights_forAll click] at clones
      rw [sends_of_noClick click, own, GuiTree.size_eq]
      simp only [List.map_nil, List.sum_nil]
      omega

/-- **The loop ends**, with any handlers. -/
theorem guiElementEventsProcess_ends (gui : Gui) : ∃ fuel last, guiElementEventsProcess fuel gui = some last := by
  refine drain_ends (fun gui => gui.guiEvents.weights (sizes gui.elements)) (fun gui gui' round => ?_) gui
  obtain ⟨event, older, queue, elements, -, events⟩ := processNewest_spec round
  rw [elements, events]
  exact round_lowers queue gui.elements gui.focusedElement

/-! ### What was given, and what is owed -/

/-- The events of the loop in hand: the event, and the children that it is still to be cloned for. -/
abbrev Hand := Option (GuiEvent × List GuiTree)

namespace Hand

/-- The address of the event in hand. -/
def ptrs : Hand → List Nat
  | none => []
  | some (event, _) => [event.ptr]

/-- The deliveries to an element that the clones to come still owe. -/
def debt : Hand → Nat → GuiElement → Nat
  | none, _, _ => 0
  | some (event, unsent), origin, element =>
      if event.origin = origin then (unsent.map fun tree => tree.elements.count element).sum else 0

end Hand

namespace EventQueue

/-- The deliveries of an event to an element. -/
def given (events : EventQueue) (origin : Nat) (element : GuiElement) : Nat :=
  events.delivered.countP fun delivery => delivery.origin = origin ∧ delivery.element = element

/-- The deliveries to an element that a queued event owes. -/
def owes (event : GuiEvent) (origin : Nat) (element : GuiElement) : Nat :=
  if event.origin = origin then event.element.elements.count element else 0

/-- The deliveries of an event to an element that the queue owes. -/
def owed (events : EventQueue) (origin : Nat) (element : GuiElement) : Nat :=
  (events.queue.map fun event => owes event origin element).sum

/-- The event that another is a clone of was queued, with the same data. -/
def Known (events : EventQueue) (origin : Nat) (data : GuiEventData) : Prop :=
  ∃ sent ∈ events.sent, sent.event = origin ∧ sent.data = data

/-- **The books balance**: every address is queued, in hand or freed, once; and for every event that was queued, what was given
and what is owed are the elements of its tree. -/
structure Balanced (events : EventQueue) (hand : Hand) : Prop where
  ids : ∀ id, events.freed.count id + (events.queue.map GuiEvent.ptr).count id + hand.ptrs.count id =
    if id < events.nextEvent then 1 else 0
  queued : ∀ event ∈ events.queue, events.Known event.origin event.data
  held : ∀ event unsent, hand = some (event, unsent) → events.Known event.origin event.data
  delivered : ∀ delivery ∈ events.delivered, events.Known delivery.origin delivery.data
  fresh : ∀ sent ∈ events.sent, sent.event < events.nextEvent
  unique : ∀ sent ∈ events.sent, ∀ other ∈ events.sent, sent.event = other.event → sent = other
  once : ∀ sent ∈ events.sent, ∀ element, events.given sent.event element + events.owed sent.event element +
    hand.debt sent.event element = sent.element.elements.count element

theorem balanced_empty : empty.Balanced none where
  ids := fun _ => rfl
  queued := fun _ member => absurd member List.not_mem_nil
  held := fun _ _ none_ => by cases none_
  delivered := fun _ member => absurd member List.not_mem_nil
  fresh := fun _ member => absurd member List.not_mem_nil
  unique := fun _ member => absurd member List.not_mem_nil
  once := fun _ member => absurd member List.not_mem_nil

section Push

variable {events : EventQueue} {hand : Hand}

theorem Known.push {origin : Nat} {data : GuiEventData} (known : events.Known origin data) (tree : GuiTree)
    (data' : GuiEventData) (of : Option Nat) : (events.push tree data' of).Known origin data := by
  obtain ⟨sent, member, same⟩ := known
  refine ⟨sent, ?_, same⟩
  unfold EventQueue.push
  dsimp only
  split
  · exact member
  · exact List.mem_cons_of_mem _ member

/-- A fresh address is queued. -/
theorem ids_push (balanced : events.Balanced hand) (tree : GuiTree) (data : GuiEventData) (origin : Option Nat) (id : Nat) :
    (events.push tree data origin).freed.count id + ((events.push tree data origin).queue.map GuiEvent.ptr).count id +
      hand.ptrs.count id = if id < (events.push tree data origin).nextEvent then 1 else 0 := by
  have ids := balanced.ids id
  show events.freed.count id + (events.nextEvent :: events.queue.map GuiEvent.ptr).count id + _ =
    if id < events.nextEvent + 1 then 1 else 0
  rw [List.count_cons]
  by_cases new : events.nextEvent = id
  · rw [if_neg (by omega)] at ids
    rw [if_pos (by rw [new]; exact beq_self_eq_true id), if_pos (by omega)]
    omega
  · rw [if_neg (by rw [beq_iff_eq]; exact new)]
    by_cases below : id < events.nextEvent
    · rw [if_pos below] at ids
      rw [if_pos (by omega)]
      omega
    · rw [if_neg below] at ids
      rw [if_neg (by omega)]
      omega

/-- Nothing is known of an event whose address is fresh. -/
theorem Balanced.not_known (balanced : events.Balanced hand) (data : GuiEventData) : ¬ events.Known events.nextEvent data := by
  rintro ⟨sent, member, same, -⟩
  exact absurd (balanced.fresh sent member) (by omega)

/-- **An event of its own is pushed.** -/
theorem balanced_push (balanced : events.Balanced hand) (tree : GuiTree) (data : GuiEventData) :
    (events.push tree data none).Balanced hand where
  ids := ids_push balanced tree data none
  queued := fun event member => by
    rcases List.mem_cons.mp member with rfl | old
    · exact ⟨⟨events.nextEvent, tree, data⟩, List.mem_cons_self, rfl, rfl⟩
    · exact (balanced.queued event old).push tree data none
  held := fun event unsent inHand => (balanced.held event unsent inHand).push tree data none
  delivered := fun delivery member => (balanced.delivered delivery member).push tree data none
  fresh := fun sent member => by
    rcases List.mem_cons.mp member with rfl | old
    · exact Nat.lt_succ_self events.nextEvent
    · exact (balanced.fresh sent old).trans (Nat.lt_succ_self _)
  unique := fun sent member other member' same => by
    rcases List.mem_cons.mp member with rfl | old
    · rcases List.mem_cons.mp member' with rfl | old'
      · rfl
      · exact absurd (balanced.fresh other old') (by rw [← same]; exact lt_irrefl _)
    · rcases List.mem_cons.mp member' with rfl | old'
      · exact absurd (balanced.fresh sent old) (by rw [same]; exact lt_irrefl _)
      · exact balanced.unique sent old other old' same
  once := fun sent member element => by
    show events.given sent.event element + (owes ⟨events.nextEvent, data, tree, events.nextEvent⟩ sent.event element +
      events.owed sent.event element) + hand.debt sent.event element = _
    rcases List.mem_cons.mp member with rfl | old
    · -- nothing was given of a new event, and nothing else owes it
      have given : events.given events.nextEvent element = 0 := by
        unfold EventQueue.given
        refine List.countP_eq_zero.mpr fun delivery inLog => ?_
        rw [decide_eq_true_eq]
        rintro ⟨same, -⟩
        exact balanced.not_known _ (same ▸ balanced.delivered delivery inLog)
      have owed : events.owed events.nextEvent element = 0 := by
        refine List.sum_eq_zero_iff_forall_eq_nat.mpr fun amount inList => ?_
        obtain ⟨event, queued, rfl⟩ := List.mem_map.mp inList
        exact if_neg fun same => balanced.not_known _ (same ▸ balanced.queued event queued)
      have debt : hand.debt events.nextEvent element = 0 := by
        rcases hand with _ | ⟨event, unsent⟩
        · rfl
        · exact if_neg fun same => balanced.not_known _ (same ▸ balanced.held event unsent rfl)
      rw [given, owed, debt, owes, if_pos rfl, Nat.zero_add, Nat.add_zero]
    · have once := balanced.once sent old element
      have other : owes ⟨events.nextEvent, data, tree, events.nextEvent⟩ sent.event element = 0 :=
        if_neg fun same => absurd (balanced.fresh sent old) (by rw [← same]; exact lt_irrefl _)
      rw [other]
      omega

theorem balanced_pushAll (balanced : events.Balanced hand) (list : List (GuiTree × GuiEventData)) :
    (events.pushAll none list).Balanced hand := by
  induction list generalizing events with
  | nil => exact balanced
  | cons event rest ih => exact ih (balanced_push balanced event.1 event.2)

/-- **A clone for a child is pushed.** -/
theorem balanced_clone {event : GuiEvent} {child : GuiTree} {rest : List GuiTree}
    (balanced : events.Balanced (some (event, child :: rest))) :
    (events.push child event.data (some event.origin)).Balanced (some (event, rest)) where
  ids := ids_push balanced child event.data (some event.origin)
  queued := fun other member => by
    rcases List.mem_cons.mp member with rfl | old
    · exact balanced.held event _ rfl
    · exact balanced.queued other old
  held := fun other unsent inHand => by
    cases inHand
    exact balanced.held event _ rfl
  delivered := balanced.delivered
  fresh := fun sent member => (balanced.fresh sent member).trans (Nat.lt_succ_self _)
  unique := balanced.unique
  once := fun sent member element => by
    have once := balanced.once sent member element
    show events.given sent.event element + ((if event.origin = sent.event then child.elements.count element else 0) +
      events.owed sent.event element) + (if event.origin = sent.event then _ else 0) = _
    change _ + _ + (if event.origin = sent.event then _ else 0) = _ at once
    by_cases same : event.origin = sent.event
    · rw [if_pos same, List.map_cons, List.sum_cons] at once
      rw [if_pos same, if_pos same]
      omega
    · rw [if_neg same] at once
      rw [if_neg same, if_neg same]
      omega

theorem balanced_clones {event : GuiEvent} {children : List GuiTree} (balanced : events.Balanced (some (event, children))) :
    (events.pushAll (some event.origin) (forAll children event.data)).Balanced (some (event, [])) := by
  induction children generalizing events with
  | nil => exact balanced
  | cons child rest ih => exact ih (balanced_clone balanced)

/-- **The newest event is taken and delivered.** -/
theorem balanced_take {event : GuiEvent} {older : List GuiEvent} (queue : events.queue = event :: older)
    (balanced : events.Balanced none) :
    ({ events with queue := older }.deliver event).Balanced (some (event, event.element.children)) where
  ids := fun id => by
    have ids := balanced.ids id
    rw [queue, List.map_cons, List.count_cons] at ids
    show events.freed.count id + (older.map GuiEvent.ptr).count id + [event.ptr].count id = _
    rw [List.count_cons, List.count_nil]
    change _ + _ + 0 = if id < events.nextEvent then 1 else 0 at ids
    show _ = if id < events.nextEvent then 1 else 0
    omega
  queued := fun other member => balanced.queued other (by rw [queue]; exact List.mem_cons_of_mem _ member)
  held := fun other unsent inHand => by
    cases inHand
    exact balanced.queued event (by rw [queue]; exact List.mem_cons_self)
  delivered := fun delivery member => by
    rcases List.mem_cons.mp member with rfl | old
    · exact balanced.queued event (by rw [queue]; exact List.mem_cons_self)
    · exact balanced.delivered delivery old
  fresh := balanced.fresh
  unique := balanced.unique
  once := fun sent member element => by
    have once := balanced.once sent member element
    unfold owed at once
    rw [queue, List.map_cons, List.sum_cons] at once
    change events.given sent.event element + (owes event sent.event element + _) + 0 = _ at once
    have given : ({ events with queue := older }.deliver event).given sent.event element = events.given sent.event element +
        if event.origin = sent.event ∧ event.element.element = element then 1 else 0 := by
      show ((⟨event.origin, event.element.element, event.data⟩ : Delivery) :: events.delivered).countP _ = _
      rw [List.countP_cons]
      simp only [decide_eq_true_eq]
      rfl
    rw [given]
    show _ + _ + (older.map fun event => owes event sent.event element).sum + (if event.origin = sent.event then _ else 0) = _
    unfold owes at once ⊢
    by_cases same : event.origin = sent.event
    · have below : event.element.elements.count element = (event.element.children.map fun tree =>
          tree.elements.count element).sum + if event.element.element = element then 1 else 0 := by
        rw [GuiTree.elements_eq, List.count_cons, List.count_flatMap]
        simp only [beq_iff_eq]
        rfl
      rw [if_pos same, below] at once
      rw [if_pos same]
      by_cases here : event.element.element = element
      · rw [if_pos here] at once
        rw [if_pos ⟨same, here⟩]
        omega
      · rw [if_neg here] at once
        rw [if_neg fun both => here both.2]
        omega
    · rw [if_neg same] at once
      rw [if_neg same, if_neg fun both => same both.1]
      omega

/-- **The event in hand is freed.** -/
theorem balanced_free {event : GuiEvent} (balanced : events.Balanced (some (event, []))) :
    (events.free event.ptr).Balanced none where
  ids := fun id => by
    have ids := balanced.ids id
    show (event.ptr :: events.freed).count id + _ + 0 = if id < events.nextEvent then 1 else 0
    rw [← ids, List.count_cons]
    show _ = _ + _ + [event.ptr].count id
    rw [List.count_cons, List.count_nil]
    show _ + _ + (events.queue.map GuiEvent.ptr).count id + 0 = _
    omega
  queued := balanced.queued
  held := fun _ _ none_ => by cases none_
  delivered := balanced.delivered
  fresh := balanced.fresh
  unique := balanced.unique
  once := fun sent member element => by
    have once := balanced.once sent member element
    have debt : Hand.debt (some (event, [])) sent.event element = 0 := by
      show (if event.origin = sent.event then 0 else 0) = 0
      exact ite_self 0
    rw [debt] at once
    exact once

/-- **A round keeps the balance**, when the handler passes the event on. -/
theorem balanced_round {event : GuiEvent} {older : List GuiEvent} (queue : events.queue = event :: older)
    (balanced : events.Balanced none) (passes : event.element.element.eventHandler.passes = true)
    (sends : List (GuiTree × GuiEventData)) : (events.round event older sends).Balanced none := by
  unfold EventQueue.round
  rw [if_pos passes]
  exact balanced_free (balanced_clones (balanced_pushAll (balanced_take queue balanced) sends))

end Push

/-! ### The trees of the events -/

/-- What holds of all trees that events are or were queued on. -/
structure AllTrees (holds : GuiTree → Prop) (events : EventQueue) : Prop where
  queued : ∀ event ∈ events.queue, holds event.element
  sent : ∀ sent ∈ events.sent, holds sent.element

section Trees

variable {holds : GuiTree → Prop} {events : EventQueue}

theorem AllTrees.push (all : events.AllTrees holds) {tree : GuiTree} (here : holds tree) (data : GuiEventData)
    (origin : Option Nat) : (events.push tree data origin).AllTrees holds where
  queued := fun event member => by
    rcases List.mem_cons.mp member with rfl | old
    · exact here
    · exact all.queued event old
  sent := fun sent member => by
    unfold EventQueue.push at member
    dsimp only at member
    split at member
    · exact all.sent sent member
    · rcases List.mem_cons.mp member with rfl | old
      · exact here
      · exact all.sent sent old

theorem AllTrees.pushAll (all : events.AllTrees holds) {list : List (GuiTree × GuiEventData)}
    (here : ∀ send ∈ list, holds send.1) (origin : Option Nat) : (events.pushAll origin list).AllTrees holds := by
  induction list generalizing events with
  | nil => exact all
  | cons send rest ih =>
      exact ih (all.push (here send List.mem_cons_self) send.2 origin) fun other member =>
        here other (List.mem_cons_of_mem _ member)

/-- A round keeps what holds of the roots, and of the children of a tree that it holds of. -/
theorem AllTrees.round (all : events.AllTrees holds) (below : ∀ tree, holds tree → ∀ child ∈ tree.children, holds child)
    {event : GuiEvent} {older : List GuiEvent} (queue : events.queue = event :: older) {roots : List GuiTree}
    (root : ∀ tree ∈ roots, holds tree) (focused : Option GuiElement) :
    (events.round event older (event.sends roots focused)).AllTrees holds := by
  have here : holds event.element := all.queued event (by rw [queue]; exact List.mem_cons_self)
  have taken : ({ events with queue := older }.deliver event).AllTrees holds :=
    ⟨fun other member => all.queued other (by rw [queue]; exact List.mem_cons_of_mem _ member), all.sent⟩
  have pushed : (({ events with queue := older }.deliver event).pushAll none (event.sends roots focused)).AllTrees holds :=
    taken.pushAll (fun send member => by
      rcases (mem_sends member).2 with isRoot | own
      · exact root send.1 isRoot
      · rw [own]
        exact here) none
  have clones : ∀ send ∈ (if event.element.element.eventHandler.passes then forAll event.element.children event.data else []),
      holds send.1 := fun send member => by
    split at member
    · obtain ⟨child, isChild, rfl⟩ := List.mem_map.mp member
      exact below event.element here child isChild
    · cases member
  have cloned := pushed.pushAll clones (some event.origin)
  exact ⟨cloned.queued, cloned.sent⟩

/-- What was sent stays sent. -/
theorem sent_pushAll (origin : Option Nat) (list : List (GuiTree × GuiEventData)) :
    events.sent ⊆ (events.pushAll origin list).sent := by
  induction list generalizing events with
  | nil => exact List.Subset.refl _
  | cons send rest ih =>
      refine List.Subset.trans (fun sent member => ?_) ih
      unfold EventQueue.push
      dsimp only
      split
      · exact member
      · exact List.mem_cons_of_mem _ member

theorem sent_round (events : EventQueue) (event : GuiEvent) (older : List GuiEvent) (sends : List (GuiTree × GuiEventData)) :
    events.sent ⊆ (events.round event older sends).sent := by
  have pushed := @sent_pushAll ({ events with queue := older }.deliver event) none sends
  exact List.Subset.trans pushed (sent_pushAll (some event.origin) _)

/-- Each event that is pushed has the next address. -/
theorem mem_sent_pushAll (list : List (GuiTree × GuiEventData)) {i : Nat} (below : i < list.length) :
    ⟨events.nextEvent + i, list[i].1, list[i].2⟩ ∈ (events.pushAll none list).sent := by
  induction list generalizing events i with
  | nil => exact absurd below (Nat.not_lt_zero i)
  | cons send rest ih =>
      cases i with
      | zero => exact sent_pushAll none rest List.mem_cons_self
      | succ i =>
          have member := @ih (events.push send.1 send.2 none) i (Nat.lt_of_succ_lt_succ below)
          rw [show (events.push send.1 send.2 none).nextEvent + i = events.nextEvent + (i + 1) from by
            show events.nextEvent + 1 + i = _
            omega] at member
          exact member

end Trees

end EventQueue

/-! ### The theorem -/

/-- **A tree of elements, none a button**: its elements are different, and their handlers pass events on. -/
structure GuiTree.Plain (tree : GuiTree) : Prop where
  passes : ∀ element ∈ tree.elements, element.eventHandler.passes = true
  distinct : tree.elements.Nodup

theorem GuiTree.Plain.child {tree : GuiTree} (plain : tree.Plain) {child : GuiTree} (isChild : child ∈ tree.children) :
    child.Plain := by
  obtain ⟨passes, distinct⟩ := plain
  rw [GuiTree.elements_eq] at passes distinct
  refine ⟨fun element member => passes element ?_, ?_⟩
  · exact List.mem_cons_of_mem _ (List.mem_flatMap.mpr ⟨child, isChild, member⟩)
  · exact (List.nodup_flatMap.mp (List.nodup_cons.mp distinct).2).1 child isChild

/-- **All events are done with.** -/
structure Gui.Drained (gui : Gui) (queue : List (GuiTree × GuiEventData)) : Prop where
  empty : gui.guiEvents.queue = []
  first : ∀ i (below : i < queue.length), ⟨i, queue[i].1, queue[i].2⟩ ∈ gui.guiEvents.sent
  once : ∀ sent ∈ gui.guiEvents.sent, ∀ element,
    gui.guiEvents.given sent.event element = if element ∈ sent.element.elements then 1 else 0
  delivered : ∀ delivery ∈ gui.guiEvents.delivered, ∃ sent ∈ gui.guiEvents.sent,
    sent.event = delivery.origin ∧ sent.data = delivery.data
  unique : ∀ sent ∈ gui.guiEvents.sent, ∀ other ∈ gui.guiEvents.sent, sent.event = other.event → sent = other
  freed : ∀ event, gui.guiEvents.freed.count event = if event < gui.guiEvents.nextEvent then 1 else 0

/-- A gui with a queue of events on its elements. -/
def Gui.withQueue (gui : Gui) (queue : List (GuiTree × GuiEventData)) : Gui :=
  { gui with guiEvents := EventQueue.empty.pushAll none queue }

/-- What every round keeps, from the beginning of the loop. -/
structure Gui.Kept (gui state : Gui) : Prop where
  elements : state.elements = gui.elements
  balanced : state.guiEvents.Balanced none
  plain : state.guiEvents.AllTrees GuiTree.Plain
  older : gui.guiEvents.sent ⊆ state.guiEvents.sent

theorem Gui.Kept.round {gui state state' : Gui} (roots : ∀ tree ∈ gui.elements, tree.Plain) (kept : gui.Kept state)
    (round : processNewest state = some state') : gui.Kept state' := by
  obtain ⟨event, rest, queue, elements, -, events⟩ := processNewest_spec round
  have here := kept.plain.queued event (by rw [queue]; exact List.mem_cons_self)
  have passes := here.passes event.element.element (by rw [GuiTree.elements_eq]; exact List.mem_cons_self)
  refine ⟨elements.trans kept.elements, ?_, ?_, ?_⟩
  · rw [events]
    exact EventQueue.balanced_round queue kept.balanced passes _
  · rw [events, kept.elements]
    exact kept.plain.round (fun tree plain child => plain.child) queue roots _
  · rw [events]
    exact List.Subset.trans kept.older (EventQueue.sent_round _ _ _ _)

/-- **The loop ends with an empty queue; every event that was queued on an element was delivered once to it and once to each of
its descendants; and every clone was freed once.** -/
theorem guiEvents_drained (gui : Gui) (queue : List (GuiTree × GuiEventData)) (roots : ∀ tree ∈ gui.elements, tree.Plain)
    (plain : ∀ event ∈ queue, event.1.Plain) :
    ∃ fuel last, guiElementEventsProcess fuel (gui.withQueue queue) = some last ∧ last.Drained queue := by
  obtain ⟨fuel, last, ends⟩ := guiElementEventsProcess_ends (gui.withQueue queue)
  refine ⟨fuel, last, ends, ?_⟩
  have start : (gui.withQueue queue).Kept (gui.withQueue queue) :=
    ⟨rfl, EventQueue.balanced_pushAll EventQueue.balanced_empty queue,
      EventQueue.AllTrees.pushAll ⟨fun _ member => absurd member List.not_mem_nil,
        fun _ member => absurd member List.not_mem_nil⟩ plain none, List.Subset.refl _⟩
  obtain ⟨kept, done⟩ := drain_keeps (gui.withQueue queue).Kept (fun _ _ kept round => kept.round roots round) start ends
  have empty := processNewest_done.mp done
  refine ⟨empty, fun i below => kept.older ?_, fun sent member element => ?_, kept.balanced.delivered, kept.balanced.unique,
    fun event => ?_⟩
  · have first := @EventQueue.mem_sent_pushAll EventQueue.empty queue i below
    rwa [show EventQueue.empty.nextEvent + i = i from Nat.zero_add i] at first
  · have once := kept.balanced.once sent member element
    have owed : last.guiEvents.owed sent.event element = 0 := by
      unfold EventQueue.owed
      rw [empty]
      rfl
    rw [owed] at once
    rw [← (kept.plain.sent sent member).distinct.count]
    exact once
  · have ids := kept.balanced.ids event
    rw [empty] at ids
    exact ids

/-! ### A plane with a list area and a text field -/

/-- An element with a handler. -/
def handled (ptr : Nat) (parent : Option GuiElement) (width height : Int) (handler : GuiHandler) : GuiElement :=
  { guiElementCreate ptr parent 0 0 width height 0 with eventHandler := handler }

/-- The plane. -/
def planeElement : GuiElement := handled 1 none 100 50 .plane

/-- The plane with its children, one of which has the default handler. -/
def planeTree : GuiTree :=
  .node planeElement [.node (handled 2 (some planeElement) 50 50 (.listarea 3 16)) [],
    .node (handled 3 (some planeElement) 20 20 (.textfield false)) [],
    .node (handled 4 (some planeElement) 10 10 .element) []]

/-- Its gui. -/
def planeGui : Gui := ⟨[planeTree], none, .empty, false, fun _ => false, fun _ => -1⟩

/-- **A click on it and a key are drained.** -/
theorem guiEvents_drained_plane :
    ∃ fuel last, guiElementEventsProcess fuel
        (planeGui.withQueue [(planeTree, .elementClicked 0 5 5), (planeTree, .keystroke 65)]) = some last ∧
      last.Drained [(planeTree, .elementClicked 0 5 5), (planeTree, .keystroke 65)] := by
  have plain : planeTree.Plain := ⟨by decide, by decide⟩
  refine guiEvents_drained planeGui _ (fun tree root => ?_) (fun event member => ?_)
  · rw [List.mem_singleton.mp root]
    exact plain
  · rcases List.mem_cons.mp member with rfl | last
    · exact plain
    · rw [List.mem_singleton.mp last]
      exact plain

end PeachOS
