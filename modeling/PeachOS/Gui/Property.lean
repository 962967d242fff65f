/-
**The properties of an element: `programs/guilib/src/gui/property.c`.**

`gui_element_property_has` compares the callback of each attached property with itself, so that it finds any property that is
attached. The clone that is made for the element is kept nowhere: the element gets the pointer of the caller. `unattach` returns
zero when it finds nothing.

* `propertyRun_callers` — in every run an element has at most one property, and its pointer is one of a caller;
* `propertyCalls_iff` — after no call are the properties a set of clones by their callback.
-/

import PeachOS.Process.Load
import PeachOS.Vector.Elements

namespace PeachOS

/-! ### The code -/

/-- `listeners`, with the addresses of the handlers. -/
structure PropertyListeners where
  click : Nat
  move : Nat
  attached : Nat
  unattached : Nat
  event : Nat

/-- `struct gui_element_property`. -/
structure GuiElementProperty where
  element : Nat
  listeners : PropertyListeners

/-- An element with the pointers in its `properties`, the properties in memory, and the clones that were allocated and not
freed. -/
structure ElementProperties where
  element : Nat
  properties : List Nat
  memory : Nat → GuiElementProperty
  clones : List Nat

/-- `gui_element_property_has`. -/
def guiElementPropertyHas (σ : ElementProperties) (_property : Nat) : Bool :=
  σ.properties.any fun currentProperty => currentProperty ≠ 0 ∧
    (σ.memory currentProperty).listeners.attached = (σ.memory currentProperty).listeners.attached

/-- `gui_element_property_attach`, with what `calloc` returns for the clone, what the callback returns, and whether `vector_push`
has memory. -/
def guiElementPropertyAttach (σ : ElementProperties) (property clonedProperty : Nat) (answer : Int) (grows : Bool) :
    Int × ElementProperties :=
  if (σ.memory property).listeners.attached = 0 then (einvarg, σ)
  else if guiElementPropertyHas σ property then (eistkn, σ)
  else if clonedProperty = 0 then (enomem, σ)
  else if answer < 0 then (answer, σ)
  else
    (answer, { σ with
      memory := Function.update σ.memory clonedProperty { σ.memory property with element := σ.element }
      clones := clonedProperty :: σ.clones
      properties := if grows then σ.properties ++ [property] else σ.properties })

/-- `gui_element_property_unattach`, with what the callback returns and whether `vector_pop_element` has memory. -/
def guiElementPropertyUnattach (σ : ElementProperties) (property : Nat) (answer : Int) (memory : Bool) :
    Int × ElementProperties :=
  if !guiElementPropertyHas σ property then (0, σ)
  else if (σ.memory property).listeners.unattached ≠ 0 ∧ answer < 0 then (0, σ)
  else (0, { σ with properties := (vectorPopElement memory σ.properties property).2 })

/-- The memory with a property of the caller. -/
def ElementProperties.placed (σ : ElementProperties) (ptr : Nat) (property : GuiElementProperty) : ElementProperties :=
  { σ with memory := Function.update σ.memory ptr property }

/-- A call with a property of the caller, at an address of its own or one that it had before. -/
inductive PropertyCall
  | attach (ptr : Nat) (property : GuiElementProperty) (clonedProperty : Nat) (answer : Int) (grows : Bool)
  | unattach (ptr : Nat) (property : GuiElementProperty) (answer : Int) (memory : Bool)

namespace PropertyCall

/-- The address of the property. -/
def ptr : PropertyCall → Nat
  | attach ptr .. => ptr
  | unattach ptr .. => ptr

/-- The property. -/
def property : PropertyCall → GuiElementProperty
  | attach _ property .. => property
  | unattach _ property .. => property

/-- What a call does. -/
def run (σ : ElementProperties) : PropertyCall → Int × ElementProperties
  | attach ptr property clonedProperty answer grows =>
      guiElementPropertyAttach (σ.placed ptr property) ptr clonedProperty answer grows
  | unattach ptr property answer memory => guiElementPropertyUnattach (σ.placed ptr property) ptr answer memory

/-! ### A set of clones -/

/-- The callback that a property goes by. -/
def key (call : PropertyCall) : Nat := call.property.listeners.attached

/-- **The answer that is meant**: a property is attached when its callback is not, and taken off when it is. -/
def Answers (keys : List Nat) (call : PropertyCall) (res : Int) : Prop :=
  match call with
  | attach .. => 0 ≤ res ↔ call.key ∉ keys
  | unattach .. => 0 ≤ res ↔ call.key ∈ keys

/-- The callbacks that are attached after a call. -/
def onKeys (keys : List Nat) (call : PropertyCall) (res : Int) : List Nat :=
  match call with
  | attach .. => if 0 ≤ res then call.key :: keys else keys
  | unattach .. => keys.erase call.key

/-- The callbacks are there and return success, and the clone is not in the place of the caller's property. -/
def Succeeds : PropertyCall → Prop
  | attach ptr property clonedProperty answer _ => property.listeners.attached ≠ 0 ∧ 0 ≤ answer ∧ clonedProperty ≠ ptr
  | unattach _ property answer _ => property.listeners.attached ≠ 0 ∧ 0 ≤ answer

end PropertyCall

/-- **The properties of an element are a set of clones by their callback.** -/
structure ElementProperties.IsSet (σ : ElementProperties) (keys : List Nat) : Prop where
  keyed : ∀ key, key ∈ keys ↔ ∃ property ∈ σ.properties, (σ.memory property).listeners.attached = key
  own : ∀ property ∈ σ.properties, property ∈ σ.clones

/-- **They are one before and after every call of a sequence**, and every call gives the answer that is meant. -/
def CallsRight (σ : ElementProperties) (keys : List Nat) : List PropertyCall → Prop
  | [] => σ.IsSet keys
  | call :: calls => σ.IsSet keys ∧ call.Answers keys (call.run σ).1 ∧
      CallsRight (call.run σ).2 (call.onKeys keys (call.run σ).1) calls

/-- An element that was just created. -/
def withoutProperties (element : Nat) (memory : Nat → GuiElementProperty) : ElementProperties := ⟨element, [], memory, []⟩

/-! ### What is attached -/

section Calls

variable {σ : ElementProperties}

/-- **Any property that is attached is found.** -/
theorem guiElementPropertyHas_eq (nonNull : 0 ∉ σ.properties) (property : Nat) :
    guiElementPropertyHas σ property = !σ.properties.isEmpty := by
  unfold guiElementPropertyHas
  cases properties : σ.properties with
  | nil => rfl
  | cons first rest =>
      have isSome : first ≠ 0 := fun null => nonNull (by rw [properties, null]; exact List.mem_cons_self)
      simp [isSome]

/-- A property with a callback is attached when none is found. -/
theorem guiElementPropertyAttach_free {property clonedProperty : Nat} {answer : Int} {grows : Bool}
    (isCallback : (σ.memory property).listeners.attached ≠ 0) (missing : guiElementPropertyHas σ property = false) :
    guiElementPropertyAttach σ property clonedProperty answer grows =
      if clonedProperty = 0 then (enomem, σ)
      else if answer < 0 then (answer, σ)
      else
        (answer, { σ with
          memory := Function.update σ.memory clonedProperty { σ.memory property with element := σ.element }
          clones := clonedProperty :: σ.clones
          properties := if grows then σ.properties ++ [property] else σ.properties }) := by
  rw [guiElementPropertyAttach, if_neg isCallback, missing, if_neg Bool.false_ne_true]

/-- What an element keeps of its calls: at most one pointer, and only those of callers. -/
structure ElementProperties.OfCallers (σ : ElementProperties) (calls : List PropertyCall) : Prop where
  atMostOne : σ.properties.length ≤ 1
  callers : ∀ property ∈ σ.properties, ∃ call ∈ calls, call.ptr = property

/-- Pointers are only taken off. -/
theorem vectorPopElement_sublist (memory : Bool) (elements : List Nat) (value : Nat) :
    (vectorPopElement memory elements value).2.Sublist elements := by
  unfold vectorPopElement
  split_ifs
  · exact List.Sublist.refl _
  · exact List.erase_sublist
  · exact List.Sublist.refl _

/-- A call keeps it. -/
theorem ElementProperties.OfCallers.run {calls : List PropertyCall} (kept : σ.OfCallers calls)
    (nonNull : ∀ call ∈ calls, call.ptr ≠ 0) {call : PropertyCall} (isCall : call ∈ calls) : (call.run σ).2.OfCallers calls := by
  have noNull : 0 ∉ σ.properties := fun isIn => by
    obtain ⟨call, isCall, null⟩ := kept.callers 0 isIn
    exact nonNull call isCall null
  cases call with
  | attach ptr property clonedProperty answer grows =>
      unfold PropertyCall.run guiElementPropertyAttach
      dsimp only
      split_ifs with noCallback found noMemory refused room
      · exact ⟨kept.atMostOne, kept.callers⟩
      · exact ⟨kept.atMostOne, kept.callers⟩
      · exact ⟨kept.atMostOne, kept.callers⟩
      · exact ⟨kept.atMostOne, kept.callers⟩
      · have noProperty : σ.properties = [] := by
          rw [@guiElementPropertyHas_eq (σ.placed ptr property) noNull] at found
          simpa [ElementProperties.placed] using found
        refine ⟨?_, fun isProperty isIn => ⟨_, isCall, ?_⟩⟩
        · show (σ.properties ++ [ptr]).length ≤ 1
          rw [noProperty]
          exact le_rfl
        · have isIn : isProperty ∈ σ.properties ++ [ptr] := isIn
          rw [noProperty] at isIn
          exact (List.mem_singleton.mp isIn).symm
      · exact ⟨kept.atMostOne, kept.callers⟩
  | unattach ptr property answer memory =>
      unfold PropertyCall.run guiElementPropertyUnattach
      dsimp only
      split_ifs with missing refused
      · exact ⟨kept.atMostOne, kept.callers⟩
      · exact ⟨kept.atMostOne, kept.callers⟩
      · have fewer := vectorPopElement_sublist memory σ.properties ptr
        exact ⟨fewer.length_le.trans kept.atMostOne, fun isProperty isIn => kept.callers isProperty (fewer.subset isIn)⟩

end Calls

/-- **In every run of calls an element has at most one property**, and its pointer is one of a caller. -/
theorem propertyRun_callers (element : Nat) (memory : Nat → GuiElementProperty) (calls : List PropertyCall)
    (nonNull : ∀ call ∈ calls, call.ptr ≠ 0) :
    (calls.foldl (fun σ call => (PropertyCall.run σ call).2) (withoutProperties element memory)).OfCallers calls := by
  suffices all : ∀ (rest : List PropertyCall) (σ : ElementProperties), rest ⊆ calls → σ.OfCallers calls →
      (rest.foldl (fun σ call => (PropertyCall.run σ call).2) σ).OfCallers calls from
    all calls _ (List.Subset.refl _) ⟨Nat.zero_le _, fun property isIn => absurd isIn List.not_mem_nil⟩
  intro rest
  induction rest with
  | nil => exact fun σ _ kept => kept
  | cons call rest ih =>
      intro σ areCalls kept
      obtain ⟨isCall, areCalls⟩ := List.cons_subset.mp areCalls
      exact ih _ areCalls (kept.run nonNull isCall)

/-! ### The result -/

/-- **The first call on an element**: it gives another answer, or leaves no set of clones. -/
theorem firstCall_wrong (element : Nat) (memory : Nat → GuiElementProperty) (call : PropertyCall) (succeeds : call.Succeeds)
    (answers : call.Answers [] (call.run (withoutProperties element memory)).1) :
    ¬ (call.run (withoutProperties element memory)).2.IsSet
      (call.onKeys [] (call.run (withoutProperties element memory)).1) := by
  intro isSet
  cases call with
  | attach ptr property clonedProperty answer grows =>
      obtain ⟨isCallback, isSuccess, elsewhere⟩ := succeeds
      have here : Function.update memory ptr property ptr = property := Function.update_self _ _ _
      have attached := @guiElementPropertyAttach_free ((withoutProperties element memory).placed ptr property) ptr clonedProperty
        answer grows (by show (Function.update memory ptr property ptr).listeners.attached ≠ 0; rwa [here]) rfl
      have run : PropertyCall.run (withoutProperties element memory)
        (.attach ptr property clonedProperty answer grows) = _ := attached
      rw [run] at answers isSet
      by_cases noMemory : clonedProperty = 0
      · rw [if_pos noMemory] at answers
        have failed : 0 ≤ enomem := answers.mpr List.not_mem_nil
        exact absurd failed (by decide)
      · rw [if_neg noMemory, if_neg (not_lt.mpr isSuccess)] at isSet
        cases grows with
        | true => exact elsewhere (List.mem_singleton.mp (isSet.own ptr List.mem_cons_self)).symm
        | false =>
            -- The callback counts as attached, but there is no property.
            have isKey : property.listeners.attached ∈ PropertyCall.onKeys []
                (.attach ptr property clonedProperty answer false) answer := by
              unfold PropertyCall.onKeys
              rw [if_pos isSuccess]
              exact List.mem_cons_self
            obtain ⟨_, isIn, -⟩ := (isSet.keyed _).mp isKey
            exact absurd isIn List.not_mem_nil
  | unattach ptr property answer memory => exact absurd (answers.mp le_rfl) List.not_mem_nil

/-- What is right after a sequence of calls is right before the second. -/
theorem CallsRight.isSet {σ : ElementProperties} {keys : List Nat} {calls : List PropertyCall} (right : CallsRight σ keys calls) :
    σ.IsSet keys := by
  cases calls with
  | nil => exact right
  | cons call calls => exact right.1

/-- **After no call are the properties a set of clones by their callback.** -/
theorem propertyCalls_iff (element : Nat) (memory : Nat → GuiElementProperty) (calls : List PropertyCall)
    (succeed : ∀ call ∈ calls, call.Succeeds) : CallsRight (withoutProperties element memory) [] calls ↔ calls = [] := by
  cases calls with
  | nil =>
      refine iff_of_true ⟨fun key => iff_of_false List.not_mem_nil ?_, fun property isIn => absurd isIn List.not_mem_nil⟩ rfl
      rintro ⟨property, isIn, -⟩
      exact absurd isIn List.not_mem_nil
  | cons call calls =>
      refine iff_of_false (fun right => ?_) (List.cons_ne_nil _ _)
      exact firstCall_wrong element memory call (succeed call List.mem_cons_self) right.2.1 right.2.2.isSet

/-- A property with callbacks. -/
def stackProperty : GuiElementProperty := ⟨0, ⟨0, 0, 0x400100, 0x400200, 0⟩⟩

/-- It is attached from the stack of the caller. -/
def attachStack : PropertyCall := .attach 0x3FF000 stackProperty 0x500000 0 true

/-- The element has this property then, and no other. -/
theorem propertyRun_callers_stack : ([attachStack].foldl (fun σ call => (PropertyCall.run σ call).2)
    (withoutProperties 0x600000 fun _ => stackProperty)).OfCallers [attachStack] :=
  propertyRun_callers 0x600000 (fun _ => stackProperty) [attachStack] fun call isCall => by
    rw [List.mem_singleton.mp isCall]
    decide

/-- It is no set of clones. -/
theorem propertyCalls_iff_stack : ¬ CallsRight (withoutProperties 0x600000 fun _ => stackProperty) [] [attachStack] := by
  have succeed : ∀ call ∈ [attachStack], call.Succeeds := fun call isCall => by
    rw [List.mem_singleton.mp isCall]
    exact ⟨by decide, by decide, by decide⟩
  intro right
  exact List.cons_ne_nil _ _ ((propertyCalls_iff 0x600000 (fun _ => stackProperty) [attachStack] succeed).mp right)

/-- **A property of the caller is kept.** -/
theorem propertyAttach_keepsCallers : ¬ ∀ (element : Nat) (memory : Nat → GuiElementProperty) (calls : List PropertyCall),
    (∀ call ∈ calls, call.Succeeds) → CallsRight (withoutProperties element memory) [] calls := by
  intro always
  have right := always 0x600000 (fun _ => stackProperty) [attachStack] fun call isCall => by
    rw [List.mem_singleton.mp isCall]
    exact ⟨by decide, by decide, by decide⟩
  have own := right.2.2.own 0x3FF000 (by decide)
  exact absurd own (by decide)

end PeachOS
