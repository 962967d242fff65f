/-
**The items of a list area: `gui_element_listarea_list_add` and `gui_element_listarea_list_remove`.**

An item is freed before it is taken out of the vector, and `vector_pop_element` gets the item where it wants a pointer to the
item: it looks for what is found in the freed memory. That memory may be what it allocates for its own copy of an element; then
the copy is compared with itself, and the first item goes.

* `erase_eq_eraseIdx_iff` — a value that is searched takes out the item of an index when it is this item;
* `listareaRemove_kept_iff` — when a removal takes out its item;
* `listareaItems_kept` — the items in every run of calls that do.
-/

import Mathlib.Data.List.GetD
import Mathlib.Data.List.Nodup
import PeachOS.Machine
import PeachOS.Lib.StepRun
import PeachOS.Vector.Elements

namespace PeachOS

open StepRun

/-! ### The code -/

/-- The elements of the vector, pointers to items, and the items that are allocated. The elements are `none` when the memory of
the vector is lost or the program was stopped at a page that is not there: what happens then is not followed. -/
structure ListareaItems where
  elements : Option (List Nat)
  live : List Nat

/-- `gui_element_listarea_list_add`, with what `calloc` returns for the item, and whether `vector_push` has memory. A vector whose
growth fails has no memory left. -/
def listareaListAdd (σ : ListareaItems) (elements : List Nat) (listElement : Nat) (grows : Bool) : ListareaItems :=
  if listElement = 0 then σ
  else
    { elements := if grows then some (elements ++ [listElement]) else if elements = [] then some [] else none
      live := listElement :: σ.live }

/-- `gui_element_listarea_list_element`; the `int` index is compared as a `size_t`. -/
def listareaListElement (elements : List Nat) (index : Int) : Nat :=
  if toWord index ≥ elements.length then 0 else elements.getD (toWord index) 0

/-- `gui_element_listarea_list_remove`, with what `calloc` returns for the copy of an element in `vector_pop_element`, and the
pointer that is read at the freed item; `none` when there is no page. The copy of the first element may be in its place. -/
def listareaListRemove (σ : ListareaItems) (elements : List Nat) (index : Int) (tmpMem : Nat) (residue : Option Nat) :
    ListareaItems :=
  let listElement := listareaListElement elements index
  if listElement = 0 then σ
  else
    { elements :=
        if tmpMem = 0 then some elements
        else (if tmpMem = listElement then elements.head? else residue).map fun value => (vectorPopElement true elements value).2
      live := σ.live.filter (· ≠ listElement) }

/-- The calls on the items, with what they find in the memory. -/
inductive ListareaCall
  | add (listElement : Nat) (grows : Bool)
  | remove (index : Int) (tmpMem : Nat) (residue : Option Nat)

/-- What a call does. -/
def ListareaCall.run (σ : ListareaItems) (elements : List Nat) : ListareaCall → ListareaItems
  | add listElement grows => listareaListAdd σ elements listElement grows
  | remove index tmpMem residue => listareaListRemove σ elements index tmpMem residue

/-! ### The items -/

/-- **What a call means for the items**: one is added when the call succeeds, or the one at the index is removed. -/
def ListareaCall.onItems (items : List Nat) : ListareaCall → List Nat
  | add listElement grows => if listElement ≠ 0 ∧ grows then items ++ [listElement] else items
  | remove index _ _ => items.eraseIdx (toWord index)

/-- A run of calls: what the code has, and the items that were added and not removed. -/
structure ListareaRun where
  code : ListareaItems
  items : List Nat

/-- `calloc` returns no item that is allocated. -/
def ListareaCall.Allocates (live : List Nat) : ListareaCall → Prop
  | add listElement _ => listElement ∉ live
  | remove .. => True

/-- A call of a run. -/
structure itemsStep (σ : ListareaRun) (call : ListareaCall) (σ' : ListareaRun) : Prop where
  allocates : call.Allocates σ.code.live
  code : ∀ elements, σ.code.elements = some elements → σ'.code = call.run σ.code elements
  items : σ'.items = call.onItems σ.items

/-- A list area that was just created. -/
def NoItems (σ : ListareaRun) : Prop := σ.code.elements = some [] ∧ σ.items = []

/-- **The list is right**: it holds the items that were added and not removed, and these are allocated. -/
structure ListareaRun.Kept (σ : ListareaRun) : Prop where
  holds : σ.code.elements = some σ.items
  live : ∀ item ∈ σ.items, item ∈ σ.code.live

/-- The items are different, and not `NULL`. -/
structure ListareaRun.Distinct (σ : ListareaRun) : Prop where
  nodup : σ.items.Nodup
  nonNull : 0 ∉ σ.items

/-- **A call fits**: the vector has memory for a new item, or no other item; and the removal of an item is of the first one,
when its memory is used for the copy, or else finds the pointer to the item in it. -/
def ItemsFit (σ : ListareaRun) : ListareaCall → Prop
  | .add listElement grows => listElement = 0 ∨ grows = true ∨ σ.items = []
  | .remove index tmpMem residue => toWord index < σ.items.length → tmpMem ≠ 0 ∧
      if tmpMem = σ.items.getD (toWord index) 0 then toWord index = 0 else residue = some (σ.items.getD (toWord index) 0)

/-- **The value that is searched takes out the item of an index exactly when it is this item.** -/
theorem erase_eq_eraseIdx_iff {elements : List Nat} (nodup : elements.Nodup) {i : Nat} (isElement : i < elements.length)
    (value : Nat) : elements.erase value = elements.eraseIdx i ↔ value = elements[i] := by
  constructor
  · intro same
    by_contra other
    have left : elements[i] ∈ elements.erase value := (List.mem_erase_of_ne (Ne.symm other)).mpr (List.getElem_mem isElement)
    rw [same, ← nodup.erase_getElem i isElement] at left
    exact nodup.not_mem_erase left
  · rintro rfl
    exact nodup.erase_getElem i isElement

section Calls

variable {σ σ' : ListareaRun}

/-- **An item is added exactly when the vector has memory for it.** -/
theorem listareaAdd_kept_iff (kept : σ.Kept) {listElement : Nat} {grows : Bool}
    (step : itemsStep σ (.add listElement grows) σ') : σ'.Kept ↔ ItemsFit σ (.add listElement grows) := by
  have code : σ'.code = listareaListAdd σ.code σ.items listElement grows := step.code σ.items kept.holds
  have items : σ'.items = if listElement ≠ 0 ∧ grows then σ.items ++ [listElement] else σ.items := step.items
  unfold listareaListAdd at code
  show σ'.Kept ↔ (listElement = 0 ∨ grows = true ∨ σ.items = [])
  by_cases failed : listElement = 0
  · rw [if_pos failed] at code
    rw [if_neg fun added => added.1 failed] at items
    refine iff_of_true ⟨?_, ?_⟩ (Or.inl failed)
    · rw [code, items]
      exact kept.holds
    · rw [code, items]
      exact kept.live
  · rw [if_neg failed] at code
    rw [or_iff_right failed]
    have live : ∀ item ∈ σ.items ++ [listElement], item ∈ σ'.code.live := fun item isItem => by
      rw [code]
      rcases List.mem_append.mp isItem with isOld | isNew
      · exact List.mem_cons_of_mem _ (kept.live item isOld)
      · exact List.mem_cons.mpr (Or.inl (List.mem_singleton.mp isNew))
    cases grows with
    | true =>
        rw [if_pos ⟨failed, rfl⟩] at items
        refine iff_of_true ⟨?_, ?_⟩ (Or.inl rfl)
        · rw [code, items]
          rfl
        · rw [items]
          exact live
    | false =>
        rw [if_neg fun added => Bool.false_ne_true added.2] at items
        have elements : σ'.code.elements = if σ.items = [] then some [] else none := by rw [code]; rfl
        constructor
        · intro right
          refine Or.inr ?_
          by_contra some_
          rw [if_neg some_] at elements
          exact absurd (elements.symm.trans right.holds) (by simp)
        · intro noItems
          have noItems := noItems.resolve_left Bool.false_ne_true
          rw [if_pos noItems] at elements
          refine ⟨by rw [elements, items, noItems], fun item isItem => ?_⟩
          rw [items] at isItem
          exact live item (List.mem_append_left _ isItem)

/-- **A removal takes out its item exactly when it fits.** -/
theorem listareaRemove_kept_iff (kept : σ.Kept) (distinct : σ.Distinct) {index : Int} {tmpMem : Nat} {residue : Option Nat}
    (step : itemsStep σ (.remove index tmpMem residue) σ') : σ'.Kept ↔ ItemsFit σ (.remove index tmpMem residue) := by
  have code : σ'.code = listareaListRemove σ.code σ.items index tmpMem residue := step.code σ.items kept.holds
  have items : σ'.items = σ.items.eraseIdx (toWord index) := step.items
  unfold listareaListRemove listareaListElement at code
  dsimp only at code
  show σ'.Kept ↔ (toWord index < σ.items.length → tmpMem ≠ 0 ∧
    if tmpMem = σ.items.getD (toWord index) 0 then toWord index = 0 else residue = some (σ.items.getD (toWord index) 0))
  by_cases invalid : σ.items.length ≤ toWord index
  · rw [if_pos invalid] at code
    rw [List.eraseIdx_of_length_le invalid] at items
    refine iff_of_true ⟨?_, ?_⟩ fun valid => absurd valid (not_lt.mpr invalid)
    · rw [code, items]
      exact kept.holds
    · rw [code, items]
      exact kept.live
  · have valid := not_le.mp invalid
    have isItem : σ.items.getD (toWord index) 0 = σ.items[toWord index] := List.getD_eq_getElem _ _ valid
    have member := List.getElem_mem valid
    have nonNull : σ.items[toWord index] ≠ 0 := fun null => distinct.nonNull (null ▸ member)
    rw [if_neg invalid, isItem, if_neg nonNull] at code
    rw [isItem, forall_prop_of_true valid]
    -- What is freed is not an item any more.
    have live : ∀ item ∈ σ'.items, item ∈ σ'.code.live := fun item isLeft => by
      rw [items, ← distinct.nodup.erase_getElem _ valid, distinct.nodup.mem_erase_iff] at isLeft
      rw [code]
      exact List.mem_filter.mpr ⟨kept.live item isLeft.2, decide_eq_true isLeft.1⟩
    have isKept : σ'.Kept ↔ σ'.code.elements = some (σ.items.eraseIdx (toWord index)) :=
      ⟨fun right => items ▸ right.holds, fun holds => ⟨items ▸ holds, live⟩⟩
    rw [isKept, code]
    have popped (found : Option Nat) : (found.map fun value => (vectorPopElement true σ.items value).2) =
        some (σ.items.eraseIdx (toWord index)) ↔ found = some σ.items[toWord index] := by
      cases found with
      | none => simp
      | some value =>
          rw [Option.map_some, vectorPopElement_elements, Option.some_inj, Option.some_inj]
          exact erase_eq_eraseIdx_iff distinct.nodup valid value
    by_cases noCopy : tmpMem = 0
    · refine iff_of_false (fun same => ?_) fun fits => fits.1 noCopy
      rw [if_pos noCopy] at same
      have shorter := List.length_eraseIdx_of_lt valid
      rw [← Option.some.inj same] at shorter
      omega
    · dsimp only
      rw [if_neg noCopy, popped, and_iff_right noCopy]
      by_cases inPlace : tmpMem = σ.items[toWord index]
      · rw [if_pos inPlace, if_pos inPlace, List.head?_eq_getElem?, List.getElem?_eq_getElem (by omega), Option.some_inj,
          distinct.nodup.getElem_inj_iff]
        exact eq_comm
      · rw [if_neg inPlace, if_neg inPlace]

/-- The items stay different. -/
theorem ListareaRun.Distinct.step (distinct : σ.Distinct) (kept : σ.Kept) {call : ListareaCall} (step : itemsStep σ call σ') :
    σ'.Distinct := by
  cases call with
  | add listElement grows =>
      have items : σ'.items = if listElement ≠ 0 ∧ grows then σ.items ++ [listElement] else σ.items := step.items
      split at items
      · next added =>
          have fresh : listElement ∉ σ.items := fun isItem => step.allocates (kept.live _ isItem)
          constructor
          · rw [items]
            exact List.nodup_append.mpr ⟨distinct.nodup, List.nodup_singleton _, fun item isItem other isNew same =>
              fresh (List.mem_singleton.mp isNew ▸ same ▸ isItem)⟩
          · rw [items, List.mem_append, List.mem_singleton]
            exact not_or.mpr ⟨distinct.nonNull, fun null => added.1 null.symm⟩
      · exact ⟨items ▸ distinct.nodup, items ▸ distinct.nonNull⟩
  | remove index tmpMem residue =>
      have items : σ'.items = σ.items.eraseIdx (toWord index) := step.items
      exact ⟨items ▸ distinct.nodup.eraseIdx _, fun null => distinct.nonNull (List.mem_of_mem_eraseIdx (items ▸ null))⟩

/-- **A call keeps the list exactly when it fits.** -/
theorem itemsStep_kept_iff (kept : σ.Kept) (distinct : σ.Distinct) {call : ListareaCall} (step : itemsStep σ call σ') :
    σ'.Kept ↔ ItemsFit σ call := by
  cases call with
  | add listElement grows => exact listareaAdd_kept_iff kept step
  | remove index tmpMem residue => exact listareaRemove_kept_iff kept distinct step

end Calls

/-! ### The result -/

/-- **The items in every run of calls that fit**: the list holds those that were added and not removed, in their order, none of
them freed, and exactly the calls that fit keep it so. -/
theorem listareaItems_kept (σ : ListareaRun) (reached : Reachable (Guarded ItemsFit itemsStep) NoItems σ) :
    σ.Kept ∧ ∀ call σ', itemsStep σ call σ' → (σ'.Kept ↔ ItemsFit σ call) := by
  have all : σ.Kept ∧ σ.Distinct := by
    refine reached.invariant (fun σ => σ.Kept ∧ σ.Distinct) (fun σ created => ?_)
      fun σ call σ' before ⟨fits, step⟩ =>
        ⟨(itemsStep_kept_iff before.1 before.2 step).mpr fits, before.2.step before.1 step⟩
    obtain ⟨holds, noItems⟩ := created
    refine ⟨⟨holds.trans (congrArg some noItems.symm), ?_⟩, ?_, ?_⟩
    · rw [noItems]
      exact fun item isItem => absurd isItem List.not_mem_nil
    · rw [noItems]
      exact List.nodup_nil
    · rw [noItems]
      exact List.not_mem_nil
  exact ⟨all.1, fun call σ' => itemsStep_kept_iff all.1 all.2⟩

/-- A list with one item. -/
def oneListed : ListareaRun := ⟨⟨some [0x400000], [0x400000]⟩, [0x400000]⟩

/-- A list with two. -/
def twoListed : ListareaRun := ⟨⟨some [0x400000, 0x401000], [0x401000, 0x400000]⟩, [0x400000, 0x401000]⟩

/-- The first item is added. -/
theorem oneListed_step : itemsStep ⟨⟨some [], []⟩, []⟩ (.add 0x400000 true) oneListed where
  allocates := List.not_mem_nil
  code := fun elements isElements => by
    rw [← Option.some.inj isElements]
    rfl
  items := rfl

/-- The second item is added. -/
theorem twoListed_step : itemsStep oneListed (.add 0x401000 true) twoListed where
  allocates := by show 0x401000 ∉ [0x400000]; decide
  code := fun elements isElements => by
    rw [← Option.some.inj isElements]
    rfl
  items := rfl

/-- They are in the list. -/
theorem listareaItems_kept_two : twoListed.Kept := by
  have first : ItemsFit ⟨⟨some [], []⟩, []⟩ (.add 0x400000 true) := Or.inr (Or.inl rfl)
  have second : ItemsFit oneListed (.add 0x401000 true) := Or.inr (Or.inl rfl)
  exact (listareaItems_kept twoListed (.next _ (.next _ (.start ⟨rfl, rfl⟩) ⟨first, oneListed_step⟩) ⟨second, twoListed_step⟩)).1

/-- **The removal of the second item takes out the first.** The copy of an element is where the second was. -/
theorem listareaRemove_takesFirst : ¬ ∀ σ, Reachable itemsStep NoItems σ → σ.Kept := by
  intro always
  have two : Reachable itemsStep NoItems twoListed := .next _ (.next _ (.start ⟨rfl, rfl⟩) oneListed_step) twoListed_step
  have removed : itemsStep twoListed (.remove 1 0x401000 none) ⟨⟨some [0x401000], [0x400000]⟩, [0x400000]⟩ := by
    refine ⟨trivial, fun elements isElements => ?_, by decide⟩
    rw [← Option.some.inj isElements]
    rfl
  exact absurd (always _ (.next _ two removed)).holds (by decide)

end PeachOS
