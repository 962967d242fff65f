/-
**A vector whose memory cannot grow.**

`vector_resize` assigns the result of `krealloc` to the vector before it looks at it. When the reallocation fails, the only
pointer to the elements is gone, while the counters of the vector still say that they are there.

* `failedGrowth_iff` — after a failed `vector_push` or `vector_grow` the vector stands for the same list exactly when it had
  no elements, and no room for one;
* `failedPush_loses` — the second element of a vector in a full heap.
-/

import PeachOS.Vector.Refinement

namespace PeachOS

open ByteStore BlockArray

/-- `vector_grow`. -/
def vectorGrow (k : Kernel) (vec : Vector) (totalElements : Nat) : Option (Int × Vector × Kernel) :=
  match vectorResize k vec totalElements with
  | none => none
  | some (res, vec, k) =>
      if res < 0 then some (res, vec, k)
      else some (res, { vec with tElems := toWord (vec.tElems + totalElements) }, k)

/-- A call that may need more memory. -/
inductive GrowCall where
  | push (elem : Nat)
  | grow (totalElements : Nat)
deriving DecidableEq

namespace GrowCall

/-- The elements that are needed. -/
def needed : GrowCall → Nat
  | push _ => 1
  | grow totalElements => totalElements

def run (k : Kernel) (vec : Vector) : GrowCall → Option (Int × Vector × Kernel)
  | push elem => (vectorPushElem k vec elem).map fun result => (result.res, result.vec, result.kernel)
  | grow totalElements => vectorGrow k vec totalElements

/-- **The reallocation that a call needs fails.** -/
def Fails (k : Kernel) (vec : Vector) (call : GrowCall) : Prop :=
  vec.tmElems ≤ toWord (vec.tElems + call.needed) ∧
    ∃ k', krealloc k vec.memory
      (toWord (toWord (vec.tReservedElements + toWord (vec.tElems + call.needed)) * vec.eSize)) = some (0, k')

/-- **A call returns an error, and the vector stands for the same list.** -/
def LeavesList (k : Kernel) (vec : Vector) (elements : List (List Byte)) (call : GrowCall) : Prop :=
  ∃ res vec' k', call.run k vec = some (res, vec', k') ∧ res < 0 ∧ Represents k'.mem vec' elements

variable {k : Kernel} {vec : Vector} {elements : List (List Byte)} {call : GrowCall}

/-- A call that fails has lost the pointer to the elements. -/
theorem run_fails (fails : call.Fails k vec) : ∃ k', call.run k vec = some (enomem, { vec with memory := 0 }, k') := by
  obtain ⟨full, k', failed⟩ := fails
  have resized : vectorResize k vec call.needed = some (enomem, { vec with memory := 0 }, k') := by
    unfold vectorResize
    dsimp only
    rw [if_neg (not_lt.mpr full), failed]
    rfl
  refine ⟨k', ?_⟩
  cases call with
  | push elem =>
      change vectorResize k vec 1 = _ at resized
      show (vectorPushElem k vec elem).map _ = _
      unfold vectorPushElem
      rw [resized]
      rfl
  | grow totalElements =>
      change vectorResize k vec totalElements = _ at resized
      show vectorGrow k vec totalElements = _
      unfold vectorGrow
      rw [resized]
      rfl

/-- **After a failed reallocation the vector stands for the same list exactly when it stood for none**: its elements have no
bytes, or there are none and the next one allocates. -/
theorem failedGrowth_iff (represents : Represents k.mem vec elements) (fails : call.Fails k vec) :
    call.LeavesList k vec elements ↔ vec.eSize = 0 ∨ vec.tElems = 0 ∧ vec.tmElems ≤ 1 := by
  obtain ⟨k', run⟩ := run_fails fails
  constructor
  · rintro ⟨res, vec', k'', run', _, represents'⟩
    rw [run, Option.some.injEq, Prod.mk.injEq, Prod.mk.injEq] at run'
    rw [← run'.2.1] at represents'
    exact represents'.null rfl
  · intro none_
    refine ⟨_, _, k', run, by decide, represents.count, represents.few, represents.capacity, ?_, fun _ => none_,
      show 0 < 2 ^ 64 by decide, ?_⟩
    · refine represents.holds.congr fun offset inside => ?_
      rw [← represents.count] at inside
      exact absurd inside (by
        rcases none_ with empty | ⟨count, _⟩
        · rw [empty, Nat.mul_zero]
          exact Nat.not_lt_zero _
        · rw [count, Nat.zero_mul]
          exact Nat.not_lt_zero _)
    · have end_ := represents.end_
      show 0 + vec.tmElems * vec.eSize ≤ 2 ^ 64
      omega

/-! ### A full heap -/

/-- The heap of eight blocks, all taken: one for the first element of a vector, seven for others. -/
def fullKernel : Kernel := (kmalloc (kmalloc eightBlocks 4096).2 28672).2

/-- A vector of pages, with its first one. -/
def pageVector : Vector where
  memory := 0x100000
  eSize := 4096
  tElems := 1
  tmElems := 1
  tReservedElements := 0

/-- Its element. -/
def pageElements : List (List Byte) := [window fullKernel.mem 0x100000 4096]

theorem pageVector_represents : Represents fullKernel.mem pageVector pageElements where
  count := rfl
  few := by decide
  capacity := le_rfl
  holds := {
    sizes := fun element member => by
      rw [List.mem_singleton.mp member]
      exact length_window _ _ _
    block := fun i inside => by
      have first : i = 0 := Nat.lt_one_iff.mp inside
      subst first
      rfl }
  null := fun null => absurd null (by decide)
  pointer := by decide
  end_ := by decide

/-- There is no second block for the second element. -/
theorem pageVector_fails : (push 0x9000).Fails fullKernel pageVector := by
  have failed : (krealloc fullKernel 0x100000 8192).map Prod.fst = some 0 := by decide +kernel
  rw [Option.map_eq_some_iff] at failed
  obtain ⟨⟨ptr, k'⟩, result, null⟩ := failed
  refine ⟨by decide, k', ?_⟩
  rw [← null]
  exact result

/-- The theorem at this vector. -/
theorem failedGrowth_pageVector : ¬ (push 0x9000).LeavesList fullKernel pageVector pageElements := by
  rw [failedGrowth_iff pageVector_represents pageVector_fails]
  decide

/-- **The second element of a vector in a full heap** costs the first one. -/
theorem failedPush_loses : ¬ ∀ k vec elements call, Represents k.mem vec elements → Fails k vec call →
    call.LeavesList k vec elements := by
  intro always
  obtain ⟨k', run⟩ := run_fails pageVector_fails
  obtain ⟨res, vec', k'', run', _, represents⟩ := always fullKernel pageVector pageElements (push 0x9000) pageVector_represents
    pageVector_fails
  rw [run, Option.some.injEq, Prod.mk.injEq, Prod.mk.injEq] at run'
  rw [← run'.2.1] at represents
  rcases represents.null rfl with empty | ⟨none_, _⟩
  · exact absurd empty (by decide)
  · exact absurd none_ (by decide)

end GrowCall

end PeachOS
