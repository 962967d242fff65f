/-
**Userland pointers: `task/userlandptr.c`.**

A program gets the address of a `struct userland_ptr` for a kernel pointer, and gives it back in later calls. Each process
has a vector of those that it may use.

* `processUserlandPointerCreate`, `processUserlandPointerRelease`, `processUserlandPointerKernelPtr` — the functions;
* `userlandPointers_run` — in every run in which a release finds memory, a process gets the kernel pointers that it was
  given and has not released, and no other;
* `userlandPointers_forged` — without that memory a process gets the pointer of another one.
-/

import PeachOS.Lib.StepRun
import PeachOS.Vector.Elements
import Mathlib.Logic.Function.Basic

namespace PeachOS

open StepRun

/-- The userland pointers in memory, and the vectors of the processes. -/
structure UserlandPointers where
  /-- `kernel_userland_ptrs_vector` of each process. -/
  vectors : Nat → List Nat
  /-- The `kernel_ptr` at an address. -/
  kernelPtr : Nat → Nat
  /-- The addresses of the `struct userland_ptr` that are allocated. -/
  live : List Nat

namespace UserlandPointers

variable {σ σ' : UserlandPointers}

/-- `process_userland_pointer_create`, where `allocated` is what `kzalloc` returns. The result of the push, which
`pushed` says, is not looked at. -/
def processUserlandPointerCreate (σ : UserlandPointers) (process kernelPtr allocated : Nat) (pushed : Bool) :
    Nat × UserlandPointers :=
  if allocated = 0 then (0, σ)
  else
    (allocated,
      { vectors :=
          if pushed then Function.update σ.vectors process (σ.vectors process ++ [allocated]) else σ.vectors
        kernelPtr := Function.update σ.kernelPtr allocated kernelPtr
        live := allocated :: σ.live })

/-- `process_userland_pointer_registered`. -/
def processUserlandPointerRegistered (σ : UserlandPointers) (process userlandPtr : Nat) : Bool :=
  (σ.vectors process).any fun currentPtr => currentPtr ≠ 0 && currentPtr == userlandPtr

/-- `process_userland_pointer_release`. The result of `vector_pop_element` is not looked at; `memory` says whether there
is memory for its temporary element. -/
def processUserlandPointerRelease (σ : UserlandPointers) (process userlandPtr : Nat) (memory : Bool) :
    UserlandPointers :=
  if σ.processUserlandPointerRegistered process userlandPtr = false then σ
  else
    { σ with
      vectors := Function.update σ.vectors process (vectorPopElement memory (σ.vectors process) userlandPtr).2
      live := σ.live.erase userlandPtr }

/-- `process_userland_pointer_kernel_ptr`. -/
def processUserlandPointerKernelPtr (σ : UserlandPointers) (process userlandPtr : Nat) : Nat :=
  if σ.processUserlandPointerRegistered process userlandPtr = false then 0 else σ.kernelPtr userlandPtr

theorem registered_iff (σ : UserlandPointers) (process userlandPtr : Nat) :
    σ.processUserlandPointerRegistered process userlandPtr = true ↔
      userlandPtr ∈ σ.vectors process ∧ userlandPtr ≠ 0 := by
  unfold processUserlandPointerRegistered
  rw [List.any_eq_true]
  constructor
  · rintro ⟨currentPtr, isIn, same⟩
    obtain ⟨nonnull, same⟩ := Bool.and_eq_true_iff.mp same
    obtain rfl := beq_iff_eq.mp same
    exact ⟨isIn, of_decide_eq_true nonnull⟩
  · rintro ⟨isIn, nonnull⟩
    exact ⟨userlandPtr, isIn, Bool.and_eq_true_iff.mpr ⟨decide_eq_true nonnull, beq_self_eq_true _⟩⟩

/-- What the answers depend on: the vector, and the memory of what it holds. -/
theorem kernelPtr_eq (σ : UserlandPointers) (process userlandPtr : Nat) :
    σ.processUserlandPointerKernelPtr process userlandPtr =
      if userlandPtr ∈ σ.vectors process ∧ userlandPtr ≠ 0 then σ.kernelPtr userlandPtr else 0 := by
  unfold processUserlandPointerKernelPtr
  by_cases registered : userlandPtr ∈ σ.vectors process ∧ userlandPtr ≠ 0
  · rw [if_pos registered, (σ.registered_iff process userlandPtr).mpr registered, if_neg Bool.noConfusion]
  · have notRegistered : σ.processUserlandPointerRegistered process userlandPtr = false :=
      Bool.eq_false_iff.mpr fun isRegistered => registered ((σ.registered_iff _ _).mp isRegistered)
    rw [if_neg registered, if_pos notRegistered]

/-- A release changes the vector of its process, and frees. -/
theorem release_cases (σ : UserlandPointers) (process userlandPtr : Nat) (memory : Bool) :
    σ.processUserlandPointerRelease process userlandPtr memory = σ ∧
        ¬ (userlandPtr ∈ σ.vectors process ∧ userlandPtr ≠ 0) ∨
      (userlandPtr ∈ σ.vectors process ∧ userlandPtr ≠ 0) ∧
        σ.processUserlandPointerRelease process userlandPtr memory = { σ with
          vectors := Function.update σ.vectors process (vectorPopElement memory (σ.vectors process) userlandPtr).2
          live := σ.live.erase userlandPtr } := by
  unfold processUserlandPointerRelease
  by_cases registered : userlandPtr ∈ σ.vectors process ∧ userlandPtr ≠ 0
  · rw [(σ.registered_iff process userlandPtr).mpr registered, if_neg Bool.noConfusion]
    exact .inr ⟨registered, rfl⟩
  · have notRegistered : σ.processUserlandPointerRegistered process userlandPtr = false :=
      Bool.eq_false_iff.mpr fun isRegistered => registered ((σ.registered_iff _ _).mp isRegistered)
    rw [if_pos notRegistered]
    exact .inl ⟨rfl, registered⟩

/-- **A release changes no answer for another process.** -/
theorem release_isolated (σ : UserlandPointers) (process userlandPtr : Nat) (memory : Bool) {other : Nat}
    (isOther : other ≠ process) (forged : Nat) :
    (σ.processUserlandPointerRelease process userlandPtr memory).processUserlandPointerKernelPtr other forged =
      σ.processUserlandPointerKernelPtr other forged := by
  obtain ⟨same, -⟩ | ⟨-, released⟩ := σ.release_cases process userlandPtr memory
  · rw [same]
  · rw [released, kernelPtr_eq, kernelPtr_eq]
    simp only [Function.update_of_ne isOther]

end UserlandPointers

/-! ### Runs -/

/-- A call, or a write of the rest of the kernel to memory that is no userland pointer. -/
inductive PointerCall where
  | create (process kernelPtr allocated : Nat)
  | release (process userlandPtr : Nat) (memory : Bool)
  | write (address value : Nat)

/-- What has happened. -/
inductive PointerEvent where
  /-- `process_userland_pointer_create` returned a pointer. -/
  | created (process kernelPtr userlandPtr : Nat)
  | released (process userlandPtr : Nat)
deriving DecidableEq

/-- The userland pointers, and what has happened, the latest first. -/
structure PointerRun where
  pointers : UserlandPointers
  history : List PointerEvent

/-- **A pointer was returned to a process for a kernel pointer, and it has not released it since.** -/
def GrantedIn (history : List PointerEvent) (process userlandPtr kernelPtr : Nat) : Prop :=
  ∃ later earlier, history = later ++ .created process kernelPtr userlandPtr :: earlier ∧
    .released process userlandPtr ∉ later

theorem GrantedIn.here (history : List PointerEvent) (process userlandPtr kernelPtr : Nat) :
    GrantedIn (.created process kernelPtr userlandPtr :: history) process userlandPtr kernelPtr :=
  ⟨[], history, rfl, List.not_mem_nil⟩

theorem GrantedIn.later {history : List PointerEvent} {process userlandPtr kernelPtr : Nat}
    (granted : GrantedIn history process userlandPtr kernelPtr) {event : PointerEvent}
    (isNot : event ≠ .released process userlandPtr) :
    GrantedIn (event :: history) process userlandPtr kernelPtr := by
  obtain ⟨later, earlier, rfl, notReleased⟩ := granted
  refine ⟨event :: later, earlier, rfl, fun released => ?_⟩
  rcases List.mem_cons.mp released with same | released
  · exact isNot same.symm
  · exact notReleased released

/-- What was granted was granted now, or before and not released now. -/
theorem GrantedIn.cases {history : List PointerEvent} {process userlandPtr kernelPtr : Nat} {event : PointerEvent}
    (granted : GrantedIn (event :: history) process userlandPtr kernelPtr) :
    event = .created process kernelPtr userlandPtr ∨
      event ≠ .released process userlandPtr ∧ GrantedIn history process userlandPtr kernelPtr := by
  obtain ⟨later, earlier, parts, notReleased⟩ := granted
  cases later with
  | nil => exact .inl (List.cons.inj parts).1
  | cons first later =>
      obtain ⟨rfl, rfl⟩ := List.cons.inj parts
      exact .inr ⟨fun same => notReleased (same ▸ List.mem_cons_self),
        later, earlier, rfl, fun released => notReleased (List.mem_cons_of_mem _ released)⟩

namespace PointerRun

variable {ρ ρ' : PointerRun}

/-- No userland pointer is there. -/
def NoPointers (ρ : PointerRun) : Prop :=
  (∀ process, ρ.pointers.vectors process = []) ∧ ρ.pointers.live = [] ∧ ρ.history = []

/-- **One call**, of any process and for any value. New memory is not in use, and pushes succeed. -/
def step (ρ : PointerRun) (call : PointerCall) (ρ' : PointerRun) : Prop :=
  match call with
  | .create process kernelPtr allocated =>
      allocated ∉ ρ.pointers.live ∧
        ρ'.pointers = (ρ.pointers.processUserlandPointerCreate process kernelPtr allocated true).2 ∧
        ρ'.history = if allocated = 0 then ρ.history else .created process kernelPtr allocated :: ρ.history
  | .release process userlandPtr memory =>
      ρ'.pointers = ρ.pointers.processUserlandPointerRelease process userlandPtr memory ∧
        ρ'.history = .released process userlandPtr :: ρ.history
  | .write address value =>
      address ∉ ρ.pointers.live ∧ ρ'.history = ρ.history ∧
        ρ'.pointers = { ρ.pointers with kernelPtr := Function.update ρ.pointers.kernelPtr address value }

/-- **Userland pointers are capabilities.** A process gets a kernel pointer only for a pointer that it was given and has
not released, and gets the kernel pointer that it was given it for. A release of another process changes no answer. -/
structure Capabilities (ρ : PointerRun) : Prop where
  only : ∀ process userlandPtr, ρ.pointers.processUserlandPointerKernelPtr process userlandPtr ≠ 0 →
    ∃ kernelPtr, GrantedIn ρ.history process userlandPtr kernelPtr
  same : ∀ process userlandPtr kernelPtr, GrantedIn ρ.history process userlandPtr kernelPtr →
    ρ.pointers.processUserlandPointerKernelPtr process userlandPtr = kernelPtr
  isolated : ∀ process userlandPtr memory other, other ≠ process → ∀ forged,
    (ρ.pointers.processUserlandPointerRelease process userlandPtr memory).processUserlandPointerKernelPtr other forged =
      ρ.pointers.processUserlandPointerKernelPtr other forged

/-- **There is memory for the temporary element** when a pointer is released that is registered. -/
def releasesWithMemory (ρ : PointerRun) : PointerCall → Prop
  | .release process userlandPtr memory =>
      ρ.pointers.processUserlandPointerRegistered process userlandPtr = true → memory = true
  | _ => True

/-- What such runs keep: the vectors hold live pointers, each once and in one vector, and these are the granted ones. -/
structure Kept (ρ : PointerRun) : Prop where
  distinct : ∀ process, (ρ.pointers.vectors process).Nodup
  live : ∀ process, ∀ userlandPtr ∈ ρ.pointers.vectors process, userlandPtr ∈ ρ.pointers.live ∧ userlandPtr ≠ 0
  apart : ∀ process, ∀ userlandPtr ∈ ρ.pointers.vectors process, ∀ other,
    userlandPtr ∈ ρ.pointers.vectors other → other = process
  held : ∀ process, ∀ userlandPtr ∈ ρ.pointers.vectors process,
    GrantedIn ρ.history process userlandPtr (ρ.pointers.kernelPtr userlandPtr)
  granted : ∀ process userlandPtr kernelPtr, GrantedIn ρ.history process userlandPtr kernelPtr →
    userlandPtr ∈ ρ.pointers.vectors process ∧ ρ.pointers.kernelPtr userlandPtr = kernelPtr

theorem NoPointers.kept (begins : ρ.NoPointers) : ρ.Kept := by
  obtain ⟨empty, -, history⟩ := begins
  have none : ∀ process userlandPtr, userlandPtr ∉ ρ.pointers.vectors process :=
    fun process userlandPtr isIn => List.not_mem_nil (empty process ▸ isIn)
  refine ⟨fun process => by rw [empty]; exact List.nodup_nil, fun process userlandPtr isIn => absurd isIn (none _ _),
    fun process userlandPtr isIn => absurd isIn (none _ _), fun process userlandPtr isIn => absurd isIn (none _ _),
    fun process userlandPtr kernelPtr granted => ?_⟩
  obtain ⟨later, earlier, parts, -⟩ := granted
  rw [history] at parts
  exact absurd parts (List.append_ne_nil_of_right_ne_nil _ (List.cons_ne_nil _ _)).symm

theorem Kept.capabilities (kept : ρ.Kept) : ρ.Capabilities := by
  refine ⟨fun process userlandPtr nonnull => ?_, fun process userlandPtr kernelPtr granted => ?_,
    fun process userlandPtr memory _ isOther => ρ.pointers.release_isolated process userlandPtr memory isOther⟩
  · rw [UserlandPointers.kernelPtr_eq] at nonnull
    split at nonnull
    · next registered => exact ⟨_, kept.held process userlandPtr registered.1⟩
    · exact absurd rfl nonnull
  · obtain ⟨isIn, same⟩ := kept.granted process userlandPtr kernelPtr granted
    rw [UserlandPointers.kernelPtr_eq, if_pos ⟨isIn, (kept.live process userlandPtr isIn).2⟩, same]

/-- **A pointer is created** in new memory. -/
theorem Kept.create (kept : ρ.Kept) {process kernelPtr allocated : Nat} (fresh : allocated ∉ ρ.pointers.live)
    (pointers : ρ'.pointers = (ρ.pointers.processUserlandPointerCreate process kernelPtr allocated true).2)
    (history : ρ'.history = if allocated = 0 then ρ.history else .created process kernelPtr allocated :: ρ.history) :
    ρ'.Kept := by
  obtain ⟨pointers', history'⟩ := ρ'
  dsimp only at pointers history
  subst pointers history
  unfold UserlandPointers.processUserlandPointerCreate
  split
  · exact kept
  · next nonnull =>
      rw [if_pos (rfl : true = true)]
      have isNew : ∀ other, allocated ∉ ρ.pointers.vectors other :=
        fun other isIn => fresh (kept.live other allocated isIn).1
      have members : ∀ other userlandPtr,
          userlandPtr ∈ Function.update ρ.pointers.vectors process (ρ.pointers.vectors process ++ [allocated]) other ↔
            userlandPtr ∈ ρ.pointers.vectors other ∨ other = process ∧ userlandPtr = allocated := by
        intro other userlandPtr
        by_cases isIt : other = process
        · rw [isIt, Function.update_self, List.mem_append, List.mem_singleton]
          simp only [true_and]
        · rw [Function.update_of_ne isIt]
          exact ⟨.inl, fun isIn => isIn.resolve_right fun both => isIt both.1⟩
      have old : ∀ userlandPtr ∈ ρ.pointers.live,
          Function.update ρ.pointers.kernelPtr allocated kernelPtr userlandPtr = ρ.pointers.kernelPtr userlandPtr :=
        fun userlandPtr isLive => by
          have isNot : userlandPtr ≠ allocated := fun same => fresh (same ▸ isLive)
          exact Function.update_of_ne isNot _ _
      refine ⟨fun other => ?_, fun other userlandPtr isIn => ?_, fun first userlandPtr isIn second isIn' => ?_,
        fun other userlandPtr isIn => ?_, fun other userlandPtr kernelPtr' granted => ?_⟩ <;> dsimp only at *
      · by_cases isIt : other = process
        · rw [isIt, Function.update_self]
          refine List.nodup_append.mpr ⟨kept.distinct process, List.pairwise_singleton _ _, ?_⟩
          intro userlandPtr isIn new isAllocated same
          rw [List.mem_singleton] at isAllocated
          exact isNew process (isAllocated ▸ same ▸ isIn)
        · rw [Function.update_of_ne isIt]
          exact kept.distinct other
      · rcases (members other userlandPtr).mp isIn with wasIn | ⟨-, rfl⟩
        · obtain ⟨isLive, notNull⟩ := kept.live other userlandPtr wasIn
          exact ⟨List.mem_cons_of_mem _ isLive, notNull⟩
        · exact ⟨List.mem_cons_self, nonnull⟩
      · rcases (members first userlandPtr).mp isIn with wasIn | ⟨rfl, rfl⟩
        · rcases (members second userlandPtr).mp isIn' with wasIn' | ⟨-, rfl⟩
          · exact kept.apart first userlandPtr wasIn second wasIn'
          · exact absurd wasIn (isNew first)
        · rcases (members second userlandPtr).mp isIn' with wasIn' | ⟨rfl, -⟩
          · exact absurd wasIn' (isNew second)
          · rfl
      · rcases (members other userlandPtr).mp isIn with wasIn | ⟨rfl, rfl⟩
        · rw [old userlandPtr (kept.live other userlandPtr wasIn).1]
          exact (kept.held other userlandPtr wasIn).later PointerEvent.noConfusion
        · rw [Function.update_self]
          exact .here _ _ _ _
      · rcases granted.cases with same | ⟨-, wasGranted⟩
        · obtain ⟨rfl, rfl, rfl⟩ := PointerEvent.created.inj same
          exact ⟨(members _ _).mpr (.inr ⟨rfl, rfl⟩), Function.update_self _ _ _⟩
        · obtain ⟨wasIn, same⟩ := kept.granted other userlandPtr kernelPtr' wasGranted
          exact ⟨(members _ _).mpr (.inl wasIn), (old userlandPtr (kept.live other userlandPtr wasIn).1).trans same⟩

/-- **A pointer is released**, with memory if it is registered. -/
theorem Kept.release (kept : ρ.Kept) {process userlandPtr : Nat} {memory : Bool}
    (available : ρ.pointers.processUserlandPointerRegistered process userlandPtr = true → memory = true)
    (pointers : ρ'.pointers = ρ.pointers.processUserlandPointerRelease process userlandPtr memory)
    (history : ρ'.history = .released process userlandPtr :: ρ.history) : ρ'.Kept := by
  obtain ⟨pointers', history'⟩ := ρ'
  dsimp only at pointers history
  subst pointers history
  have gone : userlandPtr ≠ 0 ∨ userlandPtr ∉ ρ.pointers.vectors process := by
    by_cases isIn : userlandPtr ∈ ρ.pointers.vectors process
    · exact .inl (kept.live process userlandPtr isIn).2
    · exact .inr isIn
  -- In both cases the vector loses the pointer, and the memory of another pointer that was registered stays.
  obtain ⟨live, stays, erased⟩ : ∃ live, (∀ other ∈ ρ.pointers.live,
      other ≠ userlandPtr ∨ userlandPtr ∉ ρ.pointers.vectors process → other ∈ live) ∧
        ρ.pointers.processUserlandPointerRelease process userlandPtr memory = { ρ.pointers with
          vectors := Function.update ρ.pointers.vectors process ((ρ.pointers.vectors process).erase userlandPtr)
          live := live } := by
    obtain ⟨same, unregistered⟩ | ⟨registered, released⟩ := ρ.pointers.release_cases process userlandPtr memory
    · have notIn : userlandPtr ∉ ρ.pointers.vectors process := fun isIn =>
        unregistered ⟨isIn, gone.resolve_right (not_not_intro isIn)⟩
      refine ⟨ρ.pointers.live, fun _ isLive _ => isLive, ?_⟩
      rw [same, List.erase_of_not_mem notIn, Function.update_eq_self]
    · have isMemory : memory = true := available ((ρ.pointers.registered_iff process userlandPtr).mpr registered)
      refine ⟨ρ.pointers.live.erase userlandPtr, fun other isLive isOther => ?_, ?_⟩
      · exact (List.mem_erase_of_ne (isOther.resolve_right (not_not_intro registered.1))).mpr isLive
      · rw [released, isMemory, vectorPopElement_elements]
  rw [erased]
  have members : ∀ other pointer, pointer ∈
      Function.update ρ.pointers.vectors process ((ρ.pointers.vectors process).erase userlandPtr) other ↔
        pointer ∈ ρ.pointers.vectors other ∧ (other = process → pointer ≠ userlandPtr) := by
    intro other pointer
    by_cases isIt : other = process
    · rw [isIt, Function.update_self, (kept.distinct process).mem_erase_iff]
      exact ⟨fun both => ⟨both.2, fun _ => both.1⟩, fun both => ⟨both.2 rfl, both.1⟩⟩
    · rw [Function.update_of_ne isIt]
      exact ⟨fun isIn => ⟨isIn, fun same => absurd same isIt⟩, And.left⟩
  refine ⟨fun other => ?_, fun other pointer isIn => ?_, fun first pointer isIn second isIn' => ?_,
    fun other pointer isIn => ?_, fun other pointer kernelPtr granted => ?_⟩ <;> dsimp only at *
  · by_cases isIt : other = process
    · rw [isIt, Function.update_self]
      exact (kept.distinct process).erase userlandPtr
    · rw [Function.update_of_ne isIt]
      exact kept.distinct other
  · obtain ⟨wasIn, isNot⟩ := (members other pointer).mp isIn
    obtain ⟨isLive, notNull⟩ := kept.live other pointer wasIn
    refine ⟨stays pointer isLive ?_, notNull⟩
    by_cases same : pointer = userlandPtr
    · subst same
      exact .inr fun owned => isNot (kept.apart process pointer owned other wasIn) rfl
    · exact .inl same
  · exact kept.apart first pointer ((members _ _).mp isIn).1 second ((members _ _).mp isIn').1
  · obtain ⟨wasIn, isNot⟩ := (members other pointer).mp isIn
    refine (kept.held other pointer wasIn).later fun same => ?_
    obtain ⟨isProcess, isPointer⟩ := PointerEvent.released.inj same
    exact isNot isProcess.symm isPointer.symm
  · rcases granted.cases with same | ⟨isNot, wasGranted⟩
    · exact PointerEvent.noConfusion same
    · obtain ⟨wasIn, same⟩ := kept.granted other pointer kernelPtr wasGranted
      refine ⟨(members _ _).mpr ⟨wasIn, fun isProcess isPointer => ?_⟩, same⟩
      exact isNot (by rw [isProcess, isPointer])

/-- **A write elsewhere** is not to a registered pointer. -/
theorem Kept.write (kept : ρ.Kept) {address value : Nat} (elsewhere : address ∉ ρ.pointers.live)
    (pointers : ρ'.pointers = { ρ.pointers with kernelPtr := Function.update ρ.pointers.kernelPtr address value })
    (history : ρ'.history = ρ.history) : ρ'.Kept := by
  obtain ⟨pointers', history'⟩ := ρ'
  dsimp only at pointers history
  subst pointers history
  have old : ∀ process, ∀ userlandPtr ∈ ρ.pointers.vectors process,
      Function.update ρ.pointers.kernelPtr address value userlandPtr = ρ.pointers.kernelPtr userlandPtr := by
    intro process userlandPtr isIn
    have isNot : userlandPtr ≠ address := fun same => elsewhere (same ▸ (kept.live process userlandPtr isIn).1)
    exact Function.update_of_ne isNot _ _
  refine ⟨kept.distinct, kept.live, kept.apart, fun process userlandPtr isIn => ?_,
    fun process userlandPtr kernelPtr granted => ?_⟩ <;> dsimp only at *
  · rw [old process userlandPtr isIn]
    exact kept.held process userlandPtr isIn
  · obtain ⟨isIn, same⟩ := kept.granted process userlandPtr kernelPtr granted
    exact ⟨isIn, (old process userlandPtr isIn).trans same⟩

/-- **A step in which a release finds memory.** -/
theorem Kept.step (kept : ρ.Kept) {call : PointerCall} (taken : Guarded releasesWithMemory step ρ call ρ') :
    ρ'.Kept := by
  obtain ⟨available, taken⟩ := taken
  cases call with
  | create process kernelPtr allocated => exact kept.create taken.1 taken.2.1 taken.2.2
  | release process userlandPtr memory => exact kept.release available taken.1 taken.2
  | write address value => exact kept.write taken.1 taken.2.2 taken.2.1

end PointerRun

open PointerRun

/-- **Userland pointers are capabilities**, in every run of all processes in which there is memory for the temporary
element of `vector_pop_element` whenever a registered pointer is released. -/
theorem userlandPointers_run (ρ : PointerRun) (reached : Reachable (Guarded releasesWithMemory step) NoPointers ρ) :
    ρ.Capabilities :=
  (reached.invariant Kept (fun _ begins => begins.kept) fun _ _ _ kept taken => kept.step taken).capabilities

/-! ### A pointer whose memory is used again -/

/-- No pointers. -/
def noUserlandPointers : PointerRun where
  pointers := { vectors := fun _ => [], kernelPtr := fun _ => 0, live := [] }
  history := []

/-- Process 1 is given a pointer for `0x100`. -/
def pointerGiven : PointerRun where
  pointers := (noUserlandPointers.pointers.processUserlandPointerCreate 1 0x100 0x10 true).2
  history := [.created 1 0x100 0x10]

/-- Process 1 releases it. -/
def pointerReleased (memory : Bool) : PointerRun where
  pointers := pointerGiven.pointers.processUserlandPointerRelease 1 0x10 memory
  history := .released 1 0x10 :: pointerGiven.history

/-- Process 2 is given a pointer for `0x200`, in the same memory. -/
def pointerReused (memory : Bool) : PointerRun where
  pointers := ((pointerReleased memory).pointers.processUserlandPointerCreate 2 0x200 0x10 true).2
  history := .created 2 0x200 0x10 :: (pointerReleased memory).history

theorem pointerReused_reached {ok : PointerRun → PointerCall → Prop} (memory : Bool)
    (creates : ∀ ρ process kernelPtr allocated, ok ρ (.create process kernelPtr allocated))
    (releases : ∀ ρ, ok ρ (.release 1 0x10 memory)) :
    Reachable (Guarded ok step) NoPointers (pointerReused memory) := by
  have given : Reachable (Guarded ok step) NoPointers pointerGiven :=
    .next (.create 1 0x100 0x10) (.start ⟨fun _ => rfl, rfl, rfl⟩ : Reachable _ _ noUserlandPointers)
      ⟨creates _ _ _ _, List.not_mem_nil, rfl, rfl⟩
  have released : Reachable (Guarded ok step) NoPointers (pointerReleased memory) :=
    .next (.release 1 0x10 memory) given ⟨releases _, rfl, rfl⟩
  refine .next (.create 2 0x200 0x10) released ⟨creates _ _ _ _, ?_, rfl, rfl⟩
  cases memory <;> decide

theorem userlandPointers_run_reused :
    (pointerReused true).pointers.processUserlandPointerKernelPtr 2 0x10 = 0x200 ∧ (pointerReused true).Capabilities :=
  ⟨by decide, userlandPointers_run _ (pointerReused_reached true (fun _ _ _ _ => trivial) fun _ _ => rfl)⟩

/-- **Without that memory a pointer outlives its release.** `process_userland_pointer_release` frees it although
`vector_pop_element` has not removed it, and then process 1 gets the kernel pointer of process 2. -/
theorem userlandPointers_forged : ¬ ∀ ρ, Reachable step NoPointers ρ → ρ.Capabilities := by
  intro safe
  have reached : Reachable step NoPointers (pointerReused false) :=
    Reachable.of_guarded (pointerReused_reached false (fun _ _ _ _ => trivial) fun _ => trivial :
      Reachable (Guarded (fun _ _ => True) step) NoPointers _)
  have got : (pointerReused false).pointers.processUserlandPointerKernelPtr 1 0x10 ≠ 0 := by decide
  obtain ⟨kernelPtr, granted⟩ := (safe _ reached).only 1 0x10 got
  rcases granted.cases with same | ⟨-, granted⟩
  · exact absurd (PointerEvent.created.inj same).1 (by decide)
  · rcases granted.cases with same | ⟨isNot, -⟩
    · exact PointerEvent.noConfusion same
    · exact isNot rfl

end PeachOS
