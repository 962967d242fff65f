/-
**Runs of a multiheap, and the panic of the second pass.**

`MultiheapRun.step` is one request to a ready multiheap: `multiheap_alloc`, `multiheap_palloc`, `multiheap_realloc` of
a physical pointer or `multiheap_free`. The second pass trusts the counter of the heap it has selected, which is
right only as long as requests release what was taken:

* `secondPass_succeeds` — in every run whose requests meet `keepsBlocks`, the second pass finds a block for every
  page;
* `secondPass_panics` — a reallocation that shrinks counts its blocks twice, and then it does not.
-/

import PeachOS.Multiheap.Ready
import PeachOS.Paging.Mapping
import PeachOS.Lib.StepRun
import Mathlib.Order.Interval.Set.Disjoint

namespace PeachOS

open ByteStore RadixTable StepRun

/-! ### Runs -/

/-- A multiheap at work, under the current paging descriptor. -/
structure MultiheapRun where
  kernel : Kernel
  desc : PagingDesc

/-- A request to a multiheap. -/
inductive MultiheapRequest where
  | alloc (size : Nat)
  | palloc (size : Nat)
  | realloc (ptr newSize : Nat)
  | free (ptr : Nat)
deriving DecidableEq

namespace MultiheapRun

/-- **One request** that returns. Sizes are `size_t`, and the pointers that are reallocated are physical. -/
def step (σ : MultiheapRun) (request : MultiheapRequest) (σ' : MultiheapRun) : Prop :=
  σ'.desc = σ.desc ∧
    match request with
    | .alloc size => size < 2 ^ 64 ∧ σ'.kernel = (multiheapAlloc σ.kernel size).2
    | .palloc size => size < 2 ^ 64 ∧ ∃ ptr, multiheapPalloc σ.kernel (some σ.desc) size = some (ptr, σ'.kernel)
    | .realloc ptr newSize => newSize < 2 ^ 64 ∧ multiheapIsAddressVirtual σ.kernel.multiheap ptr = false ∧
        ∃ newPtr, multiheapRealloc σ.kernel ptr newSize = some (newPtr, σ'.kernel)
    | .free ptr => ∃ depth, multiheapFree σ.desc depth σ.kernel ptr = some σ'.kernel

/-- **Runs start where `multiheap_ready` returns.** -/
def Initial (σ : MultiheapRun) : Prop :=
  ∃ k, MultiheapBooted k σ.desc ∧ multiheapReady k (some σ.desc) = some σ.kernel

/-- ... with every allocation of `multiheap_ready` served. -/
def Served (σ : MultiheapRun) : Prop :=
  ∃ k, MultiheapBooted k σ.desc ∧
    ReadySucceeds σ.desc (multiheapGetMaxMemoryEndAddress k) k.multiheap.heaps k.markReady ∧
    multiheapReady k (some σ.desc) = some σ.kernel

/-- **A request that keeps the tables and the counters**: what it releases was taken, holds no table, and is not the
end of an allocation that is made smaller. -/
def keepsBlocks (σ : MultiheapRun) : MultiheapRequest → Prop
  | .alloc _ => True
  | .palloc _ => True
  | .realloc ptr newSize => ∀ node, multiheapGetHeapForAddress σ.kernel ptr = some node →
      ptr % peachosHeapBlockSize = 0 ∧ σ.kernel.ReallocKeeps σ.desc node.heap ptr newSize
  | .free ptr => ∀ depth, multiheapFreeKeeps σ.desc depth σ.kernel ptr

/-- **The second pass does not panic**: when `multiheap_alloc_paging` selects a heap for a request, each of the
`heap_zalloc` calls of one block succeeds. -/
def SecondPassSucceeds (σ : MultiheapRun) : Prop :=
  ∀ size ptr chosen k, multiheapAllocPaging σ.kernel (heapAlignValueToUpper size) = ((ptr, some chosen), k) →
    ∃ k', multiheapAllocSecondPassLoop σ.desc chosen.heap (heapAlignValueToUpper size / peachosHeapBlockSize) ptr k =
      some k'

variable {k k' : Kernel}

theorem step_alloc (k : Kernel) (desc : PagingDesc) {size : Nat} (word : size < 2 ^ 64) :
    step ⟨k, desc⟩ (.alloc size) ⟨(multiheapAlloc k size).2, desc⟩ :=
  ⟨rfl, word, rfl⟩

theorem step_realloc (desc : PagingDesc) {ptr newSize newPtr : Nat} (word : newSize < 2 ^ 64)
    (physical : multiheapIsAddressVirtual k.multiheap ptr = false)
    (done : multiheapRealloc k ptr newSize = some (newPtr, k')) : step ⟨k, desc⟩ (.realloc ptr newSize) ⟨k', desc⟩ :=
  ⟨rfl, word, physical, newPtr, done⟩

end MultiheapRun

/-! ### The multiheap stays prepared -/

section Steps

variable {σ σ' : MultiheapRun}

/-- **One request keeps the multiheap prepared.** -/
theorem prepared_step {request : MultiheapRequest} (prepared : MultiheapPrepared σ.kernel σ.desc)
    (keeps : σ.keepsBlocks request) (taken : σ.step request σ') : MultiheapPrepared σ'.kernel σ'.desc := by
  obtain ⟨same, taken⟩ := taken
  rw [same]
  cases request with
  | alloc size =>
      rw [taken.2]
      exact prepared.alloc size
  | palloc size =>
      obtain ⟨_, ptr, done⟩ := taken
      obtain ⟨result, runs, prepared'⟩ := prepared.palloc size
      rw [done, Option.some.injEq] at runs
      rwa [← runs] at prepared'
  | realloc ptr newSize =>
      obtain ⟨word, physical, newPtr, done⟩ := taken
      exact prepared.realloc word physical keeps done
  | free ptr =>
      obtain ⟨depth, done⟩ := taken
      exact (prepared.free depth (keeps depth) done).1

/-- **Every run that keeps the counters is prepared.** -/
theorem prepared_of_reachable
    (reached : Reachable (Guarded MultiheapRun.keepsBlocks MultiheapRun.step) MultiheapRun.Served σ) :
    MultiheapPrepared σ.kernel σ.desc := by
  refine reached.invariant (fun σ => MultiheapPrepared σ.kernel σ.desc) (fun σ begins => ?_)
    fun σ request σ' prepared taken => prepared_step prepared taken.1 taken.2
  obtain ⟨k, booted, succeeds, made⟩ := begins
  exact multiheapReady_prepared booted succeeds made

end Steps

/-- **The second pass finds a block for every page**, in every run whose requests keep the counters. -/
theorem secondPass_succeeds (σ : MultiheapRun)
    (reached : Reachable (Guarded MultiheapRun.keepsBlocks MultiheapRun.step) MultiheapRun.Served σ) :
    σ.SecondPassSucceeds := by
  intro size ptr chosen k selected
  rcases (prepared_of_reachable reached).secondPass size with
    nothing | ⟨node, ref, start, ptr', k₁, k', blocks, _, selected', runs⟩
  · rw [nothing] at selected
    cases selected
  · rw [selected'] at selected
    cases selected
    exact ⟨k', runs⟩

/-- A selected heap that is full. -/
theorem not_secondPassSucceeds {k k' : Kernel} {desc : PagingDesc} {size ptr : Nat} {chosen : MultiheapSingleHeap}
    (selected : multiheapAllocPaging k (heapAlignValueToUpper size) = ((ptr, some chosen), k'))
    (panics : multiheapAllocSecondPassLoop desc chosen.heap (heapAlignValueToUpper size / peachosHeapBlockSize) ptr k' = none) :
    ¬ MultiheapRun.SecondPassSucceeds ⟨k, desc⟩ := by
  intro succeeds
  obtain ⟨k'', runs⟩ := succeeds size ptr chosen k' selected
  rw [panics] at runs
  cases runs

/-! ### Two heaps over page tables -/

/-- The descriptor whose tables start at `0x10000`. -/
def lowTables : PagingDesc where
  pml := 0x10000
  level := pagingMapLevel4

/-- **A starting heap of four blocks and a data heap of three**, before they are ready. The first block of the
starting heap is taken; the page tables of the first two megabytes behind `0x400000` are there. -/
def twoHeaps : Kernel where
  mem := linkTable (linkTable (linkTable (fun a => if a = 0x1000 then mallocEntry 1 0 else 0x00#8)
    0x10000 0 0x11000) 0x11000 0 0x12000) 0x12000 2 0x13000
  heaps := fun ref =>
    if ref = .kernelMinimalHeap then
      { table := { entries := 0x1000, total := 4 }, saddr := 0x100000, eaddr := 0x104000, totalBlocks := 4,
        freeBlocks := 3, usedBlocks := 1, blockAllocatedCallback := false, blockFreeCallback := false }
    else
      { table := { entries := 0x2000, total := 3 }, saddr := 0x200000, eaddr := 0x203000, totalBlocks := 3,
        freeBlocks := 3, usedBlocks := 0, blockAllocatedCallback := false, blockFreeCallback := false }
  multiheap :=
    { startingHeap := .kernelMinimalHeap
      heaps := [⟨.kernelMinimalHeap, none, multiheapHeapFlagExternallyOwned⟩,
        ⟨.allocated 0x100000, none, multiheapHeapFlagExternallyOwned ||| multiheapHeapFlagDefragmentWithPaging⟩]
      maxEndDataAddr := 0, flags := 0, totalHeaps := 2 }
  calls := []

/-- Its page tables are the four pages from `0x10000` on. -/
theorem twoHeaps_tables : TableTree twoHeaps.mem lowTables ∧
    ∀ path table, ReachedTable twoHeaps.mem lowTables path table → 0x10000 ≤ table ∧ table ≤ 0x13000 := by
  obtain ⟨tree, _, inUse, _⟩ := @linkThree_tables (fun a => if a = 0x1000 then mallocEntry 1 0 else 0x00#8) lowTables 0 0 2
    (by decide) (by decide) (by decide) fun a (high : 0x10000 ≤ a) => if_neg (by omega)
  exact ⟨tree, inUse⟩

theorem twoHeaps_physical (ref : HeapRef) :
    twoHeaps.IsPhysical ref ↔ ref = .kernelMinimalHeap ∨ ref = .allocated 0x100000 := by
  unfold Kernel.IsPhysical twoHeaps
  simp only [List.mem_cons, List.not_mem_nil, or_false, exists_eq_or_imp, exists_eq_left]
  constructor
  · rintro (rfl | rfl | rfl)
    · exact Or.inl rfl
    · exact Or.inl rfl
    · exact Or.inr rfl
  · rintro (rfl | rfl)
    · exact Or.inl rfl
    · exact Or.inr (Or.inr rfl)

/-- The starting heap and the data heap. -/
theorem twoHeaps_cases (holds : HeapRef → Prop) (starting : holds .kernelMinimalHeap) (data : holds (.allocated 0x100000)) :
    ∀ ref, twoHeaps.IsPhysical ref → holds ref := by
  intro ref isPhysical
  rcases (twoHeaps_physical ref).mp isPhysical with rfl | rfl
  · exact starting
  · exact data

theorem twoHeaps_sound : MultiheapSound twoHeaps lowTables ∅ := by
  obtain ⟨tree, inUse⟩ := twoHeaps_tables
  have tables : twoHeaps.tables lowTables ∅ ⊆ Set.Ico 0x10000 0x14000 := by
    rintro a (⟨path, table, reached, low, high⟩ | ⟨ref, member, _⟩)
    · obtain ⟨first, last⟩ := inUse path table reached
      simp only [pagingPageSize] at high
      exact ⟨by omega, by omega⟩
    · exact absurd member (Set.notMem_empty ref)
  have apart : ∀ {low high : Nat}, high ≤ 0x10000 ∨ 0x14000 ≤ low →
      Disjoint (twoHeaps.tables lowTables ∅) (Set.Ico low high) := fun outside =>
    Set.disjoint_of_subset_left tables (Set.disjoint_left.mpr fun a inTables inRange => by
      obtain ⟨low, high⟩ := inTables
      obtain ⟨low', high'⟩ := inRange
      omega)
  have heaps : ∀ ref, twoHeaps.IsPhysical ref → (twoHeaps.heaps ref).Sound :=
    twoHeaps_cases (fun ref => (twoHeaps.heaps ref).Sound)
      ⟨by decide, by decide, by decide, by decide, by decide, by decide, by decide, by decide⟩
      ⟨by decide, by decide, by decide, by decide, by decide, by decide, by decide, by decide⟩
  have isHeap : ∀ ref, twoHeaps.IsPhysical ref ∨ ref ∈ (∅ : Set HeapRef) → twoHeaps.IsPhysical ref :=
    fun ref heap => heap.resolve_right (Set.notMem_empty ref)
  refine ⟨⟨fun ref heap => heaps ref (isHeap ref heap), twoHeaps_cases _ (by decide) (by decide), fun ref ref' heap heap' => ?_,
    fun ref ref' => ?_, fun ref member => absurd member (Set.notMem_empty ref)⟩, fun ref allows => ?_, tree,
    twoHeaps_cases _ (apart (Or.inl (by decide))) (apart (Or.inl (by decide))),
    fun ref member => absurd member (Set.notMem_empty ref), fun ref isPhysical block below _ => ?_⟩
  · refine twoHeaps_cases (fun ref => ref ≠ ref' →
      Disjoint (twoHeaps.heaps ref).tableBytes (twoHeaps.heaps ref').tableBytes) ?_ ?_ ref (isHeap ref heap)
    · refine twoHeaps_cases (fun ref' => HeapRef.kernelMinimalHeap ≠ ref' → Disjoint _
        (twoHeaps.heaps ref').tableBytes) (fun same => absurd rfl same) (fun _ => ?_) ref' (isHeap ref' heap')
      exact Set.Ico_disjoint_Ico.mpr (by decide)
    · refine twoHeaps_cases (fun ref' => HeapRef.allocated 0x100000 ≠ ref' → Disjoint _
        (twoHeaps.heaps ref').tableBytes) (fun _ => ?_) (fun same => absurd rfl same) ref' (isHeap ref' heap')
      exact Set.Ico_disjoint_Ico.mpr (by decide)
  · intro isPhysical isPhysical'
    rcases (twoHeaps_physical ref).mp isPhysical with rfl | rfl <;>
      rcases (twoHeaps_physical ref').mp isPhysical' with rfl | rfl
    · exact fun same => absurd rfl same
    · exact fun _ => ⟨Set.Ico_disjoint_Ico.mpr (by decide), Set.Ico_disjoint_Ico.mpr (by decide)⟩
    · exact fun _ => ⟨Set.Ico_disjoint_Ico.mpr (by decide), Set.Ico_disjoint_Ico.mpr (by decide)⟩
    · exact fun same => absurd rfl same
  · -- only the data heap allows paging, and it is empty
    have isData : ref = .allocated 0x100000 := by
      obtain ⟨node, member, isNode, allows⟩ := allows
      rcases List.mem_pair.mp member with rfl | rfl
      · exact absurd allows (by decide)
      · exact isNode.symm
    subst isData
    have types : (twoHeaps.heapState (.allocated 0x100000)).TwoTypes := by
      unfold HeapState.TwoTypes
      decide +kernel
    exact ⟨types, .of_counters (heaps _ allows.physical) types (by decide +kernel) (by decide +kernel)⟩
  · refine Set.disjoint_of_subset_right ((heaps ref isPhysical).blockBytes_subset below) ?_
    exact twoHeaps_cases (fun ref => Disjoint _ (twoHeaps.heaps ref).dataBytes) (apart (Or.inr (by decide)))
      (apart (Or.inr (by decide))) ref isPhysical

/-- **The two heaps can be made ready.** -/
theorem twoHeaps_booted : MultiheapBooted twoHeaps lowTables where
  sound := twoHeaps_sound
  unpaged := by decide
  structures := by
    -- the structure of the data heap is in the first block, which is taken
    rintro address (isPhysical | member) block below isFree
    · have here : address = 0x100000 := by
        rcases (twoHeaps_physical _).mp isPhysical with same | same
        · cases same
        · exact HeapRef.allocated.inj same
      have notFirst : block ≠ 0 := by
        rintro rfl
        exact absurd isFree (by decide +kernel)
      rw [here]
      rintro ⟨low, _⟩
      change 0x100000 + block * peachosHeapBlockSize ≤ 0x100000 at low
      simp only [peachosHeapBlockSize] at low
      omega
    · exact absurd member (Set.notMem_empty _)
  starting := by decide +kernel

/-- The multiheap that `multiheap_ready` makes of the two heaps. -/
def readyHeaps : Kernel := (multiheapReady twoHeaps (some lowTables)).getD twoHeaps

theorem readyHeaps_served : MultiheapRun.Served ⟨readyHeaps, lowTables⟩ := by
  have succeeds : ReadySucceeds lowTables (multiheapGetMaxMemoryEndAddress twoHeaps) twoHeaps.multiheap.heaps
      twoHeaps.markReady := by
    decide +kernel
  obtain ⟨k, made⟩ : ∃ k, multiheapReady twoHeaps (some lowTables) = some k := ⟨_, rfl⟩
  have same : readyHeaps = k := by
    unfold readyHeaps
    rw [made, Option.getD_some]
  exact ⟨twoHeaps, twoHeaps_booted, succeeds, same ▸ made⟩

/-- **The run theorem at work**: two blocks of the data heap are taken, and the second pass still succeeds. -/
theorem secondPass_succeeds_twoHeaps :
    MultiheapRun.SecondPassSucceeds ⟨(multiheapAlloc readyHeaps 8192).2, lowTables⟩ := by
  have taken := MultiheapRun.step_alloc readyHeaps lowTables (show 8192 < 2 ^ 64 by norm_num)
  have keeps : MultiheapRun.keepsBlocks ⟨readyHeaps, lowTables⟩ (.alloc 8192) := trivial
  exact secondPass_succeeds _ (.next _ (.start readyHeaps_served) ⟨keeps, taken⟩)

/-! ### A reallocation that shrinks -/

/-- Two blocks are taken at the start of the data heap, ... -/
def takenHeaps : Kernel := (multiheapAlloc readyHeaps 8192).2

/-- ... the allocation is shrunk to one block, ... -/
def shrunkHeaps : Kernel := ((multiheapRealloc takenHeaps 0x200000 4096).getD (0, takenHeaps)).2

/-- ... and the other two blocks are taken. -/
def fullHeaps : Kernel := (multiheapAlloc (multiheapAlloc shrunkHeaps 4096).2 4096).2

theorem fullHeaps_reached : Reachable MultiheapRun.step MultiheapRun.Initial ⟨fullHeaps, lowTables⟩ := by
  have initial : MultiheapRun.Initial ⟨readyHeaps, lowTables⟩ := by
    obtain ⟨k, booted, _, made⟩ := readyHeaps_served
    exact ⟨k, booted, made⟩
  have physical : multiheapIsAddressVirtual takenHeaps.multiheap 0x200000 = false := by decide +kernel
  obtain ⟨result, done⟩ : ∃ result, multiheapRealloc takenHeaps 0x200000 4096 = some result :=
    Option.isSome_iff_exists.mp (by decide +kernel)
  have same : shrunkHeaps = result.2 := by
    unfold shrunkHeaps
    rw [done, Option.getD_some]
  have word : 4096 < 2 ^ 64 := by norm_num
  have taken := MultiheapRun.step_alloc readyHeaps lowTables (show 8192 < 2 ^ 64 by norm_num)
  have shrunk := MultiheapRun.step_realloc lowTables word physical done
  rw [← same] at shrunk
  exact .next _ (.next _ (.next _ (.next _ (.start initial) taken) shrunk) (MultiheapRun.step_alloc _ _ word))
    (MultiheapRun.step_alloc _ _ word)

/-- **The second pass can panic**: it selects the data heap for one page, and the data heap is full. -/
theorem secondPass_panics : ¬ ∀ σ, Reachable MultiheapRun.step MultiheapRun.Initial σ → σ.SecondPassSucceeds := by
  intro succeeds
  have selected : (multiheapAllocPaging fullHeaps 4096).1.2.map MultiheapSingleHeap.heap =
      some (.allocated 0x100000) := by decide +kernel
  have panics : multiheapAllocSecondPassLoop lowTables (.allocated 0x100000) 1 (multiheapAllocPaging fullHeaps 4096).1.1
      (multiheapAllocPaging fullHeaps 4096).2 |>.isNone := by decide +kernel
  obtain ⟨chosen, isChosen, isData⟩ := Option.map_eq_some_iff.mp selected
  generalize pagingEq : multiheapAllocPaging fullHeaps 4096 = paging at selected panics
  obtain ⟨⟨ptr, chosen⟩, k⟩ := paging
  obtain ⟨node, isNode, isData⟩ := Option.map_eq_some_iff.mp selected
  rw [show chosen = some node from isNode] at pagingEq
  rw [← isData, Option.isNone_iff_eq_none] at panics
  have aligned : heapAlignValueToUpper 4096 = 4096 := by decide
  rw [← aligned] at pagingEq
  exact not_secondPassSucceeds pagingEq panics (succeeds _ fullHeaps_reached)

end PeachOS
