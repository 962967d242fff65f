/-
**The kernel heap as a ledger of live chains.**

`KernelHeap` says what the kernel runs on once `kheap_init` is done and paging is on: the multiheap has
the minimal heap as its only data heap (`kheapInit_result`), and the table of that heap records the
chains of the ledger, loosely coded.

* `Granted` — what `kmalloc` and `kzalloc` do when they succeed: one new chain, all others kept;
* `Regranted` — what `krealloc` does to a clean chain;
* `Grown` — what a sequence of allocations and writes does for one holder: it adds chains of that holder
  and writes to chains of that holder only.

A chain has a holder, recorded by its first block. Two chains with different holders are different, so
they share no block.
-/

import PeachOS.Heap.LooseChains
import PeachOS.Multiheap.Model
import Mathlib.Data.Finset.Card
import Mathlib.Logic.Function.Basic

namespace PeachOS

open ByteStore SpanTable FirstFit

/-! ### The kernel heap -/

namespace Kernel

/-- The minimal heap. -/
def minimal (k : Kernel) : Heap := k.heaps .kernelMinimalHeap

/-- The state in which the functions of the minimal heap run. -/
def minimalState (k : Kernel) : HeapState := k.heapState .kernelMinimalHeap

/-- The address of a chain of the minimal heap. -/
def address (k : Kernel) (chain : Span) : Nat := chainAddress k.minimal chain

/-- The bytes of a chain. -/
def bytes (k : Kernel) (chain : Span) : Set Nat :=
  Set.Ico (k.address chain) (k.address chain + chain.len * peachosHeapBlockSize)

/-- The multiheap is the same and the minimal heap differs in its counters at most. -/
structure SameHeap (k k' : Kernel) : Prop where
  multiheap : k'.multiheap = k.multiheap
  geometry : k.minimal.SameGeometry k'.minimal

/-- The bytes of a chain are kept. -/
def Keeps (k k' : Kernel) (chain : Span) : Prop := ∀ a ∈ k.bytes chain, k'.mem a = k.mem a

end Kernel

/-- **The kernel heap records exactly the live chains**, in memory that the four levels of a page table reach. -/
structure KernelHeap (k : Kernel) (chains : Set Span) : Prop where
  list : ∃ flags, k.multiheap.heaps = [⟨.kernelMinimalHeap, none, flags⟩]
  top : k.minimal.eaddr ≤ k.multiheap.maxEndDataAddr
  physical : k.minimal.eaddr ≤ 2 ^ 48
  sound : k.minimal.Sound
  decodes : Decodes looseCoding k.minimalState.view k.minimal.table.total chains

section Frames

variable {k k' k'' : Kernel} {chains : Set Span} {chain other : Span}

theorem Kernel.SameHeap.refl (k : Kernel) : k.SameHeap k := ⟨rfl, rfl⟩

theorem Kernel.SameHeap.trans (same : k.SameHeap k') (same' : k'.SameHeap k'') : k.SameHeap k'' :=
  ⟨same'.multiheap.trans same.multiheap, same.geometry.trans same'.geometry⟩

theorem Kernel.SameHeap.address (same : k.SameHeap k') : k'.address chain = k.address chain := by
  unfold Kernel.address chainAddress
  rw [same.geometry.saddr]

theorem Kernel.SameHeap.bytes (same : k.SameHeap k') : k'.bytes chain = k.bytes chain := by
  unfold Kernel.bytes
  rw [same.address]

theorem Kernel.Keeps.refl (k : Kernel) (chain : Span) : k.Keeps k chain := fun _ _ => rfl

theorem Kernel.Keeps.trans (same : k.SameHeap k') (keeps : k.Keeps k' chain) (keeps' : k'.Keeps k'' chain) :
    k.Keeps k'' chain := fun a inside => by
  rw [keeps' a (by rw [same.bytes]; exact inside), keeps a inside]

/-- A word in a kept chain is kept. -/
theorem Kernel.Keeps.readWord (keeps : k.Keeps k' chain) {offset count : Nat}
    (inside : offset + count ≤ chain.len * peachosHeapBlockSize) :
    ByteStore.readWord k'.mem (k.address chain + offset) count =
      ByteStore.readWord k.mem (k.address chain + offset) count :=
  readWord_congr fun place below => keeps _ ⟨by omega, by omega⟩

namespace KernelHeap

variable (heap : KernelHeap k chains)

include heap

/-- The bytes of a live chain lie in the heap. -/
theorem bytes_in_heap (live : chain ∈ chains) :
    k.minimal.saddr ≤ k.address chain ∧
      k.address chain + chain.len * peachosHeapBlockSize ≤ k.minimal.eaddr :=
  ⟨Nat.le_add_right _ _, heap.sound.range_le (heap.decodes.within chain live)⟩

/-- The bytes of a live chain lie outside the table. -/
theorem bytes_outside (live : chain ∈ chains) {a : Nat} (inside : a ∈ k.bytes chain) :
    a < k.minimal.table.entries ∨ k.minimal.table.entries + k.minimal.table.total ≤ a := by
  obtain ⟨low, high⟩ := heap.bytes_in_heap live
  exact heap.sound.data_outside (low.trans inside.1) (inside.2.trans_le high)

theorem address_pos (chain : Span) : 0 < k.address chain := by
  have positive := heap.sound.positive
  unfold Kernel.address chainAddress
  exact Nat.lt_of_lt_of_le positive (Nat.le_add_right _ _)

theorem address_aligned (chain : Span) : k.address chain % peachosHeapBlockSize = 0 := by
  have aligned := heap.sound.aligned
  unfold Kernel.address chainAddress
  change k.minimal.saddr % 4096 = 0 at aligned
  simp only [peachosHeapBlockSize]
  omega

omit heap in
/-- Chains without a common block have no common byte. -/
theorem bytes_disjoint (apart : Disjoint chain.blocks other.blocks) :
    Disjoint (k.bytes chain) (k.bytes other) := by
  refine Set.disjoint_left.mpr fun a inChain inOther => ?_
  unfold Kernel.bytes Kernel.address chainAddress at inChain inOther
  rw [Set.mem_Ico] at inChain inOther
  simp only [peachosHeapBlockSize] at inChain inOther
  have block : (a - k.minimal.saddr) / 4096 ∈ chain.blocks := ⟨by omega, by omega⟩
  have block' : (a - k.minimal.saddr) / 4096 ∈ other.blocks := ⟨by omega, by omega⟩
  exact Set.disjoint_left.mp apart block block'

/-- Live chains are apart or the same. -/
theorem disjoint (live : chain ∈ chains) (live' : other ∈ chains) (different : chain ≠ other) :
    Disjoint chain.blocks other.blocks :=
  heap.decodes.disjoint live live' different

/-- Live chains with the same first block are the same. -/
theorem eq_of_start (live : chain ∈ chains) (live' : other ∈ chains) (start : chain.start = other.start) :
    chain = other := by
  have nonempty := heap.decodes.nonempty chain live
  have nonempty' := heap.decodes.nonempty other live'
  refine heap.decodes.eq_of_mem live live' (Span.start_mem nonempty) ?_
  rw [start]
  exact Span.start_mem nonempty'

/-- **A write inside a live chain** leaves the heap as it is. -/
theorem withMem (live : chain ∈ chains) {mem : Memory} (same : ∀ a, a ∉ k.bytes chain → mem a = k.mem a) :
    KernelHeap { k with mem := mem } chains where
  list := heap.list
  top := heap.top
  physical := heap.physical
  sound := heap.sound
  decodes := heap.decodes.congr fun block below => by
    refine same _ fun inside => ?_
    have outside : k.minimal.table.entries + block < k.minimal.table.entries ∨
        k.minimal.table.entries + k.minimal.table.total ≤ k.minimal.table.entries + block :=
      heap.bytes_outside live inside
    omega

/-- **A write inside a live chain** keeps every other one. -/
theorem keeps_withMem (live : chain ∈ chains) (live' : other ∈ chains) (different : other ≠ chain) {mem : Memory}
    (same : ∀ a, a ∉ k.bytes chain → mem a = k.mem a) : k.Keeps { k with mem := mem } other :=
  fun a inside => same a fun inChain =>
    Set.disjoint_left.mp (bytes_disjoint (heap.disjoint live' live different)) inside inChain

end KernelHeap

end Frames

/-! ### Allocating -/

/-- **One chain granted.** -/
structure Granted (k : Kernel) (chains : Set Span) (chain : Span) (ptr : Nat) (k' : Kernel) : Prop where
  pointer : ptr = k.address chain
  nonempty : 0 < chain.len
  same : k.SameHeap k'
  heap : KernelHeap k' (insert chain chains)
  apart : ∀ other ∈ chains, Disjoint chain.blocks other.blocks
  kept : ∀ other ∈ chains, k.Keeps k' other

section Allocate

variable {k : Kernel} {chains : Set Span} (heap : KernelHeap k chains)

/-- A heap function that only reads leaves the kernel as it is. -/
theorem withHeapState_readOnly {ref : HeapRef} {s : HeapState} (readOnly : (k.heapState ref).ReadOnly s) :
    k.withHeapState ref s = k := by
  have heaps : (fun other => if other = ref then s.heap else k.heaps other) = k.heaps := by
    funext other
    by_cases here : other = ref
    · rw [if_pos here, here, readOnly.heap]
      rfl
    · rw [if_neg here]
  unfold Kernel.withHeapState
  rw [heaps, readOnly.mem, readOnly.calls]
  rfl

theorem withHeapState_minimal (k : Kernel) (s : HeapState) :
    (k.withHeapState .kernelMinimalHeap s).minimal = s.heap := by
  show (if HeapRef.kernelMinimalHeap = .kernelMinimalHeap then s.heap else k.heaps .kernelMinimalHeap) = s.heap
  exact if_pos rfl

include heap

/-- The kernel after a change of the heap that keeps its geometry. -/
theorem KernelHeap.withHeapState {s : HeapState} {chains' : Set Span} (geometry : k.minimal.SameGeometry s.heap)
    (decodes : Decodes looseCoding s.view k.minimal.table.total chains') :
    KernelHeap (k.withHeapState .kernelMinimalHeap s) chains' where
  list := heap.list
  top := by
    rw [withHeapState_minimal, geometry]
    exact heap.top
  physical := by
    rw [withHeapState_minimal, geometry]
    exact heap.physical
  sound := by
    rw [withHeapState_minimal]
    exact geometry.sound heap.sound
  decodes := by
    have viewEq : (k.withHeapState .kernelMinimalHeap s).minimalState.view = s.view := by
      funext block
      show s.mem ((k.withHeapState .kernelMinimalHeap s).minimal.table.entries + block) = _
      rw [withHeapState_minimal]
      rfl
    rw [viewEq, withHeapState_minimal, geometry.table]
    exact decodes

theorem kmalloc_eq (size : Nat) : kmalloc k size = k.heapMallocAt .kernelMinimalHeap size := by
  obtain ⟨flags, list⟩ := heap.list
  unfold kmalloc multiheapAlloc multiheapAllocFirstPass
  rw [list, multiheapAllocFirstPassLoop, multiheapAllocFirstPassLoop]
  by_cases null : (k.heapMallocAt .kernelMinimalHeap size).1 = 0
  · simp only [null, ne_eq, not_true_eq_false, if_false]
    rw [← null]
  · simp only [ne_eq, null, not_false_eq_true, if_true]

/-- A successful allocation grants its chain. -/
theorem granted_of_allocated {s : HeapState} {blocks start ptr : Nat}
    (allocated : Allocated k.minimalState blocks start ptr s) :
    Granted k chains ⟨start, blocks⟩ ptr (k.withHeapState .kernelMinimalHeap s) := by
  obtain ⟨decodes, apart⟩ := loose_taken_run heap.decodes allocated.positive allocated.run.1 allocated.view
  refine ⟨allocated.address, allocated.positive, ⟨rfl, ?_⟩, heap.withHeapState allocated.geometry decodes, apart,
    fun other live a inside => ?_⟩
  · rw [withHeapState_minimal]
    exact allocated.geometry
  · refine allocated.mem a (heap.bytes_outside live inside) ?_
    have outside : a ∉ k.bytes ⟨start, blocks⟩ := fun inNew =>
      Set.disjoint_left.mp (KernelHeap.bytes_disjoint (apart other live)) inNew inside
    rw [allocated.address]
    by_contra between
    refine outside ⟨?_, ?_⟩
    · show k.minimalState.heap.saddr + start * peachosHeapBlockSize ≤ a
      omega
    · show a < k.minimalState.heap.saddr + start * peachosHeapBlockSize + blocks * peachosHeapBlockSize
      omega

/-- **`kmalloc`** grants a chain of the blocks of its size, or leaves the kernel as it is. -/
theorem kmalloc_cases (size : Nat) :
    kmalloc k size = (0, k) ∨
      ∃ start, Granted k chains ⟨start, heapBlocks size⟩ (kmalloc k size).1 (kmalloc k size).2 := by
  rw [kmalloc_eq heap]
  unfold Kernel.heapMallocAt
  rcases heapMalloc_cases heap.sound (s := k.minimalState) size with ⟨null, readOnly, _⟩ | ⟨start, allocated⟩
  · left
    show ((heapMalloc k.minimalState size).1,
      k.withHeapState .kernelMinimalHeap (heapMalloc k.minimalState size).2) = (0, k)
    rw [null, withHeapState_readOnly readOnly]
  · exact Or.inr ⟨start, granted_of_allocated heap allocated⟩

/-- **`kzalloc`** grants a cleared chain, or leaves the kernel as it is. -/
theorem kzalloc_cases {size : Nat} (word : size < 2 ^ 64) :
    kzalloc k size = (0, k) ∨
      ∃ start, Granted k chains ⟨start, heapBlocks size⟩ (kzalloc k size).1 (kzalloc k size).2 ∧
        ∀ offset < min size (2 ^ 31), (kzalloc k size).2.mem ((kzalloc k size).1 + offset) = 0x00#8 := by
  have cases_ := kmalloc_cases heap size
  unfold kzalloc
  generalize kmalloc k size = result at cases_ ⊢
  rcases cases_ with rfl | ⟨start, granted⟩
  · exact Or.inl rfl
  · have nonzero : result.1 ≠ 0 := by
      rw [granted.pointer]
      exact (heap.address_pos _).ne'
    have fits := le_heapBlocks_mul word granted.nonempty
    have live : (⟨start, heapBlocks size⟩ : Span) ∈ insert ⟨start, heapBlocks size⟩ chains := Set.mem_insert _ _
    have cleared : ∀ a, a ∉ result.2.bytes ⟨start, heapBlocks size⟩ →
        memset result.2.mem result.1 0x00#8 size a = result.2.mem a := fun a outside => by
      refine memset_outside ?_ _
      by_contra between
      refine outside ?_
      rw [granted.same.bytes]
      exact ⟨by rw [← granted.pointer]; omega, by rw [← granted.pointer]; simp only; omega⟩
    right
    simp only [nonzero, if_false]
    refine ⟨start, ⟨granted.pointer, granted.nonempty, ⟨granted.same.multiheap, granted.same.geometry⟩,
      granted.heap.withMem live cleared, granted.apart, fun other known => ?_⟩, fun offset below => ?_⟩
    · have different : other ≠ ⟨start, heapBlocks size⟩ := by
        rintro rfl
        exact Span.not_disjoint (Span.start_mem granted.nonempty) (Span.start_mem granted.nonempty)
          (granted.apart _ known)
      exact (granted.kept other known).trans granted.same
        (granted.heap.keeps_withMem live (Set.mem_insert_of_mem _ known) different cleared)
    · rw [memset, fill_apply, if_pos ⟨Nat.le_add_right _ _, by omega⟩]

end Allocate

/-! ### Spare blocks -/

/-- At least `spare` blocks of the heap are in no chain. -/
def SpareBlocks (k : Kernel) (chains : Set Span) (spare : Nat) : Prop :=
  ∃ used : Finset Nat, used.card + spare ≤ k.minimal.table.total ∧
    ∀ chain ∈ chains, ∀ block ∈ chain.blocks, block ∈ used

section Spare

variable {k k' : Kernel} {chains : Set Span} {spare : Nat}

theorem SpareBlocks.congr (spares : SpareBlocks k chains spare) (same : k.SameHeap k') :
    SpareBlocks k' chains spare := by
  unfold SpareBlocks at spares ⊢
  rwa [same.geometry.table]

/-- A spare block is free. -/
theorem SpareBlocks.free (heap : KernelHeap k chains) (spares : SpareBlocks k chains (spare + 1)) :
    ∃ block < k.minimal.table.total, typeFree (k.minimalState.view block) := by
  obtain ⟨used, few, covers⟩ := spares
  obtain ⟨block, below, unused⟩ := Finset.exists_mem_notMem_of_card_lt_card
    (show used.card < (Finset.range k.minimal.table.total).card by rw [Finset.card_range]; omega)
  refine ⟨block, Finset.mem_range.mp below, ?_⟩
  have vacant : k.minimalState.view block = heapBlockTableEntryFree :=
    heap.decodes.vacant block (Finset.mem_range.mp below) fun chain live inside => unused (covers chain live block inside)
  rw [typeFree, vacant]
  exact entryType_free

/-- **An allocation of one block succeeds while a block is spare.** -/
theorem kzalloc_spare (spare : Nat) (heap : KernelHeap k chains) (spares : SpareBlocks k chains (spare + 1)) {size : Nat}
    (word : size < 2 ^ 64) (one : heapBlocks size = 1) :
    ∃ start, Granted k chains ⟨start, 1⟩ (kzalloc k size).1 (kzalloc k size).2 ∧
      (∀ offset < min size (2 ^ 31), (kzalloc k size).2.mem ((kzalloc k size).1 + offset) = 0x00#8) ∧
      SpareBlocks (kzalloc k size).2 (insert ⟨start, 1⟩ chains) spare := by
  have allocates : (kmalloc k size).1 ≠ 0 := fun null => by
    rw [kmalloc_eq heap] at null
    obtain ⟨block, below, isFree⟩ := spares.free heap
    rcases heapMalloc_cases heap.sound (s := k.minimalState) size with ⟨_, _, full⟩ | ⟨start, allocated⟩
    · rw [one] at full
      refine full Nat.one_pos block ⟨below, fun offset small => ?_⟩
      rw [Nat.lt_one_iff.mp small]
      exact isFree
    · exact (allocated.pointer_pos heap.sound).ne' null
  rcases kzalloc_cases heap word with failed | ⟨start, granted, cleared⟩
  · refine absurd ?_ allocates
    unfold kzalloc at failed
    by_cases null : (kmalloc k size).1 = 0
    · exact null
    · simp only [null, if_false] at failed
      exact congrArg Prod.fst failed
  · rw [one] at granted
    refine ⟨start, granted, cleared, ?_⟩
    obtain ⟨used, few, covers⟩ := spares
    refine ⟨insert start used, ?_, fun chain live block inside => ?_⟩
    · have bound := Finset.card_insert_le start used
      rw [granted.same.geometry.table]
      omega
    · rcases live with rfl | old
      · have here : block = start := by
          obtain ⟨low, high⟩ := inside
          simp only at low high
          omega
        rw [here]
        exact Finset.mem_insert_self _ _
      · exact Finset.mem_insert_of_mem (covers chain old block inside)

end Spare

/-! ### Reallocating -/

/-- **What `krealloc` does to a clean chain**: it fails, or the chain is exchanged for one of the new
size that begins with the old bytes. A chain that starts elsewhere was blocked where it was. -/
inductive Regranted (k : Kernel) (chains : Set Span) (chain : Span) (blocks : Nat) (result : Nat × Kernel) :
    Prop where
  | failed (same : result = (0, k))
  | granted (start : Nat) (pointer : result.1 = k.address ⟨start, blocks⟩) (same : k.SameHeap result.2)
      (heap : KernelHeap result.2 (insert ⟨start, blocks⟩ (chains \ {chain})))
      (apart : ∀ other ∈ chains, other ≠ chain → Disjoint (Span.mk start blocks).blocks other.blocks)
      (kept : ∀ other ∈ chains, other ≠ chain → k.Keeps result.2 other)
      (contents : start = chain.start ∨ chain.len * peachosHeapBlockSize < 2 ^ 32 →
        ∀ offset < min chain.len blocks * peachosHeapBlockSize,
          result.2.mem (result.1 + offset) = k.mem (k.address chain + offset))
      (place : start = chain.start ∨ chain.len < blocks ∧ ∃ block, chain.start + chain.len ≤ block ∧
        block < chain.start + blocks ∧ isTaken (k.minimalState.view block))

section Reallocate

variable {k : Kernel} {chains : Set Span} (heap : KernelHeap k chains)

include heap

/-- `krealloc` of `NULL` is `kmalloc`. -/
theorem krealloc_null (size : Nat) : krealloc k 0 size = some (kmalloc k size) := by
  obtain ⟨flags, list⟩ := heap.list
  have positive : 0 < (k.heaps .kernelMinimalHeap).saddr := heap.sound.positive
  have above : 0 < k.multiheap.maxEndDataAddr := by
    have span : (k.heaps .kernelMinimalHeap).eaddr = (k.heaps .kernelMinimalHeap).saddr +
        (k.heaps .kernelMinimalHeap).table.total * peachosHeapBlockSize := heap.sound.span
    have top : (k.heaps .kernelMinimalHeap).eaddr ≤ k.multiheap.maxEndDataAddr := heap.top
    omega
  have notVirtual : multiheapIsAddressVirtual k.multiheap 0 = false := decide_eq_false (by omega)
  have notWithin : heapIsAddressWithinHeap (k.heaps .kernelMinimalHeap) 0 = false :=
    decide_eq_false fun within => by omega
  unfold krealloc multiheapRealloc multiheapGetHeapAndPagingHeapForAddress multiheapGetHeapForAddress
  rw [notVirtual, list, List.find?_cons, notWithin]
  rfl

/-- `krealloc` of an address of the heap is `heap_realloc` of the minimal heap. -/
theorem krealloc_eq {ptr : Nat} (low : k.minimal.saddr ≤ ptr) (high : ptr < k.minimal.eaddr) (size : Nat) :
    krealloc k ptr size = some (k.heapReallocAt .kernelMinimalHeap ptr size) := by
  obtain ⟨flags, list⟩ := heap.list
  have top := heap.top
  have notVirtual : multiheapIsAddressVirtual k.multiheap ptr = false := decide_eq_false (by omega)
  have within : heapIsAddressWithinHeap (k.heaps .kernelMinimalHeap) ptr = true :=
    decide_eq_true ⟨low, high.le⟩
  unfold krealloc multiheapRealloc multiheapGetHeapAndPagingHeapForAddress multiheapGetHeapForAddress
  rw [notVirtual, list, List.find?_cons, within]
  rfl

/-- **`krealloc` of a clean live chain.** -/
theorem krealloc_clean {chain : Span} (live : chain ∈ chains)
    (clean : Clean k.minimalState.view k.minimal.table.total chain) {size : Nat} (word : size < 2 ^ 64)
    (some_ : 0 < heapBlocks size)
    (stays : StaysInTable k.minimalState.view k.minimal.table.total chain (heapBlocks size)) :
    ∃ result, krealloc k (k.address chain) size = some result ∧
      Regranted k chains chain (heapBlocks size) result := by
  have nonempty := heap.decodes.nonempty chain live
  obtain ⟨low, high⟩ := heap.bytes_in_heap live
  have below : k.address chain < k.minimal.eaddr := by
    simp only [peachosHeapBlockSize] at high
    omega
  refine ⟨_, krealloc_eq heap low below size, ?_⟩
  have outcome := heapRealloc_clean heap.sound heap.decodes live clean word some_ stays
  unfold Kernel.heapReallocAt
  change LooseRealloc k.minimalState chains chain (heapBlocks size)
    (heapRealloc k.minimalState (k.address chain) size) at outcome
  show Regranted k chains chain (heapBlocks size)
    ((heapRealloc k.minimalState (k.address chain) size).1,
      k.withHeapState .kernelMinimalHeap (heapRealloc k.minimalState (k.address chain) size).2)
  generalize heapRealloc k.minimalState (k.address chain) size = result at outcome ⊢
  cases outcome with
  | failed null frame =>
      refine .failed ?_
      rw [null, withHeapState_readOnly frame]
  | inPlace pointer frame decodes =>
      refine .granted chain.start pointer ⟨rfl, ?_⟩ (heap.withHeapState frame.geometry decodes)
        (fun other known different => ?_) (fun other known different a inside => ?_) (fun _ offset below => ?_)
        (Or.inl rfl)
      · rw [withHeapState_minimal]
        exact frame.geometry
      · have mine := Set.mem_insert (⟨chain.start, heapBlocks size⟩ : Span) (chains \ {chain})
        have theirs : other ∈ insert (⟨chain.start, heapBlocks size⟩ : Span) (chains \ {chain}) :=
          Set.mem_insert_of_mem _ ⟨known, different⟩
        refine decodes.disjoint mine theirs ?_
        rintro rfl
        exact different (heap.eq_of_start known live rfl)
      · exact frame.mem a (heap.bytes_outside known inside)
      · show result.2.mem (result.1 + offset) = _
        rw [pointer]
        exact frame.mem _ (heap.bytes_outside live
          ⟨Nat.le_add_right _ _, Nat.add_lt_add_left
            (below.trans_le (Nat.mul_le_mul_right _ (min_le_left _ _))) _⟩)
  | moved start more blocked run moves decodes =>
      obtain ⟨_, apart⟩ := loose_taken_run heap.decodes moves.positive run
        (show ∀ block < k.minimal.table.total, takenFrom k.minimalState.view start (heapBlocks size) block =
          takenFrom k.minimalState.view start (heapBlocks size) block from fun _ _ => rfl)
      refine .granted start moves.address ⟨rfl, ?_⟩ (heap.withHeapState moves.geometry decodes)
        (fun other known _ => apart other known) (fun other known _ a inside => ?_) (fun bounded offset below => ?_)
        (Or.inr ⟨more, blocked⟩)
      · rw [withHeapState_minimal]
        exact moves.geometry
      · refine moves.mem a (heap.bytes_outside known inside) ?_
        have outside : a ∉ k.bytes ⟨start, heapBlocks size⟩ := fun inNew =>
          Set.disjoint_left.mp (KernelHeap.bytes_disjoint (apart other known)) inNew inside
        rw [moves.address]
        by_contra between
        refine outside ⟨?_, ?_⟩
        · show k.minimalState.heap.saddr + start * peachosHeapBlockSize ≤ a
          omega
        · show a < k.minimalState.heap.saddr + start * peachosHeapBlockSize +
            heapBlocks size * peachosHeapBlockSize
          omega
      · have small : chain.len * peachosHeapBlockSize < 2 ^ 32 := bounded.resolve_left fun sameStart => by
          subst sameStart
          have inNew : chain.start ∈ (Span.mk chain.start (heapBlocks size)).blocks := Span.start_mem some_
          exact Span.not_disjoint inNew (Span.start_mem nonempty) (apart chain live)
        refine moves.bytes (fun block low high => ?_) offset ?_
        · have marked := heap.decodes.marked chain live (block - chain.start) (by omega)
          rw [Nat.add_sub_cancel' low] at marked
          exact not_typeFree_of_entryType marked.1
        · rw [Nat.mod_eq_of_lt small]
          exact below.trans_le (Nat.mul_le_mul_right _ (min_le_left _ _))

end Reallocate

/-! ### Holders -/

/-- The live chains, and who holds the chain that starts at a block. -/
structure Ledger (Holder : Type) where
  chains : Set Span
  holder : Nat → Option Holder

namespace Ledger

variable {Holder : Type} (ledger : Ledger Holder) {who who' : Holder} {chain other : Span}

/-- A live chain is held by somebody. -/
def Holds (who : Holder) (chain : Span) : Prop := chain ∈ ledger.chains ∧ ledger.holder chain.start = some who

/-- One chain more. -/
def grant (who : Option Holder) (chain : Span) : Ledger Holder :=
  ⟨insert chain ledger.chains, Function.update ledger.holder chain.start who⟩

variable {ledger}

/-- A chain has one holder. -/
theorem Holds.unique (holds : ledger.Holds who chain) (holds' : ledger.Holds who' chain) : who = who' :=
  Option.some.inj (holds.2.symm.trans holds'.2)

theorem holds_grant (who : Holder) (chain : Span) : (ledger.grant (some who) chain).Holds who chain :=
  ⟨Set.mem_insert _ _, Function.update_self _ _ _⟩

/-- The holder of a chain that starts elsewhere. -/
theorem holder_grant {who : Option Holder} (different : other.start ≠ chain.start) :
    (ledger.grant who chain).holder other.start = ledger.holder other.start :=
  Function.update_of_ne different _ _

end Ledger

/-- **What a sequence of allocations and writes does for some holders**: it adds chains of theirs and
writes to chains of theirs only. -/
structure Grown {Holder : Type} (mine : Set Holder) (k : Kernel) (ledger : Ledger Holder) (k' : Kernel)
    (ledger' : Ledger Holder) : Prop where
  same : k.SameHeap k'
  heap : KernelHeap k' ledger'.chains
  chains : ledger.chains ⊆ ledger'.chains
  holder : ∀ chain ∈ ledger.chains, ledger'.holder chain.start = ledger.holder chain.start
  new : ∀ chain ∈ ledger'.chains, chain ∉ ledger.chains → ∃ who ∈ mine, ledger'.holder chain.start = some who
  kept : ∀ chain ∈ ledger.chains, (∀ who ∈ mine, ledger.holder chain.start ≠ some who) → k.Keeps k' chain

namespace Grown

variable {Holder : Type} {mine : Set Holder} {k k' k'' : Kernel} {ledger ledger' ledger'' : Ledger Holder}
  {who : Holder} {chain : Span}

theorem refl (heap : KernelHeap k ledger.chains) : Grown mine k ledger k ledger :=
  ⟨.refl k, heap, Set.Subset.refl _, fun _ _ => rfl, fun _ live absent => absurd live absent,
    fun chain _ _ => .refl k chain⟩

theorem trans (grown : Grown mine k ledger k' ledger') (grown' : Grown mine k' ledger' k'' ledger'') :
    Grown mine k ledger k'' ledger'' where
  same := grown.same.trans grown'.same
  heap := grown'.heap
  chains := grown.chains.trans grown'.chains
  holder := fun chain live => (grown'.holder chain (grown.chains live)).trans (grown.holder chain live)
  new := fun chain live absent => by
    by_cases between : chain ∈ ledger'.chains
    · rw [grown'.holder chain between]
      exact grown.new chain between absent
    · exact grown'.new chain live between
  kept := fun chain live others => (grown.kept chain live others).trans grown.same
    (grown'.kept chain (grown.chains live) (by rw [grown.holder chain live]; exact others))

/-- A chain stays with its holder. -/
theorem holds (grown : Grown mine k ledger k' ledger') (held : ledger.Holds who chain) :
    ledger'.Holds who chain :=
  ⟨grown.chains held.1, (grown.holder chain held.1).trans held.2⟩

/-- The chains of the other holders are the same. -/
theorem holds_iff (grown : Grown mine k ledger k' ledger') (other : who ∉ mine) :
    ledger'.Holds who chain ↔ ledger.Holds who chain := by
  refine ⟨fun held => ?_, grown.holds⟩
  by_cases live : chain ∈ ledger.chains
  · exact ⟨live, (grown.holder chain live).symm.trans held.2⟩
  · obtain ⟨mine', member, heldBy⟩ := grown.new chain held.1 live
    rw [held.2, Option.some.injEq] at heldBy
    rw [heldBy] at other
    exact absurd member other

/-- The bytes of the other holders are the same. -/
theorem keeps (grown : Grown mine k ledger k' ledger') (held : ledger.Holds who chain) (other : who ∉ mine) :
    k.Keeps k' chain :=
  grown.kept chain held.1 fun mine' member heldBy => by
    rw [held.2, Option.some.injEq] at heldBy
    rw [heldBy] at other
    exact other member

/-- A granted chain is entered for its holder. -/
theorem of_granted {ptr : Nat} (heap : KernelHeap k ledger.chains)
    (granted : Granted k ledger.chains chain ptr k') (member : who ∈ mine) :
    Grown mine k ledger k' (ledger.grant (some who) chain) where
  same := granted.same
  heap := granted.heap
  chains := Set.subset_insert _ _
  holder := fun other live => Ledger.holder_grant fun sameStart => by
    refine Span.not_disjoint (Span.start_mem granted.nonempty) ?_ (granted.apart other live)
    rw [← sameStart]
    exact Span.start_mem (heap.decodes.nonempty other live)
  new := by
    rintro other (rfl | live) absent
    · exact ⟨who, member, (Ledger.holds_grant who other).2⟩
    · exact absurd live absent
  kept := fun other live _ => granted.kept other live

/-- A write inside a chain of theirs. -/
theorem of_write (heap : KernelHeap k ledger.chains) (held : ledger.Holds who chain) (member : who ∈ mine)
    {mem : Memory} (same : ∀ a, a ∉ k.bytes chain → mem a = k.mem a) :
    Grown mine k ledger { k with mem := mem } ledger where
  same := ⟨rfl, rfl⟩
  heap := heap.withMem held.1 same
  chains := Set.Subset.refl _
  holder := fun _ _ => rfl
  new := fun _ live absent => absurd live absent
  kept := fun other live others => heap.keeps_withMem held.1 live (by
    rintro rfl
    exact others who member held.2) same

end Grown

/-- **What everybody else sees of a step of some holders**: nothing. -/
structure Frame {Holder : Type} (mine : Set Holder) (k : Kernel) (ledger : Ledger Holder) (k' : Kernel)
    (ledger' : Ledger Holder) : Prop where
  same : k.SameHeap k'
  heap : KernelHeap k' ledger'.chains
  holds : ∀ who ∉ mine, ∀ chain, ledger'.Holds who chain ↔ ledger.Holds who chain
  keeps : ∀ who ∉ mine, ∀ chain, ledger.Holds who chain → k.Keeps k' chain

namespace Frame

variable {Holder : Type} {mine mine' : Set Holder} {k k' k'' : Kernel} {ledger ledger' ledger'' : Ledger Holder}
  {who : Holder} {chain : Span}

theorem refl (heap : KernelHeap k ledger.chains) : Frame mine k ledger k ledger :=
  ⟨.refl k, heap, fun _ _ _ => Iff.rfl, fun _ _ chain _ => .refl k chain⟩

theorem trans (frame : Frame mine k ledger k' ledger') (frame' : Frame mine k' ledger' k'' ledger'') :
    Frame mine k ledger k'' ledger'' where
  same := frame.same.trans frame'.same
  heap := frame'.heap
  holds := fun who other chain => (frame'.holds who other chain).trans (frame.holds who other chain)
  keeps := fun who other chain held => (frame.keeps who other chain held).trans frame.same
    (frame'.keeps who other chain ((frame.holds who other chain).mpr held))

theorem mono (frame : Frame mine k ledger k' ledger') (more : mine ⊆ mine') : Frame mine' k ledger k' ledger' where
  same := frame.same
  heap := frame.heap
  holds := fun who other => frame.holds who fun member => other (more member)
  keeps := fun who other => frame.keeps who fun member => other (more member)

theorem of_grown (grown : Grown mine k ledger k' ledger') : Frame mine k ledger k' ledger' where
  same := grown.same
  heap := grown.heap
  holds := fun _ other _ => grown.holds_iff other
  keeps := fun _ other _ held => grown.keeps held other

/-- **A chain exchanged by `krealloc`** is entered for the holder of the old one. -/
theorem of_regranted {start blocks : Nat} (heap : KernelHeap k ledger.chains) (held : ledger.Holds who chain)
    (member : who ∈ mine) (same : k.SameHeap k')
    (heap' : KernelHeap k' (insert ⟨start, blocks⟩ (ledger.chains \ {chain})))
    (kept : ∀ other ∈ ledger.chains, other ≠ chain → k.Keeps k' other)
    (apart : ∀ other ∈ ledger.chains, other ≠ chain → Disjoint (Span.mk start blocks).blocks other.blocks) :
    Frame mine k ledger k'
      ⟨insert ⟨start, blocks⟩ (ledger.chains \ {chain}), Function.update ledger.holder start (some who)⟩ where
  same := same
  heap := heap'
  holds := by
    have nonempty : 0 < (Span.mk start blocks).len := heap'.decodes.nonempty _ (Set.mem_insert _ _)
    intro other notMine chain'
    constructor
    · rintro ⟨live, heldBy⟩
      change Function.update ledger.holder start (some who) chain'.start = some other at heldBy
      have notNew : chain'.start ≠ start := fun sameStart => by
        rw [sameStart, Function.update_self, Option.some.injEq] at heldBy
        rw [← heldBy] at notMine
        exact notMine member
      rw [Function.update_of_ne notNew] at heldBy
      rcases live with rfl | ⟨live, _⟩
      · exact absurd rfl notNew
      · exact ⟨live, heldBy⟩
    · rintro ⟨live, heldBy⟩
      have different : chain' ≠ chain := by
        rintro rfl
        rw [held.2, Option.some.injEq] at heldBy
        rw [← heldBy] at notMine
        exact notMine member
      have sameStart : chain'.start ≠ start := fun equal => by
        refine Span.not_disjoint (Span.start_mem nonempty) ?_ (apart chain' live different)
        show start ∈ chain'.blocks
        rw [← equal]
        exact Span.start_mem (heap.decodes.nonempty chain' live)
      refine ⟨Set.mem_insert_of_mem _ ⟨live, different⟩, ?_⟩
      change Function.update ledger.holder start (some who) chain'.start = some other
      rw [Function.update_of_ne sameStart, heldBy]
  keeps := fun other notMine chain' held' => kept chain' held'.1 (by
    rintro rfl
    rw [held.unique held'] at member
    exact notMine member)

end Frame

end PeachOS
