/-
**The multiheap of `memory/heap/multiheap.c`, and the kernel heap over it.**

A multiheap is a list of heaps that are tried in order. Heaps are shared: the starting heap of the
kernel multiheap is the minimal heap, which is also its first element, so a heap is named by a
`HeapRef` and `Kernel` keeps what the names stand for. The structures that the multiheap allocates for
itself are values here; the blocks they take from the starting heap are taken as in the source.

`kmalloc`, `kzalloc`, `krealloc` and `kfree` are the kernel's allocator. `kfree` does nothing in the
source. Operations that can panic return `none` when they do.
-/

import PeachOS.Heap.Chains

namespace PeachOS

/-- A `struct heap*`: the minimal heap of the kernel, or a heap the multiheap has allocated. -/
inductive HeapRef where
  | kernelMinimalHeap
  | allocated (address : Nat)
deriving DecidableEq

/-- `MULTIHEAP_HEAP_FLAG_EXTERNALLY_OWNED`. -/
def multiheapHeapFlagExternallyOwned : BitVec 32 := 0b01#32

/-- `MULTIHEAP_HEAP_FLAG_DEFRAGMENT_WITH_PAGING`. -/
def multiheapHeapFlagDefragmentWithPaging : BitVec 32 := 0b10#32

/-- `MULTIHEAP_FLAG_IS_READY`. -/
def multiheapFlagIsReady : BitVec 32 := 0b01#32

/-- `struct multiheap_single_heap`, without its link. -/
structure MultiheapSingleHeap where
  heap : HeapRef
  pagingHeap : Option HeapRef
  flags : BitVec 32
deriving DecidableEq

/-- `struct multiheap`: the linked list from `first_multiheap` on is `heaps`. -/
structure Multiheap where
  startingHeap : HeapRef
  heaps : List MultiheapSingleHeap
  maxEndDataAddr : Nat
  flags : BitVec 32
  totalHeaps : Nat
deriving DecidableEq

/-- The memory, the heaps and the kernel multiheap. -/
structure Kernel where
  mem : Memory
  heaps : HeapRef → Heap
  multiheap : Multiheap
  calls : List BlockCall

namespace Kernel

/-- The state in which a heap function runs on one of the heaps. -/
def heapState (k : Kernel) (ref : HeapRef) : HeapState :=
  { heap := k.heaps ref, mem := k.mem, calls := k.calls, accesses := [] }

/-- The kernel after a heap function has run on one of the heaps. -/
def withHeapState (k : Kernel) (ref : HeapRef) (s : HeapState) : Kernel :=
  { k with mem := s.mem, heaps := fun other => if other = ref then s.heap else k.heaps other,
           calls := s.calls }

def heapMallocAt (k : Kernel) (ref : HeapRef) (size : Nat) : Nat × Kernel :=
  let result := heapMalloc (k.heapState ref) size
  (result.1, k.withHeapState ref result.2)

def heapZallocAt (k : Kernel) (ref : HeapRef) (size : Nat) : Nat × Kernel :=
  let result := heapZalloc (k.heapState ref) size
  (result.1, k.withHeapState ref result.2)

def heapFreeAt (k : Kernel) (ref : HeapRef) (ptr : Nat) : Kernel :=
  k.withHeapState ref (heapFree (k.heapState ref) ptr)

def heapReallocAt (k : Kernel) (ref : HeapRef) (oldPtr newSize : Nat) : Nat × Kernel :=
  let result := heapRealloc (k.heapState ref) oldPtr newSize
  (result.1, k.withHeapState ref result.2)

end Kernel

/-! ### Building a multiheap -/

/-- `sizeof(struct multiheap)`. -/
def sizeofMultiheap : Nat := 40

/-- `sizeof(struct multiheap_single_heap)`. -/
def sizeofMultiheapSingleHeap : Nat := 32

/-- `sizeof(struct heap)`. -/
def sizeofHeap : Nat := 64

/-- `sizeof(struct heap_table)`. -/
def sizeofHeapTable : Nat := 16

/-- `multiheap_new`: whether it could be allocated, and the kernel with it. -/
def multiheapNew (k : Kernel) (startingHeap : HeapRef) : Bool × Kernel :=
  let result := k.heapZallocAt startingHeap sizeofMultiheap
  if result.1 = 0 then (false, result.2)
  else (true, { result.2 with multiheap :=
    { startingHeap := startingHeap, heaps := [], maxEndDataAddr := 0, flags := 0, totalHeaps := 0 } })

def multiheapIsReady (multiheap : Multiheap) : Bool := multiheap.flags &&& multiheapFlagIsReady ≠ 0

def multiheapCanAddHeap (multiheap : Multiheap) : Bool := !multiheapIsReady multiheap

def multiheapAddHeap (k : Kernel) (heap : HeapRef) (flags : BitVec 32) : Int × Kernel :=
  if !multiheapCanAddHeap k.multiheap then (einvarg, k)
  else
    let result := k.heapZallocAt k.multiheap.startingHeap sizeofMultiheapSingleHeap
    if result.1 = 0 then (enomem, result.2)
    else
      let newHeap : MultiheapSingleHeap := { heap := heap, pagingHeap := none, flags := flags }
      (0, { result.2 with multiheap := { result.2.multiheap with
        heaps := result.2.multiheap.heaps ++ [newHeap]
        totalHeaps := toWord (result.2.multiheap.totalHeaps + 1) } })

def multiheapAddExistingHeap (k : Kernel) (heap : HeapRef) (flags : BitVec 32) : Int × Kernel :=
  multiheapAddHeap k heap (flags ||| multiheapHeapFlagExternallyOwned)

/-- `multiheap_add`: the table it gives to `heap_create` is the zeroed `struct heap_table`. -/
def multiheapAdd (k : Kernel) (saddr eaddr : Nat) (flags : BitVec 32) : Int × Kernel :=
  let heap := k.heapZallocAt k.multiheap.startingHeap sizeofHeap
  let table := heap.2.heapZallocAt k.multiheap.startingHeap sizeofHeapTable
  let k' := table.2
  if heap.1 = 0 ∨ table.1 = 0 then (enomem, k')
  else
    match heapCreate k'.mem saddr eaddr { entries := 0, total := 0 } with
    | .error res =>
        (res, (k'.heapFreeAt k'.multiheap.startingHeap heap.1).heapFreeAt k'.multiheap.startingHeap table.1)
    | .ok (created, mem) =>
        multiheapAddHeap { k' with
          mem := mem
          heaps := fun other => if other = .allocated heap.1 then created else k'.heaps other }
          (.allocated heap.1) flags

/-! ### Finding the heap of an address -/

def multiheapHeapAllowsPaging (heap : MultiheapSingleHeap) : Bool :=
  heap.flags &&& multiheapHeapFlagDefragmentWithPaging ≠ 0

def multiheapGetHeapForAddress (k : Kernel) (address : Nat) : Option MultiheapSingleHeap :=
  k.multiheap.heaps.find? fun current => heapIsAddressWithinHeap (k.heaps current.heap) address

def multiheapIsAddressVirtual (multiheap : Multiheap) (ptr : Nat) : Bool := ptr ≥ multiheap.maxEndDataAddr

def multiheapVirtualAddressToPhysical (multiheap : Multiheap) (ptr : Nat) : Nat :=
  toWord (ptr - multiheap.maxEndDataAddr)

/-- A heap that allows paging has a paging heap once the multiheap is ready. -/
def multiheapGetPagingHeapForAddress (k : Kernel) (address : Nat) : Option MultiheapSingleHeap :=
  k.multiheap.heaps.find? fun current =>
    multiheapHeapAllowsPaging current &&
      match current.pagingHeap with
      | some paging => heapIsAddressWithinHeap (k.heaps paging) address
      | none => false

/-- `multiheap_get_heap_and_paging_heap_for_address`: the heap, the paging heap and the address of the
data. -/
def multiheapGetHeapAndPagingHeapForAddress (k : Kernel) (ptr : Nat) :
    Option MultiheapSingleHeap × Option MultiheapSingleHeap × Nat :=
  if multiheapIsAddressVirtual k.multiheap ptr then
    let realAddr := multiheapVirtualAddressToPhysical k.multiheap ptr
    (multiheapGetHeapForAddress k realAddr, multiheapGetPagingHeapForAddress k ptr, realAddr)
  else (multiheapGetHeapForAddress k ptr, none, ptr)

/-! ### Allocating -/

/-- `multiheap_alloc_first_pass` over the rest of the list. -/
def multiheapAllocFirstPassLoop (size : Nat) : List MultiheapSingleHeap → Kernel → Nat × Kernel
  | [], k => (0, k)
  | current :: rest, k =>
      let result := k.heapMallocAt current.heap size
      if result.1 ≠ 0 then result else multiheapAllocFirstPassLoop size rest result.2

def multiheapAllocFirstPass (k : Kernel) (size : Nat) : Nat × Kernel :=
  multiheapAllocFirstPassLoop size k.multiheap.heaps k

def multiheapAlloc (k : Kernel) (size : Nat) : Nat × Kernel :=
  let result := multiheapAllocFirstPass k size
  if result.1 ≠ 0 then result else (0, result.2)

/-- `multiheap_realloc`; `none` for its panic. -/
def multiheapRealloc (k : Kernel) (oldPtr newSize : Nat) : Option (Nat × Kernel) :=
  let found := multiheapGetHeapAndPagingHeapForAddress k oldPtr
  match found.2.1 with
  | some _ => none
  | none =>
      match found.1 with
      | none => some (multiheapAlloc k newSize)
      | some heapToUse => some (k.heapReallocAt heapToUse.heap oldPtr newSize)

/-! ### The kernel heap -/

def kmalloc (k : Kernel) (size : Nat) : Nat × Kernel := multiheapAlloc k size

def kzalloc (k : Kernel) (size : Nat) : Nat × Kernel :=
  let result := kmalloc k size
  if result.1 = 0 then (0, result.2)
  else (result.1, { result.2 with mem := memset result.2.mem result.1 0x00#8 size })

def krealloc (k : Kernel) (oldPtr newSize : Nat) : Option (Nat × Kernel) := multiheapRealloc k oldPtr newSize

/-- `kfree`: its only statement is commented out. -/
def kfree (k : Kernel) (_ptr : Nat) : Kernel := k

/-! ### What the allocators leave alone -/

/-- The heaps of two kernels agree but for their counters. -/
def Kernel.SameHeaps (k k' : Kernel) : Prop := ∀ ref, (k.heaps ref).SameGeometry (k'.heaps ref)

theorem Kernel.SameHeaps.trans {k k' k'' : Kernel} (same : k.SameHeaps k') (same' : k'.SameHeaps k'') :
    k.SameHeaps k'' := fun ref => (same ref).trans (same' ref)

theorem sameHeaps_withHeapState {k : Kernel} {ref : HeapRef} {s : HeapState}
    (same : (k.heaps ref).SameGeometry s.heap) : k.SameHeaps (k.withHeapState ref s) := by
  intro other
  unfold Kernel.withHeapState
  by_cases here : other = ref
  · simp only [if_pos here]
    rw [here]
    exact same
  · simp only [if_neg here]
    rfl

theorem sameHeaps_zallocAt (k : Kernel) (ref : HeapRef) (size : Nat) :
    k.SameHeaps (k.heapZallocAt ref size).2 :=
  sameHeaps_withHeapState (heapZalloc_geometry (k.heapState ref) size)

theorem sameHeaps_freeAt (k : Kernel) (ref : HeapRef) (ptr : Nat) : k.SameHeaps (k.heapFreeAt ref ptr) :=
  sameHeaps_withHeapState (heapFree_geometry (k.heapState ref) ptr)

theorem sameHeaps_mallocAt (k : Kernel) (ref : HeapRef) (size : Nat) :
    k.SameHeaps (k.heapMallocAt ref size).2 :=
  sameHeaps_withHeapState (heapMalloc_geometry (k.heapState ref) size)

theorem multiheapAllocFirstPassLoop_kept (size : Nat) (nodes : List MultiheapSingleHeap) (k : Kernel) :
    (multiheapAllocFirstPassLoop size nodes k).2.multiheap = k.multiheap ∧
      k.SameHeaps (multiheapAllocFirstPassLoop size nodes k).2 := by
  induction nodes generalizing k with
  | nil => exact ⟨rfl, fun _ => rfl⟩
  | cons current rest ih =>
      rw [multiheapAllocFirstPassLoop]
      split
      · exact ⟨rfl, sameHeaps_mallocAt k current.heap size⟩
      · obtain ⟨list, heaps⟩ := ih (k.heapMallocAt current.heap size).2
        exact ⟨list, (sameHeaps_mallocAt k current.heap size).trans heaps⟩

/-- **`kmalloc`** leaves the multiheap and the geometry of its heaps alone. -/
theorem kmalloc_kept (k : Kernel) (size : Nat) :
    (kmalloc k size).2.multiheap = k.multiheap ∧ k.SameHeaps (kmalloc k size).2 := by
  have kept := multiheapAllocFirstPassLoop_kept size k.multiheap.heaps k
  unfold kmalloc multiheapAlloc multiheapAllocFirstPass
  dsimp only
  split <;> exact kept

theorem kzalloc_kept (k : Kernel) (size : Nat) :
    (kzalloc k size).2.multiheap = k.multiheap ∧ k.SameHeaps (kzalloc k size).2 := by
  have kept := kmalloc_kept k size
  unfold kzalloc
  dsimp only
  split <;> exact kept

end PeachOS
