/-
**Which heap an address belongs to.**

A ready multiheap names the heap of an address by two scans of its list, one for the data heap and one for
the paging heap, and both take the end address of a heap for an address of the heap. So an address at the
start of a heap is given to an earlier heap that ends there.

* `multiheap_address_iff` — for every address inside a data heap or a paging heap, exactly when the two
  scans name the heap, and then `multiheap_realloc` and `multiheap_free` act on it;
* `touching_heaps` — two adjacent heaps, and the start address of the second.
-/

import PeachOS.Multiheap.Paging
import Mathlib.Order.Interval.Set.Defs
import Mathlib.Data.Set.Disjoint

namespace PeachOS

/-! ### Ready multiheaps -/

/-- The addresses of a data heap. -/
def Kernel.dataRange (k : Kernel) (node : MultiheapSingleHeap) : Set Nat :=
  Set.Ico (k.heaps node.heap).saddr (k.heaps node.heap).eaddr

/-- The addresses of a heap of virtual addresses. -/
def Kernel.pagingRange (k : Kernel) (pagingHeap : HeapRef) : Set Nat :=
  Set.Ico (k.heaps pagingHeap).saddr (k.heaps pagingHeap).eaddr

/-- **A ready multiheap**: heaps that allow paging have their paging heaps `max_end_data_addr` above them. -/
structure MultiheapReady (k : Kernel) : Prop where
  flag : multiheapIsReady k.multiheap = true
  maxEnd : k.multiheap.maxEndDataAddr = multiheapGetMaxMemoryEndAddress k
  ordered : ∀ node ∈ k.multiheap.heaps, (k.heaps node.heap).saddr ≤ (k.heaps node.heap).eaddr
  word : ∀ node ∈ k.multiheap.heaps, (k.heaps node.heap).eaddr < 2 ^ 64
  paging : ∀ node ∈ k.multiheap.heaps, multiheapHeapAllowsPaging node = true → ∃ ref, node.pagingHeap = some ref ∧
    (k.heaps ref).saddr = toWord (k.multiheap.maxEndDataAddr + (k.heaps node.heap).saddr) ∧
    (k.heaps ref).eaddr = toWord (k.multiheap.maxEndDataAddr + (k.heaps node.heap).eaddr)

/-- A heap of a list ends at an address. -/
def HeapEndsAt (k : Kernel) (nodes : List MultiheapSingleHeap) (address : Nat) : Prop :=
  ∃ node ∈ nodes, (k.heaps node.heap).saddr ≤ address ∧ (k.heaps node.heap).eaddr = address

/-- **An address is known as one of a data heap.** -/
structure KnownData (k : Kernel) (node : MultiheapSingleHeap) (p : Nat) : Prop where
  found : multiheapGetHeapAndPagingHeapForAddress k p = (some node, none, p)
  realloc : ∀ newSize, multiheapRealloc k p newSize = some (k.heapReallocAt node.heap p newSize)
  free : ∀ desc fuel, multiheapFree desc (fuel + 1) k p = some (k.heapFreeAt node.heap p)

/-- **An address is known as one of a paging heap**, with the address at the same offset of the data heap.
`multiheap_realloc` panics for it, as it announces. -/
structure KnownPaging (k : Kernel) (node : MultiheapSingleHeap) (pagingHeap : HeapRef) (p : Nat) : Prop where
  found : multiheapGetHeapAndPagingHeapForAddress k p =
    (some node, some node, (k.heaps node.heap).saddr + (p - (k.heaps pagingHeap).saddr))
  realloc : ∀ newSize, multiheapRealloc k p newSize = none
  free : ∀ desc fuel, multiheapFree desc (fuel + 1) k p =
    (multiheapFreeLoop (multiheapFree desc fuel) desc p
      (toWord (toWord (heapAddressToBlock (k.heaps pagingHeap) p) +
        (heapAllocationBlockCount (k.heapState pagingHeap) p).1) - toWord (heapAddressToBlock (k.heaps pagingHeap) p))
      (toWord (heapAddressToBlock (k.heaps pagingHeap) p)) k).map fun k => heapFreeCalling k desc pagingHeap p

/-! ### The scans -/

/-- A scan stops at an element unless an earlier one stops it. -/
theorem find?_eq_some_iff_first {α : Type} (stops : α → Bool) (before after : List α) {element : α}
    (here : stops element = true) (distinct : ∀ earlier ∈ before, stops earlier = true → earlier ≠ element) :
    (before ++ element :: after).find? stops = some element ↔ ∀ earlier ∈ before, stops earlier = false := by
  rw [List.find?_append, List.find?_cons_of_pos here]
  cases early : before.find? stops with
  | none =>
      rw [List.find?_eq_none] at early
      rw [Option.none_or]
      exact ⟨fun _ earlier member => Bool.not_eq_true _ ▸ early earlier member, fun _ => rfl⟩
  | some earlier =>
      have member := List.mem_of_find?_eq_some early
      have stopped := List.find?_some early
      rw [Option.some_or, Option.some.injEq]
      refine ⟨fun equal => absurd equal (distinct earlier member stopped), fun none => ?_⟩
      rw [none earlier member] at stopped
      cases stopped

theorem heapIsAddressWithinHeap_iff (heap : Heap) (p : Nat) :
    heapIsAddressWithinHeap heap p = true ↔ heap.saddr ≤ p ∧ p ≤ heap.eaddr :=
  decide_eq_true_iff

/-- The largest end address. -/
theorem le_multiheapGetMaxMemoryEndAddress (k : Kernel) {node : MultiheapSingleHeap}
    (member : node ∈ k.multiheap.heaps) :
    (k.heaps node.heap).eaddr ≤ multiheapGetMaxMemoryEndAddress k := by
  unfold multiheapGetMaxMemoryEndAddress
  generalize k.multiheap.heaps = nodes at member
  -- the scan only raises the address it has reached
  have raises : ∀ (nodes : List MultiheapSingleHeap) (reached : Nat),
      reached ≤ nodes.foldl (fun maxAddr current =>
        if (k.heaps current.heap).eaddr ≥ maxAddr then (k.heaps current.heap).eaddr else maxAddr) reached := by
    intro nodes
    induction nodes with
    | nil => exact fun _ => le_rfl
    | cons first rest ih =>
        intro reached
        rw [List.foldl_cons]
        refine le_trans ?_ (ih _)
        split
        · assumption
        · exact le_rfl
  generalize 0 = reached
  induction nodes generalizing reached with
  | nil => cases member
  | cons first rest ih =>
      rw [List.foldl_cons]
      rcases List.mem_cons.mp member with rfl | later
      · refine le_trans ?_ (raises rest _)
        split
        · exact le_rfl
        · omega
      · exact ih later _

/-- What holds of zero and of all end addresses holds of the largest. -/
theorem multiheapGetMaxMemoryEndAddress_of_all {k : Kernel} (holds : Nat → Prop) (zero : holds 0)
    (ends : ∀ node ∈ k.multiheap.heaps, holds (k.heaps node.heap).eaddr) :
    holds (multiheapGetMaxMemoryEndAddress k) := by
  unfold multiheapGetMaxMemoryEndAddress
  generalize k.multiheap.heaps = nodes at ends
  generalize 0 = reached at zero
  induction nodes generalizing reached with
  | nil => exact zero
  | cons first rest ih =>
      rw [List.foldl_cons]
      refine ih (fun node member => ends node (List.mem_cons_of_mem _ member)) _ ?_
      split
      · exact ends first List.mem_cons_self
      · exact zero

/-- The largest end address depends on the heaps of the list and their end addresses. -/
theorem multiheapGetMaxMemoryEndAddress_congr {k k' : Kernel}
    (heaps : k'.multiheap.heaps.map MultiheapSingleHeap.heap = k.multiheap.heaps.map MultiheapSingleHeap.heap)
    (same : ∀ node ∈ k.multiheap.heaps, (k'.heaps node.heap).eaddr = (k.heaps node.heap).eaddr) :
    multiheapGetMaxMemoryEndAddress k' = multiheapGetMaxMemoryEndAddress k := by
  have foldHeaps : ∀ kernel : Kernel, multiheapGetMaxMemoryEndAddress kernel =
      (kernel.multiheap.heaps.map MultiheapSingleHeap.heap).foldl (fun maxAddr ref =>
        if (kernel.heaps ref).eaddr ≥ maxAddr then (kernel.heaps ref).eaddr else maxAddr) 0 := by
    intro kernel
    rw [List.foldl_map]
    rfl
  rw [foldHeaps k', foldHeaps k, heaps]
  refine List.foldl_ext _ _ 0 fun reached ref member => ?_
  obtain ⟨node, listed, rfl⟩ := List.mem_map.mp member
  rw [same node listed]

/-- **Virtual addresses of a paging heap** lie as far above the data heap as `max_end_data_addr`. -/
theorem MultiheapReady.data_of_paging {k : Kernel} (ready : MultiheapReady k) {node : MultiheapSingleHeap}
    (member : node ∈ k.multiheap.heaps) (allows : multiheapHeapAllowsPaging node = true) {pagingHeap : HeapRef}
    (paging : node.pagingHeap = some pagingHeap) {p : Nat} (virtual : k.multiheap.maxEndDataAddr ≤ p)
    (high : p ≤ (k.heaps pagingHeap).eaddr) :
    (k.heaps pagingHeap).saddr = k.multiheap.maxEndDataAddr + (k.heaps node.heap).saddr ∧
      (k.heaps pagingHeap).eaddr = k.multiheap.maxEndDataAddr + (k.heaps node.heap).eaddr := by
  obtain ⟨ref, isRef, start, stop⟩ := ready.paging node member allows
  rw [paging, Option.some.injEq] at isRef
  subst isRef
  have bound : multiheapGetMaxMemoryEndAddress k < 2 ^ 64 :=
    multiheapGetMaxMemoryEndAddress_of_all (fun address => address < 2 ^ 64) (by norm_num) ready.word
  rw [← ready.maxEnd] at bound
  have word := ready.word node member
  have ordered := ready.ordered node member
  -- a range that wraps ends below `max_end_data_addr`
  have noWrap : k.multiheap.maxEndDataAddr + (k.heaps node.heap).eaddr < 2 ^ 64 := by
    by_contra wraps
    rw [stop] at high
    unfold toWord at high
    omega
  rw [start, stop, toWord_of_bounds (by omega) (by omega), toWord_of_bounds (by omega) (by omega)]
  exact ⟨by omega, by omega⟩

/-- The test of the scan for the paging heap. -/
def pagingHeapHolds (k : Kernel) (p : Nat) (current : MultiheapSingleHeap) : Bool :=
  multiheapHeapAllowsPaging current &&
    match current.pagingHeap with
    | some paging => heapIsAddressWithinHeap (k.heaps paging) p
    | none => false

theorem pagingHeapHolds_of_paging {k : Kernel} {current : MultiheapSingleHeap} {paging : HeapRef}
    (isPaging : current.pagingHeap = some paging) (p : Nat) :
    pagingHeapHolds k p current = true ↔ multiheapHeapAllowsPaging current = true ∧
      heapIsAddressWithinHeap (k.heaps paging) p = true := by
  unfold pagingHeapHolds
  rw [isPaging, Bool.and_eq_true]

section Scan

variable {k : Kernel} {before after : List MultiheapSingleHeap} {node : MultiheapSingleHeap}
  (split : k.multiheap.heaps = before ++ node :: after)
  (apart : k.multiheap.heaps.Pairwise fun first second => Disjoint (k.dataRange first) (k.dataRange second))

include split apart

/-- An earlier heap does not contain an address of this one. -/
theorem notMem_earlier {address : Nat} (inside : address ∈ k.dataRange node) {earlier : MultiheapSingleHeap}
    (member : earlier ∈ before) : address ∉ k.dataRange earlier := by
  rw [split, List.pairwise_append] at apart
  exact fun inEarlier => Set.disjoint_left.mp (apart.2.2 earlier member node List.mem_cons_self) inEarlier inside

/-- **The scan for the data heap** finds the heap of an address unless an earlier heap ends there. -/
theorem multiheapGetHeapForAddress_iff {address : Nat} (inside : address ∈ k.dataRange node) :
    multiheapGetHeapForAddress k address = some node ↔ ¬ HeapEndsAt k before address := by
  have notEarlier := fun earlier (member : earlier ∈ before) => notMem_earlier split apart inside member
  have here : heapIsAddressWithinHeap (k.heaps node.heap) address = true :=
    (heapIsAddressWithinHeap_iff _ _).mpr ⟨inside.1, inside.2.le⟩
  have scan := find?_eq_some_iff_first (fun current => heapIsAddressWithinHeap (k.heaps current.heap) address)
    before after here fun earlier member _ equal =>
      notEarlier earlier member (equal ▸ inside)
  unfold multiheapGetHeapForAddress
  rw [split, scan]
  constructor
  · rintro none ⟨earlier, member, low, ends⟩
    have within := (heapIsAddressWithinHeap_iff (k.heaps earlier.heap) address).mpr ⟨low, ends.ge⟩
    rw [none earlier member] at within
    cases within
  · intro noEnd earlier member
    rw [← Bool.not_eq_true, heapIsAddressWithinHeap_iff]
    rintro ⟨low, high⟩
    refine noEnd ⟨earlier, member, low, ?_⟩
    by_contra different
    exact notEarlier earlier member ⟨low, lt_of_le_of_ne high fun equal => different equal.symm⟩

/-- **The scan for the paging heap** finds the heap of a virtual address unless an earlier heap that allows paging
ends at the address of the data. -/
theorem multiheapGetPagingHeapForAddress_iff (ready : MultiheapReady k)
    (allows : multiheapHeapAllowsPaging node = true) {pagingHeap : HeapRef}
    (paging : node.pagingHeap = some pagingHeap) {p : Nat} (inside : p ∈ k.pagingRange pagingHeap)
    (virtual : k.multiheap.maxEndDataAddr ≤ p) :
    multiheapGetPagingHeapForAddress k p = some node ↔
      ¬ HeapEndsAt k (before.filter multiheapHeapAllowsPaging) (p - k.multiheap.maxEndDataAddr) := by
  have member : node ∈ k.multiheap.heaps := by
    rw [split]
    exact List.mem_append_right _ List.mem_cons_self
  obtain ⟨start, stop⟩ := ready.data_of_paging member allows paging virtual inside.2.le
  have insideData : p - k.multiheap.maxEndDataAddr ∈ k.dataRange node := by
    have low := inside.1
    have high := inside.2
    exact ⟨by omega, by omega⟩
  have notEarlier := fun earlier (isEarlier : earlier ∈ before) => notMem_earlier split apart insideData isEarlier
  -- an earlier heap stops the scan where it ends
  have stops : ∀ earlier ∈ before, multiheapHeapAllowsPaging earlier = true →
      (pagingHeapHolds k p earlier = true ↔
        (k.heaps earlier.heap).saddr ≤ p - k.multiheap.maxEndDataAddr ∧
          (k.heaps earlier.heap).eaddr = p - k.multiheap.maxEndDataAddr) := by
    intro earlier isEarlier allowsEarlier
    have memberEarlier : earlier ∈ k.multiheap.heaps := by
      rw [split]
      exact List.mem_append_left _ isEarlier
    obtain ⟨other, isOther, startOther, stopOther⟩ := ready.paging earlier memberEarlier allowsEarlier
    rw [pagingHeapHolds_of_paging isOther, heapIsAddressWithinHeap_iff]
    constructor
    · rintro ⟨_, low, high⟩
      obtain ⟨startEarlier, stopEarlier⟩ := ready.data_of_paging memberEarlier allowsEarlier isOther virtual high
      have apartEarlier := notEarlier earlier isEarlier
      refine ⟨by omega, ?_⟩
      by_contra different
      exact apartEarlier ⟨by omega, by omega⟩
    · rintro ⟨low, ends⟩
      have bound := ready.word node member
      have highNode := inside.2
      have wordEnd : (k.heaps pagingHeap).eaddr < 2 ^ 64 := by
        obtain ⟨ref, isRef, _, stop'⟩ := ready.paging node member allows
        rw [paging, Option.some.injEq] at isRef
        rw [isRef, stop']
        exact toWord_lt _
      rw [startOther, stopOther, toWord_of_bounds (by omega) (by omega), toWord_of_bounds (by omega) (by omega)]
      exact ⟨allowsEarlier, by omega, by omega⟩
  have here : pagingHeapHolds k p node = true :=
    (pagingHeapHolds_of_paging paging p).mpr ⟨allows, (heapIsAddressWithinHeap_iff _ _).mpr ⟨inside.1, inside.2.le⟩⟩
  have scan := find?_eq_some_iff_first (pagingHeapHolds k p) before after here
    fun earlier isEarlier _ equal => notEarlier earlier isEarlier (equal ▸ insideData)
  unfold multiheapGetPagingHeapForAddress
  rw [split]
  refine Iff.trans scan ⟨?_, ?_⟩
  · rintro none ⟨earlier, isEarlier, low, ends⟩
    obtain ⟨isEarlier, allowsEarlier⟩ := List.mem_filter.mp isEarlier
    have stopped := (stops earlier isEarlier allowsEarlier).mpr ⟨low, ends⟩
    rw [none earlier isEarlier] at stopped
    cases stopped
  · intro noEnd earlier isEarlier
    rw [← Bool.not_eq_true]
    intro holds
    have allowsEarlier : multiheapHeapAllowsPaging earlier = true := (Bool.and_eq_true_iff.mp holds).1
    obtain ⟨low, ends⟩ := (stops earlier isEarlier allowsEarlier).mp holds
    exact noEnd ⟨earlier, List.mem_filter.mpr ⟨isEarlier, allowsEarlier⟩, low, ends⟩

end Scan

/-! ### Both scans -/

section Known

variable {k : Kernel} {before after : List MultiheapSingleHeap} {node : MultiheapSingleHeap} {p : Nat}

/-- A known data address is handed to its heap. -/
theorem KnownData.of_found (found : multiheapGetHeapAndPagingHeapForAddress k p = (some node, none, p)) :
    KnownData k node p where
  found := found
  realloc := fun newSize => by
    unfold multiheapRealloc
    rw [found]
  free := fun desc fuel => by
    rw [multiheapFree]
    simp only [found, Option.bind_none]

/-- A known virtual address is handed to its paging heap. -/
theorem KnownPaging.of_found {pagingHeap : HeapRef} (paging : node.pagingHeap = some pagingHeap)
    (found : multiheapGetHeapAndPagingHeapForAddress k p =
      (some node, some node, (k.heaps node.heap).saddr + (p - (k.heaps pagingHeap).saddr))) :
    KnownPaging k node pagingHeap p where
  found := found
  realloc := fun newSize => by
    unfold multiheapRealloc
    rw [found]
  free := fun desc fuel => by
    rw [multiheapFree]
    simp only [found, Option.bind_some, paging]

end Known

/-- **When the two scans name the heap of an address**, and so `multiheap_realloc` and `multiheap_free` act
on it: for an address of a data heap, when no earlier heap ends there; for one of a paging heap, when it is
not below `max_end_data_addr` and no earlier heap ends at the address of its data. -/
theorem multiheap_address_iff (k : Kernel) (before after : List MultiheapSingleHeap) (node : MultiheapSingleHeap)
    (ready : MultiheapReady k) (split : k.multiheap.heaps = before ++ node :: after)
    (apart : k.multiheap.heaps.Pairwise fun first second => Disjoint (k.dataRange first) (k.dataRange second)) :
    (∀ p ∈ k.dataRange node, KnownData k node p ↔ ¬ HeapEndsAt k before p) ∧
      ∀ pagingHeap, multiheapHeapAllowsPaging node = true → node.pagingHeap = some pagingHeap →
        ∀ p ∈ k.pagingRange pagingHeap, KnownPaging k node pagingHeap p ↔
          k.multiheap.maxEndDataAddr ≤ p ∧ ¬ HeapEndsAt k before (p - k.multiheap.maxEndDataAddr) := by
  have member : node ∈ k.multiheap.heaps := by
    rw [split]
    exact List.mem_append_right _ List.mem_cons_self
  refine ⟨fun p inside => ?_, fun pagingHeap allows paging p inside => ?_⟩
  · have physical : multiheapIsAddressVirtual k.multiheap p = false := by
      have below := le_multiheapGetMaxMemoryEndAddress k member
      rw [← ready.maxEnd] at below
      exact decide_eq_false (not_le.mpr (inside.2.trans_le below))
    have scan := multiheapGetHeapForAddress_iff split apart inside
    have found : multiheapGetHeapAndPagingHeapForAddress k p = (multiheapGetHeapForAddress k p, none, p) := by
      unfold multiheapGetHeapAndPagingHeapForAddress
      rw [physical]
      rfl
    constructor
    · intro known
      have first := congrArg Prod.fst (found.symm.trans known.found)
      exact scan.mp first
    · intro noEnd
      exact .of_found (by rw [found, scan.mpr noEnd])
  · have found : multiheapGetHeapAndPagingHeapForAddress k p =
        if k.multiheap.maxEndDataAddr ≤ p then
          (multiheapGetHeapForAddress k (multiheapVirtualAddressToPhysical k.multiheap p),
            multiheapGetPagingHeapForAddress k p, multiheapVirtualAddressToPhysical k.multiheap p)
        else (multiheapGetHeapForAddress k p, none, p) := by
      unfold multiheapGetHeapAndPagingHeapForAddress multiheapIsAddressVirtual
      by_cases virtual : k.multiheap.maxEndDataAddr ≤ p
      · rw [if_pos virtual, if_pos (decide_eq_true virtual)]
      · rw [if_neg virtual, if_neg (by simpa using virtual)]
    by_cases virtual : k.multiheap.maxEndDataAddr ≤ p
    · obtain ⟨start, stop⟩ := ready.data_of_paging member allows paging virtual inside.2.le
      have low := inside.1
      have high := inside.2
      have wordEnd : (k.heaps pagingHeap).eaddr < 2 ^ 64 := by
        obtain ⟨ref, isRef, _, stop'⟩ := ready.paging node member allows
        rw [paging, Option.some.injEq] at isRef
        rw [isRef, stop']
        exact toWord_lt _
      have physical : multiheapVirtualAddressToPhysical k.multiheap p = p - k.multiheap.maxEndDataAddr := by
        unfold multiheapVirtualAddressToPhysical
        exact toWord_eq (by omega) (by omega)
      have offset : p - k.multiheap.maxEndDataAddr =
          (k.heaps node.heap).saddr + (p - (k.heaps pagingHeap).saddr) := by omega
      have insideData : p - k.multiheap.maxEndDataAddr ∈ k.dataRange node := ⟨by omega, by omega⟩
      have scan := multiheapGetHeapForAddress_iff split apart insideData
      rw [if_pos virtual, physical] at found
      constructor
      · intro known
        have first := congrArg Prod.fst (found.symm.trans known.found)
        exact ⟨virtual, scan.mp first⟩
      · rintro ⟨_, noEnd⟩
        have noEndPaging : ¬ HeapEndsAt k (before.filter multiheapHeapAllowsPaging) (p - k.multiheap.maxEndDataAddr) :=
          fun ⟨earlier, isEarlier, low, ends⟩ => noEnd ⟨earlier, (List.mem_filter.mp isEarlier).1, low, ends⟩
        refine .of_found paging ?_
        rw [found, scan.mpr noEnd,
          (multiheapGetPagingHeapForAddress_iff split apart ready allows paging inside virtual).mpr noEndPaging, offset]
    · rw [if_neg virtual] at found
      constructor
      · intro known
        have second := congrArg (fun result => result.2.1) (found.symm.trans known.found)
        cases second
      · rintro ⟨virtual', _⟩
        exact absurd virtual' virtual

/-- **Every address inside a heap is known as one of this heap.** -/
def AddressesKnown (k : Kernel) : Prop :=
  ∀ node ∈ k.multiheap.heaps, (∀ p ∈ k.dataRange node, KnownData k node p) ∧
    ∀ pagingHeap, multiheapHeapAllowsPaging node = true → node.pagingHeap = some pagingHeap →
      ∀ p ∈ k.pagingRange pagingHeap, KnownPaging k node pagingHeap p

/-- The heap below `0x110000`. -/
def lowerHeap : MultiheapSingleHeap where
  heap := .kernelMinimalHeap
  pagingHeap := none
  flags := multiheapHeapFlagExternallyOwned

/-- The heap from `0x110000` on, which has a paging heap. -/
def upperHeap : MultiheapSingleHeap where
  heap := .allocated 0x10000
  pagingHeap := some (.allocated 0x20000)
  flags := multiheapHeapFlagExternallyOwned ||| multiheapHeapFlagDefragmentWithPaging

/-- Two data heaps that touch. -/
def touchingHeaps : Kernel where
  mem := fun _ => 0x00#8
  heaps := fun ref =>
    if ref = .kernelMinimalHeap then
      { table := { entries := 0x1000, total := 16 }, saddr := 0x100000, eaddr := 0x110000, totalBlocks := 16,
        freeBlocks := 16, usedBlocks := 0, blockAllocatedCallback := false, blockFreeCallback := false }
    else if ref = .allocated 0x10000 then
      { table := { entries := 0x2000, total := 16 }, saddr := 0x110000, eaddr := 0x120000, totalBlocks := 16,
        freeBlocks := 16, usedBlocks := 0, blockAllocatedCallback := false, blockFreeCallback := false }
    else
      { table := { entries := 0x3000, total := 16 }, saddr := 0x230000, eaddr := 0x240000, totalBlocks := 16,
        freeBlocks := 16, usedBlocks := 0, blockAllocatedCallback := false, blockFreeCallback := true }
  multiheap :=
    { startingHeap := .kernelMinimalHeap, heaps := [lowerHeap, upperHeap], maxEndDataAddr := 0x120000,
      flags := multiheapFlagIsReady, totalHeaps := 2 }
  calls := []

theorem touchingHeaps_ready : MultiheapReady touchingHeaps where
  flag := by decide
  maxEnd := by decide
  ordered := by decide
  word := by decide
  paging := fun node member allows => by
    rcases List.mem_pair.mp member with rfl | rfl
    · exact absurd allows (by decide)
    · exact ⟨.allocated 0x20000, rfl, by decide, by decide⟩

theorem touchingHeaps_apart : touchingHeaps.multiheap.heaps.Pairwise
    fun first second => Disjoint (touchingHeaps.dataRange first) (touchingHeaps.dataRange second) := by
  refine List.pairwise_pair.mpr (Set.disjoint_left.mpr fun p low high => ?_)
  have below : p < 0x110000 := low.2
  have above : 0x110000 ≤ p := high.1
  omega

/-- Away from its start, the addresses of the upper heap are known. -/
theorem multiheap_address_upperHeap : KnownData touchingHeaps upperHeap 0x110010 ∧
    KnownPaging touchingHeaps upperHeap (.allocated 0x20000) 0x230010 := by
  obtain ⟨data, paging⟩ := multiheap_address_iff touchingHeaps [lowerHeap] [] upperHeap touchingHeaps_ready rfl
    touchingHeaps_apart
  have noEnd : ¬ HeapEndsAt touchingHeaps [lowerHeap] 0x110010 := by
    rintro ⟨node, member, _, ends⟩
    rw [List.mem_singleton.mp member] at ends
    exact absurd ends (by decide)
  exact ⟨(data 0x110010 ⟨by decide, by decide⟩).mpr noEnd,
    (paging (.allocated 0x20000) (by decide) rfl 0x230010 ⟨by decide, by decide⟩).mpr ⟨by decide, noEnd⟩⟩

/-- **The start of the upper heap is taken for an address of the lower one.** -/
theorem touching_heaps : ¬ ∀ k, MultiheapReady k →
    (k.multiheap.heaps.Pairwise fun first second => Disjoint (k.dataRange first) (k.dataRange second)) →
      AddressesKnown k := by
  intro known
  have atStart := ((known touchingHeaps touchingHeaps_ready touchingHeaps_apart upperHeap (by decide)).1 0x110000
    ⟨by decide, by decide⟩).found
  have lower : (multiheapGetHeapAndPagingHeapForAddress touchingHeaps 0x110000).1 = some lowerHeap := by decide
  rw [atStart] at lower
  exact absurd lower (by decide)

/-! ### What `multiheap_ready` makes -/

/-- The structure of a created heap has the range it was created for. -/
theorem heapCreateIgnored_range {ptr endPtr : Nat} (aligned : ptr % peachosHeapBlockSize = 0)
    (aligned' : endPtr % peachosHeapBlockSize = 0) (mem : Memory) (table : HeapTable) :
    (heapCreateIgnored mem ptr endPtr table).1.saddr = ptr ∧ (heapCreateIgnored mem ptr endPtr table).1.eaddr = endPtr := by
  have fine : (!heapValidateAlignment ptr || !heapValidateAlignment endPtr) = false := by
    unfold heapValidateAlignment
    rw [decide_eq_true aligned, decide_eq_true aligned']
    rfl
  unfold heapCreateIgnored heapCreate heapAfterFailure
  simp only [fine, Bool.false_eq_true, if_false]
  split
  · rename_i created
    split at created
    · cases created
    · rw [← Except.ok.inj created]
      exact ⟨rfl, rfl⟩
  · exact ⟨rfl, rfl⟩

/-- The structures of the paging heaps get addresses that name no other heap. -/
def ReadyAllocates (desc : PagingDesc) (maxEndAddr : Nat) : (used : List HeapRef) → List MultiheapSingleHeap → Kernel → Prop
  | _, [], _ => True
  | used, current :: rest, k =>
      if multiheapHeapAllowsPaging current then
        (multiheapReadyHeap k desc maxEndAddr current).1 ∉ used ∧
          ReadyAllocates desc maxEndAddr ((multiheapReadyHeap k desc maxEndAddr current).1 :: used) rest
            (multiheapReadyHeap k desc maxEndAddr current).2
      else ReadyAllocates desc maxEndAddr used rest k

/-- Making a paging heap leaves the ranges of the other heaps alone. -/
theorem multiheapReadyHeap_spec (k : Kernel) (desc : PagingDesc) {maxEndAddr : Nat} {current : MultiheapSingleHeap}
    (aligned : toWord (maxEndAddr + (k.heaps current.heap).saddr) % peachosHeapBlockSize = 0)
    (aligned' : toWord (maxEndAddr + (k.heaps current.heap).eaddr) % peachosHeapBlockSize = 0) :
    (multiheapReadyHeap k desc maxEndAddr current).2.multiheap = k.multiheap ∧
      (((multiheapReadyHeap k desc maxEndAddr current).2.heaps (multiheapReadyHeap k desc maxEndAddr current).1).saddr =
          toWord (maxEndAddr + (k.heaps current.heap).saddr) ∧
        ((multiheapReadyHeap k desc maxEndAddr current).2.heaps (multiheapReadyHeap k desc maxEndAddr current).1).eaddr =
          toWord (maxEndAddr + (k.heaps current.heap).eaddr)) ∧
      ∀ other, other ≠ (multiheapReadyHeap k desc maxEndAddr current).1 →
        (k.heaps other).SameGeometry ((multiheapReadyHeap k desc maxEndAddr current).2.heaps other) := by
  unfold multiheapReadyHeap
  dsimp only
  have table := sameHeaps_zallocAt k k.multiheap.startingHeap sizeofHeapTable
  have tableList : (k.heapZallocAt k.multiheap.startingHeap sizeofHeapTable).2.multiheap = k.multiheap := rfl
  generalize k.heapZallocAt k.multiheap.startingHeap sizeofHeapTable = made at *
  generalize (made.2.heaps current.heap).table.total = total
  have entries := sameHeaps_zallocAt made.2 k.multiheap.startingHeap total
  have entriesList : (made.2.heapZallocAt k.multiheap.startingHeap total).2.multiheap = made.2.multiheap := rfl
  generalize made.2.heapZallocAt k.multiheap.startingHeap total = taken at *
  have heap := sameHeaps_zallocAt taken.2 k.multiheap.startingHeap sizeofHeap
  have heapList : (taken.2.heapZallocAt k.multiheap.startingHeap sizeofHeap).2.multiheap = taken.2.multiheap := rfl
  generalize taken.2.heapZallocAt k.multiheap.startingHeap sizeofHeap = pagingHeap at *
  generalize toWord (maxEndAddr + (k.heaps current.heap).saddr) = start at *
  generalize toWord (maxEndAddr + (k.heaps current.heap).eaddr) = stop at *
  obtain ⟨startEq, stopEq⟩ := heapCreateIgnored_range aligned aligned' pagingHeap.2.mem ⟨taken.1, total⟩
  generalize heapCreateIgnored pagingHeap.2.mem start stop ⟨taken.1, total⟩ = created at *
  obtain ⟨mappedList, mapped⟩ := pagingMapTo_kept { pagingHeap.2 with
      mem := created.2
      heaps := fun other => if other = .allocated pagingHeap.1 then created.1 else pagingHeap.2.heaps other }
    desc start start stop 0#32
  generalize pagingMapTo { pagingHeap.2 with
      mem := created.2
      heaps := fun other => if other = .allocated pagingHeap.1 then created.1 else pagingHeap.2.heaps other }
    desc start start stop 0#32 = result at *
  refine ⟨((mappedList.trans heapList).trans entriesList).trans tableList, ?_, fun other different => ?_⟩
  · have range := mapped (.allocated pagingHeap.1)
    simp only [if_true] at range
    simp only [Kernel.setFreeCallback, if_true]
    rw [range]
    exact ⟨startEq, stopEq⟩
  · have kept := mapped other
    simp only [different, if_false] at kept
    simp only [Kernel.setFreeCallback, different, if_false]
    exact ((table other).trans (entries other)).trans ((heap other).trans kept)

/-- **The loop of `multiheap_ready`** gives every heap that allows paging its paging heap. -/
theorem multiheapReadyLoop_spec (desc : PagingDesc) {maxEndAddr : Nat} (nodes : List MultiheapSingleHeap)
    (used : List HeapRef) (k : Kernel) (known : ∀ node ∈ nodes, node.heap ∈ used)
    (aligned : ∀ node ∈ nodes, toWord (maxEndAddr + (k.heaps node.heap).saddr) % peachosHeapBlockSize = 0 ∧
      toWord (maxEndAddr + (k.heaps node.heap).eaddr) % peachosHeapBlockSize = 0)
    (allocates : ReadyAllocates desc maxEndAddr used nodes k) :
    (multiheapReadyLoop desc maxEndAddr nodes k).2.multiheap = k.multiheap ∧
      (∀ ref ∈ used, (k.heaps ref).SameGeometry ((multiheapReadyLoop desc maxEndAddr nodes k).2.heaps ref)) ∧
      (multiheapReadyLoop desc maxEndAddr nodes k).1.map MultiheapSingleHeap.heap =
        nodes.map MultiheapSingleHeap.heap ∧
      ∀ node ∈ (multiheapReadyLoop desc maxEndAddr nodes k).1, multiheapHeapAllowsPaging node = true →
        ∃ ref, node.pagingHeap = some ref ∧
          ((multiheapReadyLoop desc maxEndAddr nodes k).2.heaps ref).saddr =
            toWord (maxEndAddr + (k.heaps node.heap).saddr) ∧
          ((multiheapReadyLoop desc maxEndAddr nodes k).2.heaps ref).eaddr =
            toWord (maxEndAddr + (k.heaps node.heap).eaddr) := by
  induction nodes generalizing used k with
  | nil => exact ⟨rfl, fun _ _ => rfl, rfl, fun _ member => absurd member List.not_mem_nil⟩
  | cons current rest ih =>
      rw [multiheapReadyLoop]
      rw [ReadyAllocates] at allocates
      have knownRest := fun node (member : node ∈ rest) => known node (List.mem_cons_of_mem _ member)
      by_cases allows : multiheapHeapAllowsPaging current = true
      · simp only [allows, if_true] at allocates ⊢
        obtain ⟨isNew, allocates⟩ := allocates
        obtain ⟨alignedStart, alignedStop⟩ := aligned current List.mem_cons_self
        obtain ⟨list, range, others⟩ := multiheapReadyHeap_spec k desc alignedStart alignedStop
        generalize multiheapReadyHeap k desc maxEndAddr current = made at *
        have kept : ∀ ref ∈ used, (k.heaps ref).SameGeometry (made.2.heaps ref) := fun ref member =>
          others ref fun equal => isNew (equal ▸ member)
        obtain ⟨list', kept', heaps', paging'⟩ := ih (made.1 :: used) made.2
          (fun node member => List.mem_cons_of_mem _ (knownRest node member))
          (fun node member => by
            have same := kept node.heap (knownRest node member)
            rw [same]
            exact aligned node (List.mem_cons_of_mem _ member)) allocates
        refine ⟨list'.trans list, fun ref member => (kept ref member).trans (kept' ref (List.mem_cons_of_mem _ member)),
          ?_, fun node member allowsNode => ?_⟩
        · rw [List.map_cons, List.map_cons, heaps']
        · rcases List.mem_cons.mp member with rfl | later
          · have same := kept' made.1 List.mem_cons_self
            refine ⟨made.1, rfl, ?_, ?_⟩ <;> rw [same]
            · exact range.1
            · exact range.2
          · obtain ⟨ref, isRef, start, stop⟩ := paging' node later allowsNode
            have inRest : node.heap ∈ used := by
              have listed := List.mem_map_of_mem (f := MultiheapSingleHeap.heap) later
              rw [heaps'] at listed
              obtain ⟨source, member', equal⟩ := List.mem_map.mp listed
              rw [← equal]
              exact knownRest source member'
            have same := kept node.heap inRest
            rw [same] at start stop
            exact ⟨ref, isRef, start, stop⟩
      · simp only [allows, Bool.false_eq_true, if_false] at allocates ⊢
        obtain ⟨list', kept', heaps', paging'⟩ := ih used k knownRest
          (fun node member => aligned node (List.mem_cons_of_mem _ member)) allocates
        refine ⟨list', kept', ?_, fun node member allowsNode => ?_⟩
        · rw [List.map_cons, List.map_cons, heaps']
        · rcases List.mem_cons.mp member with rfl | later
          · exact absurd allowsNode allows
          · exact paging' node later allowsNode

theorem isReady_flag (flags : BitVec 32) : (flags ||| multiheapFlagIsReady) &&& multiheapFlagIsReady ≠ 0 := by
  have absorbed : (flags ||| multiheapFlagIsReady) &&& multiheapFlagIsReady = multiheapFlagIsReady := by
    ext i inside
    rw [BitVec.getElem_and, BitVec.getElem_or]
    cases flags[i] <;> cases multiheapFlagIsReady[i] <;> rfl
  rw [absorbed]
  decide

end PeachOS
