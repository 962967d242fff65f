/-
**What a vector grows by.**

`vector_grow` promises elements that are all NULL data, but no statement of it clears them. Elements that fit in the capacity
hold what was there before, after a pop the elements that were popped; so do a new block of `krealloc` and the blocks it adds
in place. Only a block that `krealloc` moves is cleared, and only behind the blocks that it had.

* `vectorGrow_null_iff` — the new elements are zeros, and the old ones unchanged, exactly when those bytes are zero before;
* `vectorGrow_reuses` — an element that was popped is there again.
-/

import PeachOS.Heap.Footprint
import PeachOS.Vector.Exhaustion

namespace PeachOS

open ByteStore BlockArray SpanTable FirstFit

/-! ### A vector in the kernel heap -/

namespace Vector

/-- The bytes that `vector_resize` asks for. -/
def growBytes (vec : Vector) (totalElements : Nat) : Nat :=
  (vec.tReservedElements + (vec.tElems + totalElements)) * vec.eSize

/-- **No size overflows**: an `int` counts the bytes. -/
structure Fits (vec : Vector) (totalElements : Nat) : Prop where
  count : vec.tReservedElements + (vec.tElems + totalElements) < 2 ^ 64
  bytes : vec.growBytes totalElements ≤ 2 ^ 31

/-- **The memory of a vector**: none, or a live chain with room for the elements that the vector counts on. -/
inductive Held (k : Kernel) (chains : Set Span) (vec : Vector) : Option Span → Prop where
  | nothing (null : vec.memory = 0) (empty : vec.tmElems = 0) : Held k chains vec none
  | block (chain : Span) (live : chain ∈ chains) (clean : Clean k.minimalState.view k.minimal.table.total chain)
      (address : vec.memory = k.address chain) (room : vec.tmElems * vec.eSize ≤ chain.len * peachosHeapBlockSize) :
      Held k chains vec (some chain)

/-- A vector in the kernel heap. -/
structure InHeap (k : Kernel) (chains : Set Span) (vec : Vector) (held : Option Span) : Prop where
  heap : KernelHeap k chains
  capacity : vec.tElems ≤ vec.tmElems
  memory : Held k chains vec held

/-- A reallocation of the memory stays inside the table of the heap. -/
def Stays (k : Kernel) (vec : Vector) (held : Option Span) (totalElements : Nat) : Prop :=
  vec.tmElems ≤ vec.tElems + totalElements → ∀ chain, held = some chain →
    StaysInTable k.minimalState.view k.minimal.table.total chain (heapBlocks (vec.growBytes totalElements))

end Vector

/-! ### The bytes of the new elements -/

/-- The bytes behind `base` from `low` on are zero, up to `high`. -/
def NullBytes (mem : Memory) (base low high : Nat) : Prop :=
  ∀ offset, low ≤ offset → offset < high → mem (base + offset) = 0x00#8

/-- The blocks behind a chain are free, as far as the chain is to grow. -/
def GrowsInPlace (k : Kernel) (chain : Span) (blocks : Nat) : Prop :=
  ∀ block, chain.start + chain.len ≤ block → block < chain.start + blocks → ¬ isTaken (k.minimalState.view block)

instance (k : Kernel) (chain : Span) (blocks : Nat) : Decidable (GrowsInPlace k chain blocks) := Nat.decidableLoHi _ _ _

/-- **The bytes that the new elements come to lie on and nobody clears are zero**: the rest of the capacity; or the lowest run
of free blocks, for a vector without memory; or what lies behind the old elements, in the blocks that the chain grows over or,
when it is moved, in its own. -/
def StartsNull (k : Kernel) (vec : Vector) (held : Option Span) (totalElements : Nat) : Prop :=
  let old := vec.tElems * vec.eSize
  let new := (vec.tElems + totalElements) * vec.eSize
  let blocks := heapBlocks (vec.growBytes totalElements)
  if vec.tElems + totalElements < vec.tmElems then NullBytes k.mem vec.memory old new
  else
    match held with
    | none =>
        ∀ start, IsFirstRun (fun block => typeFree (k.minimalState.view block)) k.minimal.table.total blocks start →
          NullBytes k.mem (k.minimal.saddr + start * peachosHeapBlockSize) old new
    | some chain =>
        if GrowsInPlace k chain blocks then NullBytes k.mem vec.memory old new
        else NullBytes k.mem vec.memory old (min new (chain.len * peachosHeapBlockSize))

/-- **The elements that a vector grew by read as zeros, and the earlier ones as before**, through `vector_at`. -/
structure NewElementsNull (mem : Memory) (vec : Vector) (mem' : Memory) (vec' : Vector) (totalElements : Nat) : Prop where
  null : ∀ i < totalElements, ∀ dataOut : List Byte, dataOut.length = vec.eSize →
    vectorAt mem' vec' (vec.tElems + i) dataOut = (0, List.replicate vec.eSize 0x00#8)
  kept : ∀ i < vec.tElems, ∀ dataOut : List Byte, dataOut.length = vec.eSize →
    vectorAt mem' vec' i dataOut = vectorAt mem vec i dataOut

/-- **Where the bytes of a grown vector come from**: the old elements are kept; a new byte was behind `origin`, up to `limit`,
and is clear from there on. -/
structure GrownFrom (k : Kernel) (vec : Vector) (totalElements origin limit memory : Nat) (mem : Memory) : Prop where
  kept : ∀ offset < vec.tElems * vec.eSize, mem (memory + offset) = k.mem (vec.memory + offset)
  uncleared : ∀ offset < (vec.tElems + totalElements) * vec.eSize, vec.tElems * vec.eSize ≤ offset → offset < limit →
    mem (memory + offset) = k.mem (origin + offset)
  cleared : ∀ offset < (vec.tElems + totalElements) * vec.eSize, vec.tElems * vec.eSize ≤ offset → limit ≤ offset →
    mem (memory + offset) = 0x00#8
  range : memory + (vec.tElems + totalElements) * vec.eSize ≤ 2 ^ 48

section Read

variable {mem : Memory} {vec : Vector} {i : Nat}

/-- An element that is read into a buffer of its size. -/
theorem vectorAt_element (inside : i < vec.tElems) (small : vec.eSize < 2 ^ 32)
    (range : vec.memory + (i + 1) * vec.eSize < 2 ^ 64) {dataOut : List Byte} (length : dataOut.length = vec.eSize) :
    vectorAt mem vec i dataOut = (0, window mem (vec.memory + i * vec.eSize) vec.eSize) := by
  have address : vectorMemoryAtIndex vec i = vec.memory + i * vec.eSize := by
    unfold vectorMemoryAtIndex
    rw [Nat.mul_comm i]
    rw [Nat.add_mul, Nat.mul_comm i, Nat.one_mul] at range
    exact_mod_cast toWord_natCast (show vec.memory + vec.eSize * i < 2 ^ 64 by omega)
  unfold vectorAt vectorValidBounds
  rw [if_neg (by omega), if_pos inside]
  simp only [lt_irrefl, if_false, address, Nat.mod_eq_of_lt small]
  rw [List.drop_of_length_le (by omega), List.append_nil]

/-- The offsets of an element. -/
theorem element_le {i count eSize : Nat} (below : i < count) : i * eSize + eSize ≤ count * eSize := by
  have bound := Nat.mul_le_mul_right eSize (Nat.succ_le_of_lt below)
  rwa [Nat.succ_mul] at bound

/-- Bytes that are all zero. -/
theorem window_null_iff {base count : Nat} :
    window mem base count = List.replicate count 0x00#8 ↔ ∀ offset < count, mem (base + offset) = 0x00#8 := by
  induction count generalizing base with
  | zero => exact ⟨fun _ offset below => absurd below (Nat.not_lt_zero offset), fun _ => rfl⟩
  | succ count ih =>
      rw [window, List.replicate_succ, List.cons.injEq, ih]
      constructor
      · rintro ⟨first, rest⟩ offset below
        cases offset with
        | zero => exact first
        | succ offset =>
            rw [show base + (offset + 1) = base + 1 + offset by omega]
            exact rest offset (by omega)
      · intro all
        refine ⟨all 0 (Nat.succ_pos count), fun offset below => ?_⟩
        rw [show base + 1 + offset = base + (offset + 1) by omega]
        exact all (offset + 1) (by omega)

end Read

section Grown

variable {k : Kernel} {chains : Set Span} {vec vec' : Vector} {held : Option Span} {totalElements : Nat}

/-- The memory of a vector lies in the heap. -/
theorem Vector.InHeap.range (vector : vec.InHeap k chains held) : vec.memory + vec.tmElems * vec.eSize ≤ 2 ^ 48 := by
  obtain ⟨heap, -, memory⟩ := vector
  cases memory with
  | nothing null empty =>
      rw [null, empty, Nat.zero_mul]
      decide
  | block chain live clean address room =>
      have high := (heap.bytes_in_heap live).2
      have physical := heap.physical
      omega

/-- An element of a request that fits is smaller than what `vector_at` copies. -/
theorem Vector.Fits.small (fits : vec.Fits totalElements) {i : Nat} (below : i < vec.tElems + totalElements) :
    vec.eSize < 2 ^ 32 := by
  have bytes : (vec.tReservedElements + (vec.tElems + totalElements)) * vec.eSize ≤ 2 ^ 31 := fits.bytes
  have one := Nat.mul_le_mul_right vec.eSize
    (show 1 ≤ vec.tReservedElements + (vec.tElems + totalElements) by omega)
  omega

namespace GrownFrom

variable {origin limit : Nat} {mem : Memory} (grown : GrownFrom k vec totalElements origin limit vec'.memory mem)
  (fits : vec.Fits totalElements) (eSize : vec'.eSize = vec.eSize) (count : vec'.tElems = vec.tElems + totalElements)

include grown fits eSize count

/-- An element of the grown vector. -/
theorem read {i : Nat} (below : i < vec.tElems + totalElements) {dataOut : List Byte} (length : dataOut.length = vec.eSize) :
    vectorAt mem vec' i dataOut = (0, window mem (vec'.memory + i * vec.eSize) vec.eSize) := by
  have range := grown.range
  have inside : i * vec.eSize + vec.eSize ≤ (vec.tElems + totalElements) * vec.eSize := element_le below
  have element := @vectorAt_element mem vec' i (by rw [count]; exact below)
    (by rw [eSize]; exact fits.small below) (by rw [eSize, Nat.add_mul, Nat.one_mul]; omega) _ (length.trans eSize.symm)
  rw [eSize] at element
  exact element

/-- **The new elements are zeros exactly when the bytes that nobody clears are.** -/
theorem null_iff (vector : vec.InHeap k chains held) :
    NewElementsNull k.mem vec mem vec' totalElements ↔
      NullBytes k.mem origin (vec.tElems * vec.eSize) (min ((vec.tElems + totalElements) * vec.eSize) limit) := by
  constructor
  · intro zeros offset low high
    obtain ⟨below, unclear⟩ := lt_min_iff.mp high
    have positive : 0 < vec.eSize := Nat.pos_of_mul_pos_left (Nat.zero_lt_of_lt below)
    have place := Nat.div_add_mod' offset vec.eSize
    have inner := Nat.mod_lt offset positive
    have first : vec.tElems ≤ offset / vec.eSize := (Nat.le_div_iff_mul_le positive).mpr low
    have last : offset / vec.eSize < vec.tElems + totalElements := (Nat.div_lt_iff_lt_mul positive).mpr below
    have null := zeros.null (offset / vec.eSize - vec.tElems) (by omega) (List.replicate vec.eSize 0x00#8) List.length_replicate
    rw [Nat.add_sub_cancel' first, grown.read fits eSize count last List.length_replicate, Prod.mk.injEq] at null
    have byte := window_null_iff.mp null.2 (offset % vec.eSize) inner
    rw [Nat.add_assoc, place, grown.uncleared offset below low unclear] at byte
    exact byte
  · intro null
    refine ⟨fun i below dataOut length => ?_, fun i below dataOut length => ?_⟩
    · rw [grown.read fits eSize count (by omega) length, Prod.mk.injEq]
      refine ⟨rfl, window_null_iff.mpr fun offset inner => ?_⟩
      have old := Nat.mul_le_mul_right vec.eSize (Nat.le_add_right vec.tElems i)
      have inside : (vec.tElems + i) * vec.eSize + vec.eSize ≤ (vec.tElems + totalElements) * vec.eSize :=
        element_le (by omega)
      rw [Nat.add_assoc]
      by_cases unclear : (vec.tElems + i) * vec.eSize + offset < limit
      · rw [grown.uncleared _ (by omega) (by omega) unclear]
        exact null _ (by omega) (lt_min (by omega) unclear)
      · exact grown.cleared _ (by omega) (by omega) (not_lt.mp unclear)
    · have range := vector.range
      have inside : i * vec.eSize + vec.eSize ≤ vec.tElems * vec.eSize := element_le below
      have within := Nat.mul_le_mul_right vec.eSize vector.capacity
      rw [grown.read fits eSize count (by omega) length, vectorAt_element below (fits.small (show i < _ by omega))
        (by rw [Nat.add_mul, Nat.one_mul]; omega) length]
      refine congrArg (Prod.mk 0) (window_move fun offset inner => ?_)
      rw [Nat.add_assoc, grown.kept _ (by omega), Nat.add_assoc]

end GrownFrom

/-! ### The paths of the reallocation -/

/-- Room in the capacity. -/
theorem grownFrom_capacity (vector : vec.InHeap k chains held) (room : vec.tElems + totalElements < vec.tmElems) :
    GrownFrom k vec totalElements vec.memory ((vec.tElems + totalElements) * vec.eSize) vec.memory k.mem where
  kept := fun _ _ => rfl
  uncleared := fun _ _ _ _ => rfl
  cleared := fun _ below _ behind => absurd below (not_lt.mpr behind)
  range := (Nat.add_le_add_left (Nat.mul_le_mul_right _ room.le) _).trans vector.range

/-- **A new block** holds what its run of free blocks held. -/
theorem grownFrom_fresh (heap : KernelHeap k chains) (null : vec.memory = 0) (none_ : vec.tElems = 0)
    (fits : vec.Fits totalElements) {ptr : Nat} {k' : Kernel}
    (returned : krealloc k vec.memory (vec.growBytes totalElements) = some (ptr, k')) (nonnull : ptr ≠ 0) :
    ∃ start, IsFirstRun (fun block => typeFree (k.minimalState.view block)) k.minimal.table.total
        (heapBlocks (vec.growBytes totalElements)) start ∧
      GrownFrom k vec totalElements (k.minimal.saddr + start * peachosHeapBlockSize)
        ((vec.tElems + totalElements) * vec.eSize) ptr k'.mem := by
  rw [null, krealloc_null heap, kmalloc_eq heap, Option.some.injEq] at returned
  have sound : k.minimalState.heap.Sound := heap.sound
  have ptrEq : (heapMalloc k.minimalState (vec.growBytes totalElements)).1 = ptr := congrArg Prod.fst returned
  have memEq : (heapMalloc k.minimalState (vec.growBytes totalElements)).2.mem = k'.mem :=
    congrArg (fun result : Nat × Kernel => result.2.mem) returned
  rcases heapMalloc_cases sound (vec.growBytes totalElements) with ⟨failed, _⟩ | ⟨start, allocated⟩
  · exact absurd (ptrEq.symm.trans failed) nonnull
  · have address : ptr = k.minimal.saddr + start * peachosHeapBlockSize := ptrEq.symm.trans allocated.address
    have bytes := fits.bytes
    have covers := le_heapBlocks_mul (show vec.growBytes totalElements < 2 ^ 64 by omega) allocated.positive
    have high : k.minimal.saddr + start * peachosHeapBlockSize +
        heapBlocks (vec.growBytes totalElements) * peachosHeapBlockSize ≤ k.minimal.eaddr :=
      sound.range_le allocated.inside
    have physical := heap.physical
    have asked : (vec.tElems + totalElements) * vec.eSize ≤ vec.growBytes totalElements :=
      Nat.mul_le_mul_right _ (Nat.le_add_left _ _)
    refine ⟨start, allocated.run, fun offset below => ?_, fun offset below _ _ => ?_,
      fun offset below _ behind => absurd below (not_lt.mpr behind), by omega⟩
    · rw [none_, Nat.zero_mul] at below
      exact absurd below (Nat.not_lt_zero offset)
    · rw [← memEq, address]
      exact (heapMalloc_onlyTable sound _).mem _ (sound.data_outside
        (show k.minimal.saddr ≤ _ by omega) (show _ < k.minimal.eaddr by omega))

/-- The blocks behind a chain that was resized in place were free. -/
theorem growsInPlace_of_decodes (heap : KernelHeap k chains) {chain : Span} (live : chain ∈ chains) {blocks : Nat}
    {view' : Nat → Byte} (decodes : SpanTable.Decodes looseCoding view' k.minimal.table.total
      (insert ⟨chain.start, blocks⟩ (chains \ {chain}))) : GrowsInPlace k chain blocks := by
  have mine := Set.mem_insert (⟨chain.start, blocks⟩ : Span) (chains \ {chain})
  have within : chain.start + blocks ≤ k.minimal.table.total := decodes.within _ mine
  intro block behind below taken
  by_cases vacant : ∀ other ∈ chains, block ∉ other.blocks
  · have free : k.minimalState.view block = heapBlockTableEntryFree :=
      heap.decodes.vacant block (below.trans_le within) vacant
    rw [free] at taken
    exact not_isTaken_free taken
  · simp only [not_forall, not_not] at vacant
    obtain ⟨other, known, inside⟩ := vacant
    have different : other ≠ chain := by
      rintro rfl
      exact absurd (Span.mem_blocks.mp inside).2 (not_lt.mpr behind)
    have apart := decodes.disjoint mine (Set.mem_insert_of_mem _ ⟨known, different⟩) (by
      rintro rfl
      exact different (heap.eq_of_start known live rfl))
    have mine : block ∈ (Span.mk chain.start blocks).blocks := ⟨by simp only; omega, below⟩
    exact Set.disjoint_left.mp apart mine inside

/-- **A chain that is reallocated** keeps its bytes. Where it grows in place, what it grows over stays; where it is moved, it is
cleared behind its blocks. -/
theorem grownFrom_chain (heap : KernelHeap k chains) {chain : Span} (live : chain ∈ chains)
    (clean : Clean k.minimalState.view k.minimal.table.total chain) (address : vec.memory = k.address chain)
    (holds : vec.tElems * vec.eSize ≤ chain.len * peachosHeapBlockSize) (fits : vec.Fits totalElements)
    (stays : StaysInTable k.minimalState.view k.minimal.table.total chain (heapBlocks (vec.growBytes totalElements)))
    {ptr : Nat} {k' : Kernel} (returned : krealloc k vec.memory (vec.growBytes totalElements) = some (ptr, k'))
    (nonnull : ptr ≠ 0) :
    GrownFrom k vec totalElements vec.memory
      (if GrowsInPlace k chain (heapBlocks (vec.growBytes totalElements)) then (vec.tElems + totalElements) * vec.eSize
        else chain.len * peachosHeapBlockSize) ptr k'.mem := by
  have sound : k.minimalState.heap.Sound := heap.sound
  have decodes : SpanTable.Decodes looseCoding k.minimalState.view k.minimalState.heap.table.total chains := heap.decodes
  have nonempty := heap.decodes.nonempty chain live
  obtain ⟨low, high⟩ := heap.bytes_in_heap live
  have physical := heap.physical
  have bytes := fits.bytes
  have word : vec.growBytes totalElements < 2 ^ 64 := by omega
  have asked : (vec.tElems + totalElements) * vec.eSize ≤ vec.growBytes totalElements :=
    Nat.mul_le_mul_right _ (Nat.le_add_left _ _)
  have inHeap : k.address chain < k.minimal.eaddr := by
    simp only [peachosHeapBlockSize] at high
    omega
  rw [address, krealloc_eq heap low inHeap, Option.some.injEq] at returned
  have ptrEq : (heapRealloc k.minimalState (k.address chain) (vec.growBytes totalElements)).1 = ptr := congrArg Prod.fst returned
  have memEq : (heapRealloc k.minimalState (k.address chain) (vec.growBytes totalElements)).2.mem = k'.mem :=
    congrArg (fun result : Nat × Kernel => result.2.mem) returned
  have positive : 0 < vec.growBytes totalElements := by
    by_contra zero
    have none_ : vec.growBytes totalElements = 0 := by omega
    rw [none_, heapRealloc, if_neg (heap.address_pos chain).ne', if_pos rfl] at ptrEq
    exact nonnull ptrEq.symm
  have blocksEq := heapBlocks_eq (show vec.growBytes totalElements ≤ 2 ^ 64 - 4096 by omega)
  have some_ : 0 < heapBlocks (vec.growBytes totalElements) := by
    rw [blocksEq]
    omega
  have covers := le_heapBlocks_mul word some_
  have outcome : LooseRealloc k.minimalState chains chain (heapBlocks (vec.growBytes totalElements))
      (heapRealloc k.minimalState (k.address chain) (vec.growBytes totalElements)) :=
    heapRealloc_clean sound decodes live clean word some_ stays
  cases outcome with
  | failed null _ => exact absurd (ptrEq.symm.trans null) nonnull
  | inPlace pointer frame decodes' =>
      have old : ptr = k.address chain := ptrEq.symm.trans pointer
      have within : chain.start + heapBlocks (vec.growBytes totalElements) ≤ k.minimal.table.total :=
        decodes'.within _ (Set.mem_insert _ _)
      have range : k.address chain + heapBlocks (vec.growBytes totalElements) * peachosHeapBlockSize ≤ k.minimal.eaddr :=
        heap.sound.range_le within
      rw [if_pos (growsInPlace_of_decodes heap live decodes')]
      have same : ∀ offset, k.address chain + offset < k.minimal.eaddr →
          k'.mem (ptr + offset) = k.mem (vec.memory + offset) := fun offset below => by
        rw [← memEq, old, address]
        exact frame.mem _ (sound.data_outside (show k.minimal.saddr ≤ _ by omega) below)
      refine ⟨fun offset below => same offset (by omega), fun offset below _ _ => same offset (by omega),
        fun offset below _ behind => absurd below (not_lt.mpr behind), by omega⟩
  | moved start more blocked run moves _ =>
      obtain ⟨block, behind, below, taken⟩ := blocked
      rw [if_neg fun free => free block behind below taken]
      have kept : ∀ offset < chain.len * peachosHeapBlockSize, k'.mem (ptr + offset) = k.mem (vec.memory + offset) :=
        fun offset inside => by
        rw [← memEq, ← ptrEq, address]
        refine moves.bytes (fun other low high => ?_) offset ?_
        · have marked := heap.decodes.marked chain live (other - chain.start) (by omega)
          rw [Nat.add_sub_cancel' low] at marked
          exact not_typeFree_of_entryType marked.1
        · rw [Nat.mod_eq_of_lt]
          · exact inside
          · simp only [peachosHeapBlockSize] at more ⊢
            omega
      have pointer : ptr = k.minimal.saddr + start * peachosHeapBlockSize := ptrEq.symm.trans moves.address
      have range : k.minimal.saddr + start * peachosHeapBlockSize +
          heapBlocks (vec.growBytes totalElements) * peachosHeapBlockSize ≤ k.minimal.eaddr := heap.sound.range_le run.1
      have elsewhere : ptr ≠ k.address chain := fun same => by
        have here : start = chain.start := by
          unfold Kernel.address chainAddress at same
          simp only [peachosHeapBlockSize] at pointer same
          omega
        have isFree := run.2 0 some_
        have marked := heap.decodes.marked chain live 0 nonempty
        rw [here] at isFree
        exact not_typeFree_of_entryType marked.1 isFree
      have ends := walk_of_clean decodes live clean nonempty
      rw [Nat.add_zero] at ends
      have countEq : k.minimalState.countAt chain.start = chain.len := countIn_of_clean decodes live ends
      refine ⟨fun offset below => kept offset (by omega), fun offset _ _ below => kept offset below,
        fun offset below _ behind => ?_, by omega⟩
      rw [← memEq, ← ptrEq]
      refine heapRealloc_cleared sound (show chain.start ≤ k.minimalState.heap.table.total from
        (Nat.le_add_right _ _).trans (heap.decodes.within chain live)) positive word ?_ ?_ ?_ (lt_min ?_ ?_)
      · exact fun null => nonnull (ptrEq.symm.trans null)
      · exact fun same => elsewhere (ptrEq.symm.trans same)
      · rw [countEq]
        exact behind
      · omega
      · omega

/-! ### The theorem -/

/-- **How `vector_grow` succeeds**: the capacity is enough, or the memory is reallocated. -/
theorem vectorGrow_cases (fits : vec.Fits totalElements) {res : Int} {k' : Kernel}
    (grown : vectorGrow k vec totalElements = some (res, vec', k')) (succeeds : 0 ≤ res) :
    vec'.eSize = vec.eSize ∧ vec'.tElems = vec.tElems + totalElements ∧
      (vec.tElems + totalElements < vec.tmElems ∧ vec'.memory = vec.memory ∧ k' = k ∨
        vec.tmElems ≤ vec.tElems + totalElements ∧ vec'.memory ≠ 0 ∧
          krealloc k vec.memory (vec.growBytes totalElements) = some (vec'.memory, k')) := by
  obtain ⟨count, bytes⟩ := fits
  have required : toWord ((vec.tElems : Int) + (totalElements : Int)) = vec.tElems + totalElements := by
    exact_mod_cast toWord_natCast (show vec.tElems + totalElements < 2 ^ 64 by omega)
  have final : toWord ((vec.tReservedElements : Int) + ((vec.tElems + totalElements : Nat) : Int)) =
      vec.tReservedElements + (vec.tElems + totalElements) := by
    exact_mod_cast toWord_natCast count
  have asked : toWord (((vec.tReservedElements + (vec.tElems + totalElements) : Nat) : Int) * (vec.eSize : Int)) =
      vec.growBytes totalElements := by
    exact_mod_cast toWord_natCast (show vec.growBytes totalElements < 2 ^ 64 by omega)
  unfold vectorGrow vectorResize at grown
  dsimp only at grown
  rw [required] at grown
  by_cases room : vec.tElems + totalElements < vec.tmElems
  · rw [if_pos room] at grown
    dsimp only at grown
    rw [if_neg (lt_irrefl (0 : Int)), Option.some.injEq, Prod.mk.injEq, Prod.mk.injEq] at grown
    obtain ⟨-, rfl, rfl⟩ := grown
    exact ⟨rfl, required, Or.inl ⟨room, rfl, rfl⟩⟩
  · rw [if_neg room, final, asked] at grown
    rcases returned : krealloc k vec.memory (vec.growBytes totalElements) with _ | ⟨memory, kernel⟩
    · rw [returned] at grown
      cases grown
    · rw [returned] at grown
      dsimp only at grown
      by_cases null : memory = 0
      · rw [if_pos null] at grown
        dsimp only at grown
        rw [if_pos (by decide), Option.some.injEq, Prod.mk.injEq] at grown
        exact absurd succeeds (by rw [← grown.1]; decide)
      · rw [if_neg null] at grown
        dsimp only at grown
        rw [if_neg (lt_irrefl (0 : Int)), Option.some.injEq, Prod.mk.injEq, Prod.mk.injEq] at grown
        obtain ⟨-, rfl, rfl⟩ := grown
        exact ⟨rfl, required, Or.inr ⟨not_lt.mp room, null, rfl⟩⟩

/-- **A vector grows by zeros, and keeps its elements, exactly when the bytes that it grows over are zero.** -/
theorem vectorGrow_null_iff (vector : vec.InHeap k chains held) (fits : vec.Fits totalElements)
    (stays : vec.Stays k held totalElements) {res : Int} {k' : Kernel}
    (grown : vectorGrow k vec totalElements = some (res, vec', k')) (succeeds : 0 ≤ res) :
    NewElementsNull k.mem vec k'.mem vec' totalElements ↔ StartsNull k vec held totalElements := by
  obtain ⟨eSize, count, ⟨room, same, rfl⟩ | ⟨full, nonnull, returned⟩⟩ := vectorGrow_cases fits grown succeeds
  · unfold StartsNull
    dsimp only
    have from_ := grownFrom_capacity vector room
    rw [← same] at from_
    rw [if_pos room, from_.null_iff fits eSize count vector, min_self, same]
  · unfold StartsNull
    dsimp only
    rw [if_neg (not_lt.mpr full)]
    have memory := vector.memory
    cases memory with
    | nothing null empty =>
        have none_ : vec.tElems = 0 := Nat.le_zero.mp (empty ▸ vector.capacity)
        obtain ⟨start, first, from_⟩ := grownFrom_fresh vector.heap null none_ fits returned nonnull
        rw [from_.null_iff fits eSize count vector, min_self]
        exact ⟨fun zero other first' => first'.unique first ▸ zero, fun all => all start first⟩
    | block chain live clean address room =>
        have from_ := grownFrom_chain vector.heap live clean address
          ((Nat.mul_le_mul_right _ vector.capacity).trans room) fits (stays full chain rfl) returned nonnull
        rw [from_.null_iff fits eSize count vector]
        dsimp only
        by_cases inPlace : GrowsInPlace k chain (heapBlocks (vec.growBytes totalElements))
        · rw [if_pos inPlace, if_pos inPlace, min_self]
        · rw [if_neg inPlace, if_neg inPlace]

end Grown

/-! ### A first growth, and a popped element -/

/-- **The first growth after boot**, in memory that is still zero. -/
theorem vectorGrow_first : ∃ res vec' k', vectorGrow eightBlocks (vectorNew 8 2) 4 = some (res, vec', k') ∧
    NewElementsNull eightBlocks.mem (vectorNew 8 2) k'.mem vec' 4 := by
  have pointer : (kmalloc eightBlocks 48).1 = 0x100000 := by decide +kernel
  have grown : vectorGrow eightBlocks (vectorNew 8 2) 4 =
      some (0, ⟨(kmalloc eightBlocks 48).1, 8, 4, 6, 2⟩, (kmalloc eightBlocks 48).2) := by
    have returned : krealloc eightBlocks (vectorNew 8 2).memory 48 = some (kmalloc eightBlocks 48) :=
      krealloc_null kernelHeap_eightBlocks 48
    have asked : toWord ((toWord (((vectorNew 8 2).tReservedElements : Int) +
        (toWord (((vectorNew 8 2).tElems : Int) + ((4 : Nat) : Int)) : Nat)) : Nat) * ((vectorNew 8 2).eSize : Int)) = 48 := by
      decide
    unfold vectorGrow vectorResize
    dsimp only
    rw [if_neg (by decide), asked, returned]
    dsimp only
    rw [if_neg (by rw [pointer]; decide)]
    rfl
  exact ⟨_, _, _, grown, (vectorGrow_null_iff ⟨kernelHeap_eightBlocks, by decide, .nothing rfl rfl⟩
    ⟨by decide, by decide⟩ (fun _ _ none_ => by cases none_) grown le_rfl).mpr fun _ _ _ _ _ => rfl⟩

/-- The number 5, as an element. -/
def five : List Byte := [0x05#8, 0x00#8, 0x00#8, 0x00#8, 0x00#8, 0x00#8, 0x00#8, 0x00#8]

/-- The kernel after it was pushed to a new vector. -/
def fiveKernel : Kernel :=
  { (kmalloc eightBlocks 24).2 with mem := blit (kmalloc eightBlocks 24).2.mem 0x100000 five }

/-- The vector once it was popped. -/
def fivePopped : Vector := ⟨0x100000, 8, 0, 3, 2⟩

theorem fiveBlock : (kmalloc eightBlocks 24).1 = 0x100000 := by decide +kernel

theorem fivePopped_inHeap : ∃ chains chain, fivePopped.InHeap fiveKernel chains (some chain) := by
  rcases kmalloc_cases kernelHeap_eightBlocks 24 with failed | ⟨start, granted⟩
  · exact absurd (congrArg Prod.fst failed) (by rw [fiveBlock]; decide)
  · have one : heapBlocks 24 = 1 := by decide
    have pointer := granted.pointer
    rw [one] at granted pointer
    have first : start = 0 := by
      rw [fiveBlock] at pointer
      have place : 0x100000 = 0x100000 + start * 4096 := pointer
      omega
    subst first
    have live : (⟨0, 1⟩ : Span) ∈ insert ⟨0, 1⟩ (∅ : Set Span) := Set.mem_insert _ _
    have heap : KernelHeap fiveKernel (insert ⟨0, 1⟩ ∅) := by
      unfold fiveKernel
      refine granted.heap.withMem live fun a outside => blit_outside _ _ ?_
      rw [granted.same.bytes] at outside
      by_contra between
      rw [not_or, not_lt, not_le] at between
      refine outside ⟨between.1, between.2.trans_le ?_⟩
      decide
    have clean : goesOn (fiveKernel.minimalState.view 0) = false := by decide +kernel
    have address : fivePopped.memory = fiveKernel.address ⟨0, 1⟩ := by decide +kernel
    exact ⟨_, _, heap, by decide, .block _ live (Or.inl clean) address (by decide)⟩

/-- **A vector grows by an element that was popped.** -/
theorem vectorGrow_reuses : ¬ ∀ k chains held vec totalElements res vec' k', Vector.InHeap k chains vec held →
    vec.Fits totalElements → vec.Stays k held totalElements → vectorGrow k vec totalElements = some (res, vec', k') →
    0 ≤ res → NewElementsNull k.mem vec k'.mem vec' totalElements := by
  intro always
  obtain ⟨chains, chain, vector⟩ := fivePopped_inHeap
  have grown : vectorGrow fiveKernel fivePopped 1 = some (0, { fivePopped with tElems := 1 }, fiveKernel) := by
    unfold vectorGrow vectorResize
    dsimp only
    rw [if_pos (by decide)]
    rfl
  have zeros := (always _ _ _ _ _ _ _ _ vector ⟨by decide, by decide⟩ (fun full => absurd full (by decide)) grown le_rfl).null 0
    Nat.one_pos (List.replicate 8 0x00#8) rfl
  exact absurd zeros (by decide +kernel)

end PeachOS
