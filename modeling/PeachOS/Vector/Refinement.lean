/-
**The kernel vector is a list of blocks.**

In every run of calls from `vector_new`, between which other code may change other memory, each call returns and changes what
the operation of lists does, and touches the memory of the vector and the buffers of its caller only. `vector_at` and
`vector_back` refuse a null pointer for the element, but then clear the bytes it points to: that is the exception.

* `push_meets`, `pop_meets`, `overwrite_meets`, `at_meets`, `popElement_meets` — the calls one by one;
* `vectorCall_iff` — in every run, a call meets its operation of lists exactly when its pointer is not null;
* `vectorAt_null` — a vector whose element is read to a null pointer.
-/

import PeachOS.Lib.StepRun
import PeachOS.Paging.Mapping
import PeachOS.Vector.Calls

namespace PeachOS

open ByteStore BlockArray
open StepRun (Reachable Guarded)

/-- The memory of a vector, for as many elements as fit. -/
def Vector.block (vec : Vector) : Set Nat :=
  if vec.memory = 0 then ∅ else Set.Ico vec.memory (vec.memory + vec.tmElems * vec.eSize)

namespace VectorCall

/-! ### What a call relies on -/

/-- `vector_resize` for one element: room for it, or a `krealloc` that succeeds, keeps the elements and leaves the caller's
buffer alone. -/
def Grows (k : Kernel) (vec : Vector) (elem : Nat) : Prop :=
  (vec.tElems + 1 < vec.tmElems ∧ Disjoint (Set.Ico elem (elem + vec.eSize)) vec.block) ∨
    vec.tmElems ≤ vec.tElems + 1 ∧
      ∃ ptr k', krealloc k vec.memory ((vec.tReservedElements + (vec.tElems + 1)) * vec.eSize) = some (ptr, k') ∧ ptr ≠ 0 ∧
        ptr < 2 ^ 64 ∧ ptr + (vec.tReservedElements + (vec.tElems + 1)) * vec.eSize ≤ 2 ^ 64 ∧
        (∀ offset < vec.tElems * vec.eSize, k'.mem (ptr + offset) = k.mem (vec.memory + offset)) ∧
        ∀ a ∈ Set.Ico elem (elem + vec.eSize), k'.mem a = k.mem a ∧
          a ∉ Set.Ico ptr (ptr + (vec.tReservedElements + (vec.tElems + 1)) * vec.eSize)

/-- **Reallocation succeeds, no size overflows, and the buffers are the caller's own.** -/
def Served (k : Kernel) (vec : Vector) : VectorCall → Prop
  | push elem =>
      vec.tReservedElements + (vec.tElems + 1) < 2 ^ 31 ∧
        (vec.tReservedElements + (vec.tElems + 1)) * vec.eSize < 2 ^ 31 ∧ vec.eSize < 2 ^ 31 ∧ Grows k vec elem
  | pop => True
  | overwrite index elem elemSize =>
      -2 ^ 31 ≤ index ∧ index < 2 ^ 31 ∧ vec.eSize < 2 ^ 31 ∧ Disjoint (Set.Ico elem (elem + elemSize)) vec.block
  | .at _ dataOut size => size < 2 ^ 31 ∧ (dataOut ≠ 0 → Disjoint (Set.Ico dataOut (dataOut + size)) vec.block)
  | back dataOut size =>
      size < 2 ^ 31 ∧ (dataOut ≠ 0 → Disjoint (Set.Ico dataOut (dataOut + size)) vec.block)
  | popElement memVal size =>
      size < 2 ^ 31 ∧ vec.tElems * vec.eSize < 2 ^ 31 ∧
        (∀ a ∈ vec.block ∪ Set.Ico memVal (memVal + size), (kzalloc k size).2.mem a = k.mem a) ∧
        ((kzalloc k size).1 ≠ 0 → Disjoint (vec.block ∪ Set.Ico memVal (memVal + size))
          (Set.Ico (kzalloc k size).1 ((kzalloc k size).1 + size)))
  | count => True

/-- The buffers of the caller. -/
def buffers (eSize : Nat) : VectorCall → Set Nat
  | push elem => Set.Ico elem (elem + eSize)
  | overwrite _ elem elemSize => Set.Ico elem (elem + elemSize)
  | .at _ dataOut size => if dataOut = 0 then ∅ else Set.Ico dataOut (dataOut + size)
  | back dataOut size => if dataOut = 0 then ∅ else Set.Ico dataOut (dataOut + size)
  | popElement memVal size => Set.Ico memVal (memVal + size)
  | _ => ∅

/-- The block that `vector_pop_element` allocates. -/
def temporary (k : Kernel) : VectorCall → Set Nat
  | popElement _ size =>
      if (kzalloc k size).1 = 0 then ∅ else Set.Ico (kzalloc k size).1 ((kzalloc k size).1 + size)
  | _ => ∅

/-- There is memory for that block. -/
def hasMemory (k : Kernel) : VectorCall → Bool
  | popElement _ size => (kzalloc k size).1 ≠ 0
  | _ => true

/-- The operation of lists that a call stands for, on the elements of its vector. -/
def expected (k : Kernel) (vec : Vector) (elements : List (List Byte)) (call : VectorCall) : ListResult :=
  call.onList k.mem vec.eSize (call.hasMemory k) elements

/-- **A result of a call is that of the operation of lists**, and the bytes touched are allocated. -/
structure Right (k : Kernel) (vec : Vector) (elements : List (List Byte)) (call : VectorCall) (result : VectorResult) :
    Prop where
  res : result.res = (call.expected k vec elements).res
  represents : Represents result.kernel.mem result.vec (call.expected k vec elements).elements
  out : ∀ place bytes, (call.expected k vec elements).out = some (place, bytes) →
    window result.kernel.mem place bytes.length = bytes
  inside : ∀ area ∈ result.touched, area.bytes ⊆ result.vec.block ∪ call.buffers vec.eSize ∪ call.temporary k

/-- **A call does what the operation of lists does.** -/
def Meets (k : Kernel) (vec : Vector) (elements : List (List Byte)) (call : VectorCall) : Prop :=
  ∃ result, call.run k vec = some result ∧ call.Right k vec elements result

/-- The element is not read to a null pointer. -/
def OutNonNull : VectorCall → Prop
  | .at _ dataOut size => dataOut ≠ 0 ∨ size = 0
  | back dataOut size => dataOut ≠ 0 ∨ size = 0
  | _ => True

/-- A result that hands nothing out. -/
theorem Right.of_expected {k : Kernel} {vec : Vector} {elements elements' : List (List Byte)} {call : VectorCall}
    {result : VectorResult} {res : Int} (expected : call.expected k vec elements = ⟨res, elements', none⟩)
    (same : result.res = res) (represents : Represents result.kernel.mem result.vec elements')
    (inside : ∀ area ∈ result.touched, area.bytes ⊆ result.vec.block ∪ call.buffers vec.eSize ∪ call.temporary k) :
    call.Right k vec elements result where
  res := by
    rw [expected]
    exact same
  represents := by
    rw [expected]
    exact represents
  out := fun place bytes isOut => by
    rw [expected] at isOut
    cases isOut
  inside := inside

end VectorCall

/-! ### Memory outside the vector -/

section Frame

variable {mem mem' : Memory} {vec : Vector} {elements : List (List Byte)}

/-- Bytes between the first and the last element that fits are in the block. -/
theorem Vector.mem_block {vec : Vector} (nonnull : vec.memory ≠ 0) {a : Nat} (low : vec.memory ≤ a)
    (high : a < vec.memory + vec.tmElems * vec.eSize) : a ∈ vec.block := by
  unfold Vector.block
  rw [if_neg nonnull]
  exact ⟨low, high⟩

/-- The null pointer is in no block. -/
theorem Vector.null_outside (vec : Vector) : 0 ∉ vec.block := by
  unfold Vector.block
  split
  · exact Set.notMem_empty 0
  · next nonnull => exact fun inside => nonnull (Nat.le_zero.mp inside.1)

/-- The elements of a vector without memory are empty. -/
theorem Represents.empty_of_null (represents : Represents mem vec elements) (some_ : vec.tElems ≠ 0) (null : vec.memory = 0) :
    vec.eSize = 0 := (represents.null null).resolve_right fun none_ => some_ none_.1

/-- A vector with elements that have bytes has memory. -/
theorem Represents.nonnull (represents : Represents mem vec elements) {offset : Nat}
    (inside : offset < vec.tElems * vec.eSize) : vec.memory ≠ 0 := by
  intro null
  rcases represents.null null with empty | ⟨none_, _⟩
  · rw [empty, Nat.mul_zero] at inside
    exact absurd inside (Nat.not_lt_zero _)
  · rw [none_, Nat.zero_mul] at inside
    exact absurd inside (Nat.not_lt_zero _)

/-- **Who keeps the block of a vector keeps its elements.** -/
theorem Represents.frame (represents : Represents mem vec elements) (same : ∀ a ∈ vec.block, mem' a = mem a) :
    Represents mem' vec elements where
  count := represents.count
  few := represents.few
  capacity := represents.capacity
  holds := represents.holds.congr fun offset inside => by
    rw [← represents.count] at inside
    have bound := Nat.mul_le_mul_right vec.eSize represents.capacity
    exact same _ (Vector.mem_block (represents.nonnull inside) (Nat.le_add_right _ _) (by omega))
  null := represents.null
  pointer := represents.pointer
  end_ := represents.end_

/-- Elements lie in the address space. -/
theorem Represents.noWrap (represents : Represents mem vec elements) {i : Nat} (below : i < vec.tmElems) :
    vec.memory + i * vec.eSize < 2 ^ 64 := by
  have end_ := represents.end_
  rcases Nat.eq_zero_or_pos vec.eSize with empty | some_
  · rw [empty, Nat.mul_zero, Nat.add_zero]
    exact represents.pointer
  · have bound := Nat.mul_lt_mul_of_pos_right below some_
    omega

/-- The address of an element. -/
theorem Represents.address (represents : Represents mem vec elements) {i : Nat} (below : i < vec.tmElems) :
    vectorMemoryAtIndex vec i = vec.memory + i * vec.eSize := by
  have noWrap := represents.noWrap below
  unfold vectorMemoryAtIndex
  rw [Nat.mul_comm i] at noWrap ⊢
  exact_mod_cast toWord_natCast noWrap

/-- `memcpy` outside the block. -/
theorem Represents.memcpy_out (represents : Represents mem vec elements) {dest src : Nat}
    (apart : Disjoint (Set.Ico dest (dest + vec.eSize)) vec.block) : Represents (memcpy mem dest src vec.eSize) vec elements :=
  represents.frame fun a inside => memcpy_outside (by
    by_contra between
    exact Set.disjoint_left.mp apart ⟨by omega, by omega⟩ inside)

/-- `memset` outside the block. -/
theorem Represents.memset_out (represents : Represents mem vec elements) {dest size : Nat}
    (apart : Disjoint (Set.Ico dest (dest + size)) vec.block) (c : Byte) : Represents (memset mem dest c size) vec elements :=
  represents.frame fun a inside => memset_outside (by
    by_contra between
    exact Set.disjoint_left.mp apart ⟨by omega, by omega⟩ inside) c

end Frame

/-! ### Copies and comparisons -/

section Bytes

variable {mem : Memory} {dest src size : Nat}

/-- **A copy between areas that are apart** delivers the source. -/
theorem window_memcpy (small : size < 2 ^ 31)
    (apart : Disjoint (Set.Ico dest (dest + size)) (Set.Ico src (src + size))) :
    window (memcpy mem dest src size) dest size = window mem src size := by
  unfold memcpy
  rw [Nat.mod_eq_of_lt (by omega)]
  refine window_move fun offset inside => copy_inside mem inside ?_
  by_contra overlap
  rw [not_or, not_le, not_le] at overlap
  exact Set.disjoint_left.mp apart (show dest ∈ Set.Ico dest (dest + size) from ⟨le_rfl, by omega⟩) ⟨by omega, by omega⟩

/-- Bytes that are cleared. -/
theorem window_memset (small : size < 2 ^ 31) (c : Byte) :
    window (memset mem dest c size) dest size = List.replicate size c := by
  unfold memset
  rw [min_eq_left small.le]
  exact window_fill mem dest size c

/-- The loop of `memcmp` ends on zero when all characters are equal. -/
theorem memcmpLoop_eq_zero (fuel i : Nat) :
    memcmpLoop mem dest src fuel i = 0 ↔ ∀ offset < fuel, mem (dest + (i + offset)) = mem (src + (i + offset)) := by
  induction fuel generalizing i with
  | zero => exact ⟨fun _ offset inside => absurd inside (Nat.not_lt_zero offset), fun _ => rfl⟩
  | succ fuel ih =>
      rw [memcmpLoop]
      by_cases equal : mem (dest + i) = mem (src + i)
      · rw [if_neg (not_not.mpr equal), ih]
        constructor
        · intro rest offset inside
          cases offset with
          | zero => exact equal
          | succ offset =>
              rw [show i + (offset + 1) = i + 1 + offset by omega]
              exact rest offset (by omega)
        · intro all offset inside
          rw [show i + 1 + offset = i + (offset + 1) by omega]
          exact all (offset + 1) (by omega)
      · rw [if_pos equal]
        have differs : ¬ ∀ offset < fuel + 1, mem (dest + (i + offset)) = mem (src + (i + offset)) := fun all =>
          equal (all 0 (Nat.succ_pos fuel))
        refine ⟨fun zero => ?_, fun all => absurd all differs⟩
        split at zero <;> cases zero

/-- **`memcmp` compares blocks.** -/
theorem memcmp_eq_zero (small : size < 2 ^ 31) : memcmp mem dest src size = 0 ↔ window mem dest size = window mem src size := by
  have count : (toInt32 size).toNat = size := by
    rw [toInt32_of_bounds (by omega) (by exact_mod_cast small), Int.toNat_natCast]
  unfold memcmp
  rw [count, memcmpLoop_eq_zero, window_eq_iff]
  simp only [Nat.zero_add]

end Bytes

/-! ### `vector_push` -/

section Push

variable {k : Kernel} {vec : Vector} {elements : List (List Byte)} {elem : Nat}

/-- **Making room for an element** keeps the elements and the caller's buffer. -/
theorem vectorResize_spec (represents : Represents k.mem vec elements) (served : (VectorCall.push elem).Served k vec) :
    ∃ memory capacity k', vectorResize k vec 1 = some (0, { vec with memory := memory, tmElems := capacity }, k') ∧
      Represents k'.mem { vec with memory := memory, tmElems := capacity } elements ∧ vec.tElems < capacity ∧
      (memory = 0 → vec.eSize = 0) ∧
      Disjoint (Set.Ico elem (elem + vec.eSize)) (Vector.block { vec with memory := memory, tmElems := capacity }) ∧
      window k'.mem elem vec.eSize = window k.mem elem vec.eSize := by
  obtain ⟨few, fits, _, grows⟩ := served
  have required : toWord ((vec.tElems : Int) + ((1 : Nat) : Int)) = vec.tElems + 1 := by
    exact_mod_cast toWord_natCast (show vec.tElems + 1 < 2 ^ 64 by omega)
  have final : toWord ((vec.tReservedElements : Int) + ((vec.tElems + 1 : Nat) : Int)) =
      vec.tReservedElements + (vec.tElems + 1) := by
    exact_mod_cast toWord_natCast (show vec.tReservedElements + (vec.tElems + 1) < 2 ^ 64 by omega)
  have bytes : toWord (((vec.tReservedElements + (vec.tElems + 1) : Nat) : Int) * (vec.eSize : Int)) =
      (vec.tReservedElements + (vec.tElems + 1)) * vec.eSize := by
    exact_mod_cast toWord_natCast (fits.trans (by norm_num))
  unfold vectorResize
  simp only [required]
  rcases grows with ⟨room, apart⟩ | ⟨full, ptr, k', granted, nonnull, pointer, end_, contents, buffer⟩
  · rw [if_pos room]
    exact ⟨vec.memory, vec.tmElems, k, rfl, represents, by omega, fun null => (represents.null null).resolve_right (by omega),
      apart, rfl⟩
  · rw [if_neg (not_lt.mpr full)]
    simp only [final, bytes, granted, nonnull, if_false]
    refine ⟨ptr, _, k', rfl, ⟨represents.count, represents.few, ?_, ?_, fun null => absurd null nonnull, pointer, end_⟩, ?_,
      fun null => absurd null nonnull, ?_, ?_⟩
    · show vec.tElems ≤ vec.tReservedElements + (vec.tElems + 1)
      omega
    · refine represents.holds.congr fun offset inside => contents offset ?_
      rw [represents.count]
      exact inside
    · omega
    · unfold Vector.block
      rw [if_neg nonnull]
      exact Set.disjoint_left.mpr fun a inBuffer => (buffer a inBuffer).2
    · exact window_congr fun offset inside => (buffer _ ⟨Nat.le_add_right _ _, Nat.add_lt_add_left inside _⟩).1

/-- **`vector_push` appends its element.** -/
theorem push_meets (represents : Represents k.mem vec elements) (served : (VectorCall.push elem).Served k vec) :
    (VectorCall.push elem).Meets k vec elements := by
  obtain ⟨memory, capacity, k', resized, represents', room, nonnull, apart, sameElem⟩ := vectorResize_spec represents served
  obtain ⟨few, _, small, _⟩ := served
  have count : vec.tElems < 2 ^ 31 := represents.few
  have few' : vec.tElems + 1 < 2 ^ 31 := by omega
  have address : vectorMemoryAtIndex { vec with memory := memory, tmElems := capacity } vec.tElems =
      memory + vec.tElems * vec.eSize := represents'.address room
  have inBlock : Set.Ico (memory + vec.tElems * vec.eSize) (memory + vec.tElems * vec.eSize + vec.eSize) ⊆
      Vector.block { vec with memory := memory, tmElems := capacity } := by
    rintro a ⟨low, high⟩
    have bound := Nat.mul_le_mul_right vec.eSize room
    rw [Nat.succ_mul] at bound
    refine Vector.mem_block (fun null => ?_) (show memory ≤ a by omega) (show a < memory + capacity * vec.eSize by omega)
    rw [nonnull null] at low high
    omega
  have index : toInt32 (vec.tElems : Int) = vec.tElems := toInt32_of_bounds (by omega) (by exact_mod_cast count)
  have next : toWord ((vec.tElems : Int) + 1) = vec.tElems + 1 := by
    exact_mod_cast toWord_natCast (show vec.tElems + 1 < 2 ^ 64 by omega)
  have length : vec.eSize % 2 ^ 32 = vec.eSize := Nat.mod_eq_of_lt (by omega)
  have written : window (memcpy k'.mem (memory + vec.tElems * vec.eSize) elem vec.eSize) (memory + vec.tElems * vec.eSize)
      vec.eSize = window k.mem elem vec.eSize := by
    rw [window_memcpy small (Set.disjoint_of_subset_left inBlock apart.symm), sameElem]
  have pushed : (VectorCall.push elem).run k vec =
      some ⟨vec.tElems, { vec with memory := memory, tmElems := capacity, tElems := vec.tElems + 1 },
        { k' with mem := memcpy k'.mem (memory + vec.tElems * vec.eSize) elem vec.eSize },
        [⟨memory + vec.tElems * vec.eSize, vec.eSize⟩, ⟨elem, vec.eSize⟩]⟩ := by
    show vectorPushElem k vec elem = _
    unfold vectorPushElem
    rw [resized]
    simp only [lt_irrefl, if_false, address, index, next, length]
  have kept : HoldsBlocks (memcpy k'.mem (memory + vec.tElems * vec.eSize) elem vec.eSize) memory vec.eSize elements := by
    refine represents'.holds.congr fun offset inside => memcpy_outside (Or.inl ?_)
    rw [represents.count]
    exact Nat.add_lt_add_left inside _
  refine ⟨_, pushed, ?_, ⟨?_, few', room, ?_, fun null => Or.inl (nonnull null), represents'.pointer, represents'.end_⟩, ?_, ?_⟩
  · show (vec.tElems : Int) = elements.length
    rw [represents.count]
  · show vec.tElems + 1 = (elements ++ [_]).length
    rw [List.length_append, List.length_singleton, represents.count]
  · refine kept.append (length_window _ _ _) ?_
    rw [← represents.count]
    exact written
  · intro place bytes none_
    cases none_
  · intro area member
    rcases List.mem_pair.mp member with rfl | rfl
    · exact fun a inside => Or.inl (Or.inl (inBlock inside))
    · exact fun a inside => Or.inl (Or.inr inside)

end Push

/-! ### The calls without allocation -/

section Calls

variable {k : Kernel} {vec : Vector} {elements : List (List Byte)}

/-- **`vector_pop` drops the last element.** -/
theorem pop_meets (represents : Represents k.mem vec elements) : VectorCall.pop.Meets k vec elements := by
  refine ⟨vectorPop k vec, rfl, ?_⟩
  by_cases empty : elements = []
  · have none_ : vec.tElems = 0 := represents.count.trans (by rw [empty, List.length_nil])
    have expected : VectorCall.pop.expected k vec elements = ⟨eio, elements, none⟩ := if_pos empty
    have result : vectorPop k vec = ⟨eio, vec, k, []⟩ := if_pos none_
    rw [result]
    exact .of_expected expected rfl represents fun area member => absurd member List.not_mem_nil
  · have some_ : vec.tElems ≠ 0 := fun none_ => empty (List.eq_nil_of_length_eq_zero (represents.count ▸ none_))
    have expected : VectorCall.pop.expected k vec elements = ⟨0, elements.dropLast, none⟩ := if_neg empty
    have result : vectorPop k vec = ⟨0, { vec with tElems := vec.tElems - 1 }, k, []⟩ := if_neg some_
    rw [result]
    refine .of_expected expected rfl ?_ fun area member => absurd member List.not_mem_nil
    exact ⟨by rw [List.length_dropLast, ← represents.count], (Nat.sub_le _ _).trans_lt represents.few,
      (Nat.sub_le _ _).trans represents.capacity, represents.holds.dropLast,
      fun null => Or.inl (represents.empty_of_null some_ null), represents.pointer, represents.end_⟩

/-- **`vector_count` is the length.** -/
theorem count_meets (represents : Represents k.mem vec elements) : VectorCall.count.Meets k vec elements := by
  refine ⟨_, rfl, ⟨?_, represents, ?_, fun area member => absurd member List.not_mem_nil⟩⟩
  · show (vec.tElems : Int) = elements.length
    rw [represents.count]
  · intro place bytes none_
    cases none_

/-- The block of an element lies in the block of its vector. -/
theorem Represents.element_subset {mem : Memory} (represents : Represents mem vec elements) {i : Nat}
    (below : i < elements.length) :
    Set.Ico (vec.memory + i * vec.eSize) (vec.memory + i * vec.eSize + vec.eSize) ⊆ vec.block := by
  rintro a ⟨low, high⟩
  rw [← represents.count] at below
  have bound := Nat.mul_le_mul_right vec.eSize (Nat.succ_le_of_lt below)
  have capacity := Nat.mul_le_mul_right vec.eSize represents.capacity
  rw [Nat.succ_mul] at bound
  have nonnull : vec.memory ≠ 0 := represents.nonnull (show i * vec.eSize < vec.tElems * vec.eSize by omega)
  exact Vector.mem_block nonnull (by omega) (by omega)

/-- **`vector_overwrite` sets an element.** -/
theorem overwrite_meets (represents : Represents k.mem vec elements) {index : Int} {elem elemSize : Nat}
    (served : (VectorCall.overwrite index elem elemSize).Served k vec) :
    (VectorCall.overwrite index elem elemSize).Meets k vec elements := by
  obtain ⟨low, high, small, apart⟩ := served
  refine ⟨vectorOverwriteElem k vec index elem elemSize, rfl, ?_⟩
  by_cases refused : index < 0 ∨ elements.length ≤ index ∨ elemSize < vec.eSize
  · have expected : (VectorCall.overwrite index elem elemSize).expected k vec elements = ⟨einvarg, elements, none⟩ :=
      if_pos refused
    have result : vectorOverwriteElem k vec index elem elemSize = ⟨einvarg, vec, k, []⟩ := by
      unfold vectorOverwriteElem vectorValidBounds
      by_cases inside : toWord index < vec.tElems
      · have few := represents.few
        have isSmaller : elemSize < vec.eSize := by
          unfold toWord at inside
          rw [represents.count] at inside few
          omega
        rw [if_pos inside, if_neg (lt_irrefl _), if_pos isSmaller]
      · rw [if_neg inside, if_pos (by decide)]
    rw [result]
    exact .of_expected expected rfl represents fun area member => absurd member List.not_mem_nil
  · rw [not_or, not_or, not_lt, not_le, not_lt] at refused
    obtain ⟨positive, below, enough⟩ := refused
    obtain ⟨i, rfl⟩ := Int.eq_ofNat_of_zero_le positive
    have inside : i < elements.length := by exact_mod_cast below
    have word : toWord (i : Int) = i := toWord_natCast (by omega)
    have expected : (VectorCall.overwrite i elem elemSize).expected k vec elements =
        ⟨0, elements.set i (window k.mem elem vec.eSize), none⟩ := by
      refine (if_neg ?_).trans rfl
      rw [not_or, not_or, not_lt, not_le, not_lt]
      exact ⟨positive, below, enough⟩
    have address := represents.address (inside.trans_le (represents.count ▸ represents.capacity))
    have length : vec.eSize % 2 ^ 32 = vec.eSize := Nat.mod_eq_of_lt (by omega)
    have result : vectorOverwriteElem k vec i elem elemSize =
        ⟨0, vec, { k with mem := memcpy k.mem (vec.memory + i * vec.eSize) elem vec.eSize },
          [⟨vec.memory + i * vec.eSize, vec.eSize⟩, ⟨elem, vec.eSize⟩]⟩ := by
      unfold vectorOverwriteElem vectorValidBounds
      simp only [word, represents.count, inside, if_true, lt_irrefl, if_false, not_lt.mpr enough, address, length]
    have inBlock := represents.element_subset inside
    have buffer : Set.Ico elem (elem + vec.eSize) ⊆ Set.Ico elem (elem + elemSize) :=
      Set.Ico_subset_Ico_right (Nat.add_le_add_left enough _)
    have written : window (memcpy k.mem (vec.memory + i * vec.eSize) elem vec.eSize) (vec.memory + i * vec.eSize) vec.eSize =
        window k.mem elem vec.eSize :=
      window_memcpy small (Set.disjoint_of_subset inBlock buffer apart.symm)
    rw [result]
    refine .of_expected expected rfl ?_ fun area member => ?_
    · refine ⟨by rw [List.length_set]; exact represents.count, represents.few, represents.capacity, ?_, represents.null,
        represents.pointer, represents.end_⟩
      refine represents.holds.set (length_window _ _ _) written fun offset _ outside => memcpy_outside ?_
      omega
    · rcases List.mem_pair.mp member with rfl | rfl
      · exact fun a isIn => Or.inl (Or.inl (inBlock isIn))
      · exact fun a isIn => Or.inl (Or.inr (buffer isIn))

/-- **`vector_at` reads an element** to a pointer that is not null. -/
theorem vectorAtOut_spec (represents : Represents k.mem vec elements) (index : Nat) {dataOut size : Nat}
    (small : size < 2 ^ 31) (nonnull : dataOut ≠ 0 ∨ size = 0)
    (apart : dataOut ≠ 0 → Disjoint (Set.Ico dataOut (dataOut + size)) vec.block) :
    let result := vectorAtOut k vec index dataOut size
    let read := VectorCall.readElement elements vec.eSize elements[index]? dataOut size
    result.res = read.res ∧ result.vec = vec ∧ Represents result.kernel.mem vec elements ∧ read.elements = elements ∧
      (∀ place bytes, read.out = some (place, bytes) → window result.kernel.mem place bytes.length = bytes) ∧
      ∀ area ∈ result.touched, area.bytes ⊆ vec.block ∪ if dataOut = 0 then ∅ else Set.Ico dataOut (dataOut + size) := by
  intro result read
  by_cases null : dataOut = 0
  · -- nothing is cleared
    have none_ : size = 0 := nonnull.resolve_left (not_not.mpr null)
    have cleared : ({ k with mem := memset k.mem dataOut 0x00#8 size } : Kernel).mem = k.mem := by
      rw [none_]
      rfl
    have refused : result = vectorAtFails k vec einvarg dataOut size := by
      show vectorAtOut k vec index dataOut size = _
      unfold vectorAtOut
      rw [if_pos null]
      exact ite_self _
    have readEq : read = ⟨einvarg, elements, none⟩ := if_pos null
    rw [refused, readEq]
    refine ⟨rfl, rfl, ?_, rfl, fun place bytes isNone => (by cases isNone), fun area member => ?_⟩
    · show Represents ({ k with mem := memset k.mem dataOut 0x00#8 size } : Kernel).mem vec elements
      rw [cleared]
      exact represents
    · rw [List.mem_singleton.mp member, none_]
      rintro a ⟨low, high⟩
      simp only [Nat.zero_min, Nat.add_zero] at high
      omega
  · have apart := apart null
    have inBuffer : ∀ len ≤ size, Set.Ico dataOut (dataOut + len) ⊆
        vec.block ∪ if dataOut = 0 then ∅ else Set.Ico dataOut (dataOut + size) := by
      intro len le a inside
      rw [if_neg null]
      exact Or.inr ⟨inside.1, inside.2.trans_le (Nat.add_le_add_left le _)⟩
    have failed : ∀ res, let result := vectorAtFails k vec res dataOut size
        result.vec = vec ∧ Represents result.kernel.mem vec elements ∧
          window result.kernel.mem dataOut size = List.replicate size 0x00#8 ∧
          ∀ area ∈ result.touched, area.bytes ⊆ vec.block ∪ if dataOut = 0 then ∅ else Set.Ico dataOut (dataOut + size) := by
      intro res
      refine ⟨rfl, represents.memset_out apart _, window_memset small _, fun area member => ?_⟩
      rw [List.mem_singleton.mp member]
      exact inBuffer _ (min_le_left _ _)
    by_cases short : size < vec.eSize
    · have refused : result = vectorAtFails k vec einvarg dataOut size := if_pos short
      have readEq : read = ⟨einvarg, elements, some (dataOut, List.replicate size 0x00#8)⟩ :=
        (if_neg null).trans (if_pos short)
      obtain ⟨same, represents', cleared, inside⟩ := failed einvarg
      rw [refused, readEq]
      refine ⟨rfl, same, represents', rfl, fun place bytes isOut => ?_, inside⟩
      cases isOut
      rw [List.length_replicate]
      exact cleared
    · by_cases inside : index < elements.length
      · have address := represents.address (inside.trans_le (represents.count ▸ represents.capacity))
        have length : vec.eSize % 2 ^ 32 = vec.eSize := Nat.mod_eq_of_lt (by omega)
        have done : result = ⟨0, vec, { k with mem := memcpy k.mem dataOut (vec.memory + index * vec.eSize) vec.eSize },
            [⟨dataOut, vec.eSize⟩, ⟨vec.memory + index * vec.eSize, vec.eSize⟩]⟩ := by
          show vectorAtOut k vec index dataOut size = _
          unfold vectorAtOut vectorValidBounds
          simp only [short, null, represents.count, inside, if_true, lt_irrefl, if_false, address, length]
        have readEq : read = ⟨0, elements, some (dataOut, elements[index])⟩ := by
          show VectorCall.readElement elements vec.eSize elements[index]? dataOut size = _
          rw [List.getElem?_eq_getElem inside]
          exact (if_neg null).trans (if_neg short)
        have inBlock := represents.element_subset inside
        have apart' : Disjoint (Set.Ico dataOut (dataOut + vec.eSize)) vec.block :=
          Set.disjoint_of_subset_left (Set.Ico_subset_Ico_right (Nat.add_le_add_left (not_lt.mp short) _)) apart
        rw [done, readEq]
        refine ⟨rfl, rfl, represents.memcpy_out apart', rfl, fun place bytes isOut => ?_, fun area member => ?_⟩
        · cases isOut
          rw [represents.holds.sizes _ (List.getElem_mem inside), ← represents.holds.block index inside]
          exact window_memcpy (by omega) (Set.disjoint_of_subset_right inBlock apart')
        · rcases List.mem_pair.mp member with rfl | rfl
          · exact inBuffer _ (not_lt.mp short)
          · exact fun a isIn => Or.inl (inBlock isIn)
      · have refused : result = vectorAtFails k vec einvarg dataOut size := by
          show vectorAtOut k vec index dataOut size = _
          unfold vectorAtOut vectorValidBounds
          rw [if_neg short, if_neg null, represents.count, if_neg inside]
          exact if_pos (by decide)
        have readEq : read = ⟨einvarg, elements, some (dataOut, List.replicate size 0x00#8)⟩ := by
          show VectorCall.readElement elements vec.eSize elements[index]? dataOut size = _
          rw [List.getElem?_eq_none (not_lt.mp inside)]
          exact (if_neg null).trans (if_neg short)
        obtain ⟨same, represents', cleared, within⟩ := failed einvarg
        rw [refused, readEq]
        refine ⟨rfl, same, represents', rfl, fun place bytes isOut => ?_, within⟩
        cases isOut
        rw [List.length_replicate]
        exact cleared

/-- `vector_at` writes to the buffer of its caller only. -/
theorem vectorAtOut_outside (k : Kernel) (vec : Vector) (index : Nat) {dataOut size a : Nat}
    (outside : a < dataOut ∨ dataOut + size ≤ a) : (vectorAtOut k vec index dataOut size).kernel.mem a = k.mem a := by
  have cleared : ∀ res, (vectorAtFails k vec res dataOut size).kernel.mem a = k.mem a := fun _ => memset_outside outside _
  unfold vectorAtOut
  dsimp only
  split
  · exact cleared _
  · next enough =>
      split
      · exact cleared _
      · split
        · exact cleared _
        · exact memcpy_outside (by omega)

/-- **`vector_at` and `vector_back` read an element.** -/
theorem at_meets (represents : Represents k.mem vec elements) {index dataOut size : Nat}
    (served : (VectorCall.at index dataOut size).Served k vec) (nonnull : (VectorCall.at index dataOut size).OutNonNull) :
    (VectorCall.at index dataOut size).Meets k vec elements := by
  obtain ⟨res, same, represents', sameElements, out, inside⟩ :=
    vectorAtOut_spec represents index served.1 nonnull served.2
  refine ⟨_, rfl, ⟨res, ?_, out, fun area member a isIn => ?_⟩⟩
  · change Represents _ _ (VectorCall.readElement elements vec.eSize elements[index]? dataOut size).elements
    rw [sameElements, same]
    exact represents'
  · rw [same]
    exact Or.inl (inside area member isIn)

theorem back_meets (represents : Represents k.mem vec elements) {dataOut size : Nat}
    (served : (VectorCall.back dataOut size).Served k vec) (nonnull : (VectorCall.back dataOut size).OutNonNull) :
    (VectorCall.back dataOut size).Meets k vec elements := by
  have last : elements[toWord (vec.tElems - 1 : Int)]? = elements.getLast? := by
    rw [List.getLast?_eq_getElem?, represents.count]
    have few := represents.few
    rw [represents.count] at few
    cases elements with
    | nil => rfl
    | cons first rest =>
        congr 1
        rw [List.length_cons] at few ⊢
        unfold toWord
        omega
  obtain ⟨res, same, represents', sameElements, out, inside⟩ :=
    vectorAtOut_spec represents (toWord (vec.tElems - 1 : Int)) served.1 nonnull served.2
  rw [last] at res sameElements out
  refine ⟨_, rfl, ⟨res, ?_, out, fun area member a isIn => ?_⟩⟩
  · change Represents _ _ (VectorCall.readElement elements vec.eSize elements.getLast? dataOut size).elements
    rw [sameElements, show (vectorBack k vec dataOut size).vec = vec from same]
    exact represents'
  · rw [show (vectorBack k vec dataOut size).vec = vec from same]
    exact Or.inl (inside area member isIn)

end Calls

/-! ### `vector_pop_element` -/

section PopElement

variable {k : Kernel} {vec : Vector} {elements : List (List Byte)} {tmpMem memVal : Nat} {value : List Byte}

/-- **The search ends on the first element that is equal.** The temporary block is the only memory that it writes. -/
theorem vectorSearch_spec (small : vec.eSize < 2 ^ 31) (nonnull : tmpMem ≠ 0)
    (apart : Disjoint (vec.block ∪ Set.Ico memVal (memVal + vec.eSize)) (Set.Ico tmpMem (tmpMem + vec.eSize)))
    {fuel i : Nat} {k : Kernel} {touched : List Area} (represents : Represents k.mem vec elements)
    (isValue : window k.mem memVal vec.eSize = value) (bound : i + fuel = elements.length)
    (inside : ∀ area ∈ touched,
      area.bytes ⊆ vec.block ∪ Set.Ico memVal (memVal + vec.eSize) ∪ Set.Ico tmpMem (tmpMem + vec.eSize)) :
    let search := vectorSearch vec tmpMem memVal vec.eSize fuel i k touched
    search.res = 0 ∧ Represents search.kernel.mem vec elements ∧
      (∀ area ∈ search.touched,
        area.bytes ⊆ vec.block ∪ Set.Ico memVal (memVal + vec.eSize) ∪ Set.Ico tmpMem (tmpMem + vec.eSize)) ∧
      search.indexToRemove = ((elements.drop i).findIdx? (· = value)).map (i + ·) := by
  induction fuel generalizing i k touched with
  | zero =>
      have none_ : elements.drop i = [] := List.drop_eq_nil_of_le (by omega)
      refine ⟨rfl, represents, inside, ?_⟩
      rw [none_]
      rfl
  | succ fuel ih =>
      have below : i < elements.length := by omega
      have apartBlock : Disjoint (Set.Ico tmpMem (tmpMem + vec.eSize)) vec.block :=
        (Set.disjoint_of_subset_left Set.subset_union_left apart).symm
      have nonNull : tmpMem ≠ 0 ∨ vec.eSize = 0 := Or.inl nonnull
      obtain ⟨res, same, represents', _, out, touched'⟩ :=
        vectorAtOut_spec represents i small nonNull fun _ => apartBlock
      have element : elements[i]? = some elements[i] := List.getElem?_eq_getElem below
      have read : VectorCall.readElement elements vec.eSize elements[i]? tmpMem vec.eSize =
          ⟨0, elements, some (tmpMem, elements[i])⟩ := by
        rw [element]
        exact (if_neg nonnull).trans (if_neg (lt_irrefl _))
      rw [read] at res out
      have sized : elements[i].length = vec.eSize := represents.holds.sizes _ (List.getElem_mem below)
      have copied := out tmpMem elements[i] rfl
      rw [sized] at copied
      have isValue' : window (vectorAtOut k vec i tmpMem vec.eSize).kernel.mem memVal vec.eSize = value := by
        rw [← isValue]
        refine window_congr fun offset small => vectorAtOut_outside k vec i ?_
        by_contra between
        exact Set.disjoint_left.mp apart (Or.inr ⟨Nat.le_add_right _ _, Nat.add_lt_add_left small _⟩) ⟨by omega, by omega⟩
      have notNegative : ¬ (vectorAtOut k vec i tmpMem vec.eSize).res < 0 := by
        rw [res]
        exact lt_irrefl 0
      have compares : memcmp (vectorAtOut k vec i tmpMem vec.eSize).kernel.mem tmpMem memVal vec.eSize = 0 ↔
          elements[i] = value := by
        rw [memcmp_eq_zero small, copied, isValue']
      have drop : elements.drop i = elements[i] :: elements.drop (i + 1) := List.drop_eq_getElem_cons below
      have inside' : ∀ area ∈ touched ++ (vectorAtOut k vec i tmpMem vec.eSize).touched ++
          [⟨tmpMem, vec.eSize⟩, ⟨memVal, vec.eSize⟩],
          area.bytes ⊆ vec.block ∪ Set.Ico memVal (memVal + vec.eSize) ∪ Set.Ico tmpMem (tmpMem + vec.eSize) := by
        intro area member
        rw [List.mem_append, List.mem_append, List.mem_pair] at member
        rcases member with (old | new) | rfl | rfl
        · exact inside area old
        · intro a isIn
          rcases touched' area new isIn with inBlock | inTmp
          · exact Or.inl (Or.inl inBlock)
          · rw [if_neg nonnull] at inTmp
            exact Or.inr inTmp
        · exact fun a isIn => Or.inr isIn
        · exact fun a isIn => Or.inl (Or.inr isIn)
      rw [vectorSearch]
      dsimp only
      rw [if_neg notNegative, drop, List.findIdx?_cons]
      by_cases equal : elements[i] = value
      · rw [if_pos (compares.mpr equal), if_pos (decide_eq_true equal)]
        exact ⟨rfl, represents', inside', rfl⟩
      · rw [if_neg fun zero => equal (compares.mp zero), if_neg (by simpa using equal)]
        obtain ⟨res', represents'', within, index⟩ := ih (i := i + 1) represents' isValue' (by omega) inside'
        refine ⟨res', represents'', within, index.trans ?_⟩
        rw [Option.map_map]
        congr 1
        funext offset
        show i + 1 + offset = i + (offset + 1)
        omega

/-- What is erased is the element that the search finds. -/
theorem erase_of_found {j : Nat} (found : elements.findIdx? (· = value) = some j) :
    j < elements.length ∧ value ∈ elements ∧ elements.erase value = elements.eraseIdx j := by
  obtain ⟨below, equal, _⟩ := List.findIdx?_eq_some_iff_getElem.mp found
  have equal : elements[j] = value := of_decide_eq_true equal
  refine ⟨below, equal ▸ List.getElem_mem below, ?_⟩
  have erased : elements.eraseP (fun element => decide (element = value)) = elements.eraseIdx j := by
    rw [List.eraseP_eq_eraseIdx, found]
  rw [← erased, List.erase_eq_eraseP']
  congr 1
  funext element
  exact beq_eq_decide element value

theorem not_mem_of_notFound (missing : elements.findIdx? (· = value) = none) : value ∉ elements := by
  intro member
  have differs := List.findIdx?_eq_none_iff.mp missing value member
  exact absurd (of_decide_eq_false differs) (not_not.mpr rfl)

/-- **`vector_pop_element` erases the first element that is equal.** -/
theorem popElement_meets (represents : Represents k.mem vec elements) {size : Nat}
    (served : (VectorCall.popElement memVal size).Served k vec) : (VectorCall.popElement memVal size).Meets k vec elements := by
  obtain ⟨small, total, kept, apart⟩ := served
  refine ⟨vectorPopElem k vec memVal size, rfl, ?_⟩
  by_cases sized : size = vec.eSize
  · subst sized
    have represents' : Represents (kzalloc k vec.eSize).2.mem vec elements :=
      represents.frame fun a inside => kept a (Or.inl inside)
    by_cases null : (kzalloc k vec.eSize).1 = 0
    · have expected : (VectorCall.popElement memVal vec.eSize).expected k vec elements = ⟨enomem, elements, none⟩ := by
        refine (if_neg (not_not.mpr rfl)).trans (if_pos ?_)
        exact decide_eq_false (not_not.mpr null)
      have result : vectorPopElem k vec memVal vec.eSize = ⟨enomem, vec, (kzalloc k vec.eSize).2, []⟩ :=
        (if_neg (not_not.mpr rfl)).trans (if_pos null)
      rw [result]
      exact .of_expected expected rfl represents' fun area member => absurd member List.not_mem_nil
    · have isValue : window (kzalloc k vec.eSize).2.mem memVal vec.eSize = window k.mem memVal vec.eSize :=
        window_congr fun offset inside => kept _ (Or.inr ⟨Nat.le_add_right _ _, Nat.add_lt_add_left inside _⟩)
      obtain ⟨res, represents'', inside, index⟩ := vectorSearch_spec small null (apart null) represents' isValue
        (show 0 + vectorCount vec = elements.length from (Nat.zero_add _).trans represents.count)
        fun area member => absurd member (List.not_mem_nil (a := area))
      have memory : (VectorCall.popElement memVal vec.eSize).hasMemory k = true := decide_eq_true null
      have temporary : (VectorCall.popElement memVal vec.eSize).temporary k =
          Set.Ico (kzalloc k vec.eSize).1 ((kzalloc k vec.eSize).1 + vec.eSize) := if_neg null
      have expected : (VectorCall.popElement memVal vec.eSize).expected k vec elements =
          if window k.mem memVal vec.eSize ∈ elements then ⟨0, elements.erase (window k.mem memVal vec.eSize), none⟩
          else ⟨eio, elements, none⟩ := by
        unfold VectorCall.expected
        rw [memory]
        exact (if_neg (not_not.mpr rfl)).trans (if_neg (by decide))
      rw [List.drop_zero, show (fun offset => 0 + offset) = id from funext Nat.zero_add, Option.map_id_fun, id] at index
      unfold vectorPopElem
      dsimp only
      generalize vectorSearch vec (kzalloc k vec.eSize).1 memVal vec.eSize (vectorCount vec) 0 (kzalloc k vec.eSize).2 [] =
        search at *
      have notNegative : ¬ search.res < 0 := by
        rw [res]
        exact lt_irrefl 0
      rw [if_neg (not_not.mpr rfl), if_neg null, if_neg notNegative, index]
      cases found : elements.findIdx? (· = window k.mem memVal vec.eSize) with
      | none =>
          rw [if_neg (not_mem_of_notFound found)] at expected
          refine .of_expected expected rfl represents'' fun area member => ?_
          rw [temporary]
          exact inside area member
      | some j =>
          obtain ⟨below, isMember, erased⟩ := erase_of_found found
          rw [if_pos isMember, erased] at expected
          have few := represents.few
          have few' : vec.tElems - 1 < 2 ^ 31 := (Nat.sub_le _ _).trans_lt few
          have fits := (Nat.sub_le vec.tElems 1).trans represents.capacity
          have some_ : vec.tElems ≠ 0 := by
            rw [represents.count]
            omega
          dsimp only
          by_cases last : j = vectorCount vec - 1
          · have popped : vectorPop search.kernel vec = ⟨0, { vec with tElems := vec.tElems - 1 }, search.kernel, []⟩ :=
              if_neg some_
            have isLast : elements.eraseIdx j = elements.dropLast := by
              rw [last, show vectorCount vec = elements.length from represents.count]
              exact List.eraseIdx_length_sub_one
            rw [if_pos last, popped]
            refine .of_expected expected rfl ?_ fun area member => ?_
            · rw [isLast]
              exact ⟨by rw [List.length_dropLast, ← represents.count], few', fits, represents''.holds.dropLast,
                fun null => Or.inl (represents.empty_of_null some_ null), represents.pointer, represents.end_⟩
            · rw [List.append_nil] at member
              rw [temporary]
              exact inside area member
          · have before_ : j + 1 < vec.tElems := by
              rw [represents.count]
              rw [show vectorCount vec = elements.length from represents.count] at last
              omega
            have inside₁ : j + 1 < vec.tmElems := before_.trans_le represents.capacity
            have toDelete : toWord ((vec.memory : Int) + (j : Int) * (vec.eSize : Int)) = vec.memory + j * vec.eSize := by
              exact_mod_cast toWord_natCast (represents.noWrap (by omega))
            have next : toWord (((vec.memory + j * vec.eSize : Nat) : Int) + (vec.eSize : Int)) =
                vec.memory + j * vec.eSize + vec.eSize := by
              have noWrap := represents.noWrap inside₁
              rw [Nat.succ_mul, ← Nat.add_assoc] at noWrap
              exact_mod_cast toWord_natCast noWrap
            have bytes : (vec.tElems - j - 1) * vec.eSize < 2 ^ 31 :=
              (Nat.mul_le_mul_right _ (by omega)).trans_lt total
            have rest : toWord (((vec.tElems : Int) - (j : Int) - 1) * (vec.eSize : Int)) = (vec.tElems - j - 1) * vec.eSize := by
              rw [show (vec.tElems : Int) - (j : Int) - 1 = ((vec.tElems - j - 1 : Nat) : Int) by omega]
              exact_mod_cast toWord_natCast (bytes.trans (by norm_num))
            have copied : (vec.tElems - j - 1) * vec.eSize % 2 ^ 32 = (vec.tElems - j - 1) * vec.eSize :=
              Nat.mod_eq_of_lt (by omega)
            have erasing := represents''.holds.eraseIdx below
            rw [if_neg last, toDelete, next, rest, copied]
            refine .of_expected expected rfl ⟨?_, few', fits, ?_, fun null => Or.inl (represents.empty_of_null some_ null),
              represents.pointer, represents.end_⟩ fun area member => ?_
            · rw [List.length_eraseIdx_of_lt below, ← represents.count]
            · show HoldsBlocks (memcpy search.kernel.mem _ _ _) vec.memory vec.eSize _
              unfold memcpy
              rw [copied, represents.count]
              exact erasing
            · have whole : j * vec.eSize + vec.eSize + (vec.tElems - j - 1) * vec.eSize = vec.tElems * vec.eSize := by
                rw [← Nat.succ_mul, ← Nat.add_mul]
                congr 1
                omega
              have capacity := Nat.mul_le_mul_right vec.eSize represents.capacity
              have moved : ∀ start, vec.memory ≤ start →
                  start + (vec.tElems - j - 1) * vec.eSize ≤ vec.memory + vec.tmElems * vec.eSize →
                  (Area.mk start ((vec.tElems - j - 1) * vec.eSize)).bytes ⊆ vec.block := by
                intro start low high a isIn
                have above : start ≤ a := isIn.1
                have below' : a < start + (vec.tElems - j - 1) * vec.eSize := isIn.2
                have nonnull : vec.memory ≠ 0 := represents.nonnull (show a - start < vec.tElems * vec.eSize by omega)
                exact Vector.mem_block nonnull (by omega) (by omega)
              rw [temporary]
              rw [List.mem_append, List.mem_pair] at member
              rcases member with old | rfl | rfl
              · exact inside area old
              · exact fun a isIn => Or.inl (Or.inl (moved _ (by omega) (by omega) isIn))
              · exact fun a isIn => Or.inl (Or.inl (moved _ (by omega) (by omega) isIn))
  · have expected : (VectorCall.popElement memVal size).expected k vec elements = ⟨einvarg, elements, none⟩ := if_pos sized
    have result : vectorPopElem k vec memVal size = ⟨einvarg, vec, k, []⟩ := if_pos sized
    rw [result]
    exact .of_expected expected rfl represents fun area member => absurd member List.not_mem_nil

end PopElement

/-! ### Runs -/

/-- A vector in its kernel, and the blocks that it should hold. -/
structure VectorRun where
  kernel : Kernel
  vec : Vector
  elements : List (List Byte)

/-- `vector_new`, when there is memory for the vector. -/
def vectorNew (elementSize totalReservedElementsPerResize : Nat) : Vector where
  memory := 0
  eSize := elementSize
  tElems := 0
  tmElems := 0
  tReservedElements := totalReservedElementsPerResize

namespace VectorRun

/-- A new vector, of any element size and reserve. -/
def Initial (σ : VectorRun) : Prop :=
  ∃ elementSize totalReservedElementsPerResize, σ.vec = vectorNew elementSize totalReservedElementsPerResize ∧ σ.elements = []

/-- **One step**: a call, or other code, which leaves the memory of the vector alone. -/
def step (σ : VectorRun) (call : Option VectorCall) (σ' : VectorRun) : Prop :=
  match call with
  | none => σ'.vec = σ.vec ∧ σ'.elements = σ.elements ∧ ∀ a ∈ σ.vec.block, σ'.kernel.mem a = σ.kernel.mem a
  | some call =>
      call.Served σ.kernel σ.vec ∧ ∃ result, call.run σ.kernel σ.vec = some result ∧
        σ' = ⟨result.kernel, result.vec, (call.expected σ.kernel σ.vec σ.elements).elements⟩

/-- The calls that do not read to a null pointer. -/
def nonNull (_ : VectorRun) (call : Option VectorCall) : Prop := ∀ c ∈ call, VectorCall.OutNonNull c

/-- The vector holds its blocks. -/
def Kept (σ : VectorRun) : Prop := Represents σ.kernel.mem σ.vec σ.elements

theorem Initial.kept {σ : VectorRun} (begun : σ.Initial) : σ.Kept := by
  obtain ⟨elementSize, reserve, vec, none_⟩ := begun
  unfold Kept
  rw [vec, none_]
  refine ⟨rfl, show 0 < 2 ^ 31 by decide, le_rfl, .nil _ _ _, fun _ => Or.inr ⟨rfl, Nat.zero_le 1⟩,
    show 0 < 2 ^ 64 by decide, ?_⟩
  show 0 + 0 * elementSize ≤ 2 ^ 64
  rw [Nat.zero_mul]
  decide

/-- **Each call does what the operation of lists does.** -/
theorem Kept.meets {σ : VectorRun} (kept : σ.Kept) {call : VectorCall} (served : call.Served σ.kernel σ.vec)
    (nonNull : call.OutNonNull) : call.Meets σ.kernel σ.vec σ.elements := by
  cases call with
  | push elem => exact push_meets kept served
  | pop => exact pop_meets kept
  | overwrite index elem elemSize => exact overwrite_meets kept served
  | «at» index dataOut size => exact at_meets kept served nonNull
  | back dataOut size => exact back_meets kept served nonNull
  | popElement memVal size => exact popElement_meets kept served
  | count => exact count_meets kept

theorem Kept.step {σ σ' : VectorRun} {call : Option VectorCall} (kept : σ.Kept)
    (taken : Guarded nonNull VectorRun.step σ call σ') : σ'.Kept := by
  obtain ⟨nonNull, taken⟩ := taken
  cases call with
  | none =>
      obtain ⟨vec, elements, same⟩ := taken
      unfold Kept
      rw [vec, elements]
      exact Represents.frame kept same
  | some call =>
      obtain ⟨served, result, done, rfl⟩ := taken
      obtain ⟨result', done', right⟩ := kept.meets served (nonNull call rfl)
      rw [done, Option.some.injEq] at done'
      rw [← done'] at right
      exact right.represents

theorem kept_of_reachable {σ : VectorRun} (reachable : Reachable (Guarded nonNull step) Initial σ) : σ.Kept :=
  reachable.invariant Kept (fun _ => Initial.kept) fun _ _ _ => Kept.step

/-- **A read to a null pointer** clears the bytes there, which nobody has allocated. -/
theorem not_meets_null {σ : VectorRun} {call : VectorCall} (isNull : ¬ call.OutNonNull) :
    ¬ call.Meets σ.kernel σ.vec σ.elements := by
  have failed : ∀ index size, size ≠ 0 → ∀ result, vectorAtOut σ.kernel σ.vec index 0 size = result →
      result.vec = σ.vec ∧ ⟨0, min size (2 ^ 31)⟩ ∈ result.touched := by
    rintro index size some_ result rfl
    have cleared : vectorAtOut σ.kernel σ.vec index 0 size = vectorAtFails σ.kernel σ.vec einvarg 0 size := by
      unfold vectorAtOut
      rw [if_pos rfl]
      exact ite_self _
    rw [cleared]
    exact ⟨rfl, List.mem_singleton_self _⟩
  rintro ⟨result, done, right⟩
  have touched : ∀ index size, size ≠ 0 → vectorAtOut σ.kernel σ.vec index 0 size = result →
      call.buffers σ.vec.eSize = ∅ → call.temporary σ.kernel = ∅ → False := by
    intro index size some_ result' noBuffer noTemporary
    obtain ⟨same, member⟩ := failed index size some_ result result'
    have first : 0 ∈ (Area.mk 0 (min size (2 ^ 31))).bytes := ⟨le_rfl, by
      show 0 < 0 + min size (2 ^ 31)
      omega⟩
    rcases right.inside _ member first with (inBlock | inBuffer) | inTemporary
    · rw [same] at inBlock
      exact Vector.null_outside _ inBlock
    · rw [noBuffer] at inBuffer
      exact inBuffer
    · rw [noTemporary] at inTemporary
      exact inTemporary
  cases call with
  | push elem => exact isNull trivial
  | pop => exact isNull trivial
  | overwrite index elem elemSize => exact isNull trivial
  | «at» index dataOut size =>
      obtain ⟨null, some_⟩ := not_or.mp isNull
      have null : dataOut = 0 := not_not.mp null
      subst null
      refine touched index size some_ (Option.some.inj done) ?_ rfl
      unfold VectorCall.buffers
      exact if_pos rfl
  | back dataOut size =>
      obtain ⟨null, some_⟩ := not_or.mp isNull
      have null : dataOut = 0 := not_not.mp null
      subst null
      refine touched _ size some_ (Option.some.inj done) ?_ rfl
      unfold VectorCall.buffers
      exact if_pos rfl
  | popElement memVal size => exact isNull trivial
  | count => exact isNull trivial

/-- **In every run, a call does what the operation of lists does exactly when it does not read to a null pointer.** -/
theorem vectorCall_iff (σ : VectorRun) (reachable : Reachable (Guarded nonNull step) Initial σ) (call : VectorCall)
    (served : call.Served σ.kernel σ.vec) : call.Meets σ.kernel σ.vec σ.elements ↔ call.OutNonNull := by
  have kept := kept_of_reachable reachable
  refine ⟨fun meets => ?_, kept.meets served⟩
  by_contra isNull
  exact not_meets_null isNull meets

/-! ### A new vector of words -/

/-- A vector of 8-byte elements in a kernel with eight free blocks. -/
def newWords : VectorRun where
  kernel := eightBlocks
  vec := vectorNew 8 4
  elements := []

theorem newWords_initial : newWords.Initial := ⟨8, 4, rfl, rfl⟩

/-- **The kernel heap gives a new vector its memory.** -/
theorem newWords_served : (VectorCall.push 0x9000).Served newWords.kernel newWords.vec := by
  have pointer : (kmalloc eightBlocks 40).1 = 0x100000 := by decide +kernel
  have kept : ∀ offset < 8, (kmalloc eightBlocks 40).2.mem (0x9000 + offset) = eightBlocks.mem (0x9000 + offset) := by
    decide +kernel
  refine ⟨by decide, by decide, by decide, Or.inr ⟨by decide, (kmalloc eightBlocks 40).1, (kmalloc eightBlocks 40).2,
    krealloc_null kernelHeap_eightBlocks 40, ?_, ?_, ?_, fun offset inside => ?_, ?_⟩⟩
  · rw [pointer]
    decide
  · rw [pointer]
    decide
  · rw [pointer]
    decide
  · exact absurd (show offset < 0 * 8 from inside) (by omega)
  · rintro a ⟨low, high⟩
    have high : a < 0x9000 + 8 := high
    rw [pointer]
    refine ⟨?_, fun inNew => ?_⟩
    · have same := kept (a - 0x9000) (by omega)
      rwa [Nat.add_sub_cancel' low] at same
    · have above : 0x100000 ≤ a := inNew.1
      omega

/-- Its first element is pushed. -/
theorem newWords_push : (VectorCall.push 0x9000).Meets newWords.kernel newWords.vec newWords.elements :=
  (vectorCall_iff newWords (.start newWords_initial) _ newWords_served).mpr trivial

/-- **Reading an element to a null pointer** is refused, and clears the bytes from address zero on. -/
theorem vectorAt_null : ¬ ∀ σ, Reachable step Initial σ → ∀ call, VectorCall.Served σ.kernel σ.vec call →
    call.Meets σ.kernel σ.vec σ.elements := by
  intro always
  have served : (VectorCall.at 0 0 8).Served newWords.kernel newWords.vec := ⟨by decide, fun nonnull => absurd rfl nonnull⟩
  have isNull : ¬ (VectorCall.at 0 0 8).OutNonNull := fun nonNull => nonNull.elim (fun nonnull => nonnull rfl) (by decide)
  exact not_meets_null isNull (always newWords (.start newWords_initial) _ served)

end VectorRun

end PeachOS
