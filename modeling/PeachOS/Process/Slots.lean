/-
**The slots of a process.**

The vector of a process holds a slot for each allocation it has recorded. `slotAt` is the slot at an index,
read from memory, and `slotTable` the list of them. For a vector that fits its memory (`Slotted`), the loops of
`task/process.c` over the slots are operations on that list:

* `processGetAllocationByStartAddr_eq` — the first slot of an address;
* `processFindFreeAllocationIndexLoop_spec` — the first free slot, or none;
* `processAllocationUnjoin_forgets` — every slot of an address is cleared and can be used again, the others are kept.
-/

import PeachOS.Process.Model

namespace PeachOS

open ByteStore

/-! ### A slot in memory -/

/-- **The slot at an index.** -/
def slotAt (mem : Memory) (vec : Vector) (i : Nat) : ProcessAllocation :=
  .decode (window mem (vec.memory + sizeofProcessAllocation * i) sizeofProcessAllocation)

/-- **The table of a process**: its slots in their order. -/
def slotTable (mem : Memory) (vec : Vector) : List ProcessAllocation := (List.range vec.tElems).map (slotAt mem vec)

/-- A free slot. -/
def ProcessAllocation.null : ProcessAllocation := ⟨0, 0, 0⟩

/-- A table without the slots of an address. -/
def forget (ptr : Nat) (table : List ProcessAllocation) : List ProcessAllocation :=
  table.map fun slot => if slot.ptr = ptr then .null else slot

/-- Other addresses are still found. -/
theorem find?_forget {ptr addr : Nat} (other : addr ≠ ptr) (notNull : addr ≠ 0) (table : List ProcessAllocation) :
    (forget ptr table).find? (·.ptr = addr) = table.find? (·.ptr = addr) := by
  induction table with
  | nil => rfl
  | cons slot table ih =>
      rw [forget, List.map_cons, List.find?_cons, List.find?_cons, ← ih]
      by_cases own : slot.ptr = ptr
      · have cleared : decide (ProcessAllocation.null.ptr = addr) = false := decide_eq_false notNull.symm
        rw [if_pos own, own, decide_eq_false other.symm, cleared]
        rfl
      · rw [if_neg own]
        rfl

/-- The fields are words. -/
structure ProcessAllocation.Words (allocation : ProcessAllocation) : Prop where
  ptr : allocation.ptr < 2 ^ 64
  endPtr : allocation.endPtr < 2 ^ 64
  size : allocation.size < 2 ^ 64

/-- **A vector of slots** that fits its memory. -/
structure Slotted (vec : Vector) : Prop where
  eSize : vec.eSize = sizeofProcessAllocation
  reserved : vec.tReservedElements = 10
  room : vec.tElems ≤ vec.tmElems
  fits : vec.memory + sizeofProcessAllocation * vec.tmElems ≤ 2 ^ 48

/-- A slot written. -/
def Kernel.writeSlot (k : Kernel) (vec : Vector) (i : Nat) (allocation : ProcessAllocation) : Kernel :=
  { k with mem := blit k.mem (vec.memory + sizeofProcessAllocation * i) allocation.encode }

section Slots

variable {mem mem' : Memory} {k : Kernel} {vec : Vector} {allocation : ProcessAllocation} {i j : Nat}

theorem ProcessAllocation.Words.null : ProcessAllocation.null.Words := ⟨by decide, by decide, by decide⟩

@[simp] theorem ProcessAllocation.length_encode (allocation : ProcessAllocation) :
    allocation.encode.length = sizeofProcessAllocation := by
  simp [ProcessAllocation.encode]

/-- What is written is read back. -/
theorem ProcessAllocation.decode_encode (words : allocation.Words) : decode allocation.encode = allocation := by
  have bytes : (256 : Nat) ^ 8 = 2 ^ 64 := by norm_num
  obtain ⟨ptr, endPtr, size⟩ := allocation
  have ptrWord : decodeWord (encodeWord 8 ptr) = ptr := decodeWord_encodeWord (by rw [bytes]; exact words.ptr)
  have endWord : decodeWord (encodeWord 8 endPtr) = endPtr :=
    decodeWord_encodeWord (by rw [bytes]; exact words.endPtr)
  have sizeWord : decodeWord (encodeWord 8 size) = size := decodeWord_encodeWord (by rw [bytes]; exact words.size)
  unfold decode encode
  simp only [List.append_assoc, List.take_left', List.drop_left', length_encodeWord]
  rw [show (16 : Nat) = 8 + 8 by rfl, ← List.drop_drop, List.drop_left' (length_encodeWord 8 ptr),
    List.drop_left' (length_encodeWord 8 endPtr), List.take_of_length_le (length_encodeWord 8 size).le]
  rw [ptrWord, endWord, sizeWord]

theorem slotAt_congr (same : ∀ offset < sizeofProcessAllocation,
    mem' (vec.memory + sizeofProcessAllocation * i + offset) =
      mem (vec.memory + sizeofProcessAllocation * i + offset)) : slotAt mem' vec i = slotAt mem vec i := by
  unfold slotAt
  rw [window_congr same]

theorem slotAt_writeSlot_same (words : allocation.Words) :
    slotAt (k.writeSlot vec i allocation).mem vec i = allocation := by
  have written := window_blit allocation.encode k.mem (vec.memory + sizeofProcessAllocation * i)
  rw [ProcessAllocation.length_encode] at written
  unfold slotAt Kernel.writeSlot
  rw [written, ProcessAllocation.decode_encode words]

theorem slotAt_writeSlot_other (different : j ≠ i) :
    slotAt (k.writeSlot vec i allocation).mem vec j = slotAt k.mem vec j := by
  refine slotAt_congr fun offset below => blit_outside _ _ ?_
  rw [ProcessAllocation.length_encode]
  simp only [sizeofProcessAllocation] at below ⊢
  omega

/-- The slots after one of them is written. -/
theorem slotAt_writeSlot (words : allocation.Words) :
    slotAt (k.writeSlot vec i allocation).mem vec j = if j = i then allocation else slotAt k.mem vec j := by
  by_cases same : j = i
  · rw [if_pos same, same, slotAt_writeSlot_same words]
  · rw [if_neg same, slotAt_writeSlot_other same]

end Slots

/-! ### Reading and writing slots -/

section Access

variable {mem : Memory} {process : Process} {i : Nat} (slotted : Slotted process.allocations)

include slotted

theorem vectorMemoryAtIndex_eq (below : i < process.allocations.tmElems) :
    vectorMemoryAtIndex process.allocations i = process.allocations.memory + sizeofProcessAllocation * i := by
  have fits := slotted.fits
  unfold vectorMemoryAtIndex toWord
  rw [slotted.eSize]
  simp only [sizeofProcessAllocation] at fits ⊢
  omega

/-- `vector_at` finds the slot. -/
theorem processAllocationAt_eq (below : i < process.allocations.tElems) :
    processAllocationAt mem process i = (0, slotAt mem process.allocations i) := by
  unfold processAllocationAt vectorAt vectorValidBounds
  rw [vectorMemoryAtIndex_eq slotted (below.trans_le slotted.room), slotted.eSize,
    show sizeofProcessAllocation % 2 ^ 32 = sizeofProcessAllocation from rfl]
  simp [below, slotAt]

/-- `vector_overwrite` writes the slot that the index is as a word, if there is one. -/
theorem vectorOverwrite_eq (k : Kernel) (index : Int) (allocation : ProcessAllocation) :
    (vectorOverwrite k process.allocations index allocation.encode).2 =
      if toWord index < process.allocations.tElems then
        k.writeSlot process.allocations (toWord index) allocation
      else k := by
  have whole : allocation.encode.take (sizeofProcessAllocation % 2 ^ 32) = allocation.encode :=
    List.take_of_length_le (by rw [ProcessAllocation.length_encode]; decide)
  unfold vectorOverwrite vectorValidBounds
  rw [slotted.eSize]
  by_cases below : toWord index < process.allocations.tElems
  · rw [vectorMemoryAtIndex_eq slotted (below.trans_le slotted.room), whole]
    simp [below, Kernel.writeSlot]
  · simp only [below, if_false]
    rfl

/-! ### Searching -/

/-- The loop of the search for an address, from a slot on. -/
theorem processGetAllocationByStartAddrLoop_eq {addr fuel : Nat} (ends : i + fuel = process.allocations.tElems) :
    processGetAllocationByStartAddrLoop mem process addr fuel i =
      ((List.range' i fuel).map (slotAt mem process.allocations)).find? (·.ptr = addr) := by
  induction fuel generalizing i with
  | zero => rfl
  | succ fuel ih =>
      have at_ : processAllocationAt mem process i = (0, slotAt mem process.allocations i) :=
        processAllocationAt_eq slotted (by omega)
      rw [processGetAllocationByStartAddrLoop, List.range'_succ, List.map_cons, List.find?_cons, ih (by omega)]
      simp only [at_, lt_irrefl, if_false]
      by_cases here : (slotAt mem process.allocations i).ptr = addr
      · rw [if_pos here, decide_eq_true here]
      · rw [if_neg here, decide_eq_false here]

/-- **`process_get_allocation_by_start_addr`** finds the first slot of the address. -/
theorem processGetAllocationByStartAddr_eq (addr : Nat) : processGetAllocationByStartAddr mem process addr =
    (slotTable mem process.allocations).find? (·.ptr = addr) := by
  rw [slotTable, List.range_eq_range']
  exact processGetAllocationByStartAddrLoop_eq slotted (Nat.zero_add _)

/-- **The search for a free slot** stops at one, if there is one from a slot on. -/
theorem processFindFreeAllocationIndexLoop_spec {fuel j : Nat} {res : Int} (ends : i + fuel = process.allocations.tElems)
    (later : i ≤ j) (below : j < process.allocations.tElems) (free : (slotAt mem process.allocations j).ptr = 0) :
    ∃ first ≤ j, (slotAt mem process.allocations first).ptr = 0 ∧
      processFindFreeAllocationIndexLoop mem process fuel i res = (toInt32 first, true) := by
  induction fuel generalizing i res with
  | zero => omega
  | succ fuel ih =>
      have at_ : processAllocationAt mem process i = (0, slotAt mem process.allocations i) :=
        processAllocationAt_eq slotted (by omega)
      rw [processFindFreeAllocationIndexLoop]
      simp only [at_, lt_irrefl, if_false]
      by_cases here : (slotAt mem process.allocations i).ptr = 0
      · rw [if_pos here]
        exact ⟨i, later, here, rfl⟩
      · rw [if_neg here]
        refine ih (by omega) (Nat.lt_of_le_of_ne later ?_)
        rintro rfl
        exact here free

end Access

/-! ### Clearing -/

/-- The kernel with other bytes in the memory of the slots. -/
structure OnlySlots (k : Kernel) (vec : Vector) (k' : Kernel) : Prop where
  rest : k' = { k with mem := k'.mem }
  bytes : ∀ a, (a < vec.memory ∨ vec.memory + sizeofProcessAllocation * vec.tElems ≤ a) → k'.mem a = k.mem a

section Clear

variable {k k' : Kernel} {vec : Vector}

theorem OnlySlots.refl (k : Kernel) (vec : Vector) : OnlySlots k vec k := ⟨rfl, fun _ _ => rfl⟩

/-- A slot overwritten. -/
theorem OnlySlots.write (only : OnlySlots k vec k') {i : Nat} (below : i < vec.tElems)
    (allocation : ProcessAllocation) : OnlySlots k vec (k'.writeSlot vec i allocation) where
  rest := by
    unfold Kernel.writeSlot
    rw [only.rest]
  bytes := fun a outside => by
    have elsewhere : a < vec.memory + sizeofProcessAllocation * i ∨
        vec.memory + sizeofProcessAllocation * i + allocation.encode.length ≤ a := by
      rw [ProcessAllocation.length_encode]
      simp only [sizeofProcessAllocation] at outside ⊢
      omega
    exact (blit_outside _ _ elsewhere).trans (only.bytes a outside)

variable {process : Process} (slotted : Slotted process.allocations) {ptr : Nat}

include slotted

/-- One step of the loop: the slot that the index is as an `int` is cleared, if the address is found. -/
theorem processAllocationUnjoinLoop_step {fuel i : Nat} (below : i < process.allocations.tElems) (k : Kernel) :
    processAllocationUnjoinLoop process ptr (fuel + 1) i k =
      processAllocationUnjoinLoop process ptr fuel (i + 1)
        (if (slotAt k.mem process.allocations i).ptr = ptr ∧ toWord (toInt32 i) < process.allocations.tElems then
          k.writeSlot process.allocations (toWord (toInt32 i)) .null
        else k) := by
  rw [processAllocationUnjoinLoop, processAllocationAt_eq slotted below]
  simp only [lt_irrefl, if_false]
  by_cases here : (slotAt k.mem process.allocations i).ptr = ptr
  · have written := vectorOverwrite_eq slotted k (toInt32 i) .null
    rw [if_pos here]
    simp only [here, true_and]
    rw [← written]
    rfl
  · rw [if_neg here, if_neg fun found => here found.1]

/-- The loop writes slots only. -/
theorem processAllocationUnjoinLoop_only {fuel i : Nat} (ends : i + fuel = process.allocations.tElems)
    {k k' : Kernel} (only : OnlySlots k process.allocations k') :
    OnlySlots k process.allocations (processAllocationUnjoinLoop process ptr fuel i k') := by
  induction fuel generalizing i k' with
  | zero => exact only
  | succ fuel ih =>
      rw [processAllocationUnjoinLoop_step slotted (by omega)]
      split
      · rename_i found
        exact ih (by omega) (only.write found.2 .null)
      · exact ih (by omega) only

/-- In a vector whose indexes are `int`s, the slots from the index on are searched. -/
theorem processAllocationUnjoinLoop_spec {fuel i : Nat} (ends : i + fuel = process.allocations.tElems)
    (few : process.allocations.tElems ≤ 2 ^ 31) (k : Kernel) :
    ∀ j < process.allocations.tElems,
      slotAt (processAllocationUnjoinLoop process ptr fuel i k).mem process.allocations j =
        if i ≤ j ∧ (slotAt k.mem process.allocations j).ptr = ptr then .null
        else slotAt k.mem process.allocations j := by
  induction fuel generalizing i k with
  | zero =>
      intro j below
      rw [if_neg fun here => by omega]
      rfl
  | succ fuel ih =>
      intro j below
      have indexEq : toWord (toInt32 i) = i := by
        unfold toWord toInt32
        omega
      rw [processAllocationUnjoinLoop_step slotted (by omega), indexEq]
      by_cases here : (slotAt k.mem process.allocations i).ptr = ptr
      · rw [if_pos ⟨here, by omega⟩, ih (by omega) _ j below, slotAt_writeSlot .null]
        by_cases same : j = i
        · subst same
          rw [if_neg (fun later => by omega), if_pos rfl, if_pos ⟨le_rfl, here⟩]
        · simp only [same, if_false, show i + 1 ≤ j ↔ i ≤ j by omega]
      · rw [if_neg fun found => here found.1, ih (by omega) _ j below]
        by_cases same : j = i
        · subst same
          rw [if_neg (fun later => by omega), if_neg (fun found => here found.2)]
        · simp only [show i + 1 ≤ j ↔ i ≤ j by omega]

/-- **`process_allocation_unjoin`** clears every slot of the address and keeps the others. -/
theorem processAllocationUnjoin_spec (few : process.allocations.tElems ≤ 2 ^ 31) (k : Kernel) (ptr : Nat)
    {j : Nat} (below : j < process.allocations.tElems) :
    slotAt (processAllocationUnjoin k process ptr).mem process.allocations j =
      if (slotAt k.mem process.allocations j).ptr = ptr then .null else slotAt k.mem process.allocations j := by
  have slots : slotAt (processAllocationUnjoin k process ptr).mem process.allocations j = _ :=
    processAllocationUnjoinLoop_spec slotted (Nat.zero_add process.allocations.tElems) few k j below
  simp only [Nat.zero_le, true_and] at slots
  exact slots

/-- **What `process_allocation_unjoin` should do with an address.** -/
structure Forgets (k : Kernel) (process : Process) (ptr : Nat) (k' : Kernel) : Prop where
  only : OnlySlots k process.allocations k'
  table : slotTable k'.mem process.allocations = forget ptr (slotTable k.mem process.allocations)
  absent : processGetAllocationByStartAddr k'.mem process ptr = none
  others : ∀ addr ≠ 0, addr ≠ ptr →
    processGetAllocationByStartAddr k'.mem process addr = processGetAllocationByStartAddr k.mem process addr
  reused : ∀ j < process.allocations.tElems, (slotAt k.mem process.allocations j).ptr = ptr →
    ∃ first ≤ j, (slotAt k'.mem process.allocations first).ptr = 0 ∧
      processFindFreeAllocationIndex k' process = some ((first : Int), process, k')

/-- **An address is forgotten**, and its slots are the first to be looked at again. -/
theorem processAllocationUnjoin_forgets (few : process.allocations.tElems ≤ 2 ^ 31) (notNull : ptr ≠ 0) (k : Kernel) :
    Forgets k process ptr (processAllocationUnjoin k process ptr) := by
  have table : slotTable (processAllocationUnjoin k process ptr).mem process.allocations =
      forget ptr (slotTable k.mem process.allocations) := by
    simp only [slotTable, forget, List.map_map]
    refine List.map_congr_left fun j inside => ?_
    rw [processAllocationUnjoin_spec slotted few k ptr (List.mem_range.mp inside), Function.comp_apply]
  have only : OnlySlots k process.allocations (processAllocationUnjoin k process ptr) := by
    unfold processAllocationUnjoin
    exact processAllocationUnjoinLoop_only slotted (Nat.zero_add _) (.refl k _)
  refine ⟨only, table, ?_, fun addr some_ other => ?_, fun j below own => ?_⟩
  · rw [processGetAllocationByStartAddr_eq slotted, table, List.find?_eq_none]
    intro slot inside
    obtain ⟨before_, -, rfl⟩ := List.mem_map.mp inside
    split
    · exact fun same => notNull (of_decide_eq_true same).symm
    · rename_i other
      exact fun same => other (of_decide_eq_true same)
  · rw [processGetAllocationByStartAddr_eq slotted, table, find?_forget other some_,
      processGetAllocationByStartAddr_eq slotted]
  · have free : (slotAt (processAllocationUnjoin k process ptr).mem process.allocations j).ptr = 0 := by
      rw [processAllocationUnjoin_spec slotted few k ptr below, if_pos own]
      rfl
    obtain ⟨first, early, isFree, found⟩ := @processFindFreeAllocationIndexLoop_spec _ _ _ slotted _ _ 0
      (Nat.zero_add process.allocations.tElems) (Nat.zero_le j) below free
    refine ⟨first, early, isFree, ?_⟩
    have index : toInt32 first = first := by
      unfold toInt32
      omega
    unfold processFindFreeAllocationIndex
    rw [show processFindFreeAllocationIndexLoop _ _ (vectorCount process.allocations) 0 0 = _ from found, index]
    rfl

end Clear

/-- Three slots, two of them of one address. -/
def threeSlots : Kernel where
  mem := blit (fun _ => 0x00#8) 0x1000 (ProcessAllocation.encode ⟨0x100000, 0x100010, 16⟩ ++
    ProcessAllocation.encode ⟨0x101000, 0x101008, 8⟩ ++ ProcessAllocation.encode ⟨0x100000, 0x100020, 32⟩)
  heaps := fun _ => ⟨⟨0, 0⟩, 0, 0, 0, 0, 0, false, false⟩
  multiheap := ⟨.kernelMinimalHeap, [], 0, 0, 0⟩
  calls := []

/-- The address of two of them is forgotten. -/
theorem processAllocationUnjoin_forgets_shared :
    let process : Process := ⟨⟨0x1000, 24, 3, 3, 10⟩, ⟨0, 8, 0, 0, 4⟩, ⟨0, 4⟩⟩
    slotTable threeSlots.mem process.allocations =
        [⟨0x100000, 0x100010, 16⟩, ⟨0x101000, 0x101008, 8⟩, ⟨0x100000, 0x100020, 32⟩] ∧
      Forgets threeSlots process 0x100000 (processAllocationUnjoin threeSlots process 0x100000) :=
  ⟨by decide +kernel, processAllocationUnjoin_forgets ⟨rfl, rfl, by decide, by decide⟩ (by decide) (by decide) _⟩

end PeachOS
