/-
**The string that `copy_string_from_task` copies.**

The task's string goes to the buffer under the page tables of the task, and from there to the destination. Both copies are
`strncpy`, which takes the bytes before the terminator, but one less than there is room for.

* `strncpy_string` — what `strncpy` leaves at its destination, for any placement of bytes;
* `pagingMap_own` — the page tables are put back without a change to the destination;
* `copyStringFromTask_string` — **the destination has the task's string**, cut to the room there is.
-/

import PeachOS.Task.CopyString
import Mathlib.Data.List.GetD

namespace PeachOS

open ByteStore RadixTable
open SpanTable (Span)

/-! ### Strings in memory -/

/-- **A string lies at an address**: its bytes, none of them zero, and a terminator. -/
structure StringAt (mem : Memory) (a : Nat) (string : List Byte) : Prop where
  bytes : ∀ i ≤ string.length, mem (toWord (a + i : Nat)) = string.getD i 0x00#8
  nonzero : 0x00#8 ∉ string

/-- Within a string there is no terminator. -/
theorem getD_eq_zero_iff {string : List Byte} (nonzero : 0x00#8 ∉ string) {i : Nat} (inside : i ≤ string.length) :
    string.getD i 0x00#8 = 0x00#8 ↔ i = string.length := by
  constructor
  · intro zero
    by_contra different
    have below : i < string.length := lt_of_le_of_ne inside different
    rw [List.getD_eq_getElem _ _ below] at zero
    exact nonzero (zero ▸ List.getElem_mem below)
  · intro same
    rw [same, List.getD_eq_default _ _ le_rfl]

/-- The bytes of a string that is cut. -/
theorem getD_take {string : List Byte} {count i : Nat} (below : i < min string.length count) :
    (string.take count).getD i 0x00#8 = string.getD i 0x00#8 := by
  have inTake : i < (string.take count).length := by
    rw [List.length_take]
    omega
  rw [List.getD_eq_getElem _ _ inTake, List.getD_eq_getElem _ _ (by omega), List.getElem_take]

/-! ### `strncpy` -/

section Strncpy

variable {place : Memory → Nat → Option Nat} {mem : Memory} {dest src count : Nat} {string : List Byte}

/-- **Where a copy finds its bytes**: the destination is where it is, and the string can be read as long as only the
destination changes. -/
structure CopyPlaces (place : Memory → Nat → Option Nat) (mem : Memory) (dest src count : Nat) (string : List Byte) : Prop where
  lands : ∀ mem', SameOutside (Set.Ico dest (dest + count)) mem mem' → ∀ i < count,
    place mem' (toWord (dest + i : Nat)) = some (dest + i)
  reads : ∀ mem', SameOutside (Set.Ico dest (dest + count)) mem mem' → ∀ i ≤ string.length, i < count →
    ∃ a, place mem' (toWord (src + i : Nat)) = some a ∧ mem' a = string.getD i 0x00#8
  nonzero : 0x00#8 ∉ string

/-- **The loop of `strncpy`** copies the string up to its end, or as long as there is room. -/
theorem strncpyLoop_string (places : CopyPlaces place mem dest src count string) (fuel : Nat) : ∀ {i : Nat} {mem' : Memory},
    SameOutside (Set.Ico dest (dest + count)) mem mem' → i ≤ string.length → i + fuel < count →
    (∀ j < i, mem' (dest + j) = string.getD j 0x00#8) →
    ∃ mem'', strncpyLoop place dest src fuel i mem' = some (min string.length (i + fuel), mem'') ∧
      SameOutside (Set.Ico dest (dest + count)) mem mem'' ∧
      ∀ j < min string.length (i + fuel), mem'' (dest + j) = string.getD j 0x00#8 := by
  induction fuel with
  | zero =>
      intro i mem' same inside room copied
      rw [Nat.add_zero, min_eq_right inside]
      exact ⟨mem', rfl, same, copied⟩
  | succ fuel ih =>
      intro i mem' same inside room copied
      obtain ⟨a, isPlace, byte⟩ := places.reads mem' same i inside (by omega)
      rw [strncpyLoop, isPlace]
      dsimp only
      rw [byte]
      by_cases ended : string.getD i 0x00#8 = 0x00#8
      · have last := (getD_eq_zero_iff places.nonzero inside).mp ended
        rw [if_pos ended, last, min_eq_left (by omega)]
        exact ⟨mem', rfl, same, last ▸ copied⟩
      · have below : i < string.length := lt_of_le_of_ne inside fun last =>
          ended ((getD_eq_zero_iff places.nonzero inside).mpr last)
        rw [if_neg ended, places.lands mem' same i (by omega)]
        dsimp only
        have target : dest + i ∈ Set.Ico dest (dest + count) := ⟨Nat.le_add_right _ _, by omega⟩
        have next := @ih (i + 1) (put mem' (dest + i) (string.getD i 0x00#8)) (same.put target _) below (by omega)
          fun j before => by
            rcases Nat.lt_succ_iff_lt_or_eq.mp before with earlier | rfl
            · rw [put_other mem' (by omega) _]
              exact copied j earlier
            · exact put_same _ _ _
        rw [show i + (fuel + 1) = i + 1 + fuel by omega]
        exact next

/-- **`strncpy` leaves the string**, cut to the room there is. -/
theorem strncpy_string (places : CopyPlaces place mem dest src count string) (room : 0 < count) (fits : dest + count ≤ 2 ^ 64) :
    ∃ mem', strncpy place mem dest src count = some mem' ∧ SameOutside (Set.Ico dest (dest + count)) mem mem' ∧
      StringAt mem' dest (string.take (count - 1)) := by
  obtain ⟨mem', loop, same, copied⟩ := @strncpyLoop_string place mem dest src count string places (count - 1) 0 mem
    (fun _ _ => rfl) (Nat.zero_le _) (by omega) fun j before => absurd before (Nat.not_lt_zero j)
  rw [Nat.zero_add] at loop copied
  have turns : ((count : Int) - 1).toNat = count - 1 := by omega
  have below : min string.length (count - 1) < count := by omega
  have length : (string.take (count - 1)).length = min string.length (count - 1) := by
    rw [List.length_take, Nat.min_comm]
  refine ⟨put mem' (dest + min string.length (count - 1)) 0x00#8, ?_,
    same.put ⟨Nat.le_add_right _ _, Nat.add_lt_add_left below _⟩ _, fun i inside => ?_, fun isIn => ?_⟩
  · unfold strncpy
    rw [turns, loop]
    dsimp only
    rw [places.lands mem' same _ below]
    rfl
  · rw [length] at inside
    rw [toWord_natCast (by omega)]
    rcases Nat.lt_or_eq_of_le inside with before | rfl
    · rw [put_other mem' (by omega) _, copied i before, getD_take before]
    · rw [put_same, List.getD_eq_default _ _ length.le]
  · exact places.nonzero (List.mem_of_mem_take isIn)

end Strncpy

/-! ### Putting the page back -/

section Leaf

variable {k : Kernel} {ledger : Ledger (Option (List Nat))} {desc : PagingDesc} {virt : Nat}

/-- Mapping a page that has a leaf writes the leaf. -/
theorem pagingMap_of_leaf (leaf_ : pageEntry k.mem desc virt ≠ 0) (phys : Nat) (flags : BitVec 32) :
    ∃ table, walk tableChild (tableRead k.mem) desc.pml (pagePath virt) = some table ∧
      (pagingMap k desc virt phys flags).2.mem = setEntryAt k.mem (table + sizeofPagingDescEntry * tableIndex virt 0)
        (leafSet (tableRead k.mem table (tableIndex virt 0)) phys flags) := by
  unfold pageEntry leaf pagePath at leaf_
  unfold pagePath pagingMap
  simp only [RadixTable.walk, tableChild, tableRead] at leaf_ ⊢
  by_cases root : entryAt k.mem (desc.pml + sizeofPagingDescEntry * tableIndex virt 3) = 0
  · exact absurd (by simp only [root, if_true]) leaf_
  simp only [root, if_false] at leaf_ ⊢
  by_cases pdpt : entryAt k.mem (entryAddress (entryAt k.mem (desc.pml + sizeofPagingDescEntry * tableIndex virt 3)) *
      2 ^ 12 + sizeofPagingDescEntry * tableIndex virt 2) = 0
  · exact absurd (by simp only [pdpt, if_true]) leaf_
  simp only [pdpt, if_false] at leaf_ ⊢
  by_cases pd : entryAt k.mem (entryAddress (entryAt k.mem (entryAddress (entryAt k.mem (desc.pml + sizeofPagingDescEntry *
      tableIndex virt 3)) * 2 ^ 12 + sizeofPagingDescEntry * tableIndex virt 2)) * 2 ^ 12 + sizeofPagingDescEntry *
      tableIndex virt 1) = 0
  · exact absurd (by simp only [pd, if_true]) leaf_
  simp only [pd, if_false, pagingTable_of_entry root, pagingTable_of_entry pdpt, pagingTable_of_entry pd]
  exact ⟨_, rfl, rfl⟩

/-- **A byte that no table lies in is kept** when the leaf of a page is set. -/
theorem pagingMap_own (task : TaskTables k ledger desc) (leaf_ : pageEntry k.mem desc virt ≠ 0) (phys : Nat)
    (flags : BitVec 32) {a : Nat} (own : OwnByte k ledger a) : (pagingMap k desc virt phys flags).2.mem a = k.mem a := by
  obtain ⟨table, walks, mem⟩ := pagingMap_of_leaf leaf_ phys flags
  obtain ⟨chain, held, rfl⟩ := task.tables.tree.walk_root (le_refl 3) (pagePath_digits virt) walks
  rw [mem]
  have inside := entry_inside task.heap held.1 (tableIndex_lt virt 0)
  have outside : a < k.address chain ∨ k.address chain + chain.len * peachosHeapBlockSize ≤ a := by
    obtain ⟨low, high⟩ := task.heap.bytes_in_heap held.1
    rcases own with ⟨outside, -⟩ | ⟨other, heldOther, insideOther⟩
    · omega
    · have different : chain ≠ other := by
        rintro rfl
        cases held.unique heldOther
      have apart := Set.disjoint_right.mp (KernelHeap.bytes_disjoint (k := k)
        (task.heap.disjoint held.1 heldOther.1 different)) insideOther
      unfold Kernel.bytes at apart
      rw [Set.mem_Ico, not_and_or, not_le, not_lt] at apart
      exact apart
  exact writeWord_outside (by simp only [sizeofPagingDescEntry] at inside ⊢; omega)

end Leaf

/-! ### The whole copy -/

theorem SameOutside.mono {bytes bytes' : Set Nat} {mem mem' : Memory} (same : SameOutside bytes mem mem')
    (more : bytes ⊆ bytes') :
    SameOutside bytes' mem mem' := fun a outside => same a fun inside => outside (more inside)

theorem SameOutside.trans {bytes : Set Nat} {mem mem' mem'' : Memory} (same : SameOutside bytes mem mem')
    (same' : SameOutside bytes mem' mem'') : SameOutside bytes mem mem'' := fun a outside =>
  (same' a outside).trans (same a outside)

/-- **A task's string**: what the task reads behind a pointer when the buffer of the copy is mapped. It is not in the buffer. -/
structure TaskString (k : Kernel) (desc : PagingDesc) (virtual count : Nat) (string : List Byte) : Prop where
  reads : ∀ i ≤ string.length, i < count →
    ∃ a, translate desc (copyBuffer k desc count).2.mem (toWord (virtual + i : Nat)) = some a ∧
    (copyBuffer k desc count).2.mem a = string.getD i 0x00#8 ∧
    a ∉ Set.Ico (copyBuffer k desc count).1 ((copyBuffer k desc count).1 + pagingPageSize)
  nonzero : 0x00#8 ∉ string

section Copy

variable {k mapped : Kernel} {ledger : Ledger (Option (List Nat))} {kernelDesc desc : PagingDesc} {chains : Set Span}
  {virtual phys count tmp : Nat} {string : List Byte}

/-- The first copy, to the buffer. -/
theorem Copying.toBuffer (copying : Copying k desc phys count ledger tmp mapped) (small : count < pagingPageSize)
    (nonzero : 0x00#8 ∉ string) (reads : ∀ i ≤ string.length, i < count → ∃ a,
      translate desc mapped.mem (toWord (virtual + i : Nat)) = some a ∧ mapped.mem a = string.getD i 0x00#8 ∧
        a ∉ Set.Ico tmp (tmp + pagingPageSize)) :
    CopyPlaces (translate desc) mapped.mem tmp virtual count string := by
  have within : Set.Ico tmp (tmp + count) ⊆ Set.Ico tmp (tmp + pagingPageSize) :=
    Set.Ico_subset_Ico_right (Nat.add_le_add_left small.le _)
  refine ⟨fun mem' same i inside => ?_, fun mem' same i inside below => ?_, nonzero⟩
  · obtain ⟨task, leaves⟩ := copying.tables.withMem copying.own (same.mono within)
    have buffer : BufferMapped mem' desc tmp := by
      unfold BufferMapped
      rw [leaves]
      exact copying.buffer
    have low := copying.low
    simp only [pagingPageSize] at small
    rw [toWord_natCast (by omega)]
    exact translate_buffer task buffer copying.aligned (by simp only [pagingPageSize]; omega)
  · obtain ⟨task, leaves⟩ := copying.tables.withMem copying.own (same.mono within)
    obtain ⟨a, isPlace, byte, outside⟩ := reads i inside below
    refine ⟨a, ?_, (same a fun inBuffer => outside (within inBuffer)).trans byte⟩
    have leaf_ : (pageWalk mem' desc (toWord (virtual + i : Nat))).getD 0 =
        (pageWalk mapped.mem desc (toWord (virtual + i : Nat))).getD 0 :=
      (task.getD_pageWalk _).trans ((leaves _).trans (copying.tables.getD_pageWalk _).symm)
    unfold translate at isPlace ⊢
    rw [leaf_]
    exact isPlace

/-- **The destination has the task's string**, cut to the room there is. -/
theorem copyStringFromTask_string (width : Nat) (ready : CopyReady k kernelDesc desc chains phys count) (room : 0 < count)
    (small : count < pagingPageSize) (fits : phys + count ≤ 2 ^ 64) (allocated : (kzalloc k (toWord count)).1 ≠ 0)
    (isString : TaskString k desc virtual count string) :
    ∃ k', copyStringFromTask width k kernelDesc desc virtual phys count = some (0, k') ∧
      StringAt k'.mem phys (string.take (count - 1)) := by
  obtain ⟨ledger, copying⟩ := ready.copying allocated
  have identity := ready.identity allocated
  have reads := isString.reads
  unfold copyStringFromTask
  unfold copyBuffer at copying reads
  rw [if_neg (not_le.mpr (by exact_mod_cast small))]
  dsimp only at copying reads ⊢
  rw [if_neg allocated, identity]
  generalize kzalloc k (toWord count) = tmp at *
  generalize pagingMap tmp.2 desc tmp.1 tmp.1 (pagingIsWriteable ||| pagingIsPresent ||| pagingAccessFromAll) = mapped at *
  have low := copying.low
  have few : count < 4096 := small
  -- To the buffer.
  obtain ⟨mem₁, copied₁, same₁, string₁⟩ := strncpy_string (copying.toBuffer small isString.nonzero reads) room
    (by omega)
  have length : (string.take (count - 1)).length < count := by
    rw [List.length_take]
    omega
  -- To the destination, which is not in the buffer.
  have places₂ : CopyPlaces (fun _ va => some va) mem₁ phys tmp.1 count (string.take (count - 1)) := by
    refine ⟨fun _ _ i inside => ?_, fun mem' same i inside below => ⟨toWord (tmp.1 + i : Nat), rfl, ?_⟩, string₁.nonzero⟩
    · rw [toWord_natCast (by omega)]
    · rw [same _ fun inDest => ?_, string₁.bytes i inside]
      have outside := (copying.destination (toWord (tmp.1 + i : Nat) - phys) (Or.inl (by have := inDest.2; omega))).2
      have here : phys + (toWord (tmp.1 + i : Nat) - phys) = toWord (tmp.1 + i : Nat) := Nat.add_sub_cancel' inDest.1
      have word := toWord_lt (tmp.1 + i : Nat)
      rw [here, toWord_natCast word, toWord_natCast (by omega)] at outside
      exact outside ⟨Nat.le_add_right _ _, by omega⟩
  obtain ⟨mem₂, copied₂, same₂, string₂⟩ := strncpy_string places₂ room fits
  rw [List.take_take, min_self] at string₂
  -- The page of the buffer is put back.
  have own₁ : Set.Ico tmp.1 (tmp.1 + count) ⊆ { a | OwnByte mapped.2 ledger a } := fun a inside =>
    copying.own a ⟨inside.1, by have := inside.2; omega⟩
  have own₂ : Set.Ico phys (phys + count) ⊆ { a | OwnByte mapped.2 ledger a } := by
    intro a inside
    have isOwn := (copying.destination (a - phys) (Or.inl (by have := inside.2; omega))).1
    rwa [Nat.add_sub_cancel' inside.1, toWord_natCast (by have := inside.2; omega)] at isOwn
  obtain ⟨task, leaves⟩ := copying.tables.withMem (fun _ isOwn => isOwn) ((same₁.mono own₁).trans (same₂.mono own₂))
  have leaf_ : pageEntry mem₂ desc tmp.1 ≠ 0 := by
    intro null
    have present := copying.buffer.1
    rw [← leaves tmp.1, null] at present
    cases present
  rw [copied₁]
  dsimp only
  rw [copied₂]
  refine ⟨_, rfl, fun i inside => ?_, string₂.nonzero⟩
  have isOwn := own₂ (show phys + i ∈ Set.Ico phys (phys + count) from ⟨Nat.le_add_right _ _, by omega⟩)
  rw [← string₂.bytes i inside, toWord_natCast (by omega)]
  exact pagingMap_own task leaf_ _ _ isOwn

end Copy

end PeachOS
