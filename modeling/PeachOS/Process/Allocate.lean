/-
**`process_malloc` in the kernel heap.**

An allocation of a process is a chain of the kernel heap. Its pages are mapped into the page tables of the process, and it is
recorded in a slot. The slots lie in a chain of their own, which is exchanged for a larger one when they are too few. So a
call writes to the new chain, to the slots and to the page tables, and to nothing else.

* `vectorPush_slots` — a slot more, in the chain of the slots or in the one it is exchanged for;
* `processAllocationSetMap_spec` — mapping and recording an allocation;
* `processMalloc_spec` — **a call returns zero, or a chain of its own**, and everybody else's bytes are kept.
-/

import PeachOS.Paging.Identity
import PeachOS.Paging.Spare
import PeachOS.Process.Slots

namespace PeachOS

open ByteStore SpanTable

/-! ### Who holds a chain -/

/-- The holders of chains while allocations are made for a process: its page tables by their paths, its slots, and its
allocations by a number. -/
inductive AllocationHolder where
  | table (path : List Nat)
  | slots
  | allocation (i : Nat)
  | other
deriving DecidableEq

/-- Who may change during a call for an allocation. -/
def allocating (i : Nat) : Set AllocationHolder :=
  { who | who ≠ .other ∧ ∀ j, who = .allocation j → j = i }

theorem table_injective : Function.Injective AllocationHolder.table := fun _ _ same => AllocationHolder.table.inj same

/-- The same chains, by other names of their holders. -/
def Ledger.relabel {Holder Holder' : Type} (f : Holder → Holder') (ledger : Ledger Holder) : Ledger Holder' :=
  ⟨ledger.chains, fun start => (ledger.holder start).map f⟩

section Relabel

variable {Holder Holder' : Type} {f : Holder → Holder'} (injective : Function.Injective f) {k : Kernel}
  {ledger : Ledger Holder} {desc : PagingDesc}

include injective

theorem Ledger.holds_relabel {who : Holder} {chain : Span} :
    (ledger.relabel f).Holds (f who) chain ↔ ledger.Holds who chain := by
  refine and_congr_right fun _ => ?_
  show (ledger.holder chain.start).map f = some (f who) ↔ _
  rw [Option.map_eq_some_iff]
  constructor
  · rintro ⟨who', held, same⟩
    rw [held, injective same]
  · intro held
    exact ⟨who, held, rfl⟩

/-- Page tables under other names. -/
theorem PageTables.relabel {holder : List Nat → Holder} (tables : PageTables k ledger holder desc) :
    PageTables k (ledger.relabel f) (fun path => f (holder path)) desc := by
  have labels (path : List Nat) (table : Nat) :
      HeldTable k (ledger.relabel f) (fun path => f (holder path)) path table ↔ HeldTable k ledger holder path table :=
    exists_congr fun chain => and_congr_left fun _ => Ledger.holds_relabel injective
  exact ⟨tables.tree.congr labels fun _ _ _ _ _ => rfl, fun path table held => tables.links path table ((labels _ _).mp held)⟩

end Relabel

/-- The holder of a page table, or somebody else. -/
def AllocationHolder.ofTable : Option (List Nat) → AllocationHolder
  | some path => .table path
  | none => .other

theorem ofTable_injective : Function.Injective AllocationHolder.ofTable := by
  intro one two same
  cases one <;> cases two <;> cases same <;> rfl

/-- **Page tables in the kernel heap are held by their paths**, and its other chains by somebody else. -/
theorem TablesInHeap.allocationTables {k : Kernel} {desc : PagingDesc} {chains : Set Span} (tables : TablesInHeap k desc chains) :
    ∃ ledger : Ledger AllocationHolder, ledger.chains = chains ∧ PageTables k ledger .table desc ∧
      ∀ chain ∈ chains, (∀ path table, ReachedTable k.mem desc path table → table ≠ k.address chain) →
        ledger.Holds .other chain := by
  obtain ⟨ledger, live, pages, others⟩ := tables.pageTables
  exact ⟨ledger.relabel .ofTable, live, pages.relabel ofTable_injective, fun chain isChain other =>
    (Ledger.holds_relabel ofTable_injective).mpr (others chain isChain other)⟩

section Holders

variable {k k' : Kernel} {ledger ledger' : Ledger AllocationHolder} {process : Process}

/-- **The slots of a process**: they have no memory, or a chain with room for as many as the vector says. -/
structure SlotsHeld (k : Kernel) (ledger : Ledger AllocationHolder) (vec : Vector) : Prop where
  eSize : vec.eSize = sizeofProcessAllocation
  reserved : vec.tReservedElements = 10
  room : vec.tElems ≤ vec.tmElems
  memory : vec.memory = 0 ∧ vec.tmElems = 0 ∨ ∃ chain, ledger.Holds .slots chain ∧ vec.memory = k.address chain ∧
    sizeofProcessAllocation * vec.tmElems ≤ chain.len * peachosHeapBlockSize

/-- **A process that can be given memory**: its page tables and its slots are in the kernel heap, and its page tables map
that heap, as `paging_map_e820_memory_regions` leaves them. -/
structure ProcessHeap (k : Kernel) (ledger : Ledger AllocationHolder) (process : Process) : Prop where
  heap : KernelHeap k ledger.chains
  tables : PageTables k ledger .table process.pagingDesc
  leaves : ∀ va, k.minimal.saddr ≤ va → va < k.minimal.eaddr → pageEntry k.mem process.pagingDesc va ≠ 0
  slots : SlotsHeld k ledger process.allocations

/-- Somebody else's chains leave the slots as they are. -/
theorem SlotsHeld.frame {vec : Vector} (held : SlotsHeld k ledger vec) {mine : Set AllocationHolder}
    (frame : Frame mine k ledger k' ledger') (other : AllocationHolder.slots ∉ mine) : SlotsHeld k' ledger' vec := by
  refine ⟨held.eSize, held.reserved, held.room, held.memory.imp_right ?_⟩
  rintro ⟨chain, holds, address, fits⟩
  exact ⟨chain, (frame.holds _ other chain).mpr holds, address.trans frame.same.address.symm, fits⟩

/-- **Somebody else's chains leave the page tables as they are.** -/
theorem ProcessHeap.withSlots (state : ProcessHeap k ledger process) {mine : Set AllocationHolder}
    (frame : Frame mine k ledger k' ledger') (others : ∀ path, AllocationHolder.table path ∉ mine) {vec : Vector}
    (slots : SlotsHeld k' ledger' vec) : ProcessHeap k' ledger' { process with allocations := vec } := by
  obtain ⟨tables, same⟩ := state.tables.frame state.heap frame.same (fun path chain => frame.holds _ (others path) chain)
    fun path chain held => frame.keeps _ (others path) chain held
  refine ⟨frame.heap, tables, fun va low high => ?_, slots⟩
  have geometry := frame.same.geometry
  have eaddr : k'.minimal.eaddr = k.minimal.eaddr := by rw [geometry]
  rw [geometry.saddr] at low
  rw [eaddr] at high
  rw [same]
  exact state.leaves va low high

theorem ProcessHeap.frame (state : ProcessHeap k ledger process) {mine : Set AllocationHolder}
    (frame : Frame mine k ledger k' ledger') (tables : ∀ path, AllocationHolder.table path ∉ mine)
    (slots : AllocationHolder.slots ∉ mine) : ProcessHeap k' ledger' process :=
  state.withSlots frame tables (state.slots.frame frame slots)

/-- **A write inside a chain** is seen by its holder only. -/
theorem Frame.of_write {who : AllocationHolder} {chain : Span} (heap : KernelHeap k ledger.chains)
    (held : ledger.Holds who chain) {mem : Memory} (same : ∀ a, a ∉ k.bytes chain → mem a = k.mem a) :
    Frame {who} k ledger { k with mem := mem } ledger :=
  .of_grown (Grown.of_write heap held (Set.mem_singleton who) same)

end Holders

/-! ### One slot more -/

section Slots

variable {k : Kernel} {ledger : Ledger AllocationHolder} {process : Process}

/-- **The slots can be given more memory**: the chain that holds them is clean, and exchanging it stays in the table of the
heap. -/
def SlotsGrow (k : Kernel) (vec : Vector) : Prop :=
  vec.tmElems ≤ vec.tElems + 1 → ∀ chains, KernelHeap k chains → ∀ chain ∈ chains, vec.memory = k.address chain →
    Clean k.minimalState.view k.minimal.table.total chain ∧
      StaysInTable k.minimalState.view k.minimal.table.total chain (heapBlocks (sizeofProcessAllocation * (vec.tElems + 11)))

/-- Slots that have no memory yet can be given some. -/
theorem slotsGrow_null (k : Kernel) {vec : Vector} (null : vec.memory = 0) : SlotsGrow k vec := fun _ _ heap chain _ same =>
  absurd (same.symm.trans null) (heap.address_pos chain).ne'

/-- A write to the slot at an index is a write to the slots. -/
theorem blit_slot {vec : Vector} {chain : Span} (heap : KernelHeap k ledger.chains) (held : ledger.Holds .slots chain)
    (eSize : vec.eSize = sizeofProcessAllocation) (address : vec.memory = k.address chain)
    (fits : sizeofProcessAllocation * vec.tmElems ≤ chain.len * peachosHeapBlockSize) {index : Nat} (below : index < vec.tmElems)
    {elem : List Byte} (length : elem.length = sizeofProcessAllocation) :
    Frame {.slots} k ledger { k with mem := blit k.mem (vectorMemoryAtIndex vec index) (elem.take (vec.eSize % 2 ^ 32)) }
      ledger := by
  obtain ⟨-, high⟩ := heap.bytes_in_heap held.1
  have physical := heap.physical
  have place : vectorMemoryAtIndex vec index = k.address chain + sizeofProcessAllocation * index := by
    unfold vectorMemoryAtIndex
    rw [eSize, address]
    simp only [sizeofProcessAllocation] at fits ⊢
    have word := @toWord_natCast (k.address chain + 24 * index) (by omega)
    push_cast at word ⊢
    exact word
  refine Frame.of_write heap held fun a outside => blit_outside _ _ ?_
  rw [place, eSize, List.take_of_length_le (by rw [length]; decide), length]
  unfold Kernel.bytes at outside
  rw [Set.mem_Ico, not_and_or, not_le, not_lt] at outside
  simp only [sizeofProcessAllocation] at fits ⊢
  omega

/-- **`vector_resize` for one slot**: it fails, or the slots have a chain with room for one more. -/
theorem vectorResize_slots (state : ProcessHeap k ledger process) (grows : SlotsGrow k process.allocations) :
    ∃ res vec k', vectorResize k process.allocations 1 = some (res, vec, k') ∧
      (res < 0 ∨ res = 0 ∧ vec.tElems = process.allocations.tElems ∧ vec.tElems + 1 ≤ vec.tmElems ∧
        ∃ ledger', Frame {.slots} k ledger k' ledger' ∧ SlotsHeld k' ledger' vec ∧ vec.memory ≠ 0) := by
  obtain ⟨heap, -, -, eSize, reserved, room, memory⟩ := state
  obtain ⟨vec, fileHandles, pagingDesc⟩ := process
  simp only at eSize reserved room memory grows ⊢
  have few : sizeofProcessAllocation * vec.tmElems ≤ 2 ^ 48 := by
    rcases memory with ⟨-, none⟩ | ⟨chain, held, -, fits⟩
    · rw [none]
      decide
    · have high := (heap.bytes_in_heap held.1).2
      have physical := heap.physical
      omega
  simp only [sizeofProcessAllocation] at few eSize
  have required : toWord ((vec.tElems : Int) + ((1 : Nat) : Int)) = vec.tElems + 1 := by
    exact_mod_cast toWord_natCast (show vec.tElems + 1 < 2 ^ 64 by omega)
  have final : toWord ((vec.tReservedElements : Int) + ((vec.tElems + 1 : Nat) : Int)) = vec.tElems + 11 := by
    rw [reserved, toWord_of_bounds (by omega) (by omega)]
    omega
  have bytes : toWord (((vec.tElems + 11 : Nat) : Int) * (vec.eSize : Int)) = sizeofProcessAllocation * (vec.tElems + 11) := by
    rw [eSize, toWord_of_bounds (by omega) (by omega)]
    simp only [sizeofProcessAllocation]
    omega
  unfold vectorResize
  simp only [required]
  by_cases enough : vec.tmElems > vec.tElems + 1
  · rw [if_pos enough]
    refine ⟨0, vec, k, rfl, Or.inr ⟨rfl, rfl, by omega, ledger, .refl heap, ⟨eSize, reserved, room, memory⟩, ?_⟩⟩
    rcases memory with ⟨-, none⟩ | ⟨chain, -, address, -⟩
    · omega
    · rw [address]
      exact (heap.address_pos chain).ne'
  · rw [if_neg enough]
    simp only [final, bytes]
    have some_ : 0 < heapBlocks (sizeofProcessAllocation * (vec.tElems + 11)) := by
      rw [heapBlocks_eq (by simp only [sizeofProcessAllocation]; omega)]
      simp only [sizeofProcessAllocation]
      omega
    have word : sizeofProcessAllocation * (vec.tElems + 11) < 2 ^ 64 := by
      simp only [sizeofProcessAllocation]
      omega
    have covers := le_heapBlocks_mul word some_
    rcases memory with ⟨null, -⟩ | ⟨chain, held, address, fits⟩
    · rw [null, krealloc_null heap]
      rcases kmalloc_cases heap (sizeofProcessAllocation * (vec.tElems + 11)) with failed | ⟨start, granted⟩
      · rw [failed]
        exact ⟨enomem, _, k, rfl, Or.inl (by decide)⟩
      · generalize kmalloc k (sizeofProcessAllocation * (vec.tElems + 11)) = result at granted ⊢
        have pointer := granted.pointer.trans granted.same.address.symm
        have nonnull : result.1 ≠ 0 := by
          rw [granted.pointer]
          exact (heap.address_pos _).ne'
        dsimp only
        rw [if_neg nonnull]
        refine ⟨0, _, result.2, rfl, Or.inr ⟨rfl, rfl, ?_, _, .of_grown (.of_granted heap granted (Set.mem_singleton _)), ?_,
          nonnull⟩⟩
        · show vec.tElems + 1 ≤ vec.tElems + 11
          omega
        · refine ⟨eSize, reserved, ?_, Or.inr ⟨_, Ledger.holds_grant _ _, pointer, covers⟩⟩
          show vec.tElems ≤ vec.tElems + 11
          omega
    · obtain ⟨clean, stays⟩ := grows (by omega) _ heap chain held.1 address
      obtain ⟨result, returned, regranted⟩ := krealloc_clean heap held.1 clean word some_ stays
      rw [address, returned]
      cases regranted with
      | failed same =>
          rw [same]
          exact ⟨enomem, _, k, rfl, Or.inl (by decide)⟩
      | granted start pointer same heap' apart kept contents place =>
          have nonnull : result.1 ≠ 0 := by
            rw [pointer]
            exact (heap.address_pos _).ne'
          dsimp only
          rw [if_neg nonnull]
          refine ⟨0, _, result.2, rfl, Or.inr ⟨rfl, rfl, ?_, _,
            .of_regranted heap held (Set.mem_singleton _) same heap' kept apart, ?_, nonnull⟩⟩
          · show vec.tElems + 1 ≤ vec.tElems + 11
            omega
          · refine ⟨eSize, reserved, ?_, Or.inr ⟨_, ⟨Set.mem_insert _ _, Function.update_self _ _ _⟩,
              pointer.trans same.address.symm, covers⟩⟩
            show vec.tElems ≤ vec.tElems + 11
            omega

/-- **`vector_push` of a slot**: it fails, or the slots are one more. -/
theorem vectorPush_slots (state : ProcessHeap k ledger process) (grows : SlotsGrow k process.allocations)
    (allocation : ProcessAllocation) :
    ∃ res vec k', vectorPush k process.allocations allocation.encode = some (res, vec, k') ∧
      (res < 0 ∨ ∃ ledger', Frame {.slots} k ledger k' ledger' ∧ SlotsHeld k' ledger' vec) := by
  obtain ⟨res, vec, k', resized, outcome⟩ := vectorResize_slots state grows
  unfold vectorPush
  rw [resized]
  dsimp only
  rcases outcome with failed | ⟨rfl, -, room, ledger', frame, slots, nonnull⟩
  · rw [if_pos failed]
    exact ⟨res, vec, k', rfl, Or.inl failed⟩
  · rw [if_neg (lt_irrefl _)]
    obtain ⟨chain, held, address, fits⟩ := slots.memory.resolve_left fun none => nonnull none.1
    have written := blit_slot frame.heap held slots.eSize address fits (show vec.tElems < vec.tmElems by omega)
      (ProcessAllocation.length_encode allocation)
    refine ⟨_, _, _, rfl, Or.inr ⟨ledger', frame.trans written, slots.eSize, slots.reserved, ?_,
      Or.inr ⟨chain, held, address, fits⟩⟩⟩
    have next : toWord ((vec.tElems : Int) + 1) ≤ vec.tElems + 1 := by
      unfold toWord
      omega
    exact next.trans room

/-- **`process_find_free_allocation_index`**: no index, or the slots and everything else as before, up to a slot more. -/
theorem processFindFreeAllocationIndex_spec (state : ProcessHeap k ledger process)
    (grows : SlotsGrow k process.allocations) :
    ∃ index process' k', processFindFreeAllocationIndex k process = some (index, process', k') ∧
      process'.pagingDesc = process.pagingDesc ∧
      (index < 0 ∨ ∃ ledger', Frame {.slots} k ledger k' ledger' ∧ ProcessHeap k' ledger' process') := by
  unfold processFindFreeAllocationIndex
  dsimp only
  by_cases found : (processFindFreeAllocationIndexLoop k.mem process (vectorCount process.allocations) 0 0).2 = true
  · rw [if_pos found]
    exact ⟨_, process, k, rfl, rfl, Or.inr ⟨ledger, .refl state.heap, state⟩⟩
  · rw [if_neg found]
    obtain ⟨res, vec, k', pushed, outcome⟩ := vectorPush_slots state grows ⟨0, 0, 0⟩
    rw [pushed]
    refine ⟨res, { process with allocations := vec }, k', rfl, rfl, outcome.imp_right ?_⟩
    rintro ⟨ledger', frame, slots⟩
    exact ⟨ledger', frame, state.withSlots frame (fun path isSlots => by cases isSlots) slots⟩

end Slots

/-! ### Mapping an allocation -/

section Map

variable {k : Kernel} {ledger : Ledger AllocationHolder} {process : Process} {who : AllocationHolder} {chain : Span}
  {size : Nat}

/-- The leaf of a page is the same for all addresses in it. -/
theorem pageEntry_page {mem : Memory} {desc : PagingDesc} {va va' : Nat} (samePage : pageNumber va = pageNumber va') :
    pageEntry mem desc va = pageEntry mem desc va' := by
  obtain ⟨samePath, sameDigit⟩ := (pageNumber_eq_iff _ _).mp samePage
  unfold pageEntry
  rw [samePath, sameDigit]

/-- The leaf of a mapped page is not null. -/
theorem leafSet_allocation (entry phys : Nat) : leafSet entry phys allocationFlags ≠ 0 := by
  intro null
  have present : entryPresent (leafSet entry phys allocationFlags) = true := by
    unfold leafSet
    rw [entryPresent_set]
    decide
  rw [null] at present
  cases present

/-- **The pages of an allocation are mapped**, in the page tables of the process only. -/
theorem pagingMapTo_allocation (state : ProcessHeap k ledger process) (held : ledger.Holds who chain)
    (fits : size ≤ chain.len * peachosHeapBlockSize) :
    ∃ ledger', Frame (Set.range .table) k ledger (pagingMapTo k process.pagingDesc (k.address chain) (k.address chain)
        (pagingAlignAddress (toWord (k.address chain + size))) allocationFlags).2 ledger' ∧
      ProcessHeap (pagingMapTo k process.pagingDesc (k.address chain) (k.address chain)
        (pagingAlignAddress (toWord (k.address chain + size))) allocationFlags).2 ledger' process ∧
      (pagingMapTo k process.pagingDesc (k.address chain) (k.address chain)
        (pagingAlignAddress (toWord (k.address chain + size))) allocationFlags).1 = 0 := by
  obtain ⟨low, high⟩ := state.heap.bytes_in_heap held.1
  have physical := state.heap.physical
  have aligned := state.heap.address_aligned chain
  simp only [peachosHeapBlockSize] at fits high aligned
  have finish : pagingAlignAddress (toWord (k.address chain + size)) =
      k.address chain + (size + 4095) / 4096 * pagingPageSize := by
    rw [← Nat.cast_add, toWord_natCast (by omega), pagingAlignAddress_eq (by omega)]
    simp only [pagingPageSize]
    omega
  rw [finish]
  have count : (size + 4095) / 4096 ≤ chain.len := by omega
  have pages : k.address chain + (size + 4095) / 4096 * pagingPageSize ≤ k.minimal.eaddr :=
    (Nat.add_le_add_left (Nat.mul_le_mul_right _ count) _).trans high
  have allocates : PagingRangeAllocates process.pagingDesc allocationFlags (min ((size + 4095) / 4096) (2 ^ 31))
      (k.address chain) (k.address chain) k := by
    refine pagingRangeAllocates_of_leaves table_injective ((min_le_right _ _).trans_lt (by norm_num)) state.heap state.tables
      fun va inside => ?_
    have samePage : pageNumber va = pageNumber (va % 2 ^ 48) := by
      unfold pageNumber
      simp only [pagingPageSize]
      omega
    have word : va % 2 ^ 48 < 2 ^ 48 := Nat.mod_lt _ (by norm_num)
    have inside' : pageOffset (k.address chain) (va % 2 ^ 48) < (size + 4095) / 4096 := by
      refine lt_of_lt_of_le ?_ (min_le_left _ (2 ^ 31))
      unfold pageOffset at inside ⊢
      rwa [← samePage]
    rw [pageEntry_page samePage]
    obtain ⟨above, below⟩ := (pageOffset_lt_iff aligned (pages.trans physical) word).mp inside'
    exact state.leaves _ (low.trans above) (below.trans_le pages)
  obtain ⟨ledger', grown, tables, done, leaves⟩ := pagingMapTo_identity table_injective aligned (pages.trans physical)
    state.heap state.tables allocates
  have frame := Frame.of_grown grown
  refine ⟨ledger', frame, ⟨grown.heap, tables, fun va inHeap below => ?_, state.slots.frame frame (by simp)⟩, done⟩
  have geometry := grown.same.geometry
  have eaddr : (pagingMapTo k process.pagingDesc (k.address chain) (k.address chain)
      (k.address chain + (size + 4095) / 4096 * pagingPageSize) allocationFlags).2.minimal.eaddr = k.minimal.eaddr := by
    rw [geometry]
  rw [geometry.saddr] at inHeap
  rw [eaddr] at below
  rw [leaves va (by omega)]
  split
  · exact leafSet_allocation _ _
  · exact state.leaves va inHeap below

/-- **`process_allocation_set_map`** changes the page tables and the slots. -/
theorem processAllocationSetMap_spec (state : ProcessHeap k ledger process) (held : ledger.Holds who chain)
    (fits : size ≤ chain.len * peachosHeapBlockSize) (index : Int) :
    ∃ ledger', Frame (Set.range .table ∪ {.slots}) k ledger
        (processAllocationSetMap k process index (k.address chain) size).2 ledger' ∧
      ProcessHeap (processAllocationSetMap k process index (k.address chain) size).2 ledger' process := by
  obtain ⟨ledger', frame, state', done⟩ := pagingMapTo_allocation state held fits
  have frame' := frame.mono (Set.subset_union_left (t := {AllocationHolder.slots}))
  unfold processAllocationSetMap
  dsimp only
  generalize pagingMapTo k process.pagingDesc (k.address chain) (k.address chain)
    (pagingAlignAddress (toWord (k.address chain + size))) allocationFlags = mapped at *
  rw [if_neg (by omega)]
  by_cases failed : (processAllocationAt mapped.2.mem process (toWord index)).1 < 0
  · rw [if_pos failed]
    exact ⟨ledger', frame', state'⟩
  · rw [if_neg failed]
    unfold vectorOverwrite
    dsimp only
    by_cases invalid : vectorValidBounds process.allocations (toWord index) < 0
    · rw [if_pos invalid]
      exact ⟨ledger', frame', state'⟩
    · rw [if_neg invalid, if_neg (by rw [ProcessAllocation.length_encode, state.slots.eSize]; exact lt_irrefl _)]
      have below : toWord index < process.allocations.tElems := by
        by_contra outside
        unfold vectorValidBounds at invalid
        rw [if_neg outside] at invalid
        exact invalid (by decide)
      have room := state.slots.room
      obtain ⟨slots, heldSlots, address, capacity⟩ := state'.slots.memory.resolve_left fun none => by
        have := none.2
        omega
      have written := blit_slot state'.heap heldSlots state'.slots.eSize address capacity (below.trans_le room)
        (ProcessAllocation.length_encode ⟨k.address chain, toWord (k.address chain + size), size⟩)
      exact ⟨ledger', frame'.trans (written.mono Set.subset_union_right),
        state'.withSlots written (fun path isSlots => by cases isSlots) ⟨state'.slots.eSize, state'.slots.reserved, room,
          Or.inr ⟨slots, heldSlots, address, capacity⟩⟩⟩

end Map

/-! ### An allocation -/

section Malloc

variable {k : Kernel} {ledger : Ledger AllocationHolder} {process : Process} {size : Nat}

/-- **`process_malloc` returns zero, or a chain of its own** for its size; everybody else's bytes are kept. -/
theorem processMalloc_spec (i : Nat) (state : ProcessHeap k ledger process) (word : size < 2 ^ 64)
    (grows : SlotsGrow (kzalloc k size).2 process.allocations) :
    ∃ ptr process' k', processMalloc k process size = some (ptr, process', k') ∧
      (ptr = 0 ∨ ∃ ledger' chain, Frame (allocating i) k ledger k' ledger' ∧ ProcessHeap k' ledger' process' ∧
        process'.pagingDesc = process.pagingDesc ∧ ledger'.Holds (.allocation i) chain ∧ ptr = k'.address chain ∧
        size ≤ chain.len * peachosHeapBlockSize) := by
  have slotsMine : {.slots} ⊆ allocating i := Set.singleton_subset_iff.mpr ⟨by decide, fun j isSlots => by cases isSlots⟩
  have tablesMine : Set.range .table ⊆ allocating i := by
    rintro _ ⟨path, rfl⟩
    exact ⟨fun isOther => (by cases isOther), fun j isTable => by cases isTable⟩
  have chainMine : {.allocation i} ⊆ allocating i := Set.singleton_subset_iff.mpr
    ⟨fun isOther => (by cases isOther), fun j same => (AllocationHolder.allocation.inj same).symm⟩
  unfold processMalloc
  rcases kzalloc_cases state.heap word with failed | ⟨start, granted, -⟩
  · rw [failed]
    exact ⟨0, process, k, rfl, Or.inl rfl⟩
  dsimp only
  generalize kzalloc k size = allocated at *
  have nonnull : allocated.1 ≠ 0 := by
    rw [granted.pointer]
    exact (state.heap.address_pos _).ne'
  rw [if_neg nonnull]
  -- A chain of its own.
  have granted' : Frame {.allocation i} k ledger allocated.2
      (ledger.grant (some (.allocation i)) ⟨start, heapBlocks size⟩) :=
    .of_grown (.of_granted state.heap granted (Set.mem_singleton _))
  have held := @Ledger.holds_grant _ ledger (AllocationHolder.allocation i) ⟨start, heapBlocks size⟩
  have state₁ := state.frame granted' (fun path isTable => by cases isTable) fun isSlots => by cases isSlots
  -- A slot for it.
  obtain ⟨index, process', k₂, found, same, outcome⟩ := processFindFreeAllocationIndex_spec state₁ grows
  rw [found]
  dsimp only
  by_cases none : index < 0
  · rw [if_pos none]
    exact ⟨0, process', _, rfl, Or.inl rfl⟩
  obtain ⟨ledger₂, frame₂, state₂⟩ := outcome.resolve_left none
  have held₂ := (frame₂.holds (.allocation i) (fun isSlots => by cases isSlots) _).mpr held
  have covers : size ≤ (⟨start, heapBlocks size⟩ : Span).len * peachosHeapBlockSize :=
    le_heapBlocks_mul word granted.nonempty
  -- Its pages.
  obtain ⟨ledger₃, frame₃, state₃⟩ := processAllocationSetMap_spec state₂ held₂ covers index
  have pointer : allocated.1 = k₂.address ⟨start, heapBlocks size⟩ := by
    rw [granted.pointer, frame₂.same.address, granted.same.address]
  rw [if_neg none, pointer]
  generalize processAllocationSetMap k₂ process' index (k₂.address ⟨start, heapBlocks size⟩) size = mapped at *
  by_cases refused : mapped.1 < 0
  · rw [if_pos refused]
    exact ⟨0, process', _, rfl, Or.inl rfl⟩
  · rw [if_neg refused]
    have held₃ := (frame₃.holds (.allocation i) (by simp) _).mpr held₂
    exact ⟨_, process', mapped.2, rfl, Or.inr ⟨ledger₃, _, ((granted'.mono chainMine).trans (frame₂.mono slotsMine)).trans
      (frame₃.mono (Set.union_subset tablesMine slotsMine)), state₃, same, held₃, frame₃.same.address.symm, covers⟩⟩

end Malloc

end PeachOS
