/-
**Sessions: runs of requests to one heap, and the representation invariant.**

A `HeapSession` is a heap together with its live allocations, the pointers that were handed out with
the sizes they were asked for. `HeapSession.step` serves one request; a session starts at
`HeapSession.Created`, a heap that `heap_create` has made.

`Represented` is the representation invariant: the table decodes, in one way only, into documented
chains, and these are the live allocations. The code keeps it only as long as no allocation takes two
blocks or more, since the marking loop gives `HAS_NEXT` to the last block of such a run:

* `Represented.allocated_iff` — a successful allocation keeps the invariant exactly when it takes one
  block;
* `Represented.free` — freeing a live pointer keeps it;
* `representation_invariant` — the runs that keep it, and that no other step does.
-/

import PeachOS.Heap.Accounting
import PeachOS.Lib.StepRun

namespace PeachOS

open ByteStore SpanTable FirstFit StepRun

/-! ### Sessions -/

/-- A request to a heap. -/
inductive HeapRequest where
  | malloc (size : Nat)
  | zalloc (size : Nat)
  | free (ptr : Nat)
  | realloc (ptr newSize : Nat)
deriving DecidableEq

/-- A heap and its live allocations: pointer and requested size, the most recent first. -/
structure HeapSession where
  state : HeapState
  live : List (Nat × Nat)

namespace HeapSession

/-- The state a request starts from: the trace holds the indexes of one request. -/
def fresh (σ : HeapSession) : HeapState := { σ.state with accesses := [] }

/-- The session after an allocation: a null pointer is not live. -/
def allocated (σ : HeapSession) (result : Nat × HeapState) (size : Nat) : HeapSession :=
  { state := result.2, live := if result.1 = 0 then σ.live else (result.1, size) :: σ.live }

/-- The live allocations but those at a pointer. -/
def without (σ : HeapSession) (ptr : Nat) : List (Nat × Nat) := σ.live.filter fun a => a.1 ≠ ptr

/-- Whether a pointer is live. -/
def isLive (σ : HeapSession) (ptr : Nat) : Prop := ∃ a ∈ σ.live, a.1 = ptr

instance (σ : HeapSession) (ptr : Nat) : Decidable (σ.isLive ptr) :=
  inferInstanceAs (Decidable (∃ a ∈ σ.live, a.1 = ptr))

/-- **One request.** Sizes are `size_t`; only live pointers are freed or reallocated. -/
def step (σ : HeapSession) : HeapRequest → Option HeapSession
  | .malloc size => if size < 2 ^ 64 then some (σ.allocated (heapMalloc σ.fresh size) size) else none
  | .zalloc size => if size < 2 ^ 64 then some (σ.allocated (heapZalloc σ.fresh size) size) else none
  | .free ptr =>
      if σ.isLive ptr then some { state := heapFree σ.fresh ptr, live := σ.without ptr } else none
  | .realloc ptr newSize =>
      if σ.isLive ptr ∧ newSize < 2 ^ 64 then
        let result := heapRealloc σ.fresh ptr newSize
        if newSize = 0 then some { state := result.2, live := σ.without ptr }
        else if result.1 = 0 then some { state := result.2, live := σ.live }
        else some { state := result.2, live := (result.1, newSize) :: σ.without ptr }
      else none

/-- A session that has just begun: `heap_create` on a table of one entry for each block, which lies
apart from the blocks and is cleared. `heap_create` clears the first `2 ^ 31` entries itself. -/
structure Created (σ : HeapSession) (mem : Memory) (ptr endPtr : Nat) (table : HeapTable) : Prop where
  created : heapCreate mem ptr endPtr table = .ok (σ.state.heap, σ.state.mem)
  live : σ.live = []
  positive : 0 < ptr
  order : ptr ≤ endPtr
  bound : endPtr < 2 ^ 64
  width : endPtr - ptr < 2 ^ 63
  tableBound : table.entries + table.total ≤ 2 ^ 64
  apart : table.entries + table.total ≤ ptr ∨ endPtr ≤ table.entries
  cleared : ∀ block, 2 ^ 31 ≤ block → block < table.total → mem (table.entries + block) = heapBlockTableEntryFree

/-- The initial sessions. -/
def Initial (σ : HeapSession) : Prop := ∃ mem ptr endPtr table, σ.Created mem ptr endPtr table

end HeapSession

/-- **A created heap is sound and all of it is free.** -/
theorem HeapSession.Created.spec {σ : HeapSession} {mem : Memory} {ptr endPtr : Nat} {table : HeapTable}
    (begun : σ.Created mem ptr endPtr table) :
    σ.state.heap.Sound ∧ σ.state.heap.usedBlocks = 0 ∧
      σ.state.heap.freeBlocks = σ.state.heap.table.total ∧
      ∀ block < σ.state.heap.table.total, σ.state.view block = heapBlockTableEntryFree := by
  have order := begun.order
  have bound := begun.bound
  have width := begun.width
  have created := begun.created
  unfold heapCreate at created
  by_cases misaligned : (!heapValidateAlignment ptr || !heapValidateAlignment endPtr) = true
  · rw [if_pos misaligned] at created
    cases created
  · rw [if_neg misaligned] at created
    simp only [heapValidateAlignment, Bool.or_eq_true, Bool.not_eq_true', decide_eq_false_iff_not,
      not_or, not_not, peachosHeapBlockSize] at misaligned
    by_cases mismatch : heapValidateTable ptr endPtr table < 0
    · simp only [if_pos mismatch] at created
      cases created
    · simp only [if_neg mismatch, Except.ok.injEq, Prod.mk.injEq] at created
      obtain ⟨heapEq, memEq⟩ := created
      have totalEq : table.total = (endPtr - ptr) / 4096 := by
        by_contra different
        refine mismatch ?_
        unfold heapValidateTable
        rw [toWord_sub (by omega) (by omega)]
        simp only [peachosHeapBlockSize]
        rw [if_pos (by omega)]
        decide
      have tableEq : σ.state.heap.table = table := by rw [← heapEq]
      refine ⟨?_, by rw [← heapEq], by rw [← heapEq], fun block below => ?_⟩
      · rw [← heapEq]
        refine ⟨begun.positive, misaligned.1, ?_, bound, ?_, begun.tableBound, begun.apart, rfl⟩
        · simp only [peachosHeapBlockSize]
          omega
        · simp only
          omega
      · rw [tableEq] at below
        rw [HeapState.view, tableEq, ← memEq, memset, fill_apply]
        by_cases covered : table.entries ≤ table.entries + block ∧
            table.entries + block < table.entries + min table.total (2 ^ 31)
        · rw [if_pos covered]
        · rw [if_neg covered]
          exact begun.cleared block (by omega) below

/-! ### The representation invariant -/

/-- The chain of an allocation: its start block and its size in blocks. -/
def chainOf (heap : Heap) (a : Nat × Nat) : Span :=
  ⟨(a.1 - heap.saddr) / peachosHeapBlockSize, (a.2 + 4095) / 4096⟩

/-- The chains of the live allocations. -/
def chainsOf (heap : Heap) (live : List (Nat × Nat)) : Set Span := {chain | ∃ a ∈ live, chain = chainOf heap a}

/-- **The representation invariant of a heap.** -/
structure Represented (s : HeapState) (live : List (Nat × Nat)) : Prop where
  decodes : Decodes chainCoding s.view s.heap.table.total (chainsOf s.heap live)
  unique : ∀ chains, Decodes chainCoding s.view s.heap.table.total chains → chains = chainsOf s.heap live
  distinct : (live.map (chainOf s.heap)).Nodup
  starts : ∀ a ∈ live, a.1 = s.heap.saddr + (chainOf s.heap a).start * peachosHeapBlockSize
  ranges : ∀ a ∈ live, s.heap.saddr ≤ a.1 ∧ a.1 + a.2 ≤ s.heap.eaddr
  used : s.heap.usedBlocks = takenEntries s.view s.heap.table.total
  free : s.heap.freeBlocks = freeEntries s.view s.heap.table.total

/-- The chain of an allocation of a whole number of blocks at a block. -/
theorem chainOf_block {heap : Heap} {start size : Nat} :
    chainOf heap (heap.saddr + start * peachosHeapBlockSize, size) = ⟨start, (size + 4095) / 4096⟩ := by
  simp only [chainOf, peachosHeapBlockSize]
  congr 1
  omega

theorem chainOf_congr {heap heap' : Heap} (same : heap.SameGeometry heap') :
    chainOf heap' = chainOf heap := by
  funext a
  rw [chainOf, chainOf, same.saddr]

theorem chainsOf_congr {heap heap' : Heap} (same : heap.SameGeometry heap') (live : List (Nat × Nat)) :
    chainsOf heap' live = chainsOf heap live := by
  unfold chainsOf
  rw [chainOf_congr same]

theorem chainsOf_cons (heap : Heap) (a : Nat × Nat) (live : List (Nat × Nat)) :
    chainsOf heap (a :: live) = insert (chainOf heap a) (chainsOf heap live) := by
  ext chain
  simp [chainsOf]

theorem chainOf_mem {heap : Heap} {live : List (Nat × Nat)} {a : Nat × Nat} (member : a ∈ live) :
    chainOf heap a ∈ chainsOf heap live :=
  ⟨a, member, rfl⟩

/-- Chains of a table, loosely coded, leave every other block free. -/
theorem twoTypes_of_decodes {s : HeapState} {chains : Set Span}
    (decodes : Decodes looseCoding s.view s.heap.table.total chains) : s.TwoTypes := by
  intro block below
  by_cases covered : ∃ chain ∈ chains, block ∈ chain.blocks
  · obtain ⟨chain, member, low, high⟩ := covered
    have marked := decodes.marked chain member (block - chain.start) (by omega)
    rw [Nat.add_sub_cancel' low] at marked
    exact Or.inr marked.1
  · have isFree : s.view block = heapBlockTableEntryFree :=
      decodes.vacant block below fun chain member inside => covered ⟨chain, member, inside⟩
    rw [isFree]
    exact Or.inl entryType_free

/-- A run of free blocks lies apart from every chain. -/
theorem disjoint_of_free {view : Nat → Byte} {total : Nat} {chains : Set Span}
    (decodes : Decodes looseCoding view total chains) (start len : Nat)
    (isFree : ∀ block, start ≤ block → block < start + len → typeFree (view block)) :
    ∀ chain ∈ chains, Disjoint (Span.mk start len).blocks chain.blocks := by
  intro chain member
  refine Set.disjoint_left.mpr fun block inRun inChain => ?_
  rw [Span.mem_blocks] at inRun inChain
  have marked := decodes.marked chain member (block - chain.start) (by omega)
  rw [Nat.add_sub_cancel' inChain.1] at marked
  exact not_typeFree_of_entryType marked.1 (isFree block inRun.1 inRun.2)

namespace Represented

variable {s s' : HeapState} {live : List (Nat × Nat)} (represented : Represented s live)

include represented

theorem types : s.TwoTypes := twoTypes_of_decodes (decodes_loose represented.decodes)

theorem accounted (sound : s.heap.Sound) : s.Accounted :=
  .of_counters sound represented.types represented.used represented.free

/-- Only the heap and its table matter. -/
theorem congr (heapEq : s'.heap = s.heap)
    (viewEq : ∀ block < s.heap.table.total, s'.view block = s.view block) : Represented s' live := by
  have decodes := represented.decodes.congr viewEq
  constructor
  · rw [heapEq]
    exact decodes
  · intro chains other
    rw [heapEq] at other ⊢
    exact other.unique chainCoding_legible decodes
  · rw [heapEq]
    exact represented.distinct
  · rw [heapEq]
    exact represented.starts
  · rw [heapEq]
    exact represented.ranges
  · rw [heapEq, takenEntries_congr viewEq]
    exact represented.used
  · rw [heapEq, represented.free]
    exact (countWhere_congr typeFree fun block below => by rw [viewEq block below]).symm

/-- **A successful allocation keeps the invariant exactly when it takes one block.** -/
theorem allocated_iff (sound : s.heap.Sound) {size start ptr : Nat} (word : size < 2 ^ 64)
    (allocated : Allocated s (heapBlocks size) start ptr s') :
    Represented s' ((ptr, size) :: live) ↔ heapBlocks size ≤ 1 := by
  have positive := allocated.positive
  have fits : size ≤ 2 ^ 64 - 4096 := by
    by_contra wraps
    rw [heapBlocks_wraps (by omega) word] at positive
    omega
  have blocksEq := heapBlocks_eq fits
  have inside := allocated.inside
  have range := sound.range_le inside
  have sized := le_heapBlocks_mul word positive
  have same := allocated.geometry
  have tableEq := same.table
  have chainEq : chainOf s.heap (ptr, size) = ⟨start, heapBlocks size⟩ := by
    rw [allocated.address, chainOf_block, blocksEq]
  constructor
  · intro after
    -- the last block of the new run carries `HAS_NEXT`, unless it is also the first
    have chain : (⟨start, heapBlocks size⟩ : Span) ∈ chainsOf s'.heap ((ptr, size) :: live) := by
      rw [chainsOf_congr same, chainsOf_cons, chainEq]
      exact Set.mem_insert _ _
    have marked : s'.view (start + (heapBlocks size - 1)) =
        chainEntry (heapBlocks size) (heapBlocks size - 1) :=
      after.decodes.marked _ chain _ (show heapBlocks size - 1 < heapBlocks size by omega)
    rw [allocated.view _ (by omega), takenFrom, if_pos (by omega), Nat.add_sub_cancel_left,
      mallocEntry_eq_chainEntry (by omega)] at marked
    omega
  · intro single
    have one : heapBlocks size = 1 := by omega
    have loose := decodes_loose represented.decodes
    have apart := disjoint_of_free loose start (heapBlocks size) fun block low high =>
      allocated.isFree low high
    have decodes : Decodes chainCoding s'.view s.heap.table.total
        (insert ⟨start, heapBlocks size⟩ (chainsOf s.heap live)) := by
      refine represented.decodes.insert ⟨start, heapBlocks size⟩ positive inside apart
        (fun place below => ?_) fun block below outside => ?_
      · show s'.view (start + place) = chainEntry (heapBlocks size) place
        rw [allocated.view _ (by simp only at below; omega), takenFrom, if_pos (by simp only at below; omega),
          Nat.add_sub_cancel_left]
        exact (mallocEntry_eq_chainEntry below).mpr (Or.inl one)
      · rw [Span.mem_blocks] at outside
        rw [allocated.view block below, takenFrom, if_neg outside]
    have chains : chainsOf s'.heap ((ptr, size) :: live) =
        insert ⟨start, heapBlocks size⟩ (chainsOf s.heap live) := by
      rw [chainsOf_congr same, chainsOf_cons, chainEq]
    have accounted := (allocated.accounted sound represented.types (represented.accounted sound)).2
    constructor
    · rw [tableEq, chains]
      exact decodes
    · intro others other
      rw [tableEq] at other
      rw [chains]
      exact other.unique chainCoding_legible decodes
    · rw [chainOf_congr same, List.map_cons, List.nodup_cons]
      refine ⟨fun known => ?_, represented.distinct⟩
      obtain ⟨a, member, equal⟩ := List.mem_map.mp known
      have disjoint := apart _ (chainOf_mem member)
      rw [equal, chainEq] at disjoint
      exact Span.not_disjoint (Span.start_mem positive) (Span.start_mem positive) disjoint
    · rw [chainOf_congr same, same.saddr]
      rintro a (_ | ⟨_, member⟩)
      · rw [chainEq]
        exact allocated.address
      · exact represented.starts a member
    · rw [same.saddr, show s'.heap.eaddr = s.heap.eaddr by rw [same]]
      rintro a (_ | ⟨_, member⟩)
      · rw [allocated.address]
        simp only
        omega
      · exact represented.ranges a member
    · exact accounted.used
    · exact accounted.free

/-- A documented chain ends itself. -/
theorem chainLength_eq {a : Nat × Nat} (member : a ∈ live) :
    s.chainLength (chainOf s.heap a).start = (chainOf s.heap a).len := by
  have chain : chainOf s.heap a ∈ chainsOf s.heap live := chainOf_mem member
  have within := represented.decodes.within _ chain
  have nonempty := represented.decodes.nonempty _ chain
  have marked : ∀ place < (chainOf s.heap a).len,
      s.view ((chainOf s.heap a).start + place) = chainEntry (chainOf s.heap a).len place :=
    represented.decodes.marked _ chain
  refine walk_eq goesOn s.view _ _ _ nonempty (by omega) (fun place inner => ?_) (Or.inr ?_)
  · rw [marked place (by omega), chainEntry, goesOn_takenEntry, decide_eq_true_iff]
    exact inner
  · rw [marked _ (by omega), chainEntry, goesOn_takenEntry, decide_eq_false_iff_not]
    omega

/-- **Freeing a live pointer keeps the invariant.** -/
theorem free_live (sound : s.heap.Sound) {a : Nat × Nat} (member : a ∈ live) :
    Represented (heapFree s a.1) (live.filter fun b => b.1 ≠ a.1) := by
  have chain : chainOf s.heap a ∈ chainsOf s.heap live := chainOf_mem member
  have within := represented.decodes.within _ chain
  have nonempty := represented.decodes.nonempty _ chain
  have lengthEq := represented.chainLength_eq member
  have pointer := represented.starts a member
  set start := (chainOf s.heap a).start with startDef
  obtain ⟨only, heapEq, viewEq⟩ := heapFree_spec sound (show start ≤ s.heap.table.total by omega)
  have counters := heapFree_accounted_iff sound represented.types (represented.accounted sound)
    (show start ≤ s.heap.table.total by omega)
  rw [← pointer] at only heapEq viewEq counters
  rw [lengthEq] at viewEq counters
  have same := only.geometry
  have tableEq := same.table
  -- a live allocation is dropped exactly when its chain is the freed one
  have chains : chainsOf s.heap (live.filter fun b => b.1 ≠ a.1) =
      chainsOf s.heap live \ {chainOf s.heap a} := by
    ext other
    constructor
    · rintro ⟨b, kept, rfl⟩
      obtain ⟨known, different⟩ := List.mem_filter.mp kept
      refine ⟨chainOf_mem known, fun equal => ?_⟩
      rw [Set.mem_singleton_iff] at equal
      have pointer' := represented.starts b known
      rw [equal, ← pointer] at pointer'
      simp [pointer'] at different
    · rintro ⟨⟨b, known, rfl⟩, different⟩
      refine ⟨b, List.mem_filter.mpr ⟨known, ?_⟩, rfl⟩
      rw [decide_eq_true_iff]
      intro equal
      refine different ?_
      rw [Set.mem_singleton_iff]
      refine represented.decodes.eq_of_mem (chainOf_mem known) chain
        (Span.start_mem (represented.decodes.nonempty _ (chainOf_mem known))) ?_
      rw [show (chainOf s.heap b).start = start by rw [startDef, chainOf, chainOf, equal]]
      exact Span.start_mem nonempty
  have decodes : Decodes chainCoding (heapFree s a.1).view s.heap.table.total
      (chainsOf s.heap (live.filter fun b => b.1 ≠ a.1)) := by
    rw [chains, viewEq]
    refine represented.decodes.erase chain (fun block _ inOld => ?_) fun block _ outside => ?_
    · rw [Span.mem_blocks] at inOld
      rw [freedFrom, if_pos inOld]
      rfl
    · rw [Span.mem_blocks] at outside
      rw [freedFrom, if_neg outside]
  have accounted : (heapFree s a.1).Accounted := by
    refine counters.2.mpr fun block low high => ?_
    have marked : s.view (start + (block - start)) = chainEntry (chainOf s.heap a).len (block - start) :=
      represented.decodes.marked _ chain _ (by omega)
    rw [Nat.add_sub_cancel' low] at marked
    rw [marked]
    exact isTaken_of_entryType (entryType_takenEntry _ _)
  constructor
  · rw [tableEq, chainsOf_congr same]
    exact decodes
  · intro others other
    rw [tableEq] at other
    rw [chainsOf_congr same]
    exact other.unique chainCoding_legible decodes
  · rw [chainOf_congr same]
    exact represented.distinct.sublist (List.Sublist.map _ List.filter_sublist)
  · rw [chainOf_congr same, same.saddr]
    exact fun b kept => represented.starts b (List.mem_of_mem_filter kept)
  · rw [same.saddr, show (heapFree s a.1).heap.eaddr = s.heap.eaddr by rw [same]]
    exact fun b kept => represented.ranges b (List.mem_of_mem_filter kept)
  · exact accounted.used
  · exact accounted.free

end Represented

/-! ### Runs of allocations and releases -/

/-- A step that is not a reallocation. -/
def allocFreeStep (σ : HeapSession) (request : HeapRequest) (σ' : HeapSession) : Prop :=
  (∀ ptr newSize, request ≠ .realloc ptr newSize) ∧ σ.step request = some σ'

/-- What keeps the representation: an allocation takes at most one block, or finds no room. -/
def singleBlock (σ : HeapSession) : HeapRequest → Prop
  | .malloc size | .zalloc size => heapBlocks size ≤ 1 ∨ ∀ start,
      ¬ IsRun (fun block => typeFree (σ.state.view block)) σ.state.heap.table.total (heapBlocks size) start
  | .free _ | .realloc _ _ => True

/-- An empty heap represents no allocation. -/
theorem represented_of_created {σ : HeapSession} (begun : σ.Initial) :
    σ.state.heap.Sound ∧ Represented σ.state σ.live := by
  obtain ⟨mem, ptr, endPtr, table, created⟩ := begun
  obtain ⟨sound, used, free, clear⟩ := created.spec
  have empty : chainsOf σ.state.heap σ.live = ∅ := by
    rw [created.live]
    ext chain
    simp [chainsOf]
  have decodes : Decodes chainCoding σ.state.view σ.state.heap.table.total ∅ := Decodes.empty clear
  refine ⟨sound, ?_, ?_, ?_, ?_, ?_, ?_, ?_⟩
  · rw [empty]
    exact decodes
  · intro others other
    rw [empty]
    exact other.unique chainCoding_legible decodes
  · rw [created.live]
    exact List.nodup_nil
  · rw [created.live]
    exact fun a member => absurd member List.not_mem_nil
  · rw [created.live]
    exact fun a member => absurd member List.not_mem_nil
  · rw [used]
    exact (countWhere_eq_zero isTaken fun block below => by rw [clear block below]; decide).symm
  · rw [free]
    exact (countWhere_eq_total typeFree fun block below => by rw [clear block below]; decide).symm

/-- What a request that allocates does to a session that represents its allocations. -/
theorem represented_allocated_iff {σ : HeapSession} (sound : σ.state.heap.Sound)
    (represented : Represented σ.state σ.live) {size : Nat} (word : size < 2 ^ 64)
    {result : Nat × HeapState}
    (cases : (result.1 = 0 ∧ σ.fresh.ReadOnly result.2 ∧ (0 < heapBlocks size → ∀ start,
        ¬ IsRun (fun block => typeFree (σ.fresh.view block)) σ.fresh.heap.table.total (heapBlocks size) start)) ∨
      ∃ start, Allocated σ.fresh (heapBlocks size) start result.1 result.2) :
    (σ.allocated result size).state.heap.Sound ∧
      (Represented (σ.allocated result size).state (σ.allocated result size).live ↔
        heapBlocks size ≤ 1 ∨ ∀ start, ¬ IsRun (fun block => typeFree (σ.state.view block))
          σ.state.heap.table.total (heapBlocks size) start) := by
  have represented' : Represented σ.fresh σ.live := represented.congr rfl fun _ _ => rfl
  rcases cases with ⟨null, readOnly, absent⟩ | ⟨start, allocated⟩
  · rw [HeapSession.allocated, if_pos null]
    have after : Represented result.2 σ.live :=
      represented'.congr readOnly.heap fun block _ => by rw [readOnly.view]
    refine ⟨by rw [readOnly.heap]; exact sound, fun _ => ?_, fun _ => after⟩
    rcases Nat.eq_zero_or_pos (heapBlocks size) with none | some
    · exact Or.inl (by omega)
    · exact Or.inr (absent some)
  · rw [HeapSession.allocated, if_neg (allocated.pointer_pos sound).ne']
    refine ⟨allocated.geometry.sound sound, (represented'.allocated_iff sound word allocated).trans ?_⟩
    exact ⟨Or.inl, fun keeps => keeps.resolve_right fun absent => absent start allocated.run.1⟩

/-- **One step**: the invariant survives exactly the steps that take single blocks. -/
theorem represented_step_iff {σ σ' : HeapSession} {request : HeapRequest} (sound : σ.state.heap.Sound)
    (represented : Represented σ.state σ.live) (taken : allocFreeStep σ request σ') :
    σ'.state.heap.Sound ∧ (Represented σ'.state σ'.live ↔ singleBlock σ request) := by
  obtain ⟨notRealloc, stepped⟩ := taken
  cases request with
  | malloc size =>
      by_cases word : size < 2 ^ 64
      · rw [HeapSession.step, if_pos word, Option.some.injEq] at stepped
        subst stepped
        exact represented_allocated_iff sound represented word
          (heapMalloc_cases (s := σ.fresh) sound size)
      · rw [HeapSession.step, if_neg word] at stepped
        cases stepped
  | zalloc size =>
      by_cases word : size < 2 ^ 64
      · rw [HeapSession.step, if_pos word, Option.some.injEq] at stepped
        subst stepped
        exact represented_allocated_iff sound represented word
          (heapZalloc_cases (s := σ.fresh) sound word)
      · rw [HeapSession.step, if_neg word] at stepped
        cases stepped
  | free ptr =>
      by_cases live : σ.isLive ptr
      · rw [HeapSession.step, if_pos live, Option.some.injEq] at stepped
        subst stepped
        obtain ⟨a, member, rfl⟩ := live
        have represented' : Represented σ.fresh σ.live := represented.congr rfl fun _ _ => rfl
        have start_le := represented'.decodes.within _ (chainOf_mem member)
        have pointer := represented'.starts a member
        have only := (heapFree_spec (s := σ.fresh) sound
          (show (chainOf σ.fresh.heap a).start ≤ σ.fresh.heap.table.total by omega)).1
        rw [← pointer] at only
        exact ⟨only.sound sound, fun _ => trivial, fun _ => represented'.free_live sound member⟩
      · rw [HeapSession.step, if_neg live] at stepped
        cases stepped
  | realloc ptr newSize => exact absurd rfl (notRealloc ptr newSize)

/-- **The representation invariant.** It holds in every state of every run of allocations and
releases whose successful allocations take one block each, and an allocation of several blocks ends
it. -/
theorem representation_invariant {σ : HeapSession}
    (reached : Reachable (Guarded singleBlock allocFreeStep) HeapSession.Initial σ) :
    Represented σ.state σ.live ∧
      ∀ request σ', allocFreeStep σ request σ' →
        (Represented σ'.state σ'.live ↔ singleBlock σ request) := by
  have invariant : σ.state.heap.Sound ∧ Represented σ.state σ.live :=
    reached.invariant (fun σ => σ.state.heap.Sound ∧ Represented σ.state σ.live)
      (fun _ begun => represented_of_created begun)
      fun _ _ _ before taken => by
        have after := represented_step_iff before.1 before.2 taken.2
        exact ⟨after.1, after.2.mpr taken.1⟩
  exact ⟨invariant.2, fun _ _ taken => (represented_step_iff invariant.1 invariant.2 taken).2⟩

/-- A heap of four blocks, as `heap_create` leaves it. -/
def fourBlocks : HeapSession where
  state :=
    { heap :=
        { table := ⟨0x1000, 4⟩, saddr := 0x100000, eaddr := 0x104000, totalBlocks := 4, freeBlocks := 4,
          usedBlocks := 0, blockAllocatedCallback := false, blockFreeCallback := false }
      mem := memset (fun _ => 0x00#8) 0x1000 heapBlockTableEntryFree 4
      calls := []
      accesses := [] }
  live := []

theorem fourBlocks_initial : fourBlocks.Initial :=
  ⟨fun _ => 0x00#8, 0x100000, 0x104000, ⟨0x1000, 4⟩, rfl, rfl, by decide, by decide, by decide, by decide,
    by decide, by decide, fun _ _ _ => rfl⟩

/-- The invariant after one allocation of one block. -/
theorem representation_invariant_fourBlocks :
    Represented (fourBlocks.allocated (heapMalloc fourBlocks.fresh 100) 100).state
        (fourBlocks.allocated (heapMalloc fourBlocks.fresh 100) 100).live ∧
      ∀ request σ', allocFreeStep (fourBlocks.allocated (heapMalloc fourBlocks.fresh 100) 100) request σ' →
        (Represented σ'.state σ'.live ↔
          singleBlock (fourBlocks.allocated (heapMalloc fourBlocks.fresh 100) 100) request) :=
  representation_invariant (.next (.malloc 100) (.start fourBlocks_initial)
    ⟨Or.inl (by decide), fun _ _ => by simp, rfl⟩)

/-- **An allocation of two blocks ends the invariant**: its last block says that the chain goes on. -/
theorem representation_lost : ¬ ∀ σ, Reachable allocFreeStep HeapSession.Initial σ →
    Represented σ.state σ.live := by
  intro always
  have represented := always _ (.next (.malloc 8192) (.start fourBlocks_initial)
    ⟨fun _ _ => by simp, rfl⟩)
  have chain : (⟨0, 2⟩ : Span) ∈ chainsOf
      (fourBlocks.allocated (heapMalloc fourBlocks.fresh 8192) 8192).state.heap
      (fourBlocks.allocated (heapMalloc fourBlocks.fresh 8192) 8192).live :=
    ⟨(0x100000, 8192), by decide, by decide⟩
  have last : (fourBlocks.allocated (heapMalloc fourBlocks.fresh 8192) 8192).state.view 1 = chainEntry 2 1 :=
    represented.decodes.marked _ chain 1 (by decide)
  revert last
  decide

end PeachOS
