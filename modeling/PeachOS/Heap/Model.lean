/-
**The block heap of `memory/heap/heap.c`.**

A heap hands out runs of 4096-byte blocks of `[saddr, eaddr)` and records them in a table with one
byte per block, which lies in memory like everything else: `table->entries[i]` is the byte at
`entries + i`, whatever `i` is. `HeapState` threads the `struct heap`, the memory, the calls made to
the heap's callbacks and the table indexes that were read or written; the last two are traces that no
function reads back.

Each function keeps its name. Loops run on a counter of the iterations that are left:

* `heapGetStartBlock` is the first-fit search, `none` for the negative results of the source;
* `heapMarkBlocksTaken` and `heapMarkBlocksFree` are the loops that write a chain and that free one;
* `heapMalloc`, `heapZalloc`, `heapFree`, `heapRealloc` are the interface. The three ways through
  `heapRealloc` (shrink, extend in place, move) are definitions of their own.
-/

import PeachOS.Machine

namespace PeachOS

open ByteStore

/-- `HEAP_BLOCK_TABLE_ENTRY_TAKEN`. -/
abbrev heapBlockTableEntryTaken : Byte := 0x01#8

/-- `HEAP_BLOCK_TABLE_ENTRY_FREE`. -/
abbrev heapBlockTableEntryFree : Byte := 0x00#8

/-- `HEAP_BLOCK_HAS_NEXT`. -/
abbrev heapBlockHasNext : Byte := 0b10000000#8

/-- `HEAP_BLOCK_IS_FIRST`. -/
abbrev heapBlockIsFirst : Byte := 0b01000000#8

/-- `struct heap_table`. -/
structure HeapTable where
  entries : Nat
  total : Nat
deriving DecidableEq

/-- `struct heap`. The callbacks are function pointers: here, whether they are set. -/
structure Heap where
  table : HeapTable
  saddr : Nat
  eaddr : Nat
  totalBlocks : Nat
  freeBlocks : Nat
  usedBlocks : Nat
  blockAllocatedCallback : Bool
  blockFreeCallback : Bool
deriving DecidableEq

/-- A call to one of the callbacks of a heap. -/
inductive BlockCall where
  | allocated (address size : Nat)
  | freed (address : Nat)
deriving DecidableEq

/-- The state the heap functions thread. -/
structure HeapState where
  heap : Heap
  mem : Memory
  calls : List BlockCall
  accesses : List Int

namespace HeapState

/-- The address of `table->entries[i]`. -/
def entryAddress (s : HeapState) (i : Int) : Nat := toWord (s.heap.table.entries + i)

/-- The value of `table->entries[i]`. -/
def entry (s : HeapState) (i : Int) : Byte := s.mem (s.entryAddress i)

/-- `table->entries[i]` was read. -/
def touch (s : HeapState) (i : Int) : HeapState := { s with accesses := i :: s.accesses }

/-- `table->entries[i] = value`. -/
def setEntry (s : HeapState) (i : Int) (value : Byte) : HeapState :=
  { s with mem := put s.mem (s.entryAddress i) value, accesses := i :: s.accesses }

/-- `block_allocated_callback(address, size)`, if it is set. -/
def callAllocated (s : HeapState) (address size : Nat) : HeapState :=
  if s.heap.blockAllocatedCallback then { s with calls := .allocated address size :: s.calls } else s

/-- `block_free_callback(address)`, if it is set. -/
def callFree (s : HeapState) (address : Nat) : HeapState :=
  if s.heap.blockFreeCallback then { s with calls := .freed address :: s.calls } else s

/-- `used_blocks += taken; free_blocks -= taken`, in `size_t`. -/
def countTaken (s : HeapState) (taken : Int) : HeapState :=
  { s with heap := { s.heap with
      usedBlocks := toWord (s.heap.usedBlocks + taken)
      freeBlocks := toWord (s.heap.freeBlocks - taken) } }

/-- The memory after an operation on the data area. -/
def withMem (s : HeapState) (mem : Memory) : HeapState := { s with mem := mem }

end HeapState

/-! ### Creating a heap -/

def heapValidateTable (ptr endPtr : Nat) (table : HeapTable) : Int :=
  let tableSize := toWord (endPtr - ptr)
  let totalBlocks := tableSize / peachosHeapBlockSize
  if table.total ≠ totalBlocks then einvarg else 0

def heapValidateAlignment (ptr : Nat) : Bool := ptr % peachosHeapBlockSize = 0

/-- `heap_create`: the heap and the memory with its cleared table, or a negative error. -/
def heapCreate (mem : Memory) (ptr endPtr : Nat) (table : HeapTable) : Except Int (Heap × Memory) :=
  if !heapValidateAlignment ptr || !heapValidateAlignment endPtr then
    .error einvarg
  else
    let heap : Heap :=
      { table := table, saddr := ptr, eaddr := endPtr, totalBlocks := table.total,
        freeBlocks := table.total, usedBlocks := 0,
        blockAllocatedCallback := false, blockFreeCallback := false }
    let res := heapValidateTable ptr endPtr table
    if res < 0 then .error res
    else .ok (heap, memset mem table.entries heapBlockTableEntryFree table.total)

def heapAlignValueToUpper (val : Nat) : Nat :=
  if val % peachosHeapBlockSize = 0 then val
  else toWord (val - val % peachosHeapBlockSize + peachosHeapBlockSize)

def heapGetEntryType (entry : Byte) : Byte := entry &&& 0x0f#8

def heapIsAddressWithinHeap (heap : Heap) (ptr : Nat) : Bool := heap.saddr ≤ ptr ∧ ptr ≤ heap.eaddr

/-! ### Searching the table -/

/-- The loop of `heap_get_start_block`: `bc` free blocks seen in a row, the first of them `bs`
(`none` for `-1`), with `fuel` blocks left. -/
def heapGetStartBlockLoop (totalBlocks : Nat) :
    (fuel i bc : Nat) → (bs : Option Nat) → HeapState → (Nat × Option Nat) × HeapState
  | 0, _, bc, bs, s => ((bc, bs), s)
  | fuel + 1, i, bc, bs, s =>
      if heapGetEntryType (s.entry i) ≠ heapBlockTableEntryFree then
        heapGetStartBlockLoop totalBlocks fuel (i + 1) 0 none (s.touch i)
      else if bc + 1 = totalBlocks then
        ((bc + 1, bs.or (some i)), s.touch i)
      else
        heapGetStartBlockLoop totalBlocks fuel (i + 1) (bc + 1) (bs.or (some i)) (s.touch i)

/-- `heap_get_start_block`: `none` for `-ENOMEM` and for the `-1` of an unset first block. -/
def heapGetStartBlock (s : HeapState) (totalBlocks : Nat) : Option Nat × HeapState :=
  let result := heapGetStartBlockLoop totalBlocks s.heap.table.total 0 0 none s
  (if result.1.1 ≠ totalBlocks then none else result.1.2, result.2)

/-- The loop of `heap_is_block_range_free`, with `fuel` blocks left. -/
def heapIsBlockRangeFreeLoop : (fuel : Nat) → (i : Int) → HeapState → Bool × HeapState
  | 0, _, s => (true, s)
  | fuel + 1, i, s =>
      if s.entry i &&& heapBlockTableEntryTaken ≠ 0 then (false, s.touch i)
      else heapIsBlockRangeFreeLoop fuel (i + 1) (s.touch i)

def heapIsBlockRangeFree (s : HeapState) (startingBlock endingBlock : Nat) : Bool × HeapState :=
  heapIsBlockRangeFreeLoop (endingBlock + 1 - startingBlock) startingBlock s

def heapAddressToBlock (heap : Heap) (address : Nat) : Int :=
  (toInt64 (address - heap.saddr)).tdiv peachosHeapBlockSize

def heapBlockToAddress (heap : Heap) (block : Int) : Nat :=
  toWord (heap.saddr + block * peachosHeapBlockSize)

/-- The loop of `heap_allocation_block_count`, with `fuel` blocks left. -/
def heapAllocationBlockCountLoop : (fuel : Nat) → (i : Int) → (count : Nat) → HeapState → Nat × HeapState
  | 0, _, count, s => (count, s)
  | fuel + 1, i, count, s =>
      let count := if s.entry i &&& heapBlockTableEntryTaken ≠ 0 then count + 1 else count
      if s.entry i &&& heapBlockHasNext = 0 then (count, s.touch i)
      else heapAllocationBlockCountLoop fuel (i + 1) count (s.touch i)

def heapAllocationBlockCount (s : HeapState) (startingAddress : Nat) : Nat × HeapState :=
  let startingBlock := heapAddressToBlock s.heap startingAddress
  if startingBlock < 0 then (0, s)
  else heapAllocationBlockCountLoop (s.heap.table.total - startingBlock).toNat startingBlock 0 s

/-! ### Allocating -/

/-- The loop of `heap_mark_blocks_taken`: `entry` is what block `i` is given, and what the block
after it is given is decided by whether `i` is the end block. -/
def heapMarkBlocksTakenLoop (endBlock : Int) :
    (fuel : Nat) → (i : Int) → (entry : Byte) → HeapState → HeapState
  | 0, _, _, s => s
  | fuel + 1, i, entry, s =>
      let s := s.setEntry i entry
      let entry :=
        if i ≠ endBlock then heapBlockTableEntryTaken ||| heapBlockHasNext else heapBlockTableEntryTaken
      heapMarkBlocksTakenLoop endBlock fuel (i + 1) entry
        (s.callAllocated (heapBlockToAddress s.heap i) peachosHeapBlockSize)

def heapMarkBlocksTaken (s : HeapState) (startBlock totalBlocks : Nat) : HeapState :=
  let endBlock : Int := startBlock + totalBlocks - 1
  let entry := heapBlockTableEntryTaken ||| heapBlockIsFirst
  let entry := if totalBlocks > 1 then entry ||| heapBlockHasNext else entry
  heapMarkBlocksTakenLoop endBlock totalBlocks startBlock entry s

def heapMallocBlocks (s : HeapState) (totalBlocks : Nat) : Nat × HeapState :=
  match heapGetStartBlock s totalBlocks with
  | (none, s) => (0, s)
  | (some startBlock, s) =>
      (heapBlockToAddress s.heap startBlock,
        (heapMarkBlocksTaken s startBlock totalBlocks).countTaken totalBlocks)

/-- `heap_malloc`: the pointer, zero for `NULL`, and the state. -/
def heapMalloc (s : HeapState) (size : Nat) : Nat × HeapState :=
  heapMallocBlocks s (heapAlignValueToUpper size / peachosHeapBlockSize)

def heapZalloc (s : HeapState) (size : Nat) : Nat × HeapState :=
  let result := heapMalloc s size
  if result.1 = 0 then (0, result.2)
  else (result.1, result.2.withMem (memset result.2.mem result.1 0x00#8 size))

/-! ### Freeing -/

/-- The loop of `heap_mark_blocks_free`, with `fuel` blocks left: the number of blocks it freed. -/
def heapMarkBlocksFreeLoop : (fuel : Nat) → (i : Int) → (freed : Nat) → HeapState → Nat × HeapState
  | 0, _, freed, s => (freed, s)
  | fuel + 1, i, freed, s =>
      let entry := s.entry i
      let s := (s.touch i).setEntry i heapBlockTableEntryFree
      let s := s.callFree (heapBlockToAddress s.heap i)
      if entry &&& heapBlockHasNext = 0 then (freed + 1, s)
      else heapMarkBlocksFreeLoop fuel (i + 1) (freed + 1) s

def heapMarkBlocksFree (s : HeapState) (startingBlock : Int) : HeapState :=
  let result := heapMarkBlocksFreeLoop (s.heap.table.total - startingBlock).toNat startingBlock 0 s
  result.2.countTaken (-result.1)

def heapFree (s : HeapState) (ptr : Nat) : HeapState :=
  heapMarkBlocksFree s (heapAddressToBlock s.heap ptr)

/-! ### Reallocating -/

/-- The shrinking path of `heap_realloc`. -/
def heapReallocShrink (s : HeapState) (startingBlock : Int) (currentAllocBlocks newTotalBlocks : Nat) :
    HeapState :=
  let blockToFree := toInt64 (startingBlock + newTotalBlocks)
  let s := heapMarkBlocksFree s blockToFree
  let last : Int := startingBlock + newTotalBlocks - 1
  let s := if newTotalBlocks > 0 then
      (s.touch last).setEntry last (s.entry last &&& ~~~heapBlockHasNext)
    else s
  s.countTaken (-(currentAllocBlocks - newTotalBlocks : Nat))

/-- `for (size_t i = extension_start; i < extension_end; i++)`. -/
def heapReallocExtendLoop : (fuel : Nat) → (i : Int) → HeapState → HeapState
  | 0, _, s => s
  | fuel + 1, i, s =>
      heapReallocExtendLoop fuel (i + 1)
        (s.setEntry i (heapBlockTableEntryTaken ||| heapBlockHasNext))

/-- The extension in place of `heap_realloc`. -/
def heapReallocExtend (s : HeapState) (endingBlock : Int) (extensionStart extensionEnd extraBlocks : Nat) :
    HeapState :=
  let s := heapReallocExtendLoop (extensionEnd - extensionStart) extensionStart s
  let s := s.setEntry extensionEnd heapBlockTableEntryTaken
  let s := (s.touch endingBlock).setEntry endingBlock (s.entry endingBlock ||| heapBlockHasNext)
  s.countTaken extraBlocks

/-- The last resort of `heap_realloc`: copy into a new allocation. -/
def heapReallocMove (s : HeapState) (oldPtr oldTotalSize newSizeAligned : Nat) : Nat × HeapState :=
  let result := heapZalloc s newSizeAligned
  if result.1 = 0 then (0, result.2)
  else
    (result.1, heapFree (result.2.withMem (memcpy result.2.mem result.1 oldPtr oldTotalSize)) oldPtr)

def heapRealloc (s : HeapState) (oldPtr newSize : Nat) : Nat × HeapState :=
  if oldPtr = 0 then heapMalloc s newSize
  else if newSize = 0 then (0, heapFree s oldPtr)
  else
    let count := heapAllocationBlockCount s oldPtr
    let currentAllocBlocks := count.1
    let s := count.2
    let startingBlock := heapAddressToBlock s.heap oldPtr
    let endingBlock := toInt64 (startingBlock + currentAllocBlocks - 1)
    let newSizeAligned := heapAlignValueToUpper newSize
    let newTotalBlocks := newSizeAligned / peachosHeapBlockSize
    let oldTotalSize := toWord (currentAllocBlocks * peachosHeapBlockSize)
    if currentAllocBlocks ≥ newTotalBlocks then
      if currentAllocBlocks = newTotalBlocks then (oldPtr, s)
      else (oldPtr, heapReallocShrink s startingBlock currentAllocBlocks newTotalBlocks)
    else
      let extraBlocks := newTotalBlocks - currentAllocBlocks
      let extensionStart := toWord (endingBlock + 1)
      let extensionEnd := toWord (extensionStart + extraBlocks - 1)
      let range := heapIsBlockRangeFree s extensionStart extensionEnd
      if range.1 then
        (oldPtr, heapReallocExtend range.2 endingBlock extensionStart extensionEnd extraBlocks)
      else heapReallocMove range.2 oldPtr oldTotalSize newSizeAligned

/-! ### Totals -/

def heapTotalSize (heap : Heap) : Nat := heap.table.total * peachosHeapBlockSize

/-- The loop of `heap_total_used`, with `fuel` blocks left. -/
def heapTotalUsedLoop (s : HeapState) : (fuel i total : Nat) → Nat
  | 0, _, total => total
  | fuel + 1, i, total =>
      heapTotalUsedLoop s fuel (i + 1)
        (if heapGetEntryType (s.entry i) = heapBlockTableEntryTaken then total + peachosHeapBlockSize
         else total)

def heapTotalUsed (s : HeapState) : Nat := heapTotalUsedLoop s s.heap.table.total 0 0

end PeachOS
