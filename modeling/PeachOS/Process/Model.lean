/-
**The memory of processes: `task/process.c`.**

A process records its allocations in a vector of slots, maps them into its page tables, and gives them
back. A slot with a null pointer is free. The functions take the kernel and the process and return both;
`none` stands for a panic of `krealloc`.

* `processMalloc`, `processRealloc` and `processFree` are the allocator of a process;
* `processMapIntoUserspace` replaces the pages of a fresh allocation by other physical pages;
* `processGetAllocationByAddr`, `processValidateMemoryOrTerminate` and `processFread` check and use
  addresses that a process passes to the kernel. A negative result of the check terminates the process,
  which is not modelled; neither is what the file system does when it reads.
-/

import PeachOS.Paging.Model
import PeachOS.Vector.Model

namespace PeachOS

open ByteStore

/-- `struct process_allocation`; `endPtr` is its field `end`. -/
structure ProcessAllocation where
  ptr : Nat
  endPtr : Nat
  size : Nat
deriving DecidableEq

/-- `sizeof(struct process_allocation)`. -/
abbrev sizeofProcessAllocation : Nat := 24

/-- The bytes of an allocation. -/
def ProcessAllocation.encode (allocation : ProcessAllocation) : List Byte :=
  encodeWord 8 allocation.ptr ++ encodeWord 8 allocation.endPtr ++ encodeWord 8 allocation.size

/-- The allocation that some bytes are. -/
def ProcessAllocation.decode (bytes : List Byte) : ProcessAllocation :=
  { ptr := decodeWord (bytes.take 8)
    endPtr := decodeWord ((bytes.drop 8).take 8)
    size := decodeWord ((bytes.drop 16).take 8) }

/-- The fields of `struct process` that the allocator and the file calls use. -/
structure Process where
  allocations : Vector
  fileHandles : Vector
  pagingDesc : PagingDesc
deriving DecidableEq

/-- `vector_at(process->allocations, i, &allocation, sizeof(allocation))`. -/
def processAllocationAt (mem : Memory) (process : Process) (i : Nat) : Int × ProcessAllocation :=
  let result := vectorAt mem process.allocations i (List.replicate sizeofProcessAllocation 0x00#8)
  (result.1, .decode result.2)

/-! ### Searching the slots -/

/-- The loop of `process_find_free_allocation_index`, with `fuel` slots left: the result of the last
step, and whether a free slot was found. -/
def processFindFreeAllocationIndexLoop (mem : Memory) (process : Process) : (fuel i : Nat) → (res : Int) → Int × Bool
  | 0, _, res => (res, false)
  | fuel + 1, i, _ =>
      let allocation := processAllocationAt mem process i
      if allocation.1 < 0 then (allocation.1, false)
      else if allocation.2.ptr = 0 then (toInt32 i, true)
      else processFindFreeAllocationIndexLoop mem process fuel (i + 1) allocation.1

def processFindFreeAllocationIndex (k : Kernel) (process : Process) : Option (Int × Process × Kernel) :=
  let found := processFindFreeAllocationIndexLoop k.mem process (vectorCount process.allocations) 0 0
  if found.2 then some (found.1, process, k)
  else
    match vectorPush k process.allocations (ProcessAllocation.encode ⟨0, 0, 0⟩) with
    | none => none
    | some (res, allocations, k) => some (res, { process with allocations := allocations }, k)

/-- The loop of `process_allocation_exists`. -/
def processAllocationExistsLoop (mem : Memory) (process : Process) (ptr : Nat) :
    (fuel i : Nat) → (res : Int) → Int × Option Nat
  | 0, _, res => (res, none)
  | fuel + 1, i, _ =>
      let allocation := processAllocationAt mem process i
      if allocation.1 < 0 then (allocation.1, none)
      else if allocation.2.ptr = ptr then (0, some i)
      else processAllocationExistsLoop mem process ptr fuel (i + 1) allocation.1

/-- `process_allocation_exists`: the result, and the index if one was written to `index_out`. -/
def processAllocationExists (mem : Memory) (process : Process) (ptr : Nat) : Int × Option Nat :=
  processAllocationExistsLoop mem process ptr (vectorCount process.allocations) 0 enotfound

/-- The loop of `process_get_allocation_by_start_addr`. -/
def processGetAllocationByStartAddrLoop (mem : Memory) (process : Process) (addr : Nat) :
    (fuel i : Nat) → Option ProcessAllocation
  | 0, _ => none
  | fuel + 1, i =>
      let allocation := processAllocationAt mem process i
      if allocation.1 < 0 then none
      else if allocation.2.ptr = addr then some allocation.2
      else processGetAllocationByStartAddrLoop mem process addr fuel (i + 1)

/-- `process_get_allocation_by_start_addr`: `none` for `-EIO`. -/
def processGetAllocationByStartAddr (mem : Memory) (process : Process) (addr : Nat) : Option ProcessAllocation :=
  processGetAllocationByStartAddrLoop mem process addr (vectorCount process.allocations) 0

/-- The loop of `process_allocation_unjoin`. -/
def processAllocationUnjoinLoop (process : Process) (ptr : Nat) : (fuel i : Nat) → Kernel → Kernel
  | 0, _, k => k
  | fuel + 1, i, k =>
      let allocation := processAllocationAt k.mem process i
      if allocation.1 < 0 then k
      else if allocation.2.ptr = ptr then
        processAllocationUnjoinLoop process ptr fuel (i + 1)
          (vectorOverwrite k process.allocations (toInt32 i) (ProcessAllocation.encode ⟨0, 0, 0⟩)).2
      else processAllocationUnjoinLoop process ptr fuel (i + 1) k

def processAllocationUnjoin (k : Kernel) (process : Process) (ptr : Nat) : Kernel :=
  processAllocationUnjoinLoop process ptr (vectorCount process.allocations) 0 k

/-! ### Allocating, reallocating, freeing -/

/-- The flags of the pages of an allocation. -/
def allocationFlags : BitVec 32 := pagingIsWriteable ||| pagingIsPresent ||| pagingAccessFromAll

def processAllocationSetMap (k : Kernel) (process : Process) (allocationEntryIndex : Int) (ptr size : Nat) :
    Int × Kernel :=
  let mapped := pagingMapTo k process.pagingDesc ptr ptr (pagingAlignAddress (toWord (ptr + size))) allocationFlags
  if mapped.1 < 0 then mapped
  else
    let allocation := processAllocationAt mapped.2.mem process (toWord allocationEntryIndex)
    if allocation.1 < 0 then (allocation.1, mapped.2)
    else
      let allocation : ProcessAllocation := { ptr := ptr, endPtr := toWord (ptr + size), size := size }
      (0, (vectorOverwrite mapped.2 process.allocations allocationEntryIndex allocation.encode).2)

/-- `process_malloc`; what it allocates and cannot record it passes to `kfree`, which does nothing. -/
def processMalloc (k : Kernel) (process : Process) (size : Nat) : Option (Nat × Process × Kernel) :=
  let allocated := kzalloc k size
  if allocated.1 = 0 then some (0, process, allocated.2)
  else
    match processFindFreeAllocationIndex allocated.2 process with
    | none => none
    | some (index, process, k) =>
        if index < 0 then some (0, process, kfree k allocated.1)
        else
          let res := processAllocationSetMap k process index allocated.1 size
          if res.1 < 0 then some (0, process, kfree res.2 allocated.1)
          else some (allocated.1, process, res.2)

def processRealloc (k : Kernel) (process : Process) (oldVirtPtr newSize : Nat) :
    Option (Nat × Process × Kernel) :=
  if oldVirtPtr = 0 then processMalloc k process newSize
  else
    let exists_ := processAllocationExists k.mem process oldVirtPtr
    if exists_.1 < 0 then some (0, process, k)
    else
      -- an index that is not written stays zero
      let oldAllocationIndex := exists_.2.getD 0
      let oldPhysPtr := pagingGetPhysicalAddress k.mem process.pagingDesc oldVirtPtr
      if oldPhysPtr = 0 then some (0, process, k)
      else
        match krealloc k oldPhysPtr newSize with
        | none => none
        | some (newPtr, k) =>
            if newPtr = 0 then some (0, process, k)
            else
              some (newPtr, process, (processAllocationSetMap k process (toInt32 oldAllocationIndex) newPtr newSize).2)

def processFree (k : Kernel) (process : Process) (ptr : Nat) : Kernel :=
  match processGetAllocationByStartAddr k.mem process ptr with
  | none => k
  | some allocation =>
      let unmapped := pagingMapTo k process.pagingDesc allocation.ptr allocation.ptr
        (pagingAlignAddress (toWord (allocation.ptr + allocation.size))) 0x00#32
      if unmapped.1 < 0 then unmapped.2
      else kfree (processAllocationUnjoin unmapped.2 process ptr) ptr

/-! ### Other physical pages -/

/-- `process_map_into_userspace`: the result, the value of `*virt_addr_out` when it is written, the
process and the kernel. -/
def processMapIntoUserspace (k : Kernel) (process : Process) (physPtr tSize : Nat) (mapFlags : BitVec 32) :
    Option (Int × Option Nat × Process × Kernel) :=
  let endPhysAddr := toWord (physPtr + tSize)
  if !pagingIsAligned physPtr then some (einvarg, none, process, k)
  else if !pagingIsAligned endPhysAddr then some (einvarg, none, process, k)
  else
    match processMalloc k process tSize with
    | none => none
    | some (virtPtr, process, k) =>
        if virtPtr = 0 then some (enomem, none, process, k)
        else
          let res := pagingMapRange k process.pagingDesc virtPtr physPtr tSize (mapFlags ||| pagingAccessFromAll)
          if res.1 < 0 then some (res.1, none, process, res.2)
          else some (res.1, some virtPtr, process, res.2)

/-! ### Addresses that a process passes to the kernel -/

/-- `PEACHOS_USER_PROGRAM_STACK_SIZE`. -/
abbrev peachosUserProgramStackSize : Nat := 1024 * 16

/-- `PEACHOS_PROGRAM_VIRTUAL_STACK_ADDRESS_START`. -/
abbrev peachosProgramVirtualStackAddressStart : Nat := 0x3FF000

/-- `PEACHOS_PROGRAM_VIRTUAL_STACK_ADDRESS_END`. -/
abbrev peachosProgramVirtualStackAddressEnd : Nat :=
  peachosProgramVirtualStackAddressStart - peachosUserProgramStackSize

/-- `PROCESS_ALLOCATION_REQUEST_IS_STACK_MEMORY`. -/
def processAllocationRequestIsStackMemory : BitVec 32 := 0b00000001#32

/-- `struct process_allocation_request`, its `peek` being the last three fields. -/
structure ProcessAllocationRequest where
  allocation : ProcessAllocation
  flags : BitVec 32
  peekAddr : Nat
  peekEnd : Nat
  totalBytesLeft : Nat
deriving DecidableEq

def processIsStackMemory (addr : Nat) : Bool :=
  addr ≥ peachosProgramVirtualStackAddressEnd ∧ addr ≤ peachosProgramVirtualStackAddressStart

/-- The loop of `process_get_allocation_by_addr` over the slots. -/
def processGetAllocationByAddrLoop (mem : Memory) (process : Process) (addr : Nat) :
    (fuel i : Nat) → Except Int ProcessAllocationRequest
  | 0, _ => .error eio
  | fuel + 1, i =>
      let allocation := processAllocationAt mem process i
      if allocation.1 < 0 then .error eio
      else if addr ≥ allocation.2.ptr ∧ addr ≤ allocation.2.endPtr then
        let bytesUsed := toWord (addr - allocation.2.ptr)
        let bytesLeft := toWord (allocation.2.endPtr - bytesUsed)
        .ok { allocation := allocation.2, flags := 0, peekAddr := addr, peekEnd := allocation.2.endPtr,
              totalBytesLeft := bytesLeft }
      else processGetAllocationByAddrLoop mem process addr fuel (i + 1)

def processGetAllocationByAddr (mem : Memory) (process : Process) (addr : Nat) :
    Except Int ProcessAllocationRequest :=
  if processIsStackMemory addr then
    .ok { allocation := { ptr := peachosProgramVirtualStackAddressEnd,
                          endPtr := peachosProgramVirtualStackAddressStart,
                          size := peachosUserProgramStackSize }
          flags := processAllocationRequestIsStackMemory
          peekAddr := addr
          peekEnd := peachosProgramVirtualStackAddressStart
          totalBytesLeft := toWord (peachosProgramVirtualStackAddressStart - addr) }
  else processGetAllocationByAddrLoop mem process addr (vectorCount process.allocations) 0

def processValidateMemoryOrTerminate (mem : Memory) (process : Process) (virtAddr spaceNeeded : Nat) : Int :=
  match processGetAllocationByAddr mem process virtAddr with
  | .error res => res
  | .ok allocationRequest => if allocationRequest.totalBytesLeft < spaceNeeded then einvarg else 0

/-! ### Reading a file -/

/-- `PEACHOS_MAX_FILE_DESCRIPTORS`. -/
def peachosMaxFileDescriptors : Int := 512

/-- The array `file_descriptors`: the pointer of each descriptor, zero for none. -/
abbrev FileDescriptors := Nat → Nat

def fileGetDescriptor (descriptors : FileDescriptors) (fd : Int) : Nat :=
  if fd ≤ 0 ∨ fd ≥ peachosMaxFileDescriptors then 0 else descriptors (fd - 1).toNat

/-- A call of the `read` function of a file system. -/
structure FilesystemRead where
  desc : Nat
  size : Nat
  nmemb : Nat
  out : Nat
deriving DecidableEq

/-- `fread` up to the call into the file system, or its result if it makes none. -/
def fread (descriptors : FileDescriptors) (ptr size nmemb : Nat) (fd : Int) : Except Int FilesystemRead :=
  if size = 0 ∨ nmemb = 0 ∨ fd < 1 then .error einvarg
  else
    let desc := fileGetDescriptor descriptors fd
    if desc = 0 then .error einvarg
    else .ok { desc := desc, size := size, nmemb := nmemb, out := ptr }

/-- The loop of `process_file_handle_get`: the file number of the first handle with this number. -/
def processFileHandleGetLoop (mem : Memory) (process : Process) (fd : Int) : (fuel i : Nat) → Option Int
  | 0, _ => none
  | fuel + 1, i =>
      let handle := decodeWord (vectorAt mem process.fileHandles i (List.replicate 8 0x00#8)).2
      if handle ≠ 0 ∧ toInt32 (readWord mem handle 4) = fd then some fd
      else processFileHandleGetLoop mem process fd fuel (i + 1)

/-- `process_file_handle_get`: `handle->fd` of the handle it finds. -/
def processFileHandleGet (mem : Memory) (process : Process) (fd : Int) : Option Int :=
  processFileHandleGetLoop mem process fd (vectorCount process.fileHandles) 0

/-- `process_fread` up to the call into the file system, or its result if it makes none: the sizes are
multiplied as 64-bit words and passed on as 32-bit words. -/
def processFread (mem : Memory) (process : Process) (descriptors : FileDescriptors) (virtPtr size nmemb : Nat)
    (fd : Int) : Except Int FilesystemRead :=
  match processFileHandleGet mem process fd with
  | none => .error eio
  | some handleFd =>
      let trueSize := toWord (size * nmemb)
      let res := processValidateMemoryOrTerminate mem process virtPtr trueSize
      if res < 0 then .error res
      else
        let physPtr := pagingGetPhysicalAddress mem process.pagingDesc virtPtr
        if physPtr = 0 then .error res
        else fread descriptors physPtr (size % 2 ^ 32) (nmemb % 2 ^ 32) handleFd

end PeachOS
