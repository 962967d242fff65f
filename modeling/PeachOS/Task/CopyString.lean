/-
**Copying a string from a task: `copy_string_from_task`.**

The string is copied through a temporary buffer of the kernel. Its page is mapped into the page tables of the task for the
copy, over the entry that is there, and mapped once more afterwards to put the entry back. What is kept of the entry for that
is its frame and one of its access bits: `read_write | present | user_supervisor` is an `or` of single bits, so it is 1 or 0,
which says "present" in the flags of `paging_map`.

Pointers of the kernel are physical addresses. Under the page tables of the task they are translated by the walk of the
processor, and a page fault does not return.

* `copyStringFromTask_leaves` — the page of the buffer has the rebuilt entry, every other page has the one it had;
* `copyStringFromTask_iff` — all pages are translated and accessed as before exactly when the page of the buffer was
  neither writable nor accessible from user mode, and its frame fits the shift.
-/

import PeachOS.Paging.Identity
import PeachOS.Paging.Mapping
import PeachOS.Paging.Spare

namespace PeachOS

open ByteStore RadixTable
open SpanTable (Span)

/-! ### The code -/

/-- The physical address of a byte under the page tables of a descriptor; `none` for a page fault. -/
def translate (desc : PagingDesc) (mem : Memory) (va : Nat) : Option Nat :=
  let leaf := (pageWalk mem desc va).getD 0
  if entryPresent leaf then some (entryAddress leaf * 2 ^ 12 + va % 2 ^ 12) else none

/-- The loop of `strncpy` from index `i` on, with the index it ends at. The places of bytes depend on the page tables. -/
def strncpyLoop (place : Memory → Nat → Option Nat) (dest src : Nat) : (fuel i : Nat) → Memory → Option (Nat × Memory)
  | 0, i, mem => some (i, mem)
  | fuel + 1, i, mem =>
      match place mem (toWord (src + i : Nat)) with
      | none => none
      | some source =>
          if mem source = 0x00#8 then some (i, mem)
          else
            match place mem (toWord (dest + i : Nat)) with
            | none => none
            | some target => strncpyLoop place dest src fuel (i + 1) (put mem target (mem source))

/-- `strncpy`, which ends the copy with a zero. -/
def strncpy (place : Memory → Nat → Option Nat) (mem : Memory) (dest src : Nat) (count : Int) : Option Memory :=
  match strncpyLoop place dest src (count - 1).toNat 0 mem with
  | none => none
  | some (i, mem) => (place mem (toWord (dest + i : Nat))).map fun target => put mem target 0x00#8

/-- The entry that `paging_get` finds; `memcpy` from `NULL` reads the word at address zero. -/
def savedEntry (mem : Memory) (desc : PagingDesc) (virt : Nat) : Nat :=
  entryAt mem ((pagingGet mem desc virt).getD 0)

/-- `old_entry_flags`: the bits are taken by themselves, not as flags. -/
def savedFlags (entry : Nat) : BitVec 32 :=
  if entryReadWrite entry || entryPresent entry || entryUserSupervisor entry then 1#32 else 0#32

/-- `old_entry.address << 12`, in the width of the shifted field: 40 bits where a bit-field has a type of its own width (as
the compiler of the Makefile has it), 64 where it has the declared type. -/
def savedFrame (width entry : Nat) : Nat := entryAddress entry * 2 ^ 12 % 2 ^ width

/-- `copy_string_from_task`; `none` where the copy does not return. -/
def copyStringFromTask (width : Nat) (k : Kernel) (kernelDesc taskDesc : PagingDesc) (virtual phys : Nat) (max : Int) :
    Option (Int × Kernel) :=
  if max ≥ pagingPageSize then some (einvarg, k)
  else
    let tmp := kzalloc k (toWord max)
    if tmp.1 = 0 then some (enomem, tmp.2)
    else
      let physTmp := pagingGetPhysicalAddress tmp.2.mem kernelDesc tmp.1
      let oldEntry := savedEntry tmp.2.mem taskDesc physTmp
      let mapped := (pagingMap tmp.2 taskDesc physTmp physTmp
        (pagingIsWriteable ||| pagingIsPresent ||| pagingAccessFromAll)).2
      match strncpy (translate taskDesc) mapped.mem tmp.1 virtual max with
      | none => none
      | some mem =>
          match strncpy (fun _ va => some va) mem phys tmp.1 max with
          | none => none
          | some mem' =>
              let restored := (pagingMap { mapped with mem := mem' } taskDesc physTmp (savedFrame width oldEntry)
                (savedFlags oldEntry)).2
              some (0, kfree restored tmp.1)

/-! ### The loop of `strncpy` -/

/-- Memory that is the same outside some bytes. -/
def SameOutside (bytes : Set Nat) (mem mem' : Memory) : Prop := ∀ a, a ∉ bytes → mem' a = mem a

section Strncpy

variable {place : Memory → Nat → Option Nat} {bytes : Set Nat} {mem mem' : Memory} {dest src : Nat}

theorem SameOutside.put (same : SameOutside bytes mem mem') {target : Nat} (inside : target ∈ bytes) (value : Byte) :
    SameOutside bytes mem (ByteStore.put mem' target value) := fun a outside => by
  have different : a ≠ target := fun equal => outside (equal ▸ inside)
  rw [put_other mem' different value]
  exact same a outside

/-- **The loop writes where the bytes of the destination are**, up to the index it ends at. -/
theorem strncpyLoop_outside {count : Nat}
    (lands : ∀ mem', SameOutside bytes mem mem' → ∀ i < count, ∀ target,
      place mem' (toWord (dest + i : Nat)) = some target → target ∈ bytes)
    {fuel i : Nat} (bound : i + fuel ≤ count) (same : SameOutside bytes mem mem') {index : Nat} {mem'' : Memory}
    (ended : strncpyLoop place dest src fuel i mem' = some (index, mem'')) :
    index ≤ i + fuel ∧ SameOutside bytes mem mem'' := by
  induction fuel generalizing i mem' with
  | zero =>
      rw [strncpyLoop, Option.some.injEq, Prod.mk.injEq] at ended
      exact ⟨ended.1.symm.le, ended.2 ▸ same⟩
  | succ fuel ih =>
      rw [strncpyLoop] at ended
      split at ended
      · cases ended
      · split at ended
        · rw [Option.some.injEq, Prod.mk.injEq] at ended
          exact ⟨by omega, ended.2 ▸ same⟩
        · split at ended
          · cases ended
          · next source _ _ target found =>
              obtain ⟨le, same'⟩ := ih (by omega) (same.put (lands mem' same i (by omega) target found) _) ended
              exact ⟨by omega, same'⟩

/-- **`strncpy` writes to the bytes of the destination.** -/
theorem strncpy_outside {count : Int}
    (lands : ∀ mem', SameOutside bytes mem mem' → ∀ i : Nat, (i : Int) < count ∨ i = 0 → ∀ target,
      place mem' (toWord (dest + i : Nat)) = some target → target ∈ bytes)
    (done : strncpy place mem dest src count = some mem') : SameOutside bytes mem mem' := by
  unfold strncpy at done
  split at done
  · cases done
  · next index mem'' ended =>
      have lands' : ∀ mem', SameOutside bytes mem mem' → ∀ i < (count - 1).toNat, ∀ target,
          place mem' (toWord (dest + i : Nat)) = some target → target ∈ bytes :=
        fun mem' same i inside => lands mem' same i (by omega)
      obtain ⟨le, same⟩ := strncpyLoop_outside lands' (by omega) (fun _ _ => rfl) ended
      rw [Option.map_eq_some_iff] at done
      obtain ⟨target, found, rfl⟩ := done
      exact same.put (lands mem'' same index (by omega) target found) _

end Strncpy

/-! ### Bytes that are no table's -/

/-- A byte that no table of the task lies in: outside the heap, or in another of its chains. -/
def OwnByte (k : Kernel) (ledger : Ledger (Option (List Nat))) (a : Nat) : Prop :=
  ((a < k.minimal.saddr ∨ k.minimal.eaddr ≤ a) ∧
      (a < k.minimal.table.entries ∨ k.minimal.table.entries + k.minimal.table.total ≤ a)) ∨
    ∃ chain, ledger.Holds none chain ∧ a ∈ k.bytes chain

/-- The page tables of a task, in the kernel heap. -/
structure TaskTables (k : Kernel) (ledger : Ledger (Option (List Nat))) (desc : PagingDesc) : Prop where
  heap : KernelHeap k ledger.chains
  tables : PageTables k ledger some desc

section Tables

variable {k k' : Kernel} {ledger ledger' : Ledger (Option (List Nat))} {desc : PagingDesc}

/-- The walk of the processor ends on the leaf of the tables. -/
theorem TaskTables.getD_pageWalk (task : TaskTables k ledger desc) (va : Nat) :
    (pageWalk k.mem desc va).getD 0 = pageEntry k.mem desc va := by
  have held (path : List Nat) (table : Nat) (reached : ReachedTable k.mem desc path table) :
      HeldTable k ledger some path table := task.tables.tree.walk_root reached.1 reached.2.1 reached.2.2
  have tree : TableTree k.mem desc := by
    refine ⟨tree_of_reached fun path path' table one two => ?_, ?_, fun path table reached => ?_⟩
    · exact task.tables.tree.unique path path' table (held path table one) (held path' table two)
    · obtain ⟨chain, _, equal⟩ := task.tables.tree.root
      rw [equal]
      exact task.heap.address_aligned chain
    · exact task.tables.links path table (held path table reached)
  exact tree.getD_pageWalk va

/-- Own bytes stay own bytes while chains are added. -/
theorem OwnByte.grown {mine : Set (Option (List Nat))} (grown : Grown mine k ledger k' ledger') {a : Nat}
    (own : OwnByte k ledger a) : OwnByte k' ledger' a := by
  have geometry := grown.same.geometry
  rcases own with outside | ⟨chain, held, inside⟩
  · have same : k'.minimal.eaddr = k.minimal.eaddr := by rw [geometry]
    unfold OwnByte
    rw [geometry.saddr, geometry.table, same]
    exact Or.inl outside
  · exact Or.inr ⟨chain, grown.holds held, grown.same.bytes ▸ inside⟩

/-- **Writing own bytes** leaves the tables as they are. -/
theorem TaskTables.withMem (task : TaskTables k ledger desc) {bytes : Set Nat} (own : ∀ a ∈ bytes, OwnByte k ledger a)
    {mem : Memory} (same : SameOutside bytes k.mem mem) :
    TaskTables { k with mem := mem } ledger desc ∧ ∀ va, pageEntry mem desc va = pageEntry k.mem desc va := by
  have heap : KernelHeap { k with mem := mem } ledger.chains := by
    refine ⟨task.heap.list, task.heap.top, task.heap.physical, task.heap.sound, task.heap.decodes.congr fun block below => ?_⟩
    refine same _ fun isOwn => ?_
    rcases own _ isOwn with ⟨_, outside⟩ | ⟨chain, held, inside⟩
    · have entry : k.minimal.table.entries + block < k.minimal.table.entries ∨
          k.minimal.table.entries + k.minimal.table.total ≤ k.minimal.table.entries + block := outside
      omega
    · have entry : k.minimal.table.entries + block < k.minimal.table.entries ∨
          k.minimal.table.entries + k.minimal.table.total ≤ k.minimal.table.entries + block :=
        task.heap.bytes_outside held.1 inside
      omega
  have keeps (path : List Nat) (chain : Span) (held : ledger.Holds (some path) chain) :
      k.Keeps { k with mem := mem } chain := by
    refine fun a inside => same a fun isOwn => ?_
    obtain ⟨low, high⟩ := task.heap.bytes_in_heap held.1
    rcases own a isOwn with ⟨outside, _⟩ | ⟨other, heldOther, insideOther⟩
    · have within : k.address chain ≤ a ∧ a < k.address chain + chain.len * peachosHeapBlockSize := inside
      omega
    · have different : chain ≠ other := by
        rintro rfl
        cases held.unique heldOther
      exact Set.disjoint_left.mp (KernelHeap.bytes_disjoint (task.heap.disjoint held.1 heldOther.1 different)) inside
        insideOther
  have sameHeap : k.SameHeap { k with mem := mem } := ⟨rfl, rfl⟩
  obtain ⟨tables, leaves⟩ := task.tables.frame task.heap sameHeap (fun _ _ => Iff.rfl) keeps
  exact ⟨⟨heap, tables⟩, leaves⟩

/-- Other holders' chains leave the tables as they are. -/
theorem TaskTables.grown (task : TaskTables k ledger desc) (grown : Grown {none} k ledger k' ledger') :
    TaskTables k' ledger' desc ∧ ∀ va, pageEntry k'.mem desc va = pageEntry k.mem desc va := by
  have other (path : List Nat) : some path ∉ ({none} : Set (Option (List Nat))) := fun isNone => by cases isNone
  obtain ⟨tables, leaves⟩ := task.tables.frame task.heap grown.same (fun path _ => grown.holds_iff (other path))
    fun path _ held => grown.keeps held (other path)
  exact ⟨⟨grown.heap, tables⟩, leaves⟩

/-- **Mapping a page** sets its leaf and no other. -/
theorem TaskTables.map (task : TaskTables k ledger desc) {virt : Nat} (phys : Nat) (flags : BitVec 32)
    (allocates : PagingMapAllocates k desc virt) :
    ∃ ledger', Grown (Set.range some) k ledger (pagingMap k desc virt phys flags).2 ledger' ∧
      TaskTables (pagingMap k desc virt phys flags).2 ledger' desc ∧
      ∀ va, pageEntry (pagingMap k desc virt phys flags).2.mem desc va =
        if pageNumber va = pageNumber virt then leafSet (pageEntry k.mem desc virt) phys flags
        else pageEntry k.mem desc va := by
  obtain ⟨ledger', grown, tables, _, leaves⟩ :=
    pagingMap_spec task.heap task.tables (Option.some_injective _) phys flags allocates
  exact ⟨ledger', grown, ⟨grown.heap, tables⟩, leaves⟩

end Tables

/-! ### Copying through the buffer -/

section Copy

variable {k : Kernel} {ledger : Ledger (Option (List Nat))} {desc : PagingDesc} {tmp : Nat}

/-- The leaf of the buffer for the copy: its own frame, present, writable and accessible. -/
def BufferMapped (mem : Memory) (desc : PagingDesc) (tmp : Nat) : Prop :=
  entryPresent (pageEntry mem desc tmp) = true ∧ entryAddress (pageEntry mem desc tmp) * 2 ^ 12 = tmp

/-- **Under the page tables of the task the buffer is where it is.** -/
theorem translate_buffer (task : TaskTables k ledger desc) (mapped : BufferMapped k.mem desc tmp)
    (aligned : tmp % pagingPageSize = 0) {i : Nat} (inside : i < pagingPageSize) :
    translate desc k.mem (tmp + i) = some (tmp + i) := by
  simp only [pagingPageSize] at aligned inside
  have samePage : pageNumber (tmp + i) = pageNumber tmp := by
    unfold pageNumber
    simp only [pagingPageSize]
    omega
  obtain ⟨samePath, sameDigit⟩ := (pageNumber_eq_iff _ _).mp samePage
  have sameLeaf : pageEntry k.mem desc (tmp + i) = pageEntry k.mem desc tmp := by
    unfold pageEntry
    rw [samePath, sameDigit]
  unfold translate
  simp only [task.getD_pageWalk, sameLeaf, mapped.1, if_true, mapped.2]
  rw [show (tmp + i) % 2 ^ 12 = i by omega]

/-- **Copying through the buffer writes to the buffer.** -/
theorem strncpy_buffer (task : TaskTables k ledger desc) (mapped : BufferMapped k.mem desc tmp)
    (aligned : tmp % pagingPageSize = 0) (low : tmp < 2 ^ 48)
    (own : ∀ a ∈ Set.Ico tmp (tmp + pagingPageSize), OwnByte k ledger a) {virtual : Nat} {max : Int}
    (small : max < pagingPageSize) {mem : Memory} (done : strncpy (translate desc) k.mem tmp virtual max = some mem) :
    SameOutside (Set.Ico tmp (tmp + pagingPageSize)) k.mem mem := by
  refine strncpy_outside (fun mem' same i inside target found => ?_) done
  simp only [pagingPageSize] at small
  have below : i < 4096 := by omega
  have noWrap : toWord (tmp + i : Nat) = tmp + i := toWord_natCast (by omega)
  obtain ⟨task', leaves⟩ := task.withMem own same
  have mapped' : BufferMapped mem' desc tmp := by
    unfold BufferMapped
    rw [leaves]
    exact mapped
  have here : translate desc mem' (tmp + i) = some (tmp + i) := translate_buffer task' mapped' aligned below
  rw [noWrap, here, Option.some.injEq] at found
  rw [← found]
  exact ⟨Nat.le_add_right _ _, Nat.add_lt_add_left below _⟩

/-- **From the mapped buffer on**: both copies leave the tables as they are, and the last `paging_map` sets the leaf of the
buffer's page and no other. -/
theorem copied_leaves (task : TaskTables k ledger desc) (mapped : BufferMapped k.mem desc tmp)
    (aligned : tmp % pagingPageSize = 0) (low : tmp < 2 ^ 48)
    (own : ∀ a ∈ Set.Ico tmp (tmp + pagingPageSize), OwnByte k ledger a) {virtual phys : Nat} {max : Int}
    (small : max < pagingPageSize)
    (destination : ∀ i : Nat, (i : Int) < max ∨ i = 0 → OwnByte k ledger (toWord (phys + i : Nat))) {mem mem' : Memory}
    (copied : strncpy (translate desc) k.mem tmp virtual max = some mem)
    (copied' : strncpy (fun _ va => some va) mem phys tmp max = some mem') (frame : Nat) (flags : BitVec 32) :
    ∃ ledger', TaskTables (pagingMap { k with mem := mem' } desc tmp frame flags).2 ledger' desc ∧
      ∀ va, pageEntry (pagingMap { k with mem := mem' } desc tmp frame flags).2.mem desc va =
        if pageNumber va = pageNumber tmp then leafSet (pageEntry k.mem desc tmp) frame flags else pageEntry k.mem desc va := by
  obtain ⟨task₁, leaves₁⟩ := task.withMem own (strncpy_buffer task mapped aligned low own small copied)
  have same : SameOutside { a | OwnByte { k with mem := mem } ledger a } mem mem' := by
    refine strncpy_outside (fun _ _ i inside target found => ?_) copied'
    rw [← Option.some.inj found]
    exact destination i inside
  obtain ⟨task₂, leaves₂⟩ := task₁.withMem (fun _ isOwn => isOwn) same
  have leaves (va : Nat) : pageEntry mem' desc va = pageEntry k.mem desc va := (leaves₂ va).trans (leaves₁ va)
  change TaskTables { k with mem := mem' } ledger desc at task₂
  generalize copiedKernel : ({ k with mem := mem' } : Kernel) = k' at task₂ ⊢
  have sameMem : k'.mem = mem' := by rw [← copiedKernel]
  rw [← sameMem] at leaves
  have allocates : PagingMapAllocates k' desc tmp := by
    refine pagingMapAllocates_of_leaf fun null => ?_
    have present := mapped.1
    rw [← leaves tmp, null] at present
    cases present
  obtain ⟨ledger', _, task', leaves'⟩ := task₂.map frame flags allocates
  refine ⟨ledger', task', fun va => ?_⟩
  rw [leaves', leaves, leaves]

end Copy

/-! ### The buffer -/

section Buffer

variable {k : Kernel} {ledger : Ledger (Option (List Nat))} {size : Nat} {start : Nat}

/-- The page of the buffer is in its chain. -/
theorem buffer_bytes (granted : Granted k ledger.chains ⟨start, heapBlocks size⟩ (kzalloc k size).1 (kzalloc k size).2) {a : Nat}
    (inside : a ∈ Set.Ico (kzalloc k size).1 ((kzalloc k size).1 + pagingPageSize)) :
    a ∈ k.bytes ⟨start, heapBlocks size⟩ := by
  have nonempty : 0 < heapBlocks size := granted.nonempty
  obtain ⟨above, below⟩ := inside
  unfold Kernel.bytes
  rw [← granted.pointer]
  refine ⟨above, ?_⟩
  simp only [pagingPageSize, peachosHeapBlockSize] at below ⊢
  omega

/-- **The buffer is a page of the kernel's own.** -/
theorem buffer_own (granted : Granted k ledger.chains ⟨start, heapBlocks size⟩ (kzalloc k size).1 (kzalloc k size).2) :
    (kzalloc k size).1 % pagingPageSize = 0 ∧ (kzalloc k size).1 < 2 ^ 48 ∧
      ∀ a ∈ Set.Ico (kzalloc k size).1 ((kzalloc k size).1 + pagingPageSize),
        OwnByte (kzalloc k size).2 (ledger.grant (some none) ⟨start, heapBlocks size⟩) a := by
  have pointer : (kzalloc k size).1 = (kzalloc k size).2.address ⟨start, heapBlocks size⟩ :=
    granted.pointer.trans granted.same.address.symm
  have nonempty : 0 < heapBlocks size := granted.nonempty
  obtain ⟨_, high⟩ := granted.heap.bytes_in_heap (Set.mem_insert _ _)
  have physical := granted.heap.physical
  rw [← pointer] at high
  simp only [peachosHeapBlockSize] at high
  refine ⟨?_, by omega, fun a inside => Or.inr ⟨_, Ledger.holds_grant none _, ?_⟩⟩
  · rw [pointer]
    exact granted.heap.address_aligned _
  · rw [granted.same.bytes]
    exact buffer_bytes granted inside

end Buffer

/-! ### The pages of the task -/

section Pages

/-- The walk looks at the number of a page only. -/
theorem pageWalk_page {mem : Memory} {desc : PagingDesc} {va va' : Nat} (samePage : pageNumber va = pageNumber va') :
    pageWalk mem desc va = pageWalk mem desc va' := by
  obtain ⟨samePath, sameDigit⟩ := (pageNumber_eq_iff _ _).mp samePage
  unfold pagePath at samePath
  simp only [List.cons.injEq, and_true] at samePath
  unfold pageWalk
  rw [samePath.1, samePath.2.1, samePath.2.2, sameDigit]

/-- **All pages are translated and accessed as before.** -/
def PagesKept (k k' : Kernel) (desc : PagingDesc) : Prop :=
  ∀ va, let leaf := (pageWalk k.mem desc va).getD 0
    let leaf' := (pageWalk k'.mem desc va).getD 0
    entryAddress leaf' = entryAddress leaf ∧ entryPresent leaf' = entryPresent leaf ∧
      entryReadWrite leaf' = entryReadWrite leaf ∧ entryUserSupervisor leaf' = entryUserSupervisor leaf

/-- **What a copy relies on**: the kernel heap holds the page tables of the task, the kernel maps its buffer to itself,
tables that the buffer's page needs can be allocated, and the destination is not in a table of the task. -/
structure CopyReady (k : Kernel) (kernelDesc taskDesc : PagingDesc) (chains : Set Span) (phys : Nat) (max : Int) : Prop where
  tables : TablesInHeap k taskDesc chains
  identity : (kzalloc k (toWord max)).1 ≠ 0 →
    pagingGetPhysicalAddress (kzalloc k (toWord max)).2.mem kernelDesc (kzalloc k (toWord max)).1 = (kzalloc k (toWord max)).1
  allocates : (kzalloc k (toWord max)).1 ≠ 0 →
    PagingMapAllocates (kzalloc k (toWord max)).2 taskDesc (kzalloc k (toWord max)).1
  destination : ∀ i : Nat, (i : Int) < max ∨ i = 0 →
    (toWord (phys + i : Nat) < k.minimal.saddr ∨ k.minimal.eaddr ≤ toWord (phys + i : Nat)) ∧
        (toWord (phys + i : Nat) < k.minimal.table.entries ∨
          k.minimal.table.entries + k.minimal.table.total ≤ toWord (phys + i : Nat)) ∨
      ∃ chain ∈ chains, toWord (phys + i : Nat) ∈ k.bytes chain ∧
        ∀ path table, ReachedTable k.mem taskDesc path table → table ≠ k.address chain

variable {width : Nat} {k k' : Kernel} {kernelDesc desc : PagingDesc} {chains : Set Span} {virtual phys : Nat} {max res : Int}

/-- The rebuilt entry of the buffer's page. -/
def rebuiltEntry (width leaf saved tmp : Nat) : Nat :=
  leafSet (leafSet leaf tmp (pagingIsWriteable ||| pagingIsPresent ||| pagingAccessFromAll)) (savedFrame width saved)
    (savedFlags saved)

/-- The buffer of a copy, and the kernel after it was mapped into the tables of the task. -/
def copyBuffer (k : Kernel) (taskDesc : PagingDesc) (max : Int) : Nat × Kernel :=
  let tmp := kzalloc k (toWord max)
  (tmp.1, (pagingMap tmp.2 taskDesc tmp.1 tmp.1 (pagingIsWriteable ||| pagingIsPresent ||| pagingAccessFromAll)).2)

/-- **When the string is copied**: the buffer is a page of the kernel's own, mapped to itself; the destination is neither in a
table nor in the buffer. -/
structure Copying (k : Kernel) (desc : PagingDesc) (phys : Nat) (max : Int) (ledger : Ledger (Option (List Nat)))
    (tmp : Nat) (mapped : Kernel) : Prop where
  tables : TaskTables mapped ledger desc
  buffer : BufferMapped mapped.mem desc tmp
  aligned : tmp % pagingPageSize = 0
  low : tmp < 2 ^ 48
  own : ∀ a ∈ Set.Ico tmp (tmp + pagingPageSize), OwnByte mapped ledger a
  destination : ∀ i : Nat, (i : Int) < max ∨ i = 0 → OwnByte mapped ledger (toWord (phys + i : Nat)) ∧
    toWord (phys + i : Nat) ∉ Set.Ico tmp (tmp + pagingPageSize)
  leaves : ∀ va, pageEntry mapped.mem desc va =
    if pageNumber va = pageNumber tmp then
      leafSet ((pageWalk k.mem desc tmp).getD 0) tmp (pagingIsWriteable ||| pagingIsPresent ||| pagingAccessFromAll)
    else (pageWalk k.mem desc va).getD 0

/-- **Mapping the buffer.** -/
theorem CopyReady.copying (ready : CopyReady k kernelDesc desc chains phys max) (allocated : (kzalloc k (toWord max)).1 ≠ 0) :
    ∃ ledger, Copying k desc phys max ledger (copyBuffer k desc max).1 (copyBuffer k desc max).2 := by
  obtain ⟨ledger, live, tables, others⟩ := ready.tables.pageTables
  have heap : KernelHeap k ledger.chains := live ▸ ready.tables.heap
  have task : TaskTables k ledger desc := ⟨heap, tables⟩
  have allocates := ready.allocates allocated
  obtain ⟨start, granted, _⟩ := (kzalloc_cases task.heap (toWord_lt max)).resolve_left
    fun failed => allocated (by rw [failed])
  obtain ⟨aligned, low, own⟩ := buffer_own granted
  have apart : ∀ i : Nat, (i : Int) < max ∨ i = 0 → toWord (phys + i : Nat) ∉
      Set.Ico (kzalloc k (toWord max)).1 ((kzalloc k (toWord max)).1 + pagingPageSize) := by
    intro i inside member
    have isOurs := buffer_bytes granted member
    rcases ready.destination i inside with ⟨outside, -⟩ | ⟨chain, isChain, inChain, -⟩
    · obtain ⟨low, high⟩ := granted.heap.bytes_in_heap (Set.mem_insert (⟨start, heapBlocks (toWord max)⟩ : Span) _)
      rw [granted.same.address] at low high
      have geometry := granted.same.geometry
      have saddr : (kzalloc k (toWord max)).2.minimal.saddr = k.minimal.saddr := by rw [geometry]
      have eaddr : (kzalloc k (toWord max)).2.minimal.eaddr = k.minimal.eaddr := by rw [geometry]
      obtain ⟨above, below⟩ := isOurs
      omega
    · exact Set.disjoint_left.mp (KernelHeap.bytes_disjoint (granted.apart chain (live ▸ isChain))) isOurs inChain
  unfold copyBuffer
  dsimp only
  generalize kzalloc k (toWord max) = tmp at *
  -- the buffer is a chain of its own
  have grown₁ : Grown {none} k ledger tmp.2 (ledger.grant (some none) ⟨start, heapBlocks (toWord max)⟩) :=
    .of_granted task.heap granted rfl
  obtain ⟨task₁, leaves₁⟩ := task.grown grown₁
  -- the buffer in the tables of the task
  obtain ⟨ledger₂, grown₂, task₂, leaves₂⟩ :=
    task₁.map tmp.1 (pagingIsWriteable ||| pagingIsPresent ||| pagingAccessFromAll) allocates
  have buffer := leaves₂ tmp.1
  rw [if_pos rfl] at buffer
  generalize pagingMap tmp.2 desc tmp.1 tmp.1 (pagingIsWriteable ||| pagingIsPresent ||| pagingAccessFromAll) = mapped at *
  refine ⟨ledger₂, task₂, ?_, aligned, low, fun a inside => (own a inside).grown grown₂, fun i inside => ⟨?_, apart i inside⟩,
    fun va => ?_⟩
  · unfold BufferMapped
    rw [buffer, entryAddress_leafSet]
    refine ⟨entryPresent_set _ _ _ _ _, ?_⟩
    simp only [pagingPageSize] at aligned
    omega
  · refine OwnByte.grown grown₂ (OwnByte.grown grown₁ ?_)
    rcases ready.destination i inside with outside | ⟨chain, isChain, member, other⟩
    · exact Or.inl outside
    · exact Or.inr ⟨chain, others chain isChain other, member⟩
  · rw [leaves₂, leaves₁, leaves₁, task.getD_pageWalk, task.getD_pageWalk]

/-- **A copy leaves the rebuilt entry to the page of its buffer, and every other page its own.** -/
theorem copyStringFromTask_leaves (ready : CopyReady k kernelDesc desc chains phys max) (small : max < pagingPageSize)
    (allocated : (kzalloc k (toWord max)).1 ≠ 0)
    (returned : copyStringFromTask width k kernelDesc desc virtual phys max = some (res, k')) :
    ∀ va, (pageWalk k'.mem desc va).getD 0 =
      if pageNumber va = pageNumber (kzalloc k (toWord max)).1 then
        rebuiltEntry width ((pageWalk k.mem desc (kzalloc k (toWord max)).1).getD 0)
          (savedEntry (kzalloc k (toWord max)).2.mem desc (kzalloc k (toWord max)).1) (kzalloc k (toWord max)).1
      else (pageWalk k.mem desc va).getD 0 := by
  obtain ⟨ledger, copying⟩ := ready.copying allocated
  have identity := ready.identity allocated
  unfold copyStringFromTask at returned
  unfold copyBuffer at copying
  rw [if_neg (not_le.mpr small)] at returned
  dsimp only at returned copying
  rw [if_neg allocated, identity] at returned
  generalize kzalloc k (toWord max) = tmp at *
  generalize pagingMap tmp.2 desc tmp.1 tmp.1 (pagingIsWriteable ||| pagingIsPresent ||| pagingAccessFromAll) = mapped at *
  split at returned
  · cases returned
  · next mem copied =>
      split at returned
      · cases returned
      · next mem' copied' =>
          obtain ⟨ledger', task', leaves'⟩ := copied_leaves copying.tables copying.buffer copying.aligned copying.low
            copying.own small (fun i inside => (copying.destination i inside).1) copied copied'
            (savedFrame width (savedEntry tmp.2.mem desc tmp.1)) (savedFlags (savedEntry tmp.2.mem desc tmp.1))
          generalize pagingMap { mapped.2 with mem := mem' } desc tmp.1 _ _ = restored at *
          rw [Option.some.injEq, Prod.mk.injEq] at returned
          have result : k' = restored.2 := returned.2.symm
          intro va
          rw [result, task'.getD_pageWalk, leaves', copying.leaves, copying.leaves]
          by_cases samePage : pageNumber va = pageNumber tmp.1
          · rw [if_pos samePage, if_pos samePage, if_pos rfl]
            rfl
          · rw [if_neg samePage, if_neg samePage, if_neg samePage]

/-- **When the rebuilt entry is the old one**: the page was neither writable nor accessible from user mode, and present if
any access bit was saved, and the frame fits the shift. -/
structure EntryRestored (width leaf saved : Nat) : Prop where
  frame : savedFrame width saved / 2 ^ 12 % 2 ^ 40 = entryAddress leaf
  present : (entryReadWrite saved || entryPresent saved || entryUserSupervisor saved) = entryPresent leaf
  readOnly : entryReadWrite leaf = false
  supervisor : entryUserSupervisor leaf = false

/-- The saved flags say nothing but "present". -/
theorem savedFlags_bits (entry : Nat) :
    decide (savedFlags entry &&& pagingIsPresent ≠ 0) =
        (entryReadWrite entry || entryPresent entry || entryUserSupervisor entry) ∧
      decide (savedFlags entry &&& pagingIsWriteable ≠ 0) = false ∧
      decide (savedFlags entry &&& pagingAccessFromAll ≠ 0) = false := by
  unfold savedFlags
  cases entryReadWrite entry || entryPresent entry || entryUserSupervisor entry <;> decide

/-- The translation and the access bits of the rebuilt entry. -/
theorem rebuiltEntry_fields (width leaf saved tmp : Nat) :
    entryAddress (rebuiltEntry width leaf saved tmp) = savedFrame width saved / 2 ^ 12 % 2 ^ 40 ∧
      entryPresent (rebuiltEntry width leaf saved tmp) =
        (entryReadWrite saved || entryPresent saved || entryUserSupervisor saved) ∧
      entryReadWrite (rebuiltEntry width leaf saved tmp) = false ∧
      entryUserSupervisor (rebuiltEntry width leaf saved tmp) = false := by
  obtain ⟨present, writable, user⟩ := savedFlags_bits saved
  exact ⟨entryAddress_leafSet _ _ _, (entryPresent_set _ _ _ _ _).trans present,
    (entryReadWrite_set _ _ _ _ _).trans writable, (entryUserSupervisor_set _ _ _ _ _).trans user⟩

/-- A call that fails early has changed nothing. -/
theorem copyStringFromTask_early (heap : KernelHeap k chains)
    (early : pagingPageSize ≤ max ∨ (kzalloc k (toWord max)).1 = 0)
    (returned : copyStringFromTask width k kernelDesc desc virtual phys max = some (res, k')) : k' = k := by
  unfold copyStringFromTask at returned
  by_cases large : max ≥ pagingPageSize
  · rw [if_pos large, Option.some.injEq, Prod.mk.injEq] at returned
    exact returned.2.symm
  · have failed := early.resolve_left large
    have same : (kzalloc k (toWord max)).2 = k := by
      rcases kzalloc_cases heap (toWord_lt max) with equal | ⟨start, granted, _⟩
      · rw [equal]
      · rw [granted.pointer] at failed
        exact absurd failed (heap.address_pos _).ne'
    dsimp only at returned
    rw [if_neg large, if_pos failed, Option.some.injEq, Prod.mk.injEq] at returned
    exact returned.2.symm.trans same

/-- **A copy keeps the pages of its task exactly when it fails early, or the entry of the buffer's page is restored.** -/
theorem copyStringFromTask_iff (ready : CopyReady k kernelDesc desc chains phys max)
    (returned : copyStringFromTask width k kernelDesc desc virtual phys max = some (res, k')) :
    PagesKept k k' desc ↔ (pagingPageSize ≤ max ∨ (kzalloc k (toWord max)).1 = 0) ∨
      EntryRestored width ((pageWalk k.mem desc (kzalloc k (toWord max)).1).getD 0)
        (savedEntry (kzalloc k (toWord max)).2.mem desc (kzalloc k (toWord max)).1) := by
  by_cases early : pagingPageSize ≤ max ∨ (kzalloc k (toWord max)).1 = 0
  · rw [copyStringFromTask_early ready.tables.heap early returned]
    exact ⟨fun _ => Or.inl early, fun _ _ => ⟨rfl, rfl, rfl, rfl⟩⟩
  · rw [not_or, not_le] at early
    have leaves := copyStringFromTask_leaves ready early.1 early.2 returned
    obtain ⟨frame, present, writable, user⟩ := rebuiltEntry_fields width
      ((pageWalk k.mem desc (kzalloc k (toWord max)).1).getD 0)
      (savedEntry (kzalloc k (toWord max)).2.mem desc (kzalloc k (toWord max)).1) (kzalloc k (toWord max)).1
    constructor
    · intro kept
      have page := kept (kzalloc k (toWord max)).1
      simp only [leaves, if_true] at page
      refine Or.inr ⟨?_, ?_, ?_, ?_⟩
      · rw [← frame]
        exact page.1
      · rw [← present]
        exact page.2.1
      · rw [← page.2.2.1]
        exact writable
      · rw [← page.2.2.2]
        exact user
    · rintro (failed | restored) va
      · exact absurd failed (by rw [not_or, not_le]; exact early)
      · simp only [leaves]
        by_cases samePage : pageNumber va = pageNumber (kzalloc k (toWord max)).1
        · rw [if_pos samePage, frame, present, writable, user, pageWalk_page samePage]
          exact ⟨restored.frame, restored.present, restored.readOnly.symm, restored.supervisor.symm⟩
        · rw [if_neg samePage]
          exact ⟨rfl, rfl, rfl, rfl⟩

end Pages

/-! ### A buffer in a page of the task -/

/-- The tables of a task whose root is the first block of the heap. -/
def heapTables : PagingDesc where
  pml := 0x100000
  level := pagingMapLevel4

/-- The memory of a task before its pages: four chains, three letters in page `0x5000`. -/
def lettersAndChains : Memory := fun a =>
  if 0x1000 ≤ a ∧ a < 0x1004 then mallocEntry 1 0 else if 0x5000 ≤ a ∧ a < 0x5003 then 0x61#8 else 0x00#8

/-- The four tables of the task. -/
def lowPages : Memory :=
  linkTable (linkTable (linkTable lettersAndChains 0x100000 0 0x101000) 0x101000 0 0x102000) 0x102000 0 0x103000

/-- **A task with two pages**: its string in page `0x5000`, and the next block of the kernel heap, `0x104000`, which is
mapped to itself, writable for the kernel. -/
def bufferMappedKernel : Kernel where
  mem := setEntryAt (setEntryAt lowPages (0x103000 + sizeofPagingDescEntry * 5) 0x5007)
    (0x103000 + sizeofPagingDescEntry * 260) 0x104003
  heaps := fun _ =>
    { table := { entries := 0x1000, total := 8 }, saddr := 0x100000, eaddr := 0x108000, totalBlocks := 8,
      freeBlocks := 4, usedBlocks := 4, blockAllocatedCallback := false, blockFreeCallback := false }
  multiheap :=
    { startingHeap := .kernelMinimalHeap, heaps := [⟨.kernelMinimalHeap, none, multiheapHeapFlagExternallyOwned⟩],
      maxEndDataAddr := 0x108000, flags := multiheapFlagIsReady, totalHeaps := 1 }
  calls := []

/-- The chains of its heap. -/
def fourChains : Set Span := { chain | chain.len = 1 ∧ chain.start < 4 }

/-- **A heap whose first blocks are chains of one block each.** -/
theorem kernelHeap_singles {k : Kernel} {n : Nat} (list : ∃ flags, k.multiheap.heaps = [⟨.kernelMinimalHeap, none, flags⟩])
    (top : k.minimal.eaddr ≤ k.multiheap.maxEndDataAddr) (physical : k.minimal.eaddr ≤ 2 ^ 48) (sound : k.minimal.Sound)
    (few : n ≤ k.minimal.table.total) (taken : ∀ block < n, k.minimalState.view block = mallocEntry 1 0)
    (free : ∀ block < k.minimal.table.total, n ≤ block → k.minimalState.view block = heapBlockTableEntryFree) :
    KernelHeap k { chain | chain.len = 1 ∧ chain.start < n } where
  list := list
  top := top
  physical := physical
  sound := sound
  decodes := by
    refine ⟨⟨fun chain member => ?_, fun chain member => ?_, fun chain member other member' different => ?_⟩,
      fun chain member place inside => ?_, fun block below outside => free block below ?_⟩
    · rw [member.1]
      exact Nat.one_pos
    · have size := member.1
      have first := member.2
      omega
    · refine Set.disjoint_left.mpr fun block inFirst inSecond => different ?_
      rw [Span.mem_blocks, member.1] at inFirst
      rw [Span.mem_blocks, member'.1] at inSecond
      rcases chain with ⟨start, len⟩
      rcases other with ⟨start', len'⟩
      have size : len = 1 := member.1
      have size' : len' = 1 := member'.1
      simp only at inFirst inSecond
      rw [SpanTable.Span.mk.injEq]
      omega
    · have size := member.1
      have first := member.2
      rw [show place = 0 by omega, Nat.add_zero, taken _ first, size]
      exact looseCoding_mallocEntry 1 0
    · by_contra taken'
      exact outside ⟨block, 1⟩ ⟨rfl, not_le.mp taken'⟩ ⟨le_rfl, Nat.lt_succ_self _⟩

theorem kernelHeap_bufferMapped : KernelHeap bufferMappedKernel fourChains :=
  kernelHeap_singles ⟨_, rfl⟩ (by decide) (by decide)
    ⟨by decide, by decide, by decide, by decide, by decide, by decide, by decide, by decide⟩ (by decide) (by decide +kernel)
    (by decide +kernel)

theorem tablesInHeap_bufferMapped : TablesInHeap bufferMappedKernel heapTables fourChains := by
  obtain ⟨tree₃, reached₃, inUse₃, _⟩ := @linkThree_tables lettersAndChains heapTables 0 0 0 (by decide) (by decide)
    (by decide) fun a (high : 0x100000 ≤ a) => by
      unfold lettersAndChains
      rw [if_neg (by omega), if_neg (by omega)]
  obtain ⟨tree₄, reachedIff₄, _⟩ := tree₃.setLeaf reached₃ rfl (show 5 < pagingTotalEntriesPerTable by decide)
    (show 0x5007 < 2 ^ 64 by decide)
  obtain ⟨tree₅, reachedIff₅, _⟩ := tree₄.setLeaf ((reachedIff₄ _ _).mpr reached₃) rfl
    (show 260 < pagingTotalEntriesPerTable by decide) (show 0x104003 < 2 ^ 64 by decide)
  refine ⟨kernelHeap_bufferMapped, tree₅, fun path table reached => ?_⟩
  obtain ⟨low, high⟩ : 0x100000 ≤ table ∧ table ≤ 0x103000 :=
    inUse₃ path table ((reachedIff₄ _ _).mp ((reachedIff₅ _ _).mp reached))
  have aligned := tree₅.table_aligned reached
  simp only [pagingPageSize] at aligned
  refine ⟨⟨(table - 0x100000) / 4096, 1⟩, ⟨rfl, ?_⟩, ?_⟩
  · show (table - 0x100000) / 4096 < 4
    omega
  · show table = 0x100000 + (table - 0x100000) / 4096 * 4096
    omega

/-- The block that the heap gives out for the buffer. -/
theorem buffer_bufferMapped : (kzalloc bufferMappedKernel (toWord 16)).1 = 0x104000 := by decide +kernel

/-- **The string is copied to memory outside the heap.** -/
theorem copyReady_bufferMapped : CopyReady bufferMappedKernel heapTables heapTables fourChains 0x9000 16 where
  tables := tablesInHeap_bufferMapped
  identity := fun _ => by decide +kernel
  allocates := fun _ => by
    rw [buffer_bufferMapped]
    refine pagingMapAllocates_of_leaf ?_
    decide +kernel
  destination := fun i inside => Or.inl (by
    have noWrap : toWord (0x9000 + i : Nat) = 0x9000 + i := toWord_natCast (by omega)
    rw [noWrap]
    have first : bufferMappedKernel.minimal.saddr = 0x100000 := rfl
    have entries : bufferMappedKernel.minimal.table.entries + bufferMappedKernel.minimal.table.total = 0x1008 := rfl
    omega)

/-- The string arrives, and the page of the buffer is not writable any more. -/
theorem copy_bufferMapped : (copyStringFromTask 40 bufferMappedKernel heapTables heapTables 0x5000 0x9000 16).map (fun result =>
    (result.1, result.2.mem 0x9002, result.2.mem 0x9003, (pageWalk result.2.mem heapTables 0x104000).getD 0)) =
    some (0, 0x61#8, 0x00#8, 0x104001) := by decide +kernel

/-- **The kernel loses its write access to the page of the buffer**, which was mapped to itself as every page of the
kernel heap is. -/
theorem copyStringFromTask_losesWrite : ∃ k', copyStringFromTask 40 bufferMappedKernel heapTables heapTables 0x5000 0x9000 16 =
    some (0, k') ∧ ¬ PagesKept bufferMappedKernel k' heapTables := by
  have copied := copy_bufferMapped
  rw [Option.map_eq_some_iff] at copied
  obtain ⟨⟨res, k'⟩, returned, result⟩ := copied
  simp only [Prod.mk.injEq] at result
  refine ⟨k', by rw [returned, result.1], fun kept => ?_⟩
  have page := (kept 0x104000).2.2.1
  rw [result.2.2.2] at page
  have before_ : (pageWalk bufferMappedKernel.mem heapTables 0x104000).getD 0 = 0x104003 := by decide +kernel
  rw [before_] at page
  exact absurd page (by decide)

/-- The theorem at this copy. -/
theorem copyStringFromTask_iff_bufferMapped : ∃ k', copyStringFromTask 40 bufferMappedKernel heapTables heapTables 0x5000 0x9000
    16 = some (0, k') ∧ (PagesKept bufferMappedKernel k' heapTables ↔
      (pagingPageSize ≤ (16 : Int) ∨ (kzalloc bufferMappedKernel (toWord 16)).1 = 0) ∨
        EntryRestored 40 ((pageWalk bufferMappedKernel.mem heapTables (kzalloc bufferMappedKernel (toWord 16)).1).getD 0)
          (savedEntry (kzalloc bufferMappedKernel (toWord 16)).2.mem heapTables
            (kzalloc bufferMappedKernel (toWord 16)).1)) := by
  have copied := copy_bufferMapped
  rw [Option.map_eq_some_iff] at copied
  obtain ⟨⟨res, k'⟩, returned, result⟩ := copied
  simp only [Prod.mk.injEq] at result
  exact ⟨k', by rw [returned, result.1], copyStringFromTask_iff copyReady_bufferMapped returned⟩

end PeachOS
