/-
**A program that is ready to be mapped.**

While the kernel heap has blocks to spare, a file can be loaded and its pages can be mapped.

* `elfRequestAt_eq` — as long as its headers are kept, a file asks for the same pages;
* `requestsAllocate_inHeap` — three blocks are enough for each page that is asked for;
* `programReady` — a file that is loaded into one block, next to a new descriptor.
-/

import PeachOS.Loader.Zeroing
import PeachOS.Paging.Spare
import PeachOS.Process.MapElf

namespace PeachOS

open ByteStore
open SpanTable (Span)

/-! ### The requests of a file -/

/-- A program header is read from the buffer as it is in the file. -/
theorem elfRequestAt_eq {mem mem' : Memory} {elfMemory i : Nat} (agrees : ∀ a ∈ headerBytes mem elfMemory, mem' a = mem a)
    (word : elfMemory + ePhoff mem elfMemory + sizeofElf64Phdr * ePhnum mem elfMemory < 2 ^ 64)
    (inTable : i < ePhnum mem elfMemory) :
    elfRequestAt mem' elfMemory (elfMemory + ePhoff mem elfMemory) i =
      mapElfRequest elfMemory (elfSegment mem elfMemory i) := by
  have entry : sizeofElf64Phdr * i ≤ sizeofElf64Phdr * ePhnum mem elfMemory := Nat.mul_le_mul_left _ inTable.le
  have address : toWord ((elfMemory + ePhoff mem elfMemory : Nat) + (sizeofElf64Phdr : Int) * i) =
      elfMemory + ePhoff mem elfMemory + sizeofElf64Phdr * i :=
    toWord_eq (by omega) (by omega)
  have segment := elfSegment_congr agrees inTable
  unfold elfSegment at segment
  rw [(elfHeader_congr agrees).1] at segment
  unfold elfRequestAt elfSegment
  rw [address, segment]

section Allocate

variable {desc : PagingDesc} {elfMemory : Nat}

/-- Three blocks are enough for each page of a request. -/
theorem mapElfRequest_inHeap {k : Kernel} {chains : Set Span} (spare : Nat) (phdr : Elf64Phdr)
    (inHeap : TablesInHeap k desc chains)
    (spares : SpareBlocks k chains (spare + 3 * (mapElfRequest elfMemory phdr).pages)) :
    let request := mapElfRequest elfMemory phdr
    PagingRangeAllocates desc request.flags request.pages request.virt request.phys k ∧
      ∃ chains', TablesInHeap (request.map k desc).2 desc chains' ∧
        SpareBlocks (request.map k desc).2 chains' spare := by
  intro request
  rcases mapElfRequest_map k desc elfMemory phdr with ⟨_, none, refused⟩ | ⟨_, maps⟩
  · rw [refused, none]
    exact ⟨trivial, chains, inHeap, spares.mono⟩
  · rw [maps]
    exact pagingMapRangeLoop_inHeap spare inHeap spares

variable {Holder : Type} {holder : List Nat → Holder} (injective : Function.Injective holder) {mem : Memory}
  {file : Holder} {chain : Span} (other : file ∉ Set.range holder)
  (word : elfMemory + ePhoff mem elfMemory + sizeofElf64Phdr * ePhnum mem elfMemory < 2 ^ 64)
  {most : Nat} (few : ∀ h < ePhnum mem elfMemory, (mapElfRequest elfMemory (elfSegment mem elfMemory h)).pages ≤ most)

include injective other word few

/-- **Three blocks are enough for each page** that a file asks for. -/
theorem requestsAllocate_inHeap {fuel i : Nat} {k : Kernel} {ledger : Ledger Holder} {chains : Set Span}
    (heap : KernelHeap k ledger.chains) (tables : PageTables k ledger holder desc) (held : ledger.Holds file chain)
    (inBuffer : headerBytes mem elfMemory ⊆ k.bytes chain) (agrees : ∀ a ∈ headerBytes mem elfMemory, k.mem a = mem a)
    (inHeap : TablesInHeap k desc chains) (spares : SpareBlocks k chains (3 * most * (ePhnum mem elfMemory - i))) :
    RequestsAllocate desc elfMemory (elfMemory + ePhoff mem elfMemory) fuel i k := by
  induction fuel generalizing i k ledger chains with
  | zero => exact trivial
  | succ fuel ih =>
      rw [RequestsAllocate, (elfHeader_congr agrees).2]
      intro more
      rw [elfRequestAt_eq agrees word more]
      have enough : 3 * most * (ePhnum mem elfMemory - i) = 3 * most * (ePhnum mem elfMemory - (i + 1)) +
          (3 * most - 3 * (mapElfRequest elfMemory (elfSegment mem elfMemory i)).pages) +
          3 * (mapElfRequest elfMemory (elfSegment mem elfMemory i)).pages := by
        have here := few i more
        have left : ePhnum mem elfMemory - i = ePhnum mem elfMemory - (i + 1) + 1 := by omega
        rw [left, Nat.mul_add_one]
        omega
      rw [enough] at spares
      obtain ⟨allocates, chains₁, inHeap₁, spares₁⟩ := mapElfRequest_inHeap _ _ inHeap spares
      obtain ⟨ledger₁, grown, tables₁, _⟩ := mapElfRequest_spec injective heap tables _ allocates
      have kept := grown.keeps held other
      refine ⟨allocates, fun _ => ih grown.heap tables₁ (grown.holds held) ?_ ?_ inHeap₁ spares₁.mono⟩
      · rw [grown.same.bytes]
        exact inBuffer
      · exact fun a isHeader => (kept a (inBuffer isHeader)).trans (agrees a isHeader)

end Allocate

/-! ### The leaf of an address -/

/-- The leaf of an address refers to a frame, for the user. -/
def UserLeaf (mem : Memory) (desc : PagingDesc) (va frame : Nat) : Prop :=
  entryPresent (pageEntry mem desc va) = true ∧ entryUserSupervisor (pageEntry mem desc va) = true ∧
    entryAddress (pageEntry mem desc va) = frame

/-- The flags of a request let the user in. -/
theorem userLeaf_leafSet (elfMemory : Nat) (phdr : Elf64Phdr) (entry phys : Nat) :
    entryPresent (leafSet entry phys (mapElfRequest elfMemory phdr).flags) = true ∧
      entryUserSupervisor (leafSet entry phys (mapElfRequest elfMemory phdr).flags) = true := by
  unfold leafSet
  rw [entryPresent_set, entryUserSupervisor_set]
  unfold mapElfRequest
  dsimp only
  split <;> exact ⟨by decide, by decide⟩

section Leaves

variable {Holder : Type} {holder : List Nat → Holder} (injective : Function.Injective holder) {desc : PagingDesc}
  {mem : Memory} {elfMemory : Nat} {file : Holder} {chain : Span} (other : file ∉ Set.range holder)
  (word : elfMemory + ePhoff mem elfMemory + sizeofElf64Phdr * ePhnum mem elfMemory < 2 ^ 64)
  (accepted : ∀ h < ePhnum mem elfMemory, (mapElfRequest elfMemory (elfSegment mem elfMemory h)).phys ≤
    (mapElfRequest elfMemory (elfSegment mem elfMemory h)).physEnd)
  {va frame : Nat} (agree : ∀ h < ePhnum mem elfMemory,
    pageOffset (mapElfRequest elfMemory (elfSegment mem elfMemory h)).virt va <
        (mapElfRequest elfMemory (elfSegment mem elfMemory h)).pages →
      (mapElfRequest elfMemory (elfSegment mem elfMemory h)).frameOf va = frame)

include injective other word accepted agree

/-- **The leaf of an address** refers to the frame that all requests for its page agree on, once there was one. -/
theorem processMapElfLoop_userLeaf {fuel i : Nat} {σ : MapElf} {ledger : Ledger Holder}
    (heap : KernelHeap σ.kernel ledger.chains) (tables : PageTables σ.kernel ledger holder desc)
    (held : ledger.Holds file chain) (inBuffer : headerBytes mem elfMemory ⊆ σ.kernel.bytes chain)
    (agrees : ∀ a ∈ headerBytes mem elfMemory, σ.kernel.mem a = mem a) (enough : ePhnum mem elfMemory ≤ i + fuel)
    (allocates : RequestsAllocate desc elfMemory (elfMemory + ePhoff mem elfMemory) fuel i σ.kernel)
    (mapped : UserLeaf σ.kernel.mem desc va frame ∨ ∃ h < ePhnum mem elfMemory, i ≤ h ∧
      pageOffset (mapElfRequest elfMemory (elfSegment mem elfMemory h)).virt va <
        (mapElfRequest elfMemory (elfSegment mem elfMemory h)).pages) :
    UserLeaf (processMapElfLoop desc elfMemory (elfMemory + ePhoff mem elfMemory) fuel i σ).kernel.mem desc va frame := by
  induction fuel generalizing i σ ledger with
  | zero =>
      rcases mapped with leaf | ⟨h, inTable, later, _⟩
      · exact leaf
      · omega
  | succ fuel ih =>
      obtain ⟨_, phnum⟩ := elfHeader_congr agrees
      rw [processMapElfLoop, phnum]
      rw [RequestsAllocate, phnum] at allocates
      by_cases more : i < ePhnum mem elfMemory
      · rw [if_pos more]
        obtain ⟨allocatesHere, allocatesRest⟩ := allocates more
        rw [elfRequestAt_eq agrees word more] at allocatesHere allocatesRest ⊢
        obtain ⟨ledger₁, grown₁, tables₁, done, leaves₁⟩ := mapElfRequest_spec injective heap tables _ allocatesHere
        have kept := grown₁.keeps held other
        have here := agree i more
        have fine := done (accepted i more)
        have flags := userLeaf_leafSet elfMemory (elfSegment mem elfMemory i)
        have leaf := leaves₁ va
        dsimp only
        generalize (mapElfRequest elfMemory (elfSegment mem elfMemory i)).map σ.kernel desc = result at *
        rw [if_neg (by rw [fine]; exact lt_irrefl 0)]
        refine @ih (i + 1) ⟨result.1, result.2, _⟩ ledger₁ grown₁.heap tables₁ (grown₁.holds held) ?_ ?_ (by omega)
          (allocatesRest fine.ge) ?_
        · change headerBytes mem elfMemory ⊆ result.2.bytes chain
          rw [grown₁.same.bytes]
          exact inBuffer
        · exact fun a isHeader => (kept a (inBuffer isHeader)).trans (agrees a isHeader)
        · change UserLeaf result.2.mem desc va frame ∨ _
          unfold UserLeaf
          rw [leaf]
          by_cases covers : pageOffset (mapElfRequest elfMemory (elfSegment mem elfMemory i)).virt va <
              (mapElfRequest elfMemory (elfSegment mem elfMemory i)).pages
          · rw [if_pos covers]
            refine Or.inl ⟨(flags _ _).1, (flags _ _).2, ?_⟩
            rw [entryAddress_leafSet, ← here covers]
            unfold MapToRequest.frameOf
            simp only [pagingPageSize]
            omega
          · rw [if_neg covers]
            rcases mapped with leaf | ⟨h, inTable, later, covers'⟩
            · exact Or.inl leaf
            · refine Or.inr ⟨h, inTable, Nat.lt_of_le_of_ne later fun same => covers ?_, covers'⟩
              rw [same]
              exact covers'
      · rw [if_neg more]
        rcases mapped with leaf | ⟨h, inTable, later, _⟩
        · exact leaf
        · omega

end Leaves

/-! ### A file in a block -/

/-- The kernel with a file in a new buffer. -/
def Kernel.withProgram (k : Kernel) (content : List Byte) : Kernel :=
  let buffer := kzalloc k content.length
  { buffer.2 with mem := (elfLoad buffer.2.mem buffer.1 content).2.mem }

/-- A file as it lies in memory. -/
def fileMemory (elfMemory : Nat) (content : List Byte) : Memory := fun a => content.getD (a - elfMemory) 0x00#8

/-- **The headers of a file are its first bytes**, and there are some. -/
structure PlainHeaders (elfMemory : Nat) (content : List Byte) (ends : Nat) : Prop where
  header : sizeofElfHeader ≤ ends
  some_ : ePhoff (fileMemory elfMemory content) elfMemory ≠ 0
  table : ePhoff (fileMemory elfMemory content) elfMemory +
    sizeofElf64Phdr * ePhnum (fileMemory elfMemory content) elfMemory ≤ ends
  inFile : ends ≤ content.length

section Plain

variable {elfMemory ends : Nat} {content : List Byte} (plain : PlainHeaders elfMemory content ends)

include plain

theorem PlainHeaders.headerBytes_subset :
    headerBytes (fileMemory elfMemory content) elfMemory ⊆ Set.Ico elfMemory (elfMemory + ends) := by
  have header := plain.header
  have table := plain.table
  rintro a (⟨low, high⟩ | ⟨low, high⟩)
  · exact ⟨low, by omega⟩
  · exact ⟨by omega, by omega⟩

/-- The headers are those of the file when it has been read. -/
theorem PlainHeaders.elfRead (mem : Memory) : ∀ a ∈ headerBytes (fileMemory elfMemory content) elfMemory,
    (elfRead mem elfMemory content).mem a = fileMemory elfMemory content a := by
  intro a isHeader
  obtain ⟨low, high⟩ := plain.headerBytes_subset isHeader
  have inFile := plain.inFile
  obtain ⟨offset, rfl⟩ := Nat.exists_eq_add_of_le low
  have inside : offset < content.length := by omega
  change blit mem elfMemory content (elfMemory + offset) = content.getD (elfMemory + offset - elfMemory) 0x00#8
  rw [blit_inside mem elfMemory inside, Nat.add_sub_cancel_left, List.getD_eq_getElem?_getD,
    List.getElem?_eq_getElem inside, Option.getD_some]

end Plain

/-- **A program is ready to be mapped**: its file lies in its chain as it was loaded, next to the tables of a descriptor,
and its headers are as they are in the file. -/
structure ProgramReady (k : Kernel) (desc : PagingDesc) (ledger : Ledger (Option (List Nat))) (chain : Span)
    (ends spare : Nat) (mem : Memory) (content : List Byte) : Prop where
  inHeap : TablesInHeap k desc ledger.chains
  tables : PageTables k ledger some desc
  held : ledger.Holds none chain
  spares : SpareBlocks k ledger.chains spare
  plain : PlainHeaders (k.address chain) content ends
  fits : content.length ≤ chain.len * peachosHeapBlockSize
  file : ∀ a ∈ k.bytes chain, k.mem a = (elfLoad mem (k.address chain) content).2.mem a
  headers : ∀ a ∈ headerBytes (fileMemory (k.address chain) content) (k.address chain),
    k.mem a = fileMemory (k.address chain) content a

/-- **A file of one block can be loaded next to a new descriptor** while three blocks are spare. -/
theorem programReady {k : Kernel} {chains : Set Span} (spare : Nat) (heap : KernelHeap k chains)
    (spares : SpareBlocks k chains (spare + 3)) {content : List Byte} (fits : content.length ≤ peachosHeapBlockSize)
    {ends : Nat} (plain : PlainHeaders (kzalloc k content.length).1 content ends)
    (zeroes : ∀ access ∈ (elfLoad (kzalloc k content.length).2.mem (kzalloc k content.length).1 content).2.accesses,
      access.ZeroesIn ((kzalloc k content.length).1 + ends) ((kzalloc k content.length).1 + peachosHeapBlockSize)) :
    ∃ desc k' ledger start, pagingDescNew (k.withProgram content) pagingMapLevel4 = (some desc, k') ∧
      k'.address ⟨start, 1⟩ = (kzalloc k content.length).1 ∧
      ProgramReady k' desc ledger ⟨start, 1⟩ ends spare (kzalloc k content.length).2.mem content := by
  have header : 64 ≤ ends := plain.header
  have inFile := plain.inFile
  have one : heapBlocks content.length = 1 := by
    simp only [peachosHeapBlockSize] at fits
    rw [heapBlocks_eq (by omega)]
    omega
  obtain ⟨start, granted, _, spares₂⟩ := kzalloc_spare (spare + 2) heap spares (fits.trans_lt (by norm_num)) one
  have live : (⟨start, 1⟩ : Span) ∈ insert ⟨start, 1⟩ chains := Set.mem_insert _ _
  have address : (kzalloc k content.length).2.address ⟨start, 1⟩ = (kzalloc k content.length).1 :=
    granted.same.address.trans granted.pointer.symm
  -- the load stays in its block
  have loaded : KernelHeap (k.withProgram content) (insert ⟨start, 1⟩ chains) := by
    refine granted.heap.withMem live fun a outside => ?_
    have apart : a < (kzalloc k content.length).1 ∨ (kzalloc k content.length).1 + peachosHeapBlockSize ≤ a := by
      rw [← address]
      by_contra between
      exact outside ⟨by omega, by simp only [Nat.one_mul]; omega⟩
    rw [elfLoad_kept (by omega) zeroes]
    exact blit_outside _ _ (by omega)
  obtain ⟨desc, k', chains', created, same, inHeap, spares₀, kept⟩ := pagingDescNew_keeps spare loaded
    (spares₂.congr ⟨rfl, rfl⟩)
  obtain ⟨live', keeps, noTable⟩ := kept _ live
  obtain ⟨ledger, rfl, tables, others⟩ := inHeap.pageTables
  have address' : k'.address ⟨start, 1⟩ = (kzalloc k content.length).1 := same.address.trans address
  have file : ∀ a ∈ k'.bytes ⟨start, 1⟩,
      k'.mem a = (elfLoad (kzalloc k content.length).2.mem (k'.address ⟨start, 1⟩) content).2.mem a := by
    intro a isThere
    rw [same.bytes] at isThere
    rw [address', keeps a isThere]
    rfl
  refine ⟨desc, k', ledger, start, created, address', inHeap, tables, others _ live' noTable, spares₀, address' ▸ plain,
    fits.trans (Nat.one_mul _).ge, file, ?_⟩
  rw [← address'] at plain zeroes
  intro a isHeader
  obtain ⟨low, high⟩ := plain.headerBytes_subset isHeader
  rw [file a ⟨low, by simp only [Nat.one_mul]; omega⟩, elfLoad_kept (Or.inl high) zeroes, plain.elfRead _ a isHeader]

section Ready

variable {k : Kernel} {desc : PagingDesc} {ledger : Ledger (Option (List Nat))} {chain : Span} {ends spare : Nat}
  {mem : Memory} {content : List Byte} (ready : ProgramReady k desc ledger chain ends spare mem content)

/-- The file is no table. -/
theorem none_notMem_range : (none : Option (List Nat)) ∉ Set.range some := by
  rintro ⟨_, same⟩
  cases same

include ready

theorem ProgramReady.inBuffer :
    headerBytes (fileMemory (k.address chain) content) (k.address chain) ⊆ k.bytes chain := by
  have fits := ready.plain.inFile.trans ready.fits
  exact ready.plain.headerBytes_subset.trans (Set.Ico_subset_Ico_right (Nat.add_le_add_left fits _))

theorem ProgramReady.word : k.address chain + ePhoff (fileMemory (k.address chain) content) (k.address chain) +
    sizeofElf64Phdr * ePhnum (fileMemory (k.address chain) content) (k.address chain) < 2 ^ 64 := by
  have inHeap := (ready.inHeap.heap.bytes_in_heap ready.held.1).2.trans ready.inHeap.heap.physical
  have fits := ready.plain.table.trans (ready.plain.inFile.trans ready.fits)
  omega

theorem ProgramReady.elfPheader_eq : elfPheader k.mem (k.address chain) =
    k.address chain + ePhoff (fileMemory (k.address chain) content) (k.address chain) := by
  have word := ready.word
  rw [elfPheader, (elfHeader_congr ready.headers).1, if_neg ready.plain.some_, ← Nat.cast_add,
    toWord_natCast (by omega)]

/-- **The page tables of a program that is ready** can be allocated, if there are blocks for all pages. -/
theorem ProgramReady.allocates {most : Nat}
    (enough : 3 * most * ePhnum (fileMemory (k.address chain) content) (k.address chain) ≤ spare)
    (few : ∀ h < ePhnum (fileMemory (k.address chain) content) (k.address chain), (mapElfRequest (k.address chain)
      (elfSegment (fileMemory (k.address chain) content) (k.address chain) h)).pages ≤ most) (fuel : Nat) :
    RequestsAllocate desc (k.address chain) (elfPheader k.mem (k.address chain)) fuel 0 k := by
  rw [ready.elfPheader_eq]
  refine requestsAllocate_inHeap (Option.some_injective _) none_notMem_range ready.word few ready.inHeap.heap ready.tables
    ready.held ready.inBuffer ready.headers ready.inHeap ?_
  obtain ⟨used, free, covers⟩ := ready.spares
  rw [Nat.sub_zero]
  exact ⟨used, by omega, covers⟩

/-- **The leaf of an address** of a program that is ready refers to the frame that all requests agree on. -/
theorem ProgramReady.userLeaf
    (allocates : RequestsAllocate desc (k.address chain) (elfPheader k.mem (k.address chain)) (2 ^ 16) 0 k)
    (accepted : ∀ h < ePhnum (fileMemory (k.address chain) content) (k.address chain),
      (mapElfRequest (k.address chain) (elfSegment (fileMemory (k.address chain) content) (k.address chain) h)).phys ≤
        (mapElfRequest (k.address chain) (elfSegment (fileMemory (k.address chain) content) (k.address chain) h)).physEnd)
    {va frame : Nat}
    (agree : ∀ h < ePhnum (fileMemory (k.address chain) content) (k.address chain),
      let request := mapElfRequest (k.address chain) (elfSegment (fileMemory (k.address chain) content) (k.address chain) h)
      pageOffset request.virt va < request.pages → request.frameOf va = frame)
    (mapped : ∃ h < ePhnum (fileMemory (k.address chain) content) (k.address chain),
      let request := mapElfRequest (k.address chain) (elfSegment (fileMemory (k.address chain) content) (k.address chain) h)
      pageOffset request.virt va < request.pages) :
    UserLeaf (processMapElf k desc (k.address chain)).kernel.mem desc va frame := by
  obtain ⟨h, inTable, covers⟩ := mapped
  have few : ePhnum (fileMemory (k.address chain) content) (k.address chain) < 2 ^ 16 := readWord_lt
  rw [ready.elfPheader_eq] at allocates
  unfold processMapElf
  rw [ready.elfPheader_eq]
  exact processMapElfLoop_userLeaf (Option.some_injective _) none_notMem_range ready.word accepted agree
    ready.inHeap.heap ready.tables ready.held ready.inBuffer ready.headers (by omega) allocates
    (Or.inr ⟨h, inTable, Nat.zero_le h, covers⟩)

/-- Mapping a program that is ready keeps its file. -/
theorem ProgramReady.kept
    (allocates : RequestsAllocate desc (k.address chain) (elfPheader k.mem (k.address chain)) (2 ^ 16) 0 k) :
    ∀ a ∈ k.bytes chain, (processMapElf k desc (k.address chain)).kernel.mem a = k.mem a := by
  obtain ⟨_, grown, _⟩ := @processMapElfLoop_leaves desc (k.address chain) (elfPheader k.mem (k.address chain)) _ some
    (Option.some_injective _) (2 ^ 16) 0 ⟨0, k, []⟩ ledger ready.inHeap.heap ready.tables allocates
  unfold processMapElf
  exact grown.keeps ready.held none_notMem_range

end Ready

/-! ### Small files -/

/-- An ELF header, with its program headers right behind it. -/
def elfHeaderBytes (phnum : Nat) : List Byte :=
  elfSignature ++ [0x02#8, 0x01#8] ++ List.replicate 10 0x00#8 ++ encodeWord 2 etExec ++ List.replicate 6 0x00#8 ++
    encodeWord 8 0x400000 ++ encodeWord 8 sizeofElfHeader ++ List.replicate 16 0x00#8 ++ encodeWord 2 phnum ++
    List.replicate 6 0x00#8

/-- A program header. -/
def phdrBytes (phdr : Elf64Phdr) : List Byte :=
  encodeWord 4 phdr.pType ++ encodeWord 4 phdr.pFlags ++ encodeWord 8 phdr.pOffset ++ encodeWord 8 phdr.pVaddr ++
    List.replicate 8 0x00#8 ++ encodeWord 8 phdr.pFilesz ++ encodeWord 8 phdr.pMemsz ++ encodeWord 8 0x1000

/-- A file with one segment: four bytes, and four that are not initialised. -/
def oneSegment : List Byte :=
  elfHeaderBytes 1 ++ phdrBytes ⟨ptLoad, 6, 120, 0x400078, 4, 8⟩ ++ [0x90#8, 0x90#8, 0xEB#8, 0xFE#8]

/-- A kernel whose heap has sixteen free blocks. -/
def sixteenBlocks : Kernel where
  mem := fun _ => 0x00#8
  heaps := fun _ =>
    { table := { entries := 0x1000, total := 16 }, saddr := 0x100000, eaddr := 0x110000, totalBlocks := 16,
      freeBlocks := 16, usedBlocks := 0, blockAllocatedCallback := false, blockFreeCallback := false }
  multiheap :=
    { startingHeap := .kernelMinimalHeap, heaps := [⟨.kernelMinimalHeap, none, multiheapHeapFlagExternallyOwned⟩],
      maxEndDataAddr := 0x110000, flags := multiheapFlagIsReady, totalHeaps := 1 }
  calls := []

theorem kernelHeap_sixteenBlocks : KernelHeap sixteenBlocks ∅ where
  list := ⟨_, rfl⟩
  top := by decide
  physical := by decide
  sound := ⟨by decide, by decide, by decide, by decide, by decide, by decide, by decide, by decide⟩
  decodes := .empty fun _ _ => rfl

/-- The memory of that kernel when the buffer of a file is allocated: it takes the first block. -/
def bufferMemory (content : List Byte) : Memory := (kzalloc sixteenBlocks content.length).2.mem

/-- That kernel with a file and a new descriptor, which takes the second block. -/
def programKernel (content : List Byte) : Kernel := (pagingDescNew (sixteenBlocks.withProgram content) pagingMapLevel4).2

/-- The root table takes the third block. -/
def programDesc : PagingDesc := { pml := 0x102000, level := pagingMapLevel4 }

/-- A small file in that kernel is ready to be mapped. -/
theorem programKernel_ready {content : List Byte} (fits : content.length ≤ peachosHeapBlockSize)
    (pointer : (kzalloc sixteenBlocks content.length).1 = 0x100000)
    (created : (pagingDescNew (sixteenBlocks.withProgram content) pagingMapLevel4).1 = some programDesc) {ends : Nat}
    (plain : PlainHeaders 0x100000 content ends)
    (zeroes : ∀ access ∈ (elfLoad (bufferMemory content) 0x100000 content).2.accesses,
      access.ZeroesIn (0x100000 + ends) (0x100000 + peachosHeapBlockSize)) :
    ∃ ledger start, (programKernel content).address ⟨start, 1⟩ = 0x100000 ∧
      ProgramReady (programKernel content) programDesc ledger ⟨start, 1⟩ ends 13 (bufferMemory content) content := by
  rw [← pointer] at plain zeroes
  obtain ⟨desc, k', ledger, start, created', address, ready⟩ := programReady 13 kernelHeap_sixteenBlocks
    ⟨∅, by decide, fun _ member => absurd member (Set.notMem_empty _)⟩ fits plain zeroes
  have kernelEq : programKernel content = k' := congrArg Prod.snd created'
  have descEq : desc = programDesc := by
    rw [created', Option.some.injEq] at created
    exact created
  rw [← descEq, kernelEq, ← pointer]
  exact ⟨ledger, start, address, ready⟩

end PeachOS
