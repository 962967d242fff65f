/-
**A program in memory: `elf_process_pheaders` and `process_map_elf` together.**

The segments of a program are mapped where the file lies in memory, and their uninitialised data is zeroed there. So a
segment's bytes are those of the program only if nothing else is zeroed over them, and if its own are zeroed.

* `loadsFaithfully_iff` — a program that is mapped in place is what its process sees, exactly when the zeroing hits the
  right bytes: `ZeroesRight`;
* `loadsFaithfully_fails` — in a program of two segments, the second zeroes bytes of the first.
-/

import PeachOS.Process.OwnFile

namespace PeachOS

open ByteStore
open SpanTable (Span)

/-! ### The statement -/

/-- What a process reads at an address, if it may. -/
def userByte (mem : Memory) (desc : PagingDesc) (va : Nat) : Option Byte :=
  let entry := pageEntry mem desc va
  if entryPresent entry && entryUserSupervisor entry then
    some (mem (entryAddress entry * pagingPageSize + va % pagingPageSize))
  else none

/-- **A program is loaded faithfully**: its process reads the file part of each segment, and zeroes behind it. -/
def LoadsFaithfully (k : Kernel) (desc : PagingDesc) (mem : Memory) (elfMemory : Nat) (content : List Byte) : Prop :=
  ∀ i, IsLoaded (elfRead mem elfMemory content).mem elfMemory i →
    let phdr := elfSegment (elfRead mem elfMemory content).mem elfMemory i
    ∀ offset < phdr.pMemsz, userByte (processMapElf k desc elfMemory).kernel.mem desc (phdr.pVaddr + offset) =
      some (if offset < phdr.pFilesz then content.getD (phdr.pOffset + offset) 0x00#8 else 0x00#8)

/-- **The segments of a file**: they lie in it, they are congruent, they are not smaller in memory, and they have no page
in common. -/
structure ValidSegments (mem : Memory) (elfMemory size : Nat) : Prop where
  inFile : ∀ i, IsLoaded mem elfMemory i → (elfSegment mem elfMemory i).pOffset + (elfSegment mem elfMemory i).pFilesz ≤ size
  congruent : ∀ i, IsLoaded mem elfMemory i →
    (elfSegment mem elfMemory i).pVaddr % pagingPageSize = (elfSegment mem elfMemory i).pOffset % pagingPageSize
  notSmaller : ∀ i, IsLoaded mem elfMemory i → (elfSegment mem elfMemory i).pFilesz ≤ (elfSegment mem elfMemory i).pMemsz
  disjoint : ∀ i j, IsLoaded mem elfMemory i → IsLoaded mem elfMemory j → i ≠ j →
    ∀ a < (elfSegment mem elfMemory i).pMemsz, ∀ b < (elfSegment mem elfMemory j).pMemsz,
      ((elfSegment mem elfMemory i).pVaddr + a) / pagingPageSize ≠ ((elfSegment mem elfMemory j).pVaddr + b) / pagingPageSize

/-- **The segments are mapped in place**: the headers lie in the file and are not zeroed; in memory, the segments fit into
the buffer and into the address space; all requests are accepted; and a header that is not that of a segment maps no page
of a segment elsewhere. -/
structure MapsInPlace (mem : Memory) (elfMemory size room : Nat) : Prop where
  headers : sizeofElfHeader ≤ size ∧ ePhoff mem elfMemory + sizeofElf64Phdr * ePhnum mem elfMemory ≤ size
  spared : HeadersSpared mem elfMemory
  room : ∀ i, IsLoaded mem elfMemory i → (elfSegment mem elfMemory i).pOffset + (elfSegment mem elfMemory i).pMemsz ≤ room
  canonical : ∀ i, IsLoaded mem elfMemory i →
    (elfSegment mem elfMemory i).pVaddr + (elfSegment mem elfMemory i).pMemsz ≤ 2 ^ 48
  accepted : ∀ h < ePhnum mem elfMemory, (mapElfRequest elfMemory (elfSegment mem elfMemory h)).phys ≤
    (mapElfRequest elfMemory (elfSegment mem elfMemory h)).physEnd
  others : ∀ h < ePhnum mem elfMemory,
    ¬ ((elfSegment mem elfMemory h).pType = ptLoad ∧ 0 < (elfSegment mem elfMemory h).pMemsz) →
    ∀ i, IsLoaded mem elfMemory i → ∀ offset < (elfSegment mem elfMemory i).pMemsz,
      let request := mapElfRequest elfMemory (elfSegment mem elfMemory h)
      pageOffset request.virt ((elfSegment mem elfMemory i).pVaddr + offset) < request.pages →
        request.frameOf ((elfSegment mem elfMemory i).pVaddr + offset) =
          (elfMemory + (elfSegment mem elfMemory i).pOffset + offset) / pagingPageSize

/-- **The zeroing hits the right bytes** of a file that has been read: in the file part of a segment only bytes that are
zero, and behind it all bytes that are not. -/
structure ZeroesRight (mem : Memory) (elfMemory : Nat) : Prop where
  file : ∀ i, IsLoaded mem elfMemory i → ∀ offset < (elfSegment mem elfMemory i).pFilesz,
    elfMemory + (elfSegment mem elfMemory i).pOffset + offset ∈ zeroedBefore mem elfMemory (ePhnum mem elfMemory) →
      mem (elfMemory + (elfSegment mem elfMemory i).pOffset + offset) = 0x00#8
  rest : ∀ i, IsLoaded mem elfMemory i → ∀ offset < (elfSegment mem elfMemory i).pMemsz,
    (elfSegment mem elfMemory i).pFilesz ≤ offset →
    elfMemory + (elfSegment mem elfMemory i).pOffset + offset ∈ zeroedBefore mem elfMemory (ePhnum mem elfMemory) ∨
      mem (elfMemory + (elfSegment mem elfMemory i).pOffset + offset) = 0x00#8

/-! ### The request of a segment -/

section Segment

variable {elfMemory : Nat} {phdr : Elf64Phdr} (aligned : elfMemory % pagingPageSize = 0)
  (congruent : phdr.pVaddr % pagingPageSize = phdr.pOffset % pagingPageSize)
  (canonical : phdr.pVaddr + phdr.pMemsz ≤ 2 ^ 48) (low : elfMemory + phdr.pOffset + phdr.pMemsz ≤ 2 ^ 48)
  (small : phdr.pMemsz ≤ 2 ^ 40)

include aligned congruent low small

/-- **The request of a segment** is for the pages of its addresses. -/
theorem mapElfRequest_segment :
    (mapElfRequest elfMemory phdr).virt = phdr.pVaddr / pagingPageSize * pagingPageSize ∧
      (mapElfRequest elfMemory phdr).phys = (elfMemory + phdr.pOffset) / pagingPageSize * pagingPageSize ∧
      (mapElfRequest elfMemory phdr).pages =
        (phdr.pVaddr % pagingPageSize + phdr.pMemsz + (pagingPageSize - 1)) / pagingPageSize := by
  have start : elfPhdrPhysAddress elfMemory phdr = elfMemory + phdr.pOffset := by
    rw [elfPhdrPhysAddress, ← Nat.cast_add, toWord_natCast (by omega)]
  have finish : pagingAlignAddress (toWord ((elfMemory + phdr.pOffset : Nat) + phdr.pMemsz)) =
      (elfMemory + phdr.pOffset + phdr.pMemsz + 4095) / 4096 * 4096 := by
    rw [← Nat.cast_add, toWord_natCast (by omega), pagingAlignAddress_eq (by omega)]
  unfold MapToRequest.pages mapElfRequest
  rw [start, finish, pagingAlignToLowerPage_eq, pagingAlignToLowerPage_eq]
  refine ⟨rfl, rfl, ?_⟩
  have inPage : (elfMemory + phdr.pOffset) % 4096 = phdr.pVaddr % 4096 := by
    rw [congruent, Nat.add_mod, aligned, Nat.zero_add, Nat.mod_mod]
  show min (((elfMemory + phdr.pOffset + phdr.pMemsz + 4095) / 4096 * 4096 -
    (elfMemory + phdr.pOffset) / 4096 * 4096) / 4096) (2 ^ 31) = (phdr.pVaddr % 4096 + phdr.pMemsz + 4095) / 4096
  clear start finish congruent aligned low
  generalize elfMemory + phdr.pOffset = start at inPage ⊢
  rw [← inPage]
  omega

include canonical

/-- A segment maps its addresses to its bytes. -/
theorem frameOf_segment {offset : Nat} (inside : offset < phdr.pMemsz) :
    pageOffset (mapElfRequest elfMemory phdr).virt (phdr.pVaddr + offset) < (mapElfRequest elfMemory phdr).pages ∧
      (mapElfRequest elfMemory phdr).frameOf (phdr.pVaddr + offset) =
        (elfMemory + phdr.pOffset + offset) / pagingPageSize := by
  obtain ⟨virt, phys, pages⟩ := mapElfRequest_segment aligned congruent low small
  have apart : pageOffset (phdr.pVaddr / 4096 * 4096) (phdr.pVaddr + offset) = (phdr.pVaddr % 4096 + offset) / 4096 := by
    unfold pageOffset pageNumber
    rw [Nat.mul_div_cancel _ (by decide)]
    clear virt phys pages congruent aligned low small
    simp only [pagingPageSize]
    omega
  unfold MapToRequest.frameOf
  rw [virt, phys, pages, apart, Nat.mul_div_cancel _ (by decide)]
  simp only [pagingPageSize] at aligned congruent ⊢
  exact ⟨by omega, by omega⟩

/-- A segment maps no other pages. -/
theorem page_of_segment (some_ : 0 < phdr.pMemsz) {va : Nat} (reachable : va < 2 ^ 48)
    (mapped : pageOffset (mapElfRequest elfMemory phdr).virt va < (mapElfRequest elfMemory phdr).pages) :
    ∃ offset < phdr.pMemsz, va / pagingPageSize = (phdr.pVaddr + offset) / pagingPageSize := by
  obtain ⟨virt, phys, pages⟩ := mapElfRequest_segment aligned congruent low small
  unfold pageOffset pageNumber at mapped
  rw [virt, pages] at mapped
  simp only [pagingPageSize] at aligned congruent mapped ⊢
  -- the page's first address, unless the segment begins in it
  refine ⟨(va / 4096 - phdr.pVaddr / 4096) * 4096 - phdr.pVaddr % 4096, ?_, ?_⟩ <;> omega

end Segment

/-! ### The leaf of an address -/

theorem userByte_of_leaf {mem : Memory} {desc : PagingDesc} {va frame : Nat} (leaf : UserLeaf mem desc va frame) :
    userByte mem desc va = some (mem (frame * pagingPageSize + va % pagingPageSize)) := by
  obtain ⟨present, user, rfl⟩ := leaf
  unfold userByte
  dsimp only
  rw [present, user]
  rfl

/-! ### Loading and mapping -/

section Load

variable {mem : Memory} {elfMemory : Nat} {content : List Byte}

/-- A load that succeeds is that of a file that is accepted. -/
theorem valid_of_elfLoad (accepted : (elfLoad mem elfMemory content).1 = 0) :
    content ≠ [] ∧ elfValidateLoaded (elfRead mem elfMemory content).mem elfMemory = 0 := by
  have some_ : content ≠ [] := by
    intro none
    rw [elfLoad, if_pos none] at accepted
    exact absurd accepted (by decide : einvarg ≠ 0)
  refine ⟨some_, ?_⟩
  rcases @elfValidateLoaded_cases (elfRead mem elfMemory content).mem elfMemory with valid | invalid
  · exact valid
  · rw [elfLoad, if_neg some_, elfProcessLoaded_invalid invalid] at accepted
    exact absurd accepted (by decide : einformat ≠ 0)

/-- **The bytes of the segments in the buffer** are right after the load exactly when the zeroing hits the right ones. -/
theorem elfLoad_bytes_iff (accepted : (elfLoad mem elfMemory content).1 = 0)
    (valid : ValidSegments (elfRead mem elfMemory content).mem elfMemory content.length)
    (spared : HeadersSpared (elfRead mem elfMemory content).mem elfMemory) :
    (∀ i, IsLoaded (elfRead mem elfMemory content).mem elfMemory i →
      ∀ offset < (elfSegment (elfRead mem elfMemory content).mem elfMemory i).pMemsz,
        (elfLoad mem elfMemory content).2.mem
            (elfMemory + (elfSegment (elfRead mem elfMemory content).mem elfMemory i).pOffset + offset) =
          if offset < (elfSegment (elfRead mem elfMemory content).mem elfMemory i).pFilesz then
            content.getD ((elfSegment (elfRead mem elfMemory content).mem elfMemory i).pOffset + offset) 0x00#8
          else 0x00#8) ↔
      ZeroesRight (elfRead mem elfMemory content).mem elfMemory := by
  obtain ⟨some_, accepted⟩ := valid_of_elfLoad accepted
  have zeroed := elfLoad_zeroed some_ accepted spared
  have read {offset : Nat} (inside : offset < content.length) :
      (elfRead mem elfMemory content).mem (elfMemory + offset) = content.getD offset 0x00#8 := by
    change blit mem elfMemory content (elfMemory + offset) = _
    rw [blit_inside mem elfMemory inside, List.getD_eq_getElem?_getD, List.getElem?_eq_getElem inside, Option.getD_some]
  have byte {i offset : Nat} (loaded : IsLoaded (elfRead mem elfMemory content).mem elfMemory i)
      (inFile : offset < (elfSegment (elfRead mem elfMemory content).mem elfMemory i).pFilesz) :
      (elfRead mem elfMemory content).mem
          (elfMemory + (elfSegment (elfRead mem elfMemory content).mem elfMemory i).pOffset + offset) =
        content.getD ((elfSegment (elfRead mem elfMemory content).mem elfMemory i).pOffset + offset) 0x00#8 := by
    have inside := valid.inFile i loaded
    rw [Nat.add_assoc, read (by omega)]
  generalize (elfRead mem elfMemory content).mem = mem₀ at *
  constructor
  · intro right
    refine ⟨fun i loaded offset inFile zeroes => ?_, fun i loaded offset inside behind => ?_⟩
    · have here := right i loaded offset (inFile.trans_le (valid.notSmaller i loaded))
      rw [if_pos inFile, zeroed.zeroed _ zeroes] at here
      exact (byte loaded inFile).trans here.symm
    · by_cases zeroes : elfMemory + (elfSegment mem₀ elfMemory i).pOffset + offset ∈
          zeroedBefore mem₀ elfMemory (ePhnum mem₀ elfMemory)
      · exact Or.inl zeroes
      · have here := right i loaded offset inside
        rw [if_neg (Nat.not_lt.mpr behind), zeroed.kept _ zeroes] at here
        exact Or.inr here
  · intro right i loaded offset inside
    by_cases zeroes : elfMemory + (elfSegment mem₀ elfMemory i).pOffset + offset ∈
        zeroedBefore mem₀ elfMemory (ePhnum mem₀ elfMemory)
    · rw [zeroed.zeroed _ zeroes]
      split
      case isTrue inFile => rw [← byte loaded inFile, right.file i loaded offset inFile zeroes]
      case isFalse => rfl
    · rw [zeroed.kept _ zeroes]
      split
      case isTrue inFile => exact byte loaded inFile
      case isFalse behind =>
        exact (right.rest i loaded offset inside (Nat.le_of_not_lt behind)).resolve_left zeroes

end Load

section Faithful

variable {Holder : Type} {holder : List Nat → Holder} (injective : Function.Injective holder) {file : Holder}
  (other : file ∉ Set.range holder) {k : Kernel} {desc : PagingDesc} {ledger : Ledger Holder} {chain : Span}
  (heap : KernelHeap k ledger.chains) (tables : PageTables k ledger holder desc) (held : ledger.Holds file chain)
  {mem : Memory} {content : List Byte} (rounded : chain.len = (content.length + 4095) / 4096)
  (small : content.length < 2 ^ 32)
  (inBuffer : ∀ a ∈ k.bytes chain, k.mem a = (elfLoad mem (k.address chain) content).2.mem a)
  (accepted : (elfLoad mem (k.address chain) content).1 = 0)
  (allocates : RequestsAllocate desc (k.address chain) (elfPheader k.mem (k.address chain)) (2 ^ 16) 0 k)
  (valid : ValidSegments (elfRead mem (k.address chain) content).mem (k.address chain) content.length)
  (inPlace : MapsInPlace (elfRead mem (k.address chain) content).mem (k.address chain) content.length
    (chain.len * peachosHeapBlockSize))

include injective other heap tables held rounded small inBuffer accepted allocates valid inPlace

/-- **The process reads the bytes of a segment** where they lie in the buffer. -/
theorem userByte_segment {i : Nat} (loaded : IsLoaded (elfRead mem (k.address chain) content).mem (k.address chain) i)
    {offset : Nat}
    (inside : offset < (elfSegment (elfRead mem (k.address chain) content).mem (k.address chain) i).pMemsz) :
    userByte (processMapElf k desc (k.address chain)).kernel.mem desc
        ((elfSegment (elfRead mem (k.address chain) content).mem (k.address chain) i).pVaddr + offset) =
      some ((elfLoad mem (k.address chain) content).2.mem (k.address chain +
        (elfSegment (elfRead mem (k.address chain) content).mem (k.address chain) i).pOffset + offset)) := by
  obtain ⟨some_, isElf⟩ := valid_of_elfLoad accepted
  have zeroed := elfLoad_zeroed some_ isElf inPlace.spared
  have someTable := ePhoff_of_valid isElf
  have aligned : k.address chain % pagingPageSize = 0 := heap.address_aligned chain
  have inHeap := (heap.bytes_in_heap held.1).2.trans heap.physical
  have headersIn : headerBytes (elfRead mem (k.address chain) content).mem (k.address chain) ⊆ k.bytes chain := by
    have length : content.length ≤ chain.len * peachosHeapBlockSize := by
      change _ ≤ chain.len * 4096
      omega
    obtain ⟨header, table⟩ := inPlace.headers
    rintro a (⟨low, high⟩ | ⟨low, high⟩)
    · exact ⟨low, by omega⟩
    · exact ⟨by omega, by omega⟩
  have agrees : ∀ a ∈ headerBytes (elfRead mem (k.address chain) content).mem (k.address chain),
      k.mem a = (elfRead mem (k.address chain) content).mem a := fun a isHeader =>
    (inBuffer a (headersIn isHeader)).trans (zeroed.headers inPlace.spared a isHeader)
  have word := inPlace.spared.table
  have few : ePhnum (elfRead mem (k.address chain) content).mem (k.address chain) < 2 ^ 16 := readWord_lt
  clear zeroed isElf
  generalize (elfRead mem (k.address chain) content).mem = mem₀ at *
  have first : elfPheader k.mem (k.address chain) = k.address chain + ePhoff mem₀ (k.address chain) := by
    rw [elfPheader, (elfHeader_congr agrees).1, if_neg someTable, ← Nat.cast_add, toWord_natCast (by omega)]
  rw [first] at allocates
  have memsz (h : Nat) (loaded : IsLoaded mem₀ (k.address chain) h) :
      k.address chain + (elfSegment mem₀ (k.address chain) h).pOffset + (elfSegment mem₀ (k.address chain) h).pMemsz ≤
          2 ^ 48 ∧ (elfSegment mem₀ (k.address chain) h).pMemsz ≤ 2 ^ 40 := by
    have room := inPlace.room h loaded
    simp only [peachosHeapBlockSize] at room inHeap
    exact ⟨by omega, by omega⟩
  have room := inPlace.room i loaded
  have canonical := inPlace.canonical i loaded
  have congruent := valid.congruent i loaded
  obtain ⟨covers, frame⟩ := frameOf_segment aligned congruent canonical (memsz i loaded).1 (memsz i loaded).2 inside
  -- a request for the same page is that of this segment, or agrees with it
  have agree : ∀ h < ePhnum mem₀ (k.address chain),
      pageOffset (mapElfRequest (k.address chain) (elfSegment mem₀ (k.address chain) h)).virt
          ((elfSegment mem₀ (k.address chain) i).pVaddr + offset) <
          (mapElfRequest (k.address chain) (elfSegment mem₀ (k.address chain) h)).pages →
        (mapElfRequest (k.address chain) (elfSegment mem₀ (k.address chain) h)).frameOf
            ((elfSegment mem₀ (k.address chain) i).pVaddr + offset) =
          (k.address chain + (elfSegment mem₀ (k.address chain) i).pOffset + offset) / pagingPageSize := by
    intro h inTable mapped
    by_cases isSegment : (elfSegment mem₀ (k.address chain) h).pType = ptLoad ∧
        0 < (elfSegment mem₀ (k.address chain) h).pMemsz
    · have loaded' : IsLoaded mem₀ (k.address chain) h := ⟨inTable, isSegment.1⟩
      by_cases same : i = h
      · subst same
        exact frame
      · obtain ⟨other, inside', samePage⟩ := page_of_segment aligned (valid.congruent h loaded')
          (inPlace.canonical h loaded') (memsz h loaded').1 (memsz h loaded').2 isSegment.2 (by omega) mapped
        exact absurd samePage (valid.disjoint i h loaded loaded' same offset inside other inside')
    · exact inPlace.others h inTable isSegment i loaded offset inside mapped
  have leaf := @processMapElfLoop_userLeaf Holder holder injective desc mem₀ (k.address chain) file chain other word
    inPlace.accepted ((elfSegment mem₀ (k.address chain) i).pVaddr + offset) _ agree (2 ^ 16) 0 ⟨0, k, []⟩ ledger heap
    tables held headersIn agrees (by omega) allocates (Or.inr ⟨i, loaded.1, Nat.zero_le i, covers⟩)
  obtain ⟨_, grown, _⟩ := @processMapElfLoop_leaves desc (k.address chain) (k.address chain + ePhoff mem₀ (k.address chain))
    Holder holder injective (2 ^ 16) 0 ⟨0, k, []⟩ ledger heap tables allocates
  have kept := grown.keeps held other
  unfold processMapElf
  rw [first, userByte_of_leaf leaf]
  generalize processMapElfLoop _ _ _ _ _ _ = result at *
  generalize elfSegment mem₀ (k.address chain) i = phdr at *
  have address : (k.address chain + phdr.pOffset + offset) / pagingPageSize * pagingPageSize +
      (phdr.pVaddr + offset) % pagingPageSize = k.address chain + phdr.pOffset + offset := by
    simp only [pagingPageSize] at aligned congruent ⊢
    omega
  have isThere : k.address chain + phdr.pOffset + offset ∈ k.bytes chain := ⟨by omega, by omega⟩
  rw [address, kept _ isThere, inBuffer _ isThere]

/-- **A program is loaded faithfully** exactly when the zeroing hits the right bytes, if its segments are mapped in place:
the file lies in its page-rounded buffer as `elf_load` left it, and the page tables can be allocated. -/
theorem loadsFaithfully_iff : LoadsFaithfully k desc mem (k.address chain) content ↔
    ZeroesRight (elfRead mem (k.address chain) content).mem (k.address chain) := by
  rw [← elfLoad_bytes_iff accepted valid inPlace.spared]
  have byte {i : Nat} := @userByte_segment Holder holder injective file other k desc ledger chain heap tables held mem content
    rounded small inBuffer accepted allocates valid inPlace i
  refine forall_congr' fun i => forall_congr' fun loaded => forall_congr' fun offset => forall_congr' fun inside => ?_
  rw [byte loaded inside, Option.some.injEq]

end Faithful

/-! ### Programs of one segment -/

section Single

variable {mem : Memory} {elfMemory size room : Nat} {phdr : Elf64Phdr} (single : ePhnum mem elfMemory = 1)
  (segment : elfSegment mem elfMemory 0 = phdr)

include single

theorem isLoaded_single {i : Nat} (loaded : IsLoaded mem elfMemory i) : i = 0 := by
  have below := loaded.1
  omega

omit single in
theorem zeroedBytes_single (segment : elfSegment mem elfMemory 0 = phdr)
    (word : elfMemory + phdr.pOffset + phdr.pFilesz < 2 ^ 64) (small : phdr.pMemsz - phdr.pFilesz ≤ 2 ^ 31) :
    zeroedBytes mem elfMemory 0 = Set.Ico (elfMemory + phdr.pOffset + phdr.pFilesz)
      (elfMemory + phdr.pOffset + phdr.pFilesz + (phdr.pMemsz - phdr.pFilesz)) := by
  rw [← segment] at word small ⊢
  exact zeroedBytes_lowest (fun j before => absurd before (Nat.not_lt_zero j)) word small

include segment

theorem validSegments_single (inFile : phdr.pOffset + phdr.pFilesz ≤ size)
    (congruent : phdr.pVaddr % pagingPageSize = phdr.pOffset % pagingPageSize)
    (notSmaller : phdr.pFilesz ≤ phdr.pMemsz) : ValidSegments mem elfMemory size where
  inFile := fun i loaded => by rw [isLoaded_single single loaded, segment]; exact inFile
  congruent := fun i loaded => by rw [isLoaded_single single loaded, segment]; exact congruent
  notSmaller := fun i loaded => by rw [isLoaded_single single loaded, segment]; exact notSmaller
  disjoint := fun i j loaded loaded' different =>
    absurd ((isLoaded_single single loaded).trans (isLoaded_single single loaded').symm) different

/-- **A program of one segment** that lies behind its headers is mapped in place. -/
theorem mapsInPlace_single (isLoad : phdr.pType = ptLoad) (some_ : 0 < phdr.pMemsz)
    (header : sizeofElfHeader ≤ phdr.pOffset) (table : ePhoff mem elfMemory + sizeofElf64Phdr ≤ phdr.pOffset)
    (inFile : phdr.pOffset + phdr.pFilesz ≤ size) (inRoom : phdr.pOffset + phdr.pMemsz ≤ room)
    (small : phdr.pMemsz ≤ 2 ^ 31) (low : elfMemory + size + room < 2 ^ 64)
    (canonical : phdr.pVaddr + phdr.pMemsz ≤ 2 ^ 48)
    (accepted : (mapElfRequest elfMemory phdr).phys ≤ (mapElfRequest elfMemory phdr).physEnd) :
    MapsInPlace mem elfMemory size room where
  headers := by rw [single]; omega
  spared :=
    { table := by rw [single]; omega
      apart := fun i loaded => by
        rw [isLoaded_single single loaded, zeroedBytes_single segment (by omega) (by omega)]
        refine Set.disjoint_left.mpr fun a zeroes isHeader => ?_
        unfold headerBytes at isHeader
        rw [single, Set.mem_union, Set.mem_Ico, Set.mem_Ico] at isHeader
        rw [Set.mem_Ico] at zeroes
        omega }
  room := fun i loaded => by rw [isLoaded_single single loaded, segment]; exact inRoom
  canonical := fun i loaded => by rw [isLoaded_single single loaded, segment]; exact canonical
  accepted := fun h inTable => by
    obtain rfl : h = 0 := by omega
    rw [segment]
    exact accepted
  others := fun h inTable noSegment => by
    obtain rfl : h = 0 := by omega
    rw [segment] at noSegment
    exact absurd ⟨isLoad, some_⟩ noSegment

/-- It zeroes the right bytes: its own. -/
theorem zeroesRight_single (isLoad : phdr.pType = ptLoad) (word : elfMemory + phdr.pOffset + phdr.pFilesz < 2 ^ 64)
    (small : phdr.pMemsz - phdr.pFilesz ≤ 2 ^ 31) : ZeroesRight mem elfMemory where
  file := fun i loaded offset inFile zeroes => by
    obtain ⟨j, _, loaded', zeroes⟩ := zeroes
    rw [isLoaded_single single loaded', zeroedBytes_single segment word small] at zeroes
    rw [isLoaded_single single loaded, segment] at inFile zeroes
    exact absurd zeroes.1 (by omega)
  rest := fun i loaded offset inside behind => by
    have loaded' : IsLoaded mem elfMemory 0 := ⟨by omega, by rw [segment]; exact isLoad⟩
    refine Or.inl ⟨0, by omega, loaded', ?_⟩
    rw [zeroedBytes_single segment word small]
    rw [isLoaded_single single loaded, segment] at inside behind ⊢
    exact ⟨by omega, by omega⟩

end Single

/-- What the loader reads in the program of one segment. -/
theorem oneSegment_read (mem : Memory) :
    elfValidateLoaded (elfRead mem 0x100000 oneSegment).mem 0x100000 = 0 ∧
      ePhoff (elfRead mem 0x100000 oneSegment).mem 0x100000 = 64 ∧
      ePhnum (elfRead mem 0x100000 oneSegment).mem 0x100000 = 1 ∧
      elfSegment (elfRead mem 0x100000 oneSegment).mem 0x100000 0 = ⟨ptLoad, 6, 120, 0x400078, 4, 8⟩ := by
  obtain ⟨_, isElf, phoff, phnum, segment⟩ := oneSegment_evaluates
  have agrees := oneSegment_plain.elfRead mem
  obtain ⟨samePhoff, samePhnum⟩ := elfHeader_congr agrees
  rw [elfValidateLoaded_congr fun a low high => agrees a (Or.inl ⟨low, high⟩), samePhoff, samePhnum,
    elfSegment_congr agrees (by rw [phnum]; exact Nat.one_pos)]
  exact ⟨isElf, phoff, phnum, segment⟩

/-- **The program of one segment is loaded faithfully.** -/
theorem loadsFaithfully_oneSegment :
    LoadsFaithfully (programKernel oneSegment) programDesc (bufferMemory oneSegment) 0x100000 oneSegment := by
  obtain ⟨ledger, start, address, ready⟩ := oneSegment_ready
  obtain ⟨⟨length, _⟩, _⟩ := oneSegment_evaluates
  have few := oneSegment_few
  have enough := oneSegment_enough
  obtain ⟨isElf, phoff, single, segment⟩ := oneSegment_read (bufferMemory oneSegment)
  have accepted : (elfLoad (bufferMemory oneSegment) 0x100000 oneSegment).1 = 0 := by
    rw [elfLoad, if_neg (by decide), elfProcessLoaded_valid isElf]
  have valid := @validSegments_single _ _ oneSegment.length _ single segment (by rw [length]; decide) (by decide)
    (by decide)
  have inPlace := @mapsInPlace_single _ _ oneSegment.length (1 * peachosHeapBlockSize) _ single segment (by decide)
    (by decide) (by decide) (by rw [phoff]; decide) (by rw [length]; decide) (by decide) (by decide)
    (by rw [length]; decide) (by decide) (by decide)
  have right := zeroesRight_single single segment (by decide) (by decide) (by decide)
  rw [← address] at few enough accepted valid inPlace right ⊢
  exact (loadsFaithfully_iff (Option.some_injective _) none_notMem_range ready.inHeap.heap ready.tables ready.held
    (by rw [length]) (by rw [length]; decide) ready.file accepted (ready.allocates enough few (2 ^ 16)) valid
    inPlace).mpr right

/-! ### A program of two segments -/

/-- A file with two segments, one behind the other: 16 bytes, and 8 bytes with 8 more that are not initialised. -/
def twoSegments : List Byte :=
  elfHeaderBytes 2 ++ phdrBytes ⟨ptLoad, 5, 176, 0x4000B0, 16, 16⟩ ++ phdrBytes ⟨ptLoad, 6, 192, 0x4010C0, 8, 16⟩ ++
    List.replicate 16 0x90#8 ++ List.replicate 8 0x41#8

/-- What the kernel and the loader find in that file. -/
theorem twoSegments_evaluates :
    (twoSegments.length = 200 ∧ (kzalloc sixteenBlocks twoSegments.length).1 = 0x100000 ∧
      (pagingDescNew (sixteenBlocks.withProgram twoSegments) pagingMapLevel4).1 = some programDesc ∧
      ∀ access ∈ (elfLoad (bufferMemory twoSegments) 0x100000 twoSegments).2.accesses,
        access.ZeroesIn (0x100000 + 176) (0x100000 + peachosHeapBlockSize)) ∧
    (elfValidateLoaded (fileMemory 0x100000 twoSegments) 0x100000 = 0 ∧
      ePhoff (fileMemory 0x100000 twoSegments) 0x100000 = 64 ∧ ePhnum (fileMemory 0x100000 twoSegments) 0x100000 = 2 ∧
      elfSegment (fileMemory 0x100000 twoSegments) 0x100000 0 = ⟨ptLoad, 5, 176, 0x4000B0, 16, 16⟩ ∧
      elfSegment (fileMemory 0x100000 twoSegments) 0x100000 1 = ⟨ptLoad, 6, 192, 0x4010C0, 8, 16⟩) ∧
    (elfLoad (bufferMemory twoSegments) 0x100000 twoSegments).2.mem 0x1000B8 = 0x00#8 ∧
      twoSegments.getD 184 0x00#8 = 0x90#8 := by
  refine ⟨⟨?_, ?_, ?_, ?_⟩, ?_, ?_⟩ <;> decide +kernel

theorem twoSegments_plain : PlainHeaders 0x100000 twoSegments 176 := by
  obtain ⟨⟨length, _⟩, ⟨_, phoff, phnum, _⟩, _⟩ := twoSegments_evaluates
  refine ⟨by decide, ?_, ?_, ?_⟩
  · rw [phoff]
    decide
  · rw [phoff, phnum]
    decide
  · rw [length]
    decide

theorem twoSegments_ready :
    ∃ ledger start, (programKernel twoSegments).address ⟨start, 1⟩ = 0x100000 ∧
      ProgramReady (programKernel twoSegments) programDesc ledger ⟨start, 1⟩ 176 13 (bufferMemory twoSegments)
        twoSegments := by
  obtain ⟨⟨length, pointer, created, zeroes⟩, _⟩ := twoSegments_evaluates
  exact programKernel_ready (by rw [length]; decide) pointer created twoSegments_plain zeroes

/-- What the loader reads in the program of two segments. -/
theorem twoSegments_read (mem : Memory) :
    elfValidateLoaded (elfRead mem 0x100000 twoSegments).mem 0x100000 = 0 ∧
      ePhnum (elfRead mem 0x100000 twoSegments).mem 0x100000 = 2 ∧
      elfSegment (elfRead mem 0x100000 twoSegments).mem 0x100000 0 = ⟨ptLoad, 5, 176, 0x4000B0, 16, 16⟩ ∧
      elfSegment (elfRead mem 0x100000 twoSegments).mem 0x100000 1 = ⟨ptLoad, 6, 192, 0x4010C0, 8, 16⟩ := by
  obtain ⟨_, ⟨isElf, _, phnum, first, second⟩, _⟩ := twoSegments_evaluates
  have agrees := twoSegments_plain.elfRead mem
  rw [elfValidateLoaded_congr fun a low high => agrees a (Or.inl ⟨low, high⟩), (elfHeader_congr agrees).2,
    elfSegment_congr agrees (by rw [phnum]; exact Nat.two_pos), elfSegment_congr agrees (by rw [phnum]; exact Nat.one_lt_two)]
  exact ⟨isElf, phnum, first, second⟩

/-- Its segments are those of a valid file. -/
theorem twoSegments_valid (mem : Memory) :
    ValidSegments (elfRead mem 0x100000 twoSegments).mem 0x100000 twoSegments.length := by
  obtain ⟨⟨length, _⟩, _⟩ := twoSegments_evaluates
  obtain ⟨_, phnum, first, second⟩ := twoSegments_read mem
  generalize (elfRead mem 0x100000 twoSegments).mem = mem' at *
  have two {i : Nat} (loaded : IsLoaded mem' 0x100000 i) : i = 0 ∨ i = 1 := by
    have below := loaded.1
    omega
  refine ⟨fun i loaded => ?_, fun i loaded => ?_, fun i loaded => ?_, fun i j loaded loaded' different => ?_⟩
  · rcases two loaded with rfl | rfl
    · rw [first, length]
      decide
    · rw [second, length]
      decide
  · rcases two loaded with rfl | rfl
    · rw [first]
      rfl
    · rw [second]
      rfl
  · rcases two loaded with rfl | rfl
    · rw [first]
    · rw [second]
      decide
  · simp only [pagingPageSize]
    rcases two loaded with rfl | rfl <;> rcases two loaded' with rfl | rfl
    · exact absurd rfl different
    · rw [first, second]
      intro a small b small'
      simp only at small small' ⊢
      omega
    · rw [first, second]
      intro a small b small'
      simp only at small small' ⊢
      omega
    · exact absurd rfl different

/-- Its process reads a zero in the first segment. -/
theorem twoSegments_byte :
    userByte (processMapElf (programKernel twoSegments) programDesc 0x100000).kernel.mem programDesc 0x4000B8 =
      some 0x00#8 := by
  obtain ⟨ledger, start, address, ready⟩ := twoSegments_ready
  obtain ⟨_, ⟨_, _, phnum, first, second⟩, zero, _⟩ := twoSegments_evaluates
  have both {property : Elf64Phdr → Prop} (ofFirst : property ⟨ptLoad, 5, 176, 0x4000B0, 16, 16⟩)
      (ofSecond : property ⟨ptLoad, 6, 192, 0x4010C0, 8, 16⟩) : ∀ h < ePhnum (fileMemory 0x100000 twoSegments) 0x100000,
      property (elfSegment (fileMemory 0x100000 twoSegments) 0x100000 h) := by
    intro h below
    rw [phnum] at below
    obtain rfl | rfl : h = 0 ∨ h = 1 := by omega
    · rw [first]
      exact ofFirst
    · rw [second]
      exact ofSecond
  have few := @both (fun phdr => (mapElfRequest 0x100000 phdr).pages ≤ 1) (by decide) (by decide)
  have accepted := @both (fun phdr => (mapElfRequest 0x100000 phdr).phys ≤ (mapElfRequest 0x100000 phdr).physEnd)
    (by decide) (by decide)
  have agree := @both (fun phdr => pageOffset (mapElfRequest 0x100000 phdr).virt 0x4000B8 < (mapElfRequest 0x100000 phdr).pages →
    (mapElfRequest 0x100000 phdr).frameOf 0x4000B8 = 0x100) (by decide) (by decide)
  have covers : ∃ h < ePhnum (fileMemory 0x100000 twoSegments) 0x100000,
      let request := mapElfRequest 0x100000 (elfSegment (fileMemory 0x100000 twoSegments) 0x100000 h)
      pageOffset request.virt 0x4000B8 < request.pages := by
    refine ⟨0, by rw [phnum]; decide, ?_⟩
    rw [first]
    decide
  have enough : 3 * 1 * ePhnum (fileMemory 0x100000 twoSegments) 0x100000 ≤ 13 := by
    rw [phnum]
    decide
  have isThere : 0x1000B8 ∈ (programKernel twoSegments).bytes ⟨start, 1⟩ := by
    unfold Kernel.bytes
    rw [address]
    change 0x100000 ≤ 0x1000B8 ∧ 0x1000B8 < 0x100000 + 1 * 4096
    decide
  have loaded := ready.file _ isThere
  rw [← address] at few accepted agree covers enough
  have allocates := ready.allocates enough few (2 ^ 16)
  have kept := ready.kept allocates _ isThere
  have byte := userByte_of_leaf (ready.userLeaf allocates accepted agree covers)
  have here : 0x100 * pagingPageSize + 0x4000B8 % pagingPageSize = 0x1000B8 := by decide
  rw [address] at loaded kept byte
  rw [here, kept, loaded, zero] at byte
  exact byte

/-- **The second segment zeroes bytes of the first.** Its uninitialised data is zeroed behind as many bytes of the first
segment, which is the lower one. -/
theorem loadsFaithfully_fails :
    (elfLoad (bufferMemory twoSegments) 0x100000 twoSegments).1 = 0 ∧
      ValidSegments (elfRead (bufferMemory twoSegments) 0x100000 twoSegments).mem 0x100000 twoSegments.length ∧
      ¬ LoadsFaithfully (programKernel twoSegments) programDesc (bufferMemory twoSegments) 0x100000 twoSegments := by
  obtain ⟨isElf, phnum, first, _⟩ := twoSegments_read (bufferMemory twoSegments)
  obtain ⟨⟨length, _⟩, _, _, stored⟩ := twoSegments_evaluates
  refine ⟨?_, twoSegments_valid _, fun faithful => ?_⟩
  · rw [elfLoad, if_neg (List.ne_nil_of_length_pos (by rw [length]; decide)), elfProcessLoaded_valid isElf]
  · have wanted := faithful 0 ⟨by rw [phnum]; decide, by rw [first]⟩ 8
    rw [first] at wanted
    change _ → userByte _ _ 0x4000B8 = some (twoSegments.getD 184 0x00#8) at wanted
    have wrong := wanted (by decide)
    rw [twoSegments_byte, stored] at wrong
    exact absurd wrong (by decide)

end PeachOS
