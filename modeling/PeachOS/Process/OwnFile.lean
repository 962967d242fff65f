/-
**The pages that a program is given.**

A program is only given its own file when each of its program headers asks for pages of the file. Nothing checks that.

* `MapsOwnFile` — the pages that are mapped lie in the buffer of the file, and no others become accessible;
* `processMapElf_iff` — exactly when that is so: `RequestsFit`;
* `requestsFit_of_headers` — it suffices that the program headers ask for pages of the file, as they are at first;
* `processMapElf_mapsOutside` — a file that is accepted and is given a page behind its end.
-/

import PeachOS.Process.Ready

namespace PeachOS

open ByteStore
open SpanTable (Span)

/-! ### The statement -/

/-- **The page-rounded buffer** of a file, by its frames. -/
def fileFrames (elfMemory size : Nat) : Set Nat :=
  Set.Ico (elfMemory / pagingPageSize) ((elfMemory + size + (pagingPageSize - 1)) / pagingPageSize)

/-- **The frames that are accessible from user mode** through a descriptor. -/
def userFrames (mem : Memory) (desc : PagingDesc) : Set Nat :=
  { frame | ∃ va, entryPresent (pageEntry mem desc va) = true ∧ entryUserSupervisor (pageEntry mem desc va) = true ∧
    entryAddress (pageEntry mem desc va) = frame }

/-- **A program is only given its file**: each page that is mapped lies in the buffer of the file, and no other page
becomes accessible. -/
structure MapsOwnFile (k : Kernel) (desc : PagingDesc) (elfMemory size : Nat) : Prop where
  pages : ∀ request ∈ (processMapElf k desc elfMemory).requests, request.frames ⊆ fileFrames elfMemory size
  reachable : userFrames (processMapElf k desc elfMemory).kernel.mem desc ⊆
    userFrames k.mem desc ∪ fileFrames elfMemory size

/-- **The pages of a request fit**: there are none, or the first lies in the file and there are not too many. -/
def MapToRequest.Fits (elfMemory size : Nat) (request : MapToRequest) : Prop :=
  request.pages = 0 ∨
    (elfMemory / pagingPageSize ≤ request.phys / pagingPageSize % 2 ^ 40 ∧
      request.phys / pagingPageSize % 2 ^ 40 + request.pages ≤
        (elfMemory + size + (pagingPageSize - 1)) / pagingPageSize)

/-- All requests fit, each when its turn comes. -/
def RequestsFit (desc : PagingDesc) (elfMemory size phdrs : Nat) : (fuel i : Nat) → Kernel → Prop
  | 0, _, _ => True
  | fuel + 1, i, k =>
      i < ePhnum k.mem elfMemory →
        (elfRequestAt k.mem elfMemory phdrs i).Fits elfMemory size ∧
          (0 ≤ ((elfRequestAt k.mem elfMemory phdrs i).map k desc).1 →
            RequestsFit desc elfMemory size phdrs fuel (i + 1) ((elfRequestAt k.mem elfMemory phdrs i).map k desc).2)

section Fits

variable {desc : PagingDesc} {elfMemory size phdrs : Nat} {request : MapToRequest}

/-- **The frames of a request lie in the file** exactly when it fits. -/
theorem frames_subset_iff (physical : (elfMemory + size + (pagingPageSize - 1)) / pagingPageSize < 2 ^ 40) :
    request.frames ⊆ fileFrames elfMemory size ↔ request.Fits elfMemory size := by
  unfold MapToRequest.frames fileFrames MapToRequest.Fits
  generalize request.pages = pages
  generalize request.phys / pagingPageSize = first
  generalize elfMemory / pagingPageSize = low
  generalize (elfMemory + size + (pagingPageSize - 1)) / pagingPageSize = high at physical ⊢
  constructor
  · intro inside
    rcases Nat.eq_zero_or_pos pages with none | some_
    · exact Or.inl none
    · have start := inside ⟨0, some_, rfl⟩
      rw [Set.mem_Ico, Nat.add_zero] at start
      refine Or.inr ⟨start.1, ?_⟩
      by_contra outside
      -- the first frame behind the file is one of the frames
      have beyond := inside ⟨high - first % 2 ^ 40, by omega, rfl⟩
      rw [Set.mem_Ico] at beyond
      omega
  · rintro fits frame ⟨page, before, rfl⟩
    rw [Set.mem_Ico]
    rcases fits with none | ⟨start, finish⟩
    · omega
    · omega

/-- **The pages that are mapped lie in the file** exactly when all requests fit. -/
theorem processMapElfLoop_pages_iff (physical : (elfMemory + size + (pagingPageSize - 1)) / pagingPageSize < 2 ^ 40)
    (fuel i : Nat) (σ : MapElf) :
    (∀ request ∈ (processMapElfLoop desc elfMemory phdrs fuel i σ).requests,
      request.frames ⊆ fileFrames elfMemory size) ↔
      (∀ request ∈ σ.requests, request.frames ⊆ fileFrames elfMemory size) ∧
        RequestsFit desc elfMemory size phdrs fuel i σ.kernel := by
  induction fuel generalizing i σ with
  | zero => exact (and_iff_left trivial).symm
  | succ fuel ih =>
      rw [processMapElfLoop, RequestsFit]
      by_cases more : i < ePhnum σ.kernel.mem elfMemory
      · rw [if_pos more, imp_iff_right more]
        dsimp only
        have here : (∀ request ∈ σ.requests ++ [elfRequestAt σ.kernel.mem elfMemory phdrs i],
            request.frames ⊆ fileFrames elfMemory size) ↔
              (∀ request ∈ σ.requests, request.frames ⊆ fileFrames elfMemory size) ∧
                (elfRequestAt σ.kernel.mem elfMemory phdrs i).Fits elfMemory size := by
          rw [List.forall_mem_append, List.forall_mem_singleton, frames_subset_iff physical]
        generalize (elfRequestAt σ.kernel.mem elfMemory phdrs i).map σ.kernel desc = mapped
        by_cases refused : mapped.1 < 0
        · rw [if_pos refused, here]
          exact and_congr_right fun _ => (and_iff_left fun fine => absurd refused (Int.not_lt.mpr fine)).symm
        · rw [if_neg refused, ih, here, and_assoc]
          refine and_congr_right fun _ => and_congr_right fun _ => ?_
          exact (imp_iff_right (Int.not_lt.mp refused)).symm
      · rw [if_neg more]
        exact (and_iff_left fun more' => absurd more' more).symm

end Fits

/-! ### Mapping a file -/

section OwnFile

variable {Holder : Type} {holder : List Nat → Holder} (injective : Function.Injective holder) {desc : PagingDesc}
  {size : Nat}

include injective

section Headers

variable {mem : Memory} {elfMemory : Nat} {file : Holder} {chain : Span} (other : file ∉ Set.range holder)
  (word : elfMemory + ePhoff mem elfMemory + sizeofElf64Phdr * ePhnum mem elfMemory < 2 ^ 64)

include other word

/-- **Program headers that ask for pages of the file** still do when their turn comes. -/
theorem requestsFit_of_headers
    (fit : ∀ h < ePhnum mem elfMemory, (mapElfRequest elfMemory (elfSegment mem elfMemory h)).Fits elfMemory size)
    {fuel i : Nat} {k : Kernel} {ledger : Ledger Holder} (heap : KernelHeap k ledger.chains)
    (tables : PageTables k ledger holder desc) (held : ledger.Holds file chain)
    (inBuffer : headerBytes mem elfMemory ⊆ k.bytes chain) (agrees : ∀ a ∈ headerBytes mem elfMemory, k.mem a = mem a)
    (allocates : RequestsAllocate desc elfMemory (elfMemory + ePhoff mem elfMemory) fuel i k) :
    RequestsFit desc elfMemory size (elfMemory + ePhoff mem elfMemory) fuel i k := by
  induction fuel generalizing i k ledger with
  | zero => exact trivial
  | succ fuel ih =>
      rw [RequestsAllocate, (elfHeader_congr agrees).2] at allocates
      rw [RequestsFit, (elfHeader_congr agrees).2]
      intro more
      obtain ⟨allocatesHere, allocatesRest⟩ := allocates more
      rw [elfRequestAt_eq agrees word more] at allocatesHere allocatesRest ⊢
      obtain ⟨ledger₁, grown, tables₁, _⟩ := mapElfRequest_spec injective heap tables _ allocatesHere
      have kept := grown.keeps held other
      refine ⟨fit i more, fun fine => ih grown.heap tables₁ (grown.holds held) ?_ ?_ (allocatesRest fine)⟩
      · rw [grown.same.bytes]
        exact inBuffer
      · exact fun a isHeader => (kept a (inBuffer isHeader)).trans (agrees a isHeader)

end Headers

/-- **A program is only given its file** exactly when all requests fit. The file lies in a chain of the kernel heap, and
the page tables can be allocated. -/
theorem processMapElf_iff {k : Kernel} {ledger : Ledger Holder} {chain : Span} (heap : KernelHeap k ledger.chains)
    (tables : PageTables k ledger holder desc) (live : chain ∈ ledger.chains)
    (rounded : size ≤ chain.len * peachosHeapBlockSize)
    (allocates : RequestsAllocate desc (k.address chain) (elfPheader k.mem (k.address chain)) (2 ^ 16) 0 k) :
    MapsOwnFile k desc (k.address chain) size ↔
      RequestsFit desc (k.address chain) size (elfPheader k.mem (k.address chain)) (2 ^ 16) 0 k := by
  have physical : (k.address chain + size + (pagingPageSize - 1)) / pagingPageSize < 2 ^ 40 := by
    have inHeap := (heap.bytes_in_heap live).2.trans heap.physical
    simp only [pagingPageSize]
    omega
  have pages := @processMapElfLoop_pages_iff desc (k.address chain) size (elfPheader k.mem (k.address chain)) physical
    (2 ^ 16) 0 ⟨0, k, []⟩
  obtain ⟨_, _, _, leaves⟩ := @processMapElfLoop_leaves desc (k.address chain) (elfPheader k.mem (k.address chain)) Holder
    holder injective (2 ^ 16) 0 ⟨0, k, []⟩ ledger heap tables allocates
  constructor
  · rintro ⟨own, _⟩
    exact (pages.mp own).2
  · intro fit
    have own := pages.mpr ⟨fun _ asked => absurd asked List.not_mem_nil, fit⟩
    refine ⟨own, ?_⟩
    rintro frame ⟨va, present, user, rfl⟩
    rcases leaves va with same | ⟨request, asked, isFrame⟩
    · unfold processMapElf at present user ⊢
      rw [same] at present user ⊢
      exact Or.inl ⟨va, present, user, rfl⟩
    · exact Or.inr (own request asked isFrame)

end OwnFile

/-! ### Two files -/

/-- What the kernel and the loader find in the file of one segment. -/
theorem oneSegment_evaluates :
    (oneSegment.length = 124 ∧ (kzalloc sixteenBlocks oneSegment.length).1 = 0x100000 ∧
      (pagingDescNew (sixteenBlocks.withProgram oneSegment) pagingMapLevel4).1 = some programDesc ∧
      ∀ access ∈ (elfLoad (bufferMemory oneSegment) 0x100000 oneSegment).2.accesses,
        access.ZeroesIn (0x100000 + 120) (0x100000 + peachosHeapBlockSize)) ∧
    elfValidateLoaded (fileMemory 0x100000 oneSegment) 0x100000 = 0 ∧
      ePhoff (fileMemory 0x100000 oneSegment) 0x100000 = 64 ∧ ePhnum (fileMemory 0x100000 oneSegment) 0x100000 = 1 ∧
      elfSegment (fileMemory 0x100000 oneSegment) 0x100000 0 = ⟨ptLoad, 6, 120, 0x400078, 4, 8⟩ := by
  refine ⟨⟨?_, ?_, ?_, ?_⟩, ?_⟩ <;> decide +kernel

theorem oneSegment_plain : PlainHeaders 0x100000 oneSegment 120 := by
  obtain ⟨⟨length, _⟩, _, phoff, phnum, _⟩ := oneSegment_evaluates
  refine ⟨by decide, ?_, ?_, ?_⟩
  · rw [phoff]
    decide
  · rw [phoff, phnum]
    decide
  · rw [length]
    decide

theorem oneSegment_ready :
    ∃ ledger start, (programKernel oneSegment).address ⟨start, 1⟩ = 0x100000 ∧
      ProgramReady (programKernel oneSegment) programDesc ledger ⟨start, 1⟩ 120 13 (bufferMemory oneSegment) oneSegment := by
  obtain ⟨⟨length, pointer, created, zeroes⟩, _⟩ := oneSegment_evaluates
  exact programKernel_ready (by rw [length]; decide) pointer created oneSegment_plain zeroes

/-- A property of the only program header. -/
theorem forall_single {count : Nat} (single : count = 1) {property : Nat → Prop} (first : property 0) :
    ∀ h < count, property h := by
  rintro h below
  obtain rfl : h = 0 := by omega
  exact first

/-- Its only request is for one page. -/
theorem oneSegment_few : ∀ h < ePhnum (fileMemory 0x100000 oneSegment) 0x100000,
    (mapElfRequest 0x100000 (elfSegment (fileMemory 0x100000 oneSegment) 0x100000 h)).pages ≤ 1 := by
  obtain ⟨_, _, _, phnum, segment⟩ := oneSegment_evaluates
  refine forall_single phnum ?_
  rw [segment]
  decide

theorem oneSegment_enough : 3 * 1 * ePhnum (fileMemory 0x100000 oneSegment) 0x100000 ≤ 13 := by
  obtain ⟨_, _, _, phnum, _⟩ := oneSegment_evaluates
  rw [phnum]
  decide

/-- A file of one segment is given its page. -/
theorem processMapElf_iff_oneSegment : MapsOwnFile (programKernel oneSegment) programDesc 0x100000 oneSegment.length := by
  obtain ⟨ledger, start, address, ready⟩ := oneSegment_ready
  obtain ⟨⟨length, _⟩, _, _, phnum, segment⟩ := oneSegment_evaluates
  have fit : ∀ h < ePhnum (fileMemory 0x100000 oneSegment) 0x100000,
      (mapElfRequest 0x100000 (elfSegment (fileMemory 0x100000 oneSegment) 0x100000 h)).Fits 0x100000
        oneSegment.length := by
    refine forall_single phnum ?_
    rw [segment, length]
    exact Or.inr (by decide)
  have few := oneSegment_few
  have enough := oneSegment_enough
  rw [← address] at few fit enough ⊢
  have allocates := ready.allocates enough few (2 ^ 16)
  refine (processMapElf_iff (Option.some_injective _) ready.inHeap.heap ready.tables ready.held.1 ready.fits
    allocates).mpr ?_
  rw [ready.elfPheader_eq] at allocates ⊢
  exact requestsFit_of_headers (Option.some_injective _) none_notMem_range ready.word fit ready.inHeap.heap ready.tables
    ready.held ready.inBuffer ready.headers allocates

/-- A file whose segment lies behind its end: there are two pages in between. -/
def behindEnd : List Byte := elfHeaderBytes 1 ++ phdrBytes ⟨ptLoad, 6, 0x3000, 0x400000, 0x1000, 0x1000⟩

/-- What the kernel and the loader find in that file. -/
theorem behindEnd_evaluates :
    (behindEnd.length = 120 ∧ (kzalloc sixteenBlocks behindEnd.length).1 = 0x100000 ∧
      (pagingDescNew (sixteenBlocks.withProgram behindEnd) pagingMapLevel4).1 = some programDesc ∧
      ∀ access ∈ (elfLoad (bufferMemory behindEnd) 0x100000 behindEnd).2.accesses,
        access.ZeroesIn (0x100000 + 120) (0x100000 + peachosHeapBlockSize)) ∧
    elfValidateLoaded (fileMemory 0x100000 behindEnd) 0x100000 = 0 ∧
      ePhoff (fileMemory 0x100000 behindEnd) 0x100000 = 64 ∧ ePhnum (fileMemory 0x100000 behindEnd) 0x100000 = 1 ∧
      elfSegment (fileMemory 0x100000 behindEnd) 0x100000 0 = ⟨ptLoad, 6, 0x3000, 0x400000, 0x1000, 0x1000⟩ := by
  refine ⟨⟨?_, ?_, ?_, ?_⟩, ?_⟩ <;> decide +kernel

theorem behindEnd_ready :
    ∃ ledger start, (programKernel behindEnd).address ⟨start, 1⟩ = 0x100000 ∧
      ProgramReady (programKernel behindEnd) programDesc ledger ⟨start, 1⟩ 120 13 (bufferMemory behindEnd) behindEnd := by
  obtain ⟨⟨length, pointer, created, zeroes⟩, _, phoff, phnum, _⟩ := behindEnd_evaluates
  refine programKernel_ready (by rw [length]; decide) pointer created ⟨by decide, ?_, ?_, ?_⟩ zeroes
  · rw [phoff]
    decide
  · rw [phoff, phnum]
    decide
  · rw [length]

/-- **A page behind the end of the file** is given to the program. -/
theorem processMapElf_mapsOutside :
    elfValidateLoaded (programKernel behindEnd).mem 0x100000 = 0 ∧
      0x103 ∈ userFrames (processMapElf (programKernel behindEnd) programDesc 0x100000).kernel.mem programDesc ∧
      0x103 ∉ fileFrames 0x100000 behindEnd.length ∧
      ¬ MapsOwnFile (programKernel behindEnd) programDesc 0x100000 behindEnd.length := by
  obtain ⟨ledger, start, address, ready⟩ := behindEnd_ready
  obtain ⟨⟨length, _⟩, valid, _, phnum, segment⟩ := behindEnd_evaluates
  have few : ∀ h < ePhnum (fileMemory 0x100000 behindEnd) 0x100000,
      (mapElfRequest 0x100000 (elfSegment (fileMemory 0x100000 behindEnd) 0x100000 h)).pages ≤ 1 := by
    refine forall_single phnum ?_
    rw [segment]
    decide
  have accepted : ∀ h < ePhnum (fileMemory 0x100000 behindEnd) 0x100000,
      (mapElfRequest 0x100000 (elfSegment (fileMemory 0x100000 behindEnd) 0x100000 h)).phys ≤
        (mapElfRequest 0x100000 (elfSegment (fileMemory 0x100000 behindEnd) 0x100000 h)).physEnd := by
    refine forall_single phnum ?_
    rw [segment]
    decide
  have agree : ∀ h < ePhnum (fileMemory 0x100000 behindEnd) 0x100000,
      let request := mapElfRequest 0x100000 (elfSegment (fileMemory 0x100000 behindEnd) 0x100000 h)
      pageOffset request.virt 0x400000 < request.pages → request.frameOf 0x400000 = 0x103 := by
    refine forall_single phnum ?_
    rw [segment]
    decide
  have covers : ∃ h < ePhnum (fileMemory 0x100000 behindEnd) 0x100000,
      let request := mapElfRequest 0x100000 (elfSegment (fileMemory 0x100000 behindEnd) 0x100000 h)
      pageOffset request.virt 0x400000 < request.pages := by
    refine ⟨0, by rw [phnum]; decide, ?_⟩
    rw [segment]
    decide
  have enough : 3 * 1 * ePhnum (fileMemory 0x100000 behindEnd) 0x100000 ≤ 13 := by
    rw [phnum]
    decide
  have outside : ¬ (mapElfRequest 0x100000 (elfSegment (fileMemory 0x100000 behindEnd) 0x100000 0)).Fits 0x100000
      behindEnd.length := by
    rw [segment, length]
    unfold MapToRequest.Fits
    decide
  have behind : 0x103 ∉ fileFrames 0x100000 behindEnd.length := by
    rw [length]
    rintro ⟨_, high⟩
    exact absurd high (by decide)
  rw [← address] at few accepted agree covers enough outside valid ⊢
  have allocates := ready.allocates enough few (2 ^ 16)
  obtain ⟨present, user, frame⟩ := ready.userLeaf allocates accepted agree covers
  refine ⟨?_, ⟨_, present, user, frame⟩, ?_, fun own => outside ?_⟩
  · rw [elfValidateLoaded_congr fun a low high => ready.headers a (Or.inl ⟨low, high⟩), valid]
  · rw [address]
    exact behind
  · have physical : ((programKernel behindEnd).address ⟨start, 1⟩ + behindEnd.length + (pagingPageSize - 1)) /
        pagingPageSize < 2 ^ 40 := by
      rw [address, length]
      decide
    have own := own.pages
    unfold processMapElf at own
    have fit := ((processMapElfLoop_pages_iff physical (2 ^ 16) 0 _).mp own).2
    -- the first request is one of them
    obtain ⟨fuel, rounds⟩ : ∃ fuel, 2 ^ 16 = fuel + 1 := ⟨65535, rfl⟩
    have first : 0 < ePhnum (programKernel behindEnd).mem ((programKernel behindEnd).address ⟨start, 1⟩) := by
      rw [(elfHeader_congr ready.headers).2, address, phnum]
      exact Nat.one_pos
    rw [rounds, RequestsFit, ready.elfPheader_eq] at fit
    have here := (fit first).1
    rw [elfRequestAt_eq ready.headers ready.word (by rw [← (elfHeader_congr ready.headers).2]; exact first)] at here
    exact here

end PeachOS
