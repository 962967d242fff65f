/-
**Mapping a program: `process_map_elf` of `task/process.c`.**

For each program header, whatever its type, the pages that its bytes have in the loaded file are mapped for the user.
Nothing compares them with the pages of the file.

* `processMapElf` — the loop over the program headers, with its requests to `paging_map_to`;
* `mapElfRequest_spec` — one request sets the leaves of its pages;
* `processMapElfLoop_leaves` — after all of them, every leaf is the old one or refers to a frame that was requested.

The headers are read from memory when their turn comes, as in the loader.
-/

import PeachOS.Loader.Model
import PeachOS.Paging.Identity

namespace PeachOS

open ByteStore

/-! ### The loop -/

/-- `elf_phdr_phys_address`. -/
def elfPhdrPhysAddress (elfMemory : Nat) (phdr : Elf64Phdr) : Nat := toWord (elfMemory + phdr.pOffset)

/-- The arguments of a call of `paging_map_to`. -/
structure MapToRequest where
  virt : Nat
  phys : Nat
  physEnd : Nat
  flags : BitVec 32
deriving DecidableEq

/-- What is requested for a program header. The second bit of its flags is `PF_W`. -/
def mapElfRequest (elfMemory : Nat) (phdr : Elf64Phdr) : MapToRequest where
  virt := pagingAlignToLowerPage phdr.pVaddr
  phys := pagingAlignToLowerPage (elfPhdrPhysAddress elfMemory phdr)
  physEnd := pagingAlignAddress (toWord (elfPhdrPhysAddress elfMemory phdr + phdr.pMemsz))
  flags := pagingIsPresent ||| pagingAccessFromAll ||| if phdr.pFlags / 2 % 2 = 1 then pagingIsWriteable else 0#32

/-- A request is carried out. -/
def MapToRequest.map (request : MapToRequest) (k : Kernel) (desc : PagingDesc) : Int × Kernel :=
  pagingMapTo k desc request.virt request.phys request.physEnd request.flags

/-- The result, the kernel, and the requests so far. -/
structure MapElf where
  res : Int
  kernel : Kernel
  requests : List MapToRequest

/-- The request for a program header, as it is in memory. `phdrs` is the address of the first. -/
def elfRequestAt (mem : Memory) (elfMemory phdrs i : Nat) : MapToRequest :=
  mapElfRequest elfMemory (phdrAt mem (toWord (phdrs + sizeofElf64Phdr * i)))

/-- The loop of `process_map_elf`, with `fuel` iterations left. -/
def processMapElfLoop (desc : PagingDesc) (elfMemory phdrs : Nat) : (fuel i : Nat) → MapElf → MapElf
  | 0, _, σ => σ
  | fuel + 1, i, σ =>
      if i < ePhnum σ.kernel.mem elfMemory then
        let request := elfRequestAt σ.kernel.mem elfMemory phdrs i
        let mapped := request.map σ.kernel desc
        let σ : MapElf := ⟨mapped.1, mapped.2, σ.requests ++ [request]⟩
        if mapped.1 < 0 then σ else processMapElfLoop desc elfMemory phdrs fuel (i + 1) σ
      else σ

/-- `process_map_elf`. There are less than `2 ^ 16` program headers. -/
def processMapElf (k : Kernel) (desc : PagingDesc) (elfMemory : Nat) : MapElf :=
  processMapElfLoop desc elfMemory (elfPheader k.mem elfMemory) (2 ^ 16) 0 ⟨0, k, []⟩

/-! ### Pages -/

/-- The number of pages that a request maps. None are mapped when it is refused. -/
def MapToRequest.pages (request : MapToRequest) : Nat :=
  min ((request.physEnd - request.phys) / pagingPageSize) (2 ^ 31)

/-- The frames that a request maps. A leaf has 40 bits for the frame. -/
def MapToRequest.frames (request : MapToRequest) : Set Nat :=
  { frame | ∃ page < request.pages, frame = (request.phys / pagingPageSize + page) % 2 ^ 40 }

/-- The frame that a request gives to the page of an address. -/
def MapToRequest.frameOf (request : MapToRequest) (va : Nat) : Nat :=
  (request.phys / pagingPageSize + pageOffset request.virt va) % 2 ^ 40

/-- The tables for all requests can be allocated. -/
def RequestsAllocate (desc : PagingDesc) (elfMemory phdrs : Nat) : (fuel i : Nat) → Kernel → Prop
  | 0, _, _ => True
  | fuel + 1, i, k =>
      i < ePhnum k.mem elfMemory →
        let request := elfRequestAt k.mem elfMemory phdrs i
        PagingRangeAllocates desc request.flags request.pages request.virt request.phys k ∧
          (0 ≤ (request.map k desc).1 → RequestsAllocate desc elfMemory phdrs fuel (i + 1) (request.map k desc).2)

/-! ### One request -/

section Request

theorem pagingAlignToLowerPage_mod (addr : Nat) : pagingAlignToLowerPage addr % pagingPageSize = 0 := by
  rw [pagingAlignToLowerPage_eq]
  exact Nat.mul_mod_left _ _

/-- A request is refused when its end wraps around, and has no pages then. -/
theorem mapElfRequest_map (k : Kernel) (desc : PagingDesc) (elfMemory : Nat) (phdr : Elf64Phdr) :
    let request := mapElfRequest elfMemory phdr
    (request.physEnd < request.phys ∧ request.pages = 0 ∧ request.map k desc = (einvarg, k)) ∨
      (request.phys ≤ request.physEnd ∧ request.map k desc =
        pagingMapRange k desc request.virt request.phys ((request.physEnd - request.phys) / pagingPageSize)
          request.flags) := by
  intro request
  have virt : request.virt % pagingPageSize = 0 := pagingAlignToLowerPage_mod _
  have phys : request.phys % pagingPageSize = 0 := pagingAlignToLowerPage_mod _
  have physEnd : request.physEnd % pagingPageSize = 0 := pagingIsAligned_alignAddress _
  unfold MapToRequest.map pagingMapTo
  simp only [virt, phys, physEnd, ne_eq, not_true_eq_false, if_false]
  by_cases wraps : request.physEnd < request.phys
  · refine Or.inl ⟨wraps, ?_, if_pos wraps⟩
    unfold MapToRequest.pages
    rw [Nat.sub_eq_zero_of_le wraps.le, Nat.zero_div, Nat.zero_min]
  · exact Or.inr ⟨Nat.le_of_not_lt wraps, if_neg wraps⟩

end Request

/-! ### The requests of a run -/

section Run

variable {desc : PagingDesc} {elfMemory phdrs : Nat}

/-- The requests so far stay recorded. -/
theorem processMapElfLoop_requests (fuel i : Nat) (σ : MapElf) :
    σ.requests ⊆ (processMapElfLoop desc elfMemory phdrs fuel i σ).requests := by
  induction fuel generalizing i σ with
  | zero => exact List.Subset.refl _
  | succ fuel ih =>
      rw [processMapElfLoop]
      by_cases more : i < ePhnum σ.kernel.mem elfMemory
      · rw [if_pos more]
        dsimp only
        generalize (elfRequestAt σ.kernel.mem elfMemory phdrs i).map σ.kernel desc = mapped
        by_cases refused : mapped.1 < 0
        · rw [if_pos refused]
          exact List.subset_append_left _ _
        · rw [if_neg refused]
          exact List.Subset.trans (List.subset_append_left _ _) (ih (i + 1) ⟨mapped.1, mapped.2, σ.requests ++ [_]⟩)
      · rw [if_neg more]
        exact List.Subset.refl _

variable {Holder : Type} {holder : List Nat → Holder} (injective : Function.Injective holder)

include injective

/-- **One request sets the leaves of its pages** and no others. -/
theorem mapElfRequest_spec {k : Kernel} {ledger : Ledger Holder} (heap : KernelHeap k ledger.chains)
    (tables : PageTables k ledger holder desc) (phdr : Elf64Phdr) :
    let request := mapElfRequest elfMemory phdr
    PagingRangeAllocates desc request.flags request.pages request.virt request.phys k →
    ∃ ledger', Grown (Set.range holder) k ledger (request.map k desc).2 ledger' ∧
      PageTables (request.map k desc).2 ledger' holder desc ∧
      (request.phys ≤ request.physEnd → (request.map k desc).1 = 0) ∧
      ∀ va, pageEntry (request.map k desc).2.mem desc va =
        if pageOffset request.virt va < request.pages then
          leafSet (pageEntry k.mem desc va) (request.phys + pageOffset request.virt va * pagingPageSize) request.flags
        else pageEntry k.mem desc va := by
  intro request allocates
  rcases mapElfRequest_map k desc elfMemory phdr with ⟨wraps, none, refused⟩ | ⟨_, maps⟩
  · rw [refused, none]
    exact ⟨ledger, .refl heap, tables, fun fits => absurd wraps (Nat.not_lt.mpr fits),
      fun va => (if_neg (Nat.not_lt_zero _)).symm⟩
  · rw [maps]
    obtain ⟨ledger', grown, tables', done, leaves⟩ := pagingMapRange_spec injective heap tables allocates
    exact ⟨ledger', grown, tables', fun _ => done, leaves⟩

/-- **Each leaf is the old one or refers to a frame that was requested**, after some requests. -/
theorem processMapElfLoop_leaves {fuel i : Nat} {σ : MapElf} {ledger : Ledger Holder}
    (heap : KernelHeap σ.kernel ledger.chains) (tables : PageTables σ.kernel ledger holder desc)
    (allocates : RequestsAllocate desc elfMemory phdrs fuel i σ.kernel) :
    ∃ ledger', Grown (Set.range holder) σ.kernel ledger (processMapElfLoop desc elfMemory phdrs fuel i σ).kernel
        ledger' ∧
      PageTables (processMapElfLoop desc elfMemory phdrs fuel i σ).kernel ledger' holder desc ∧
      ∀ va, pageEntry (processMapElfLoop desc elfMemory phdrs fuel i σ).kernel.mem desc va =
          pageEntry σ.kernel.mem desc va ∨
        ∃ request ∈ (processMapElfLoop desc elfMemory phdrs fuel i σ).requests,
          entryAddress (pageEntry (processMapElfLoop desc elfMemory phdrs fuel i σ).kernel.mem desc va) ∈
            request.frames := by
  induction fuel generalizing i σ ledger with
  | zero => exact ⟨ledger, .refl heap, tables, fun va => Or.inl rfl⟩
  | succ fuel ih =>
      rw [processMapElfLoop]
      by_cases more : i < ePhnum σ.kernel.mem elfMemory
      · rw [if_pos more]
        obtain ⟨allocatesHere, allocatesRest⟩ := allocates more
        obtain ⟨ledger₁, grown₁, tables₁, _, leaves₁⟩ := mapElfRequest_spec injective heap tables _ allocatesHere
        -- a leaf that this request has set refers to one of its frames
        have here (va : Nat) :
            pageEntry ((elfRequestAt σ.kernel.mem elfMemory phdrs i).map σ.kernel desc).2.mem desc va =
              pageEntry σ.kernel.mem desc va ∨
            entryAddress (pageEntry ((elfRequestAt σ.kernel.mem elfMemory phdrs i).map σ.kernel desc).2.mem desc va) ∈
              (elfRequestAt σ.kernel.mem elfMemory phdrs i).frames := by
          unfold elfRequestAt
          rw [leaves₁ va]
          split
          case isTrue inside =>
            refine Or.inr ⟨_, inside, ?_⟩
            rw [entryAddress_leafSet]
            simp only [pagingPageSize]
            omega
          case isFalse => exact Or.inl rfl
        dsimp only
        change Grown _ _ _ ((elfRequestAt σ.kernel.mem elfMemory phdrs i).map σ.kernel desc).2 _ at grown₁
        change PageTables ((elfRequestAt σ.kernel.mem elfMemory phdrs i).map σ.kernel desc).2 _ _ _ at tables₁
        clear leaves₁ allocatesHere
        generalize (elfRequestAt σ.kernel.mem elfMemory phdrs i).map σ.kernel desc = mapped at *
        generalize elfRequestAt σ.kernel.mem elfMemory phdrs i = request at *
        by_cases refused : mapped.1 < 0
        · rw [if_pos refused]
          refine ⟨ledger₁, grown₁, tables₁, fun va => (here va).imp_right fun frame => ?_⟩
          exact ⟨request, List.mem_append_right _ (List.mem_singleton_self _), frame⟩
        · rw [if_neg refused]
          obtain ⟨ledger₂, grown₂, tables₂, leaves₂⟩ := @ih (i + 1) ⟨mapped.1, mapped.2, σ.requests ++ [request]⟩ ledger₁
            grown₁.heap tables₁ (allocatesRest (Int.not_lt.mp refused))
          refine ⟨ledger₂, grown₁.trans grown₂, tables₂, fun va => ?_⟩
          rcases leaves₂ va with same | set
          · rw [same]
            refine (here va).imp_right fun frame => ⟨request, ?_, frame⟩
            exact processMapElfLoop_requests _ _ _ (List.mem_append_right _ (List.mem_singleton_self _))
          · exact Or.inr set
      · rw [if_neg more]
        exact ⟨ledger, .refl heap, tables, fun va => Or.inl rfl⟩

end Run

end PeachOS
