/-
**What the ELF loader zeroes.**

The uninitialised data of a segment is zeroed from `physical_base_address` on, which is that of the lowest segment so
far. So each segment zeroes bytes that the program headers up to its own determine.

* `zeroedBytes` — the bytes that a segment zeroes, and `elfLoad_zeroed`: after a load these bytes are zero, and all others
  are as they were when the file had been read;
* `zeroedBytes_lowest` — the lowest segment so far zeroes its own uninitialised data;
* `elfLoad_kept` — whatever is zeroed, all other bytes are kept.
-/

import PeachOS.Loader.Bounds
import Mathlib.Data.Set.Lattice
import Mathlib.Order.CompletePartialOrder

namespace PeachOS

open ByteStore

/-- A program header of a file that is loaded at an address. -/
def elfSegment (mem : Memory) (elfMemory i : Nat) : Elf64Phdr :=
  phdrAt mem (elfMemory + ePhoff mem elfMemory + sizeofElf64Phdr * i)

/-- A program header is that of a segment. -/
def IsLoaded (mem : Memory) (elfMemory i : Nat) : Prop :=
  i < ePhnum mem elfMemory ∧ (elfSegment mem elfMemory i).pType = ptLoad

/-- The header and the program headers of a file. -/
def headerBytes (mem : Memory) (elfMemory : Nat) : Set Nat :=
  Set.Ico elfMemory (elfMemory + sizeofElfHeader) ∪
    Set.Ico (elfMemory + ePhoff mem elfMemory)
      (elfMemory + ePhoff mem elfMemory + sizeofElf64Phdr * ePhnum mem elfMemory)

/-- The addresses of the file when some program headers have been processed, as they are in the file. -/
def elfFileAfter (mem : Memory) (elfMemory : Nat) : Nat → ElfFile
  | 0 => elfFileNew elfMemory
  | i + 1 =>
      if (elfSegment mem elfMemory i).pType = ptLoad then
        ((elfFileAfter mem elfMemory i).withBase (elfSegment mem elfMemory i)).withEnd (elfSegment mem elfMemory i)
      else elfFileAfter mem elfMemory i

/-- **The bytes that a segment zeroes.** -/
def zeroedBytes (mem : Memory) (elfMemory i : Nat) : Set Nat :=
  let start := zeroStart (elfFileAfter mem elfMemory i) (elfSegment mem elfMemory i)
  Set.Ico start (start + min ((elfSegment mem elfMemory i).pMemsz - (elfSegment mem elfMemory i).pFilesz) (2 ^ 31))

/-- The bytes that are zeroed by some segment before a program header. -/
def zeroedBefore (mem : Memory) (elfMemory i : Nat) : Set Nat :=
  { a | ∃ j < i, IsLoaded mem elfMemory j ∧ a ∈ zeroedBytes mem elfMemory j }

/-- **No header is zeroed.** -/
structure HeadersSpared (mem : Memory) (elfMemory : Nat) : Prop where
  table : elfMemory + ePhoff mem elfMemory + sizeofElf64Phdr * ePhnum mem elfMemory < 2 ^ 64
  apart : ∀ i, IsLoaded mem elfMemory i → Disjoint (zeroedBytes mem elfMemory i) (headerBytes mem elfMemory)

/-- **After some program headers**, what they zero is zero, and all other bytes are as they were. -/
structure ZeroedUpTo (mem : Memory) (elfMemory i : Nat) (σ : ElfLoad) : Prop where
  elfFile : σ.elfFile = elfFileAfter mem elfMemory i
  zeroed : ∀ a ∈ zeroedBefore mem elfMemory i, σ.mem a = 0x00#8
  kept : ∀ a, a ∉ zeroedBefore mem elfMemory i → σ.mem a = mem a

section Headers

variable {mem mem' : Memory} {elfMemory : Nat}

/-- Program headers are read alike from memories that agree on them. -/
theorem phdrAt_congr {phdr : Nat} (same : ∀ a, phdr ≤ a → a < phdr + sizeofElf64Phdr → mem' a = mem a) :
    phdrAt mem' phdr = phdrAt mem phdr := by
  have word (offset count : Nat) (inside : offset + count ≤ 56) :
      readWord mem' (phdr + offset) count = readWord mem (phdr + offset) count :=
    readWord_congr fun place below => same _ (by omega) (by change _ < _ + 56; omega)
  unfold phdrAt
  rw [show readWord mem' phdr 4 = readWord mem phdr 4 from word 0 4 (by omega), word 4 4 (by omega),
    word 8 8 (by omega), word 16 8 (by omega), word 32 8 (by omega), word 40 8 (by omega)]

/-- So are the tests of a file. -/
theorem elfValidateLoaded_congr (same : ∀ a, elfMemory ≤ a → a < elfMemory + sizeofElfHeader → mem' a = mem a) :
    elfValidateLoaded mem' elfMemory = elfValidateLoaded mem elfMemory := by
  have byte (offset : Nat) (inside : offset < 64) : mem' (elfMemory + offset) = mem (elfMemory + offset) :=
    same _ (Nat.le_add_right _ _) (Nat.add_lt_add_left inside _)
  have word (offset count : Nat) (inside : offset + count ≤ 64) :
      readWord mem' (elfMemory + offset) count = readWord mem (elfMemory + offset) count :=
    readWord_congr fun place below => same _ (by omega) (by change _ < _ + 64; omega)
  have signature : window mem' elfMemory 4 = window mem elfMemory 4 :=
    window_congr fun place below => byte place (by omega)
  unfold elfValidateLoaded elfValidSignature elfValidClass elfValidEncoding elfHasProgramHeader elfIsExecutable eIdent
    eType eEntry ePhoff
  rw [signature, byte 4 (by omega), byte 5 (by omega), word 32 8 (by omega), word 16 2 (by omega), word 24 8 (by omega)]

/-- So are the fields of the header. -/
theorem elfHeader_congr (same : ∀ a ∈ headerBytes mem elfMemory, mem' a = mem a) :
    ePhoff mem' elfMemory = ePhoff mem elfMemory ∧ ePhnum mem' elfMemory = ePhnum mem elfMemory := by
  have word (offset count : Nat) (inside : offset + count ≤ 64) :
      readWord mem' (elfMemory + offset) count = readWord mem (elfMemory + offset) count :=
    readWord_congr fun place below => same _ (Or.inl ⟨by omega, by change _ < _ + 64; omega⟩)
  exact ⟨word 32 8 (by omega), word 56 2 (by omega)⟩

theorem elfSegment_congr (same : ∀ a ∈ headerBytes mem elfMemory, mem' a = mem a) {i : Nat}
    (inTable : i < ePhnum mem elfMemory) : elfSegment mem' elfMemory i = elfSegment mem elfMemory i := by
  unfold elfSegment
  rw [(elfHeader_congr same).1]
  refine phdrAt_congr fun a low high => same a (Or.inr ⟨by omega, ?_⟩)
  have entry : sizeofElf64Phdr * i + sizeofElf64Phdr ≤ sizeofElf64Phdr * ePhnum mem elfMemory :=
    Nat.mul_le_mul_left sizeofElf64Phdr inTable
  omega

/-- Where the loader looks for a program header. -/
theorem elfProgramHeader_eq (someTable : ePhoff mem elfMemory ≠ 0) {i : Nat} (inTable : i < ePhnum mem elfMemory)
    (word : elfMemory + ePhoff mem elfMemory + sizeofElf64Phdr * ePhnum mem elfMemory < 2 ^ 64) :
    elfProgramHeader mem elfMemory i = elfMemory + ePhoff mem elfMemory + sizeofElf64Phdr * i := by
  have entry : sizeofElf64Phdr * i ≤ sizeofElf64Phdr * ePhnum mem elfMemory := Nat.mul_le_mul_left _ inTable.le
  have first : elfPheader mem elfMemory = elfMemory + ePhoff mem elfMemory := by
    rw [elfPheader, if_neg someTable, ← Nat.cast_add, toWord_natCast (by omega)]
  rw [elfProgramHeader, first, toWord_of_bounds (by omega) (by omega)]
  omega

theorem withEnd_virtualBaseAddress (elfFile : ElfFile) (phdr : Elf64Phdr) :
    (elfFile.withEnd phdr).virtualBaseAddress = elfFile.virtualBaseAddress := by
  unfold ElfFile.withEnd
  dsimp only
  split <;> rfl

/-- The base is the old one, or that of the segment. -/
theorem withBase_virtualBaseAddress (elfFile : ElfFile) (phdr : Elf64Phdr) :
    (elfFile.withBase phdr).virtualBaseAddress = elfFile.virtualBaseAddress ∨
      (elfFile.withBase phdr).virtualBaseAddress = phdr.pVaddr := by
  unfold ElfFile.withBase
  split
  · exact Or.inr rfl
  · exact Or.inl rfl

/-- The file stays where it is. -/
theorem elfFileAfter_elfMemory (i : Nat) : (elfFileAfter mem elfMemory i).elfMemory = elfMemory := by
  induction i with
  | zero => rfl
  | succ i ih =>
      rw [elfFileAfter]
      split
      · rw [withEnd_elfMemory, withBase_elfMemory, ih]
      · exact ih

/-- A segment that is not larger in memory zeroes nothing. -/
theorem zeroedBytes_none {i : Nat} (plain : (elfSegment mem elfMemory i).pMemsz ≤ (elfSegment mem elfMemory i).pFilesz) :
    zeroedBytes mem elfMemory i = ∅ := by
  unfold zeroedBytes
  generalize zeroStart _ _ = start
  rw [Nat.sub_eq_zero_of_le plain, Nat.zero_min]
  exact Set.eq_empty_of_forall_notMem fun a inside => absurd inside.2 (Nat.not_lt.mpr inside.1)

/-- What a segment zeroes becomes zero. -/
theorem memset_zeroedBytes (store : Memory) (i a : Nat) :
    (a ∈ zeroedBytes mem elfMemory i → memset store (zeroStart (elfFileAfter mem elfMemory i)
      (elfSegment mem elfMemory i)) 0x00#8 ((elfSegment mem elfMemory i).pMemsz - (elfSegment mem elfMemory i).pFilesz)
        a = 0x00#8) ∧
      (a ∉ zeroedBytes mem elfMemory i → memset store (zeroStart (elfFileAfter mem elfMemory i)
        (elfSegment mem elfMemory i)) 0x00#8 ((elfSegment mem elfMemory i).pMemsz - (elfSegment mem elfMemory i).pFilesz)
          a = store a) := by
  unfold zeroedBytes
  generalize zeroStart _ _ = start
  generalize (elfSegment mem elfMemory i).pMemsz - _ = count
  dsimp only
  rw [Set.mem_Ico, memset, fill_apply]
  exact ⟨fun zeroes => if_pos zeroes, fun spares => if_neg spares⟩

/-- What is zeroed before the next program header. -/
theorem mem_zeroedBefore_succ {i a : Nat} : a ∈ zeroedBefore mem elfMemory (i + 1) ↔
    a ∈ zeroedBefore mem elfMemory i ∨ IsLoaded mem elfMemory i ∧ a ∈ zeroedBytes mem elfMemory i := by
  constructor
  · rintro ⟨j, before, loaded, zeroes⟩
    rcases Nat.lt_succ_iff_lt_or_eq.mp before with earlier | rfl
    · exact Or.inl ⟨j, earlier, loaded, zeroes⟩
    · exact Or.inr ⟨loaded, zeroes⟩
  · rintro (⟨j, before, zeroes⟩ | here)
    · exact ⟨j, before.trans (Nat.lt_succ_self i), zeroes⟩
    · exact ⟨i, Nat.lt_succ_self i, here⟩

end Headers

/-! ### One program header -/

section Step

variable {mem : Memory} {elfMemory i : Nat} {σ : ElfLoad} (spared : HeadersSpared mem elfMemory)

include spared

/-- The headers are as they were. -/
theorem ZeroedUpTo.headers (upTo : ZeroedUpTo mem elfMemory i σ) : ∀ a ∈ headerBytes mem elfMemory, σ.mem a = mem a :=
  fun a isHeader => upTo.kept a fun ⟨j, _, loaded, zeroes⟩ =>
    Set.disjoint_left.mp (spared.apart j loaded) zeroes isHeader

/-- **One program header.** -/
theorem ZeroedUpTo.next (upTo : ZeroedUpTo mem elfMemory i σ) (inTable : i < ePhnum mem elfMemory)
    (accesses : List ElfAccess) :
    ZeroedUpTo mem elfMemory (i + 1) (elfProcessPheader (σ.reads accesses)
      (elfMemory + ePhoff mem elfMemory + sizeofElf64Phdr * i)) := by
  have segment : phdrAt σ.mem (elfMemory + ePhoff mem elfMemory + sizeofElf64Phdr * i) = elfSegment mem elfMemory i := by
    have same := elfSegment_congr (upTo.headers spared) inTable
    unfold elfSegment at same ⊢
    rw [(elfHeader_congr (upTo.headers spared)).1] at same
    exact same
  unfold elfProcessPheader ElfLoad.reads
  dsimp only
  rw [segment]
  by_cases isLoad : (elfSegment mem elfMemory i).pType = ptLoad
  · have loaded : IsLoaded mem elfMemory i := ⟨inTable, isLoad⟩
    rw [if_pos isLoad]
    have file : ((σ.elfFile.withBase (elfSegment mem elfMemory i)).withEnd (elfSegment mem elfMemory i)) =
        elfFileAfter mem elfMemory (i + 1) := by
      rw [elfFileAfter, if_pos isLoad, upTo.elfFile]
    unfold elfProcessPhdrPtLoad
    dsimp only
    rw [file, upTo.elfFile]
    by_cases larger : (elfSegment mem elfMemory i).pFilesz < (elfSegment mem elfMemory i).pMemsz
    · rw [if_pos larger]
      have written := @memset_zeroedBytes mem elfMemory σ.mem i
      generalize memset σ.mem _ 0x00#8 _ = mem' at *
      refine ⟨rfl, fun a zeroes => ?_, fun a untouched => ?_⟩
      · change mem' a = _
        by_cases here : a ∈ zeroedBytes mem elfMemory i
        · exact (written a).1 here
        · rw [(written a).2 here]
          exact upTo.zeroed a ((mem_zeroedBefore_succ.mp zeroes).resolve_right fun both => here both.2)
      · rw [mem_zeroedBefore_succ, not_or, not_and] at untouched
        change mem' a = _
        rw [(written a).2 (untouched.2 loaded), upTo.kept a untouched.1]
    · rw [if_neg larger]
      have none (a : Nat) : a ∉ zeroedBytes mem elfMemory i := by
        rw [zeroedBytes_none (Nat.le_of_not_lt larger)]
        exact Set.notMem_empty a
      refine ⟨rfl, fun a zeroes => ?_, fun a untouched => ?_⟩
      · exact upTo.zeroed a ((mem_zeroedBefore_succ.mp zeroes).resolve_right fun here => none a here.2)
      · exact upTo.kept a fun earlier => untouched (mem_zeroedBefore_succ.mpr (Or.inl earlier))
  · rw [if_neg isLoad]
    refine ⟨?_, fun a zeroes => ?_, fun a untouched => ?_⟩
    · rw [elfFileAfter, if_neg isLoad]
      exact upTo.elfFile
    · exact upTo.zeroed a ((mem_zeroedBefore_succ.mp zeroes).resolve_right fun here => isLoad here.1.2)
    · exact upTo.kept a fun earlier => untouched (mem_zeroedBefore_succ.mpr (Or.inl earlier))

/-- **All program headers.** -/
theorem ZeroedUpTo.run (upTo : ZeroedUpTo mem elfMemory i σ) (someTable : ePhoff mem elfMemory ≠ 0) {fuel : Nat}
    (reached : i ≤ ePhnum mem elfMemory) (enough : ePhnum mem elfMemory ≤ i + fuel) :
    ZeroedUpTo mem elfMemory (ePhnum mem elfMemory) (elfProcessPheadersLoop fuel i σ) := by
  induction fuel generalizing i σ with
  | zero =>
      obtain rfl : i = ePhnum mem elfMemory := by omega
      exact upTo
  | succ fuel ih =>
      have headers := upTo.headers spared
      obtain ⟨phoff, phnum⟩ := elfHeader_congr headers
      have here : σ.elfFile.elfMemory = elfMemory := by rw [upTo.elfFile, elfFileAfter_elfMemory]
      rw [elfProcessPheadersLoop, here, phnum]
      by_cases more : i < ePhnum mem elfMemory
      · have header : elfProgramHeader σ.mem elfMemory i =
            elfMemory + ePhoff mem elfMemory + sizeofElf64Phdr * i := by
          rw [elfProgramHeader_eq (by rw [phoff]; exact someTable) (by rw [phnum]; exact more)
            (by rw [phoff, phnum]; exact spared.table), phoff]
        rw [if_pos more, header]
        exact ih (upTo.next spared more _) more (by omega)
      · rw [if_neg more]
        obtain rfl : i = ePhnum mem elfMemory := by omega
        exact ⟨upTo.elfFile, upTo.zeroed, upTo.kept⟩

end Step

/-- **What `elf_load` leaves in memory**, for a file that is accepted. -/
theorem elfLoad_zeroed {mem : Memory} {elfMemory : Nat} {content : List Byte} (some_ : content ≠ [])
    (valid : elfValidateLoaded (elfRead mem elfMemory content).mem elfMemory = 0)
    (spared : HeadersSpared (elfRead mem elfMemory content).mem elfMemory) :
    ZeroedUpTo (elfRead mem elfMemory content).mem elfMemory (ePhnum (elfRead mem elfMemory content).mem elfMemory)
      (elfLoad mem elfMemory content).2 := by
  rw [elfLoad, if_neg some_, elfProcessLoaded_valid valid]
  have start : ZeroedUpTo (elfRead mem elfMemory content).mem elfMemory 0 (elfValidated mem elfMemory content) := by
    refine ⟨rfl, fun a zeroed => ?_, fun _ _ => rfl⟩
    obtain ⟨j, before, _⟩ := zeroed
    exact absurd before (Nat.not_lt_zero j)
  have few : ePhnum (elfRead mem elfMemory content).mem elfMemory < 2 ^ 16 := readWord_lt
  unfold elfProcessPheaders
  exact start.run spared (ePhoff_of_valid valid) (Nat.zero_le _) (by omega)

/-! ### The lowest segment -/

section Lowest

variable {mem : Memory} {elfMemory i : Nat}

/-- The base is none, or that of a segment. -/
theorem elfFileAfter_base : (elfFileAfter mem elfMemory i).virtualBaseAddress = 0 ∨
    ∃ j < i, (elfSegment mem elfMemory j).pType = ptLoad ∧
      (elfFileAfter mem elfMemory i).virtualBaseAddress = (elfSegment mem elfMemory j).pVaddr := by
  induction i with
  | zero => exact Or.inl rfl
  | succ i ih =>
      have old : ∀ base, (base = 0 ∨ ∃ j < i, (elfSegment mem elfMemory j).pType = ptLoad ∧
          base = (elfSegment mem elfMemory j).pVaddr) →
          base = 0 ∨ ∃ j < i + 1, (elfSegment mem elfMemory j).pType = ptLoad ∧
            base = (elfSegment mem elfMemory j).pVaddr :=
        fun base => Or.imp_right fun ⟨j, before, isSegment⟩ => ⟨j, before.trans (Nat.lt_succ_self i), isSegment⟩
      rw [elfFileAfter]
      split
      case isTrue isLoad =>
        rw [withEnd_virtualBaseAddress]
        rcases withBase_virtualBaseAddress (elfFileAfter mem elfMemory i) (elfSegment mem elfMemory i) with same | new
        · rw [same]
          exact old _ ih
        · exact Or.inr ⟨i, Nat.lt_succ_self i, isLoad, new⟩
      case isFalse => exact old _ ih

/-- **The lowest segment so far** zeroes its own uninitialised data. -/
theorem zeroedBytes_lowest
    (lowest : ∀ j < i, (elfSegment mem elfMemory j).pType = ptLoad →
      (elfSegment mem elfMemory i).pVaddr ≤ (elfSegment mem elfMemory j).pVaddr)
    (word : elfMemory + (elfSegment mem elfMemory i).pOffset + (elfSegment mem elfMemory i).pFilesz < 2 ^ 64)
    (small : (elfSegment mem elfMemory i).pMemsz - (elfSegment mem elfMemory i).pFilesz ≤ 2 ^ 31) :
    zeroedBytes mem elfMemory i =
      Set.Ico (elfMemory + (elfSegment mem elfMemory i).pOffset + (elfSegment mem elfMemory i).pFilesz)
        (elfMemory + (elfSegment mem elfMemory i).pOffset + (elfSegment mem elfMemory i).pFilesz +
          ((elfSegment mem elfMemory i).pMemsz - (elfSegment mem elfMemory i).pFilesz)) := by
  have takes : (elfFileAfter mem elfMemory i).virtualBaseAddress ≥ (elfSegment mem elfMemory i).pVaddr ∨
      (elfFileAfter mem elfMemory i).virtualBaseAddress = 0 := by
    rcases @elfFileAfter_base mem elfMemory i with none | ⟨j, before, isLoad, base⟩
    · exact Or.inr none
    · rw [base]
      exact Or.inl (lowest j before isLoad)
  have start : zeroStart (elfFileAfter mem elfMemory i) (elfSegment mem elfMemory i) =
      elfMemory + (elfSegment mem elfMemory i).pOffset + (elfSegment mem elfMemory i).pFilesz := by
    unfold zeroStart ElfFile.withBase
    rw [if_pos takes]
    dsimp only
    have physical : toWord (elfMemory + (elfSegment mem elfMemory i).pOffset) =
        elfMemory + (elfSegment mem elfMemory i).pOffset := by
      rw [← Nat.cast_add, toWord_natCast (by omega)]
    rw [elfFileAfter_elfMemory, physical, ← Nat.cast_add, toWord_natCast word]
  unfold zeroedBytes
  rw [start, min_eq_left small]

end Lowest

/-! ### Bytes that are kept -/

/-- An access zeroes nothing, or only bytes between two addresses. -/
def ElfAccess.ZeroesIn (low high : Nat) : ElfAccess → Prop
  | .header _ _ => True
  | .zeroed address length => low ≤ address ∧ address + length ≤ high

instance (low high : Nat) : (access : ElfAccess) → Decidable (access.ZeroesIn low high)
  | .header _ _ => inferInstanceAs (Decidable True)
  | .zeroed _ _ => inferInstanceAs (Decidable (_ ∧ _))

section Kept

variable {low high a : Nat} (outside : a < low ∨ high ≤ a)

include outside

/-- A program header keeps the bytes that it does not zero. -/
theorem elfProcessPheader_kept {σ : ElfLoad} {phdr : Nat}
    (zeroes : ∀ access ∈ (elfProcessPheader σ phdr).accesses, access.ZeroesIn low high) :
    (elfProcessPheader σ phdr).mem a = σ.mem a := by
  rw [elfProcessPheader_accesses, List.forall_mem_append, List.forall_mem_cons] at zeroes
  obtain ⟨_, _, zeroes⟩ := zeroes
  unfold elfProcessPheader elfProcessPhdrPtLoad ElfLoad.reads
  dsimp only
  by_cases isLoad : (phdrAt σ.mem phdr).pType = ptLoad
  · rw [if_pos isLoad, List.forall_mem_cons] at zeroes
    rw [if_pos isLoad]
    by_cases larger : (phdrAt σ.mem phdr).pMemsz > (phdrAt σ.mem phdr).pFilesz
    · rw [if_pos larger, List.forall_mem_singleton] at zeroes
      obtain ⟨_, first, last⟩ := zeroes
      rw [if_pos larger]
      dsimp only
      rw [memset, fill_apply, if_neg (by omega)]
    · rw [if_neg larger]
  · rw [if_neg isLoad]

/-- So do all program headers. -/
theorem elfProcessPheadersLoop_kept {fuel i : Nat} {σ : ElfLoad}
    (zeroes : ∀ access ∈ (elfProcessPheadersLoop fuel i σ).accesses, access.ZeroesIn low high) :
    (elfProcessPheadersLoop fuel i σ).mem a = σ.mem a := by
  induction fuel generalizing i σ with
  | zero => rfl
  | succ fuel ih =>
      rw [elfProcessPheadersLoop] at zeroes ⊢
      by_cases more : i < ePhnum σ.mem σ.elfFile.elfMemory
      · rw [if_pos more] at zeroes ⊢
        have here := elfProcessPheader_kept outside fun access found =>
          zeroes access (elfProcessPheadersLoop_accesses fuel (i + 1) _ found)
        exact (ih zeroes).trans here
      · rw [if_neg more]
        rfl

/-- **A load keeps the bytes that it does not zero**, as they were when the file had been read. -/
theorem elfLoad_kept {mem : Memory} {elfMemory : Nat} {content : List Byte}
    (zeroes : ∀ access ∈ (elfLoad mem elfMemory content).2.accesses, access.ZeroesIn low high) :
    (elfLoad mem elfMemory content).2.mem a = (elfRead mem elfMemory content).mem a := by
  unfold elfLoad elfProcessLoaded elfProcessPheaders at zeroes ⊢
  dsimp only at zeroes ⊢
  split at zeroes
  case isTrue empty => rw [if_pos empty]
  case isFalse some_ =>
    rw [if_neg some_]
    split at zeroes
    case isTrue invalid =>
      rw [if_pos invalid]
      rfl
    case isFalse valid =>
      rw [if_neg valid]
      exact elfProcessPheadersLoop_kept outside zeroes

end Kept

end PeachOS
