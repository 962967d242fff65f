/-
**The accesses of the ELF loader.**

Nothing compares a header with the size of the file. So a load is sound exactly when the file is refused by one of its
first bytes, or all that its headers say is true.

* `elfLoad_iff` — exactly when the accesses lie in the file, and a file that points outside itself is refused;
* `elfLoad_acceptsOutside` — program headers behind the end of the file are accepted.
-/

import PeachOS.Loader.Model

namespace PeachOS

open ByteStore

/-- Some bytes lie in a file of a size that is loaded at an address. -/
def InFile (elfMemory size address length : Nat) : Prop := elfMemory ≤ address ∧ address + length ≤ elfMemory + size

/-- An access lies in the file. -/
def ElfAccess.Inside (elfMemory size : Nat) : ElfAccess → Prop
  | .header address length => InFile elfMemory size address length
  | .zeroed address length => InFile elfMemory size address length

/-- **The headers of a file point outside itself**: the program headers do, or a segment. -/
def PointsOutside (mem : Memory) (elfMemory size : Nat) : Prop :=
  sizeofElfHeader ≤ size ∧
    (size < ePhoff mem elfMemory + sizeofElf64Phdr * ePhnum mem elfMemory ∨
      ∃ i < ePhnum mem elfMemory, (phdrAt mem (elfMemory + ePhoff mem elfMemory + sizeofElf64Phdr * i)).pType = ptLoad ∧
        size < (phdrAt mem (elfMemory + ePhoff mem elfMemory + sizeofElf64Phdr * i)).pOffset +
          (phdrAt mem (elfMemory + ePhoff mem elfMemory + sizeofElf64Phdr * i)).pFilesz)

/-- **A load is sound**: all accesses lie in the file, and a file that points outside itself is refused without a
write. -/
structure ElfLoadSound (mem : Memory) (elfMemory : Nat) (content : List Byte) : Prop where
  inside : ∀ access ∈ (elfLoad mem elfMemory content).2.accesses, access.Inside elfMemory content.length
  refuses : PointsOutside (elfRead mem elfMemory content).mem elfMemory content.length →
    (elfLoad mem elfMemory content).1 = einformat ∧
      ∀ address length, .zeroed address length ∉ (elfLoad mem elfMemory content).2.accesses

/-! ### The condition -/

/-- **A byte of the file refuses it**: one of the first six bytes, which are looked at one after the other; or the file
has all bytes that are looked at. -/
def ValidationFits (mem : Memory) (elfMemory size : Nat) : Prop :=
  40 ≤ size ∨ (1 ≤ size ∧ eIdent mem elfMemory 0 ≠ 0x7F#8) ∨ (2 ≤ size ∧ eIdent mem elfMemory 1 ≠ 0x45#8) ∨
    (3 ≤ size ∧ eIdent mem elfMemory 2 ≠ 0x4C#8) ∨ (4 ≤ size ∧ eIdent mem elfMemory 3 ≠ 0x46#8) ∨
    (5 ≤ size ∧ elfValidClass mem elfMemory = false) ∨ (6 ≤ size ∧ elfValidEncoding mem elfMemory = false)

/-- **A program header fits**, as it is when its turn comes: it lies in the file, and so does what it zeroes. -/
def HeaderFits (size : Nat) (σ : ElfLoad) (phdr : Nat) : Prop :=
  InFile σ.elfFile.elfMemory size phdr 4 ∧
    ((phdrAt σ.mem phdr).pType = ptLoad →
      InFile σ.elfFile.elfMemory size (phdr + 8) 40 ∧
        ((phdrAt σ.mem phdr).pMemsz > (phdrAt σ.mem phdr).pFilesz →
          InFile σ.elfFile.elfMemory size (zeroStart σ.elfFile (phdrAt σ.mem phdr))
            (min ((phdrAt σ.mem phdr).pMemsz - (phdrAt σ.mem phdr).pFilesz) (2 ^ 31))))

/-- All program headers fit, one after the other. -/
def HeadersFit (size : Nat) : (fuel i : Nat) → ElfLoad → Prop
  | 0, _, _ => True
  | fuel + 1, i, σ =>
      i < ePhnum σ.mem σ.elfFile.elfMemory →
        HeaderFits size σ (elfProgramHeader σ.mem σ.elfFile.elfMemory i) ∧
          HeadersFit size fuel (i + 1)
            (elfProcessPheader (σ.reads [.header (σ.elfFile.elfMemory + 56) 2, .header (σ.elfFile.elfMemory + 32) 8])
              (elfProgramHeader σ.mem σ.elfFile.elfMemory i))

/-- The state of a load when the loop begins. -/
def elfValidated (mem : Memory) (elfMemory : Nat) (content : List Byte) : ElfLoad :=
  (elfRead mem elfMemory content).reads (elfValidateReads (elfRead mem elfMemory content).mem elfMemory)

/-- **When a load is sound**: the file is empty; or it is refused by a byte that it has, or has all that is looked at
and does not point outside itself, and its program headers fit. -/
def ElfLoadFits (mem : Memory) (elfMemory : Nat) (content : List Byte) : Prop :=
  content = [] ∨
    (ValidationFits (elfRead mem elfMemory content).mem elfMemory content.length ∧
      (elfValidateLoaded (elfRead mem elfMemory content).mem elfMemory = 0 →
        58 ≤ content.length ∧ ¬ PointsOutside (elfRead mem elfMemory content).mem elfMemory content.length ∧
          HeadersFit content.length (2 ^ 16) 0 (elfValidated mem elfMemory content)))

/-! ### Validation -/

section Validation

variable {mem : Memory} {elfMemory size : Nat}

/-- What is read by a chain of tests lies in the file when each read does that is come to. -/
theorem readsUntil_inside_iff (tests : List (Nat × Nat × Bool)) :
    (∀ access ∈ readsUntil elfMemory tests, access.Inside elfMemory size) ↔
      match tests with
      | [] => True
      | (offset, length, passes) :: tests =>
          offset + length ≤ size ∧
            (passes = true → ∀ access ∈ readsUntil elfMemory tests, access.Inside elfMemory size) := by
  cases tests with
  | nil => exact iff_of_true (fun _ found => absurd found List.not_mem_nil) trivial
  | cons test tests =>
      obtain ⟨offset, length, passes⟩ := test
      have first : (ElfAccess.header (elfMemory + offset) length).Inside elfMemory size ↔ offset + length ≤ size := by
        unfold ElfAccess.Inside InFile
        omega
      rw [readsUntil, List.forall_mem_cons, first]
      cases passes with
      | true => exact and_congr_right fun _ => ⟨fun rest _ => rest, fun rest => rest rfl⟩
      | false =>
          refine and_congr_right fun _ => iff_of_true (fun _ found => absurd found List.not_mem_nil) fun passes => ?_
          cases passes

/-- **The reads of the validation** lie in the file exactly when one of the first bytes refuses it, or it has all. -/
theorem validateReads_inside_iff :
    (∀ access ∈ elfValidateReads mem elfMemory, access.Inside elfMemory size) ↔ ValidationFits mem elfMemory size := by
  unfold elfValidateReads ValidationFits
  simp only [readsUntil_inside_iff, decide_eq_true_eq, Nat.zero_add, Nat.reduceAdd]
  constructor <;> grind

/-- The validation reads, and writes nothing. -/
theorem readsUntil_reads (tests : List (Nat × Nat × Bool)) (address length : Nat) :
    .zeroed address length ∉ readsUntil elfMemory tests := by
  induction tests with
  | nil => exact List.not_mem_nil
  | cons test tests ih =>
      obtain ⟨offset, length', passes⟩ := test
      rw [readsUntil]
      intro found
      rcases List.mem_cons.mp found with here | later
      · cases here
      · cases passes with
        | true => exact ih later
        | false => exact absurd later List.not_mem_nil

theorem elfValidateLoaded_cases : elfValidateLoaded mem elfMemory = 0 ∨ elfValidateLoaded mem elfMemory = einformat := by
  unfold elfValidateLoaded
  split
  · exact Or.inl rfl
  · exact Or.inr rfl

/-- A file that is accepted has program headers. -/
theorem ePhoff_of_valid (valid : elfValidateLoaded mem elfMemory = 0) : ePhoff mem elfMemory ≠ 0 := by
  intro none
  unfold elfValidateLoaded elfHasProgramHeader at valid
  rw [none] at valid
  simp [einformat] at valid

end Validation

/-! ### The loop over the program headers -/

section Loop

variable {size : Nat}

theorem withBase_elfMemory (elfFile : ElfFile) (phdr : Elf64Phdr) : (elfFile.withBase phdr).elfMemory = elfFile.elfMemory := by
  unfold ElfFile.withBase
  split <;> rfl

theorem withEnd_elfMemory (elfFile : ElfFile) (phdr : Elf64Phdr) : (elfFile.withEnd phdr).elfMemory = elfFile.elfMemory := by
  unfold ElfFile.withEnd
  dsimp only
  split <;> rfl

theorem elfProcessPhdrPtLoad_elfFile (σ : ElfLoad) (phdr : Elf64Phdr) :
    (elfProcessPhdrPtLoad σ phdr).elfFile = (σ.elfFile.withBase phdr).withEnd phdr := by
  unfold elfProcessPhdrPtLoad
  dsimp only
  split <;> rfl

/-- The file stays where it is. -/
theorem elfProcessPheader_elfMemory (σ : ElfLoad) (phdr : Nat) :
    (elfProcessPheader σ phdr).elfFile.elfMemory = σ.elfFile.elfMemory := by
  unfold elfProcessPheader
  dsimp only
  split
  · rw [elfProcessPhdrPtLoad_elfFile, withEnd_elfMemory, withBase_elfMemory]
    rfl
  · rfl

/-- The accesses of one program header. -/
theorem elfProcessPheader_accesses (σ : ElfLoad) (phdr : Nat) :
    (elfProcessPheader σ phdr).accesses = σ.accesses ++ .header phdr 4 ::
      if (phdrAt σ.mem phdr).pType = ptLoad then
        .header (phdr + 8) 40 ::
          if (phdrAt σ.mem phdr).pMemsz > (phdrAt σ.mem phdr).pFilesz then
            [.zeroed (zeroStart σ.elfFile (phdrAt σ.mem phdr))
              (min ((phdrAt σ.mem phdr).pMemsz - (phdrAt σ.mem phdr).pFilesz) (2 ^ 31))]
          else []
      else [] := by
  unfold elfProcessPheader elfProcessPhdrPtLoad ElfLoad.reads
  dsimp only
  split
  · split
    · rw [List.append_assoc, List.append_assoc]
      rfl
    · rw [List.append_assoc]
      rfl
  · rfl

/-- One program header, which fits or does not. -/
theorem elfProcessPheader_inside_iff (σ : ElfLoad) (phdr : Nat) :
    (∀ access ∈ (elfProcessPheader σ phdr).accesses, access.Inside σ.elfFile.elfMemory size) ↔
      (∀ access ∈ σ.accesses, access.Inside σ.elfFile.elfMemory size) ∧ HeaderFits size σ phdr := by
  rw [elfProcessPheader_accesses, List.forall_mem_append, List.forall_mem_cons]
  unfold HeaderFits
  refine and_congr_right fun _ => and_congr Iff.rfl ?_
  by_cases isLoad : (phdrAt σ.mem phdr).pType = ptLoad
  · rw [if_pos isLoad, List.forall_mem_cons, imp_iff_right isLoad]
    refine and_congr Iff.rfl ?_
    by_cases isLarger : (phdrAt σ.mem phdr).pMemsz > (phdrAt σ.mem phdr).pFilesz
    · rw [if_pos isLarger, List.forall_mem_singleton, imp_iff_right isLarger]
      rfl
    · rw [if_neg isLarger]
      exact iff_of_true (fun _ found => absurd found List.not_mem_nil) fun larger => absurd larger isLarger
  · rw [if_neg isLoad]
    exact iff_of_true (fun _ found => absurd found List.not_mem_nil) fun load => absurd load isLoad

/-- **The loop** stays in the file exactly when the program headers fit. -/
theorem elfProcessPheadersLoop_inside_iff (whole : 58 ≤ size) (fuel i : Nat) (σ : ElfLoad) :
    (∀ access ∈ (elfProcessPheadersLoop fuel i σ).accesses, access.Inside σ.elfFile.elfMemory size) ↔
      (∀ access ∈ σ.accesses, access.Inside σ.elfFile.elfMemory size) ∧ HeadersFit size fuel i σ := by
  induction fuel generalizing i σ with
  | zero => exact (and_iff_left trivial).symm
  | succ fuel ih =>
      have count : (ElfAccess.header (σ.elfFile.elfMemory + 56) 2).Inside σ.elfFile.elfMemory size := by
        unfold ElfAccess.Inside InFile
        omega
      have table : (ElfAccess.header (σ.elfFile.elfMemory + 32) 8).Inside σ.elfFile.elfMemory size := by
        unfold ElfAccess.Inside InFile
        omega
      rw [elfProcessPheadersLoop, HeadersFit]
      by_cases more : i < ePhnum σ.mem σ.elfFile.elfMemory
      · rw [if_pos more, imp_iff_right more]
        have next := ih (i + 1) (elfProcessPheader (σ.reads [.header (σ.elfFile.elfMemory + 56) 2,
          .header (σ.elfFile.elfMemory + 32) 8]) (elfProgramHeader σ.mem σ.elfFile.elfMemory i))
        have here := @elfProcessPheader_inside_iff size (σ.reads [.header (σ.elfFile.elfMemory + 56) 2,
          .header (σ.elfFile.elfMemory + 32) 8]) (elfProgramHeader σ.mem σ.elfFile.elfMemory i)
        rw [elfProcessPheader_elfMemory] at next
        refine next.trans ((and_congr here Iff.rfl).trans (and_assoc.trans (and_congr ?_ Iff.rfl)))
        change (∀ access ∈ σ.accesses ++ [ElfAccess.header (σ.elfFile.elfMemory + 56) 2,
          ElfAccess.header (σ.elfFile.elfMemory + 32) 8], access.Inside σ.elfFile.elfMemory size) ↔ _
        rw [List.forall_mem_append, List.forall_mem_cons, List.forall_mem_singleton]
        exact and_iff_left ⟨count, table⟩
      · rw [if_neg more]
        change (∀ access ∈ σ.accesses ++ [ElfAccess.header (σ.elfFile.elfMemory + 56) 2],
          access.Inside σ.elfFile.elfMemory size) ↔ _
        rw [List.forall_mem_append, List.forall_mem_singleton]
        exact and_congr_right fun _ => iff_of_true count fun more' => absurd more' more

/-- What was accessed stays recorded. -/
theorem elfProcessPheadersLoop_accesses (fuel i : Nat) (σ : ElfLoad) :
    σ.accesses ⊆ (elfProcessPheadersLoop fuel i σ).accesses := by
  induction fuel generalizing i σ with
  | zero => exact List.Subset.refl _
  | succ fuel ih =>
      rw [elfProcessPheadersLoop]
      by_cases more : i < ePhnum σ.mem σ.elfFile.elfMemory
      · rw [if_pos more]
        refine List.Subset.trans ?_ (ih _ _)
        rw [elfProcessPheader_accesses]
        exact List.Subset.trans (List.subset_append_left _ _) (List.subset_append_left _ _)
      · rw [if_neg more]
        exact List.subset_append_left _ _

/-- The number of program headers is read. -/
theorem elfProcessPheadersLoop_reads (fuel i : Nat) (σ : ElfLoad) :
    .header (σ.elfFile.elfMemory + 56) 2 ∈ (elfProcessPheadersLoop (fuel + 1) i σ).accesses := by
  rw [elfProcessPheadersLoop]
  by_cases more : i < ePhnum σ.mem σ.elfFile.elfMemory
  · rw [if_pos more]
    refine elfProcessPheadersLoop_accesses _ _ _ ?_
    rw [elfProcessPheader_accesses]
    exact List.mem_append_left _ (List.mem_append_right _ List.mem_cons_self)
  · rw [if_neg more]
    exact List.mem_append_right _ List.mem_cons_self

/-- **All program headers** stay in the file exactly when they fit. -/
theorem elfProcessPheaders_inside_iff (whole : 58 ≤ size) (σ : ElfLoad) :
    (∀ access ∈ (elfProcessPheaders σ).accesses, access.Inside σ.elfFile.elfMemory size) ↔
      (∀ access ∈ σ.accesses, access.Inside σ.elfFile.elfMemory size) ∧ HeadersFit size (2 ^ 16) 0 σ := by
  unfold elfProcessPheaders
  exact elfProcessPheadersLoop_inside_iff whole _ 0 σ

theorem elfProcessPheaders_reads (σ : ElfLoad) :
    .header (σ.elfFile.elfMemory + 56) 2 ∈ (elfProcessPheaders σ).accesses := by
  unfold elfProcessPheaders
  -- the loop is not to be run, so its number of rounds is forgotten
  obtain ⟨fuel, enough⟩ : ∃ fuel, 2 ^ 16 = fuel + 1 := ⟨65535, rfl⟩
  rw [enough]
  exact elfProcessPheadersLoop_reads fuel 0 σ

end Loop

/-! ### Loading -/

section Load

variable {mem : Memory} {elfMemory : Nat} {content : List Byte}

/-- A file that passes the tests. -/
theorem elfProcessLoaded_valid (valid : elfValidateLoaded (elfRead mem elfMemory content).mem elfMemory = 0) :
    elfProcessLoaded (elfRead mem elfMemory content) = (0, elfProcessPheaders (elfValidated mem elfMemory content)) := by
  unfold elfProcessLoaded elfValidated
  change (if elfValidateLoaded (elfRead mem elfMemory content).mem elfMemory < 0 then _ else _) = _
  rw [valid, if_neg (by decide)]
  rfl

/-- A file that fails them. -/
theorem elfProcessLoaded_invalid
    (invalid : elfValidateLoaded (elfRead mem elfMemory content).mem elfMemory = einformat) :
    elfProcessLoaded (elfRead mem elfMemory content) = (einformat, elfValidated mem elfMemory content) := by
  unfold elfProcessLoaded elfValidated
  change (if elfValidateLoaded (elfRead mem elfMemory content).mem elfMemory < 0 then _ else _) = _
  rw [invalid, if_pos (by decide)]
  exact congrArg (fun res => (res, elfValidated mem elfMemory content)) invalid

/-- **The loader** stays in the file and refuses what points outside it, exactly when the load fits. -/
theorem elfLoad_iff (mem : Memory) (elfMemory : Nat) (content : List Byte) :
    ElfLoadSound mem elfMemory content ↔ ElfLoadFits mem elfMemory content := by
  by_cases empty : content = []
  · refine iff_of_true ⟨?_, ?_⟩ (Or.inl empty)
    · rw [elfLoad, if_pos empty]
      exact fun _ found => absurd found List.not_mem_nil
    · rintro ⟨whole, _⟩
      rw [empty] at whole
      exact absurd whole (by decide)
  · have load : elfLoad mem elfMemory content = elfProcessLoaded (elfRead mem elfMemory content) := if_neg empty
    have validation := @validateReads_inside_iff (elfRead mem elfMemory content).mem elfMemory content.length
    unfold ElfLoadFits
    rw [or_iff_right empty, ← validation]
    rcases @elfValidateLoaded_cases (elfRead mem elfMemory content).mem elfMemory with valid | invalid
    · rw [elfProcessLoaded_valid valid] at load
      constructor
      · rintro ⟨inside, refuses⟩
        rw [load] at inside refuses
        have count := inside _ (elfProcessPheaders_reads (elfValidated mem elfMemory content))
        have whole : 58 ≤ content.length := by
          have := count.2
          change elfMemory + 56 + 2 ≤ elfMemory + content.length at this
          omega
        obtain ⟨reads, fit⟩ := (elfProcessPheaders_inside_iff whole (elfValidated mem elfMemory content)).mp inside
        refine ⟨reads, fun _ => ⟨whole, fun outside => ?_, fit⟩⟩
        exact absurd (refuses outside).1 (by decide : (0 : Int) ≠ einformat)
      · rintro ⟨reads, fits⟩
        obtain ⟨whole, inFile, fit⟩ := fits valid
        refine ⟨?_, fun outside => absurd outside inFile⟩
        rw [load]
        exact (elfProcessPheaders_inside_iff whole (elfValidated mem elfMemory content)).mpr ⟨reads, fit⟩
    · rw [elfProcessLoaded_invalid invalid] at load
      constructor
      · intro sound
        have inside := sound.inside
        rw [load] at inside
        refine ⟨inside, fun valid => ?_⟩
        rw [invalid] at valid
        exact absurd valid (by decide)
      · rintro ⟨inside, _⟩
        refine ⟨?_, fun _ => ?_⟩
        · rw [load]
          exact inside
        · rw [load]
          exact ⟨rfl, fun address length => readsUntil_reads _ address length⟩

end Load

/-- An ELF header with one program header at offset `0x1000`, and nothing behind. -/
def headerOnly : List Byte :=
  elfSignature ++ [0x02#8, 0x01#8] ++ List.replicate 10 0x00#8 ++ [0x02#8] ++ List.replicate 9 0x00#8 ++ [0x40#8] ++
    List.replicate 6 0x00#8 ++ [0x10#8] ++ List.replicate 22 0x00#8 ++ [0x01#8] ++ List.replicate 7 0x00#8

/-- **Program headers behind the end are accepted.** -/
theorem elfLoad_acceptsOutside : ¬ ElfLoadSound (fun _ => 0x00#8) 0x200000 headerOnly := by
  intro sound
  have outside : PointsOutside (elfRead (fun _ => 0x00#8) 0x200000 headerOnly).mem 0x200000 headerOnly.length :=
    ⟨by decide, Or.inl (by decide +kernel)⟩
  have accepted : (elfLoad (fun _ => 0x00#8) 0x200000 headerOnly).1 = 0 := by
    rw [elfLoad, if_neg (by decide), elfProcessLoaded_valid (by decide +kernel)]
  rw [(sound.refuses outside).1] at accepted
  exact absurd accepted (by decide)

end PeachOS
