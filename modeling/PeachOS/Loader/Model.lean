/-
**The ELF loader: `loader/formats/elfloader.c`.**

The file lies in memory from `elf_memory` on, and headers are read from there whenever the source reads them, so that
zeroing can change what is read later. Reads of headers and zeroed ranges are recorded.

* `elfValidateLoaded` — the tests of a file, and `elfValidateReads`, what they read;
* `elfProcessPheaders` — the loop over the program headers; `elfProcessLoaded`, `elfLoad`;
* `elfProcessPhdrPtLoad` — the bounds of the segments so far, and the zeroing of uninitialised data.

The file number, the stat and the read of `elf_load` are taken to succeed; its memory is a parameter.
-/

import PeachOS.Task.Model

namespace PeachOS

open ByteStore

/-- `-EINFORMAT`. -/
def einformat : Int := -9

/-- `sizeof(struct elf_header)`. -/
abbrev sizeofElfHeader : Nat := 64

/-- `sizeof(struct elf64_phdr)`. -/
abbrev sizeofElf64Phdr : Nat := 56

/-- `PT_LOAD`. -/
abbrev ptLoad : Nat := 1

/-- `ET_EXEC`. -/
abbrev etExec : Nat := 2

/-! ### Headers in memory -/

section Headers

variable (mem : Memory) (header : Nat)

/-- `header->e_ident[index]`. -/
def eIdent (index : Nat) : Byte := mem (header + index)

/-- `header->e_type`. -/
def eType : Nat := readWord mem (header + 16) 2

/-- `header->e_entry`. -/
def eEntry : Nat := readWord mem (header + 24) 8

/-- `header->e_phoff`. -/
def ePhoff : Nat := readWord mem (header + 32) 8

/-- `header->e_phnum`. -/
def ePhnum : Nat := readWord mem (header + 56) 2

/-- The fields of `struct elf64_phdr` that are used. -/
structure Elf64Phdr where
  pType : Nat
  pFlags : Nat
  pOffset : Nat
  pVaddr : Nat
  pFilesz : Nat
  pMemsz : Nat
deriving DecidableEq

/-- The program header at an address. -/
def phdrAt (phdr : Nat) : Elf64Phdr where
  pType := readWord mem phdr 4
  pFlags := readWord mem (phdr + 4) 4
  pOffset := readWord mem (phdr + 8) 8
  pVaddr := readWord mem (phdr + 16) 8
  pFilesz := readWord mem (phdr + 32) 8
  pMemsz := readWord mem (phdr + 40) 8

/-- `elf_pheader`. -/
def elfPheader : Nat := if ePhoff mem header = 0 then 0 else toWord (header + ePhoff mem header)

/-- `elf_program_header`. -/
def elfProgramHeader (index : Nat) : Nat := toWord (elfPheader mem header + sizeofElf64Phdr * index)

/-! ### Validation -/

/-- `elf_signature`. -/
def elfSignature : List Byte := [0x7F#8, 0x45#8, 0x4C#8, 0x46#8]

/-- `elf_valid_signature`. -/
def elfValidSignature : Bool := window mem header 4 = elfSignature

/-- `elf_valid_class`: `ELFCLASSNONE` or `ELFCLASS64`. -/
def elfValidClass : Bool := eIdent mem header 4 = 0#8 ∨ eIdent mem header 4 = 2#8

/-- `elf_valid_encoding`: `ELFDATANONE` or `ELFDATA2LSB`. -/
def elfValidEncoding : Bool := eIdent mem header 5 = 0#8 ∨ eIdent mem header 5 = 1#8

/-- `elf_has_program_header`. -/
def elfHasProgramHeader : Bool := ePhoff mem header ≠ 0

/-- `elf_is_executable`. -/
def elfIsExecutable : Bool := eType mem header = etExec ∧ eEntry mem header ≥ peachosProgramVirtualAddress.toNat

/-- `elf_validate_loaded`. -/
def elfValidateLoaded : Int :=
  if elfValidSignature mem header && elfValidClass mem header && elfValidEncoding mem header &&
    elfHasProgramHeader mem header && elfIsExecutable mem header then 0 else einformat

end Headers

/-- What the loader does to memory. -/
inductive ElfAccess where
  /-- Bytes are read as a header or as a program header. -/
  | header (address length : Nat)
  /-- Bytes are zeroed as uninitialised data. -/
  | zeroed (address length : Nat)
deriving DecidableEq

/-- The reads of tests that are joined by `&&`, or of `memcmp`: none after the first test that fails. -/
def readsUntil (header : Nat) : List (Nat × Nat × Bool) → List ElfAccess
  | [] => []
  | (offset, length, passes) :: tests =>
      .header (header + offset) length :: if passes then readsUntil header tests else []

/-- What `elf_validate_loaded` reads. -/
def elfValidateReads (mem : Memory) (header : Nat) : List ElfAccess :=
  readsUntil header
    [(0, 1, eIdent mem header 0 = 0x7F#8), (1, 1, eIdent mem header 1 = 0x45#8), (2, 1, eIdent mem header 2 = 0x4C#8),
      (3, 1, eIdent mem header 3 = 0x46#8), (4, 1, elfValidClass mem header), (5, 1, elfValidEncoding mem header),
      (32, 8, elfHasProgramHeader mem header), (16, 2, eType mem header = etExec), (24, 8, true)]

/-! ### Program headers -/

/-- The addresses in `struct elf_file`. -/
structure ElfFile where
  elfMemory : Nat
  virtualBaseAddress : Nat
  virtualEndAddress : Nat
  physicalBaseAddress : Nat
  physicalEndAddress : Nat
deriving DecidableEq

/-- `elf_file_new`, with the memory of the file. -/
def elfFileNew (elfMemory : Nat) : ElfFile := ⟨elfMemory, 0, 0, 0, 0⟩

/-- The lowest segment so far: the first test of `elf_process_phdr_pt_load`. -/
def ElfFile.withBase (elfFile : ElfFile) (phdr : Elf64Phdr) : ElfFile :=
  if elfFile.virtualBaseAddress ≥ phdr.pVaddr ∨ elfFile.virtualBaseAddress = 0 then
    { elfFile with
      virtualBaseAddress := phdr.pVaddr
      physicalBaseAddress := toWord (elfFile.elfMemory + phdr.pOffset) }
  else elfFile

/-- The highest end so far: the second test of `elf_process_phdr_pt_load`. -/
def ElfFile.withEnd (elfFile : ElfFile) (phdr : Elf64Phdr) : ElfFile :=
  let endVirtualAddress := toWord (phdr.pVaddr + phdr.pFilesz)
  if elfFile.virtualEndAddress ≤ endVirtualAddress ∨ elfFile.virtualEndAddress = 0 then
    { elfFile with
      virtualEndAddress := endVirtualAddress
      physicalEndAddress := toWord (elfFile.elfMemory + phdr.pOffset + phdr.pFilesz) }
  else elfFile

/-- The memory, the addresses of the file, and the accesses so far. -/
structure ElfLoad where
  mem : Memory
  elfFile : ElfFile
  accesses : List ElfAccess

/-- Some reads of a header. -/
def ElfLoad.reads (σ : ElfLoad) (accesses : List ElfAccess) : ElfLoad := { σ with accesses := σ.accesses ++ accesses }

/-- The address from which a segment is zeroed. -/
def zeroStart (elfFile : ElfFile) (phdr : Elf64Phdr) : Nat :=
  toWord ((elfFile.withBase phdr).physicalBaseAddress + phdr.pFilesz)

/-- `elf_process_phdr_pt_load`. -/
def elfProcessPhdrPtLoad (σ : ElfLoad) (phdr : Elf64Phdr) : ElfLoad :=
  let elfFile := (σ.elfFile.withBase phdr).withEnd phdr
  let filesize := phdr.pFilesz
  let totalSize := phdr.pMemsz
  if totalSize > filesize then
    { mem := memset σ.mem (zeroStart σ.elfFile phdr) 0x00#8 (totalSize - filesize)
      elfFile := elfFile
      accesses := σ.accesses ++ [.zeroed (zeroStart σ.elfFile phdr) (min (totalSize - filesize) (2 ^ 31))] }
  else { σ with elfFile := elfFile }

/-- `elf_process_pheader` of the program header at an address. The fields of a segment lie from `p_offset` to
`p_memsz`. -/
def elfProcessPheader (σ : ElfLoad) (phdr : Nat) : ElfLoad :=
  let header := phdrAt σ.mem phdr
  let σ := σ.reads [.header phdr 4]
  if header.pType = ptLoad then elfProcessPhdrPtLoad (σ.reads [.header (phdr + 8) 40]) header else σ

/-- The loop of `elf_process_pheaders`, with `fuel` iterations left. -/
def elfProcessPheadersLoop : (fuel i : Nat) → ElfLoad → ElfLoad
  | 0, _, σ => σ
  | fuel + 1, i, σ =>
      let header := σ.elfFile.elfMemory
      if i < ePhnum σ.mem header then
        elfProcessPheadersLoop fuel (i + 1)
          (elfProcessPheader (σ.reads [.header (header + 56) 2, .header (header + 32) 8])
            (elfProgramHeader σ.mem header i))
      else σ.reads [.header (header + 56) 2]

/-- `elf_process_pheaders`. There are less than `2 ^ 16` program headers. -/
def elfProcessPheaders (σ : ElfLoad) : ElfLoad := elfProcessPheadersLoop (2 ^ 16) 0 σ

/-- `elf_process_loaded`. -/
def elfProcessLoaded (σ : ElfLoad) : Int × ElfLoad :=
  let header := σ.elfFile.elfMemory
  let res := elfValidateLoaded σ.mem header
  let σ := σ.reads (elfValidateReads σ.mem header)
  if res < 0 then (res, σ) else (0, elfProcessPheaders σ)

/-- The state of `elf_load` when the file has been read. -/
def elfRead (mem : Memory) (elfMemory : Nat) (content : List Byte) : ElfLoad :=
  ⟨blit mem elfMemory content, elfFileNew elfMemory, []⟩

/-- `elf_load` of a file with some content. `fread` refuses a size of zero. -/
def elfLoad (mem : Memory) (elfMemory : Nat) (content : List Byte) : Int × ElfLoad :=
  if content = [] then (einvarg, elfRead mem elfMemory content) else elfProcessLoaded (elfRead mem elfMemory content)

end PeachOS
