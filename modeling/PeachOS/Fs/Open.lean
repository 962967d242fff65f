/-
**Errors of the `open` callback.**

`fopen` has one end for all failures, which closes what the `open` callback has returned if it is not null. An error
is not null either: when the callback reports one, the pointer that encodes it is closed.

* `fopen_error` — what `fopen` does when the callback reports an error;
* `fopen_closesError` — an error of the callback is closed, for every path, mode and state.
-/

import PeachOS.Fat16.Directory
import PeachOS.Fs.Model

namespace PeachOS

/-- What the `open` callback returns in a call of `fopen`, if it is called. -/
def openReturns (s : FileSystemState) (memory : Nat → Bool) (filename modeStr : CString) : Option ErrorReturn :=
  match pathparserParse s.primaryFsDisk memory filename with
  | none => none
  | some root =>
      match root.first, s.disks[root.driveNo]?.join with
      | path :: nextParts, some filesystem =>
          if fileGetModeByString modeStr = .invalid then none
          else some (filesystem.openFunction root.driveNo path nextParts (fileGetModeByString modeStr))
      | _, _ => none

/-- **A failed `fopen` is undone**: it returns zero, has closed only a valid descriptor that the callback has returned, and
leaves the table of descriptors as it was. -/
def OpenUndone (s : FileSystemState) (memory : Nat → Bool) (allocated : Nat) (filename modeStr : CString) : Prop :=
  ∃ result, fopen s memory allocated filename modeStr = some result ∧ result.res = 0 ∧
    (∀ pointer, .closed pointer ∈ result.events → openReturns s memory filename modeStr = some (.pointer pointer)) ∧
    result.state.fileDescriptors = s.fileDescriptors

section Calls

variable {s : FileSystemState} {memory : Nat → Bool} {allocated : Nat} {filename modeStr : CString} {returned : ErrorReturn}

/-- `fopen`, from the call of the callback on. -/
theorem fopen_called (called : openReturns s memory filename modeStr = some returned) :
    ∃ disk, fopen s memory allocated filename modeStr =
      if iserr returned.encode then some (fopenOut (errorI returned.encode) returned.encode [.opened returned.encode] s)
      else
        match fileNewDescriptor s allocated with
        | none => none
        | some (.error res) => some (fopenOut res returned.encode [.opened returned.encode, .newDescriptor] s)
        | some (.ok (desc, s')) =>
            some (fopenOut (s'.descriptor desc).index returned.encode [.opened returned.encode, .newDescriptor]
              { s' with
                descriptor := fun address =>
                  if address = desc then ⟨(s'.descriptor desc).index, returned.encode, disk⟩ else s'.descriptor address }) := by
  unfold openReturns at called
  unfold fopen
  cases parsed : pathparserParse s.primaryFsDisk memory filename with
  | none =>
      rw [parsed] at called
      cases called
  | some root =>
      rw [parsed] at called
      dsimp only at called ⊢
      cases parts : root.first with
      | nil =>
          rw [parts] at called
          cases called
      | cons path nextParts =>
          rw [parts] at called
          cases onDisk : s.disks[root.driveNo]?.join with
          | none =>
              rw [onDisk] at called
              cases called
          | some filesystem =>
              rw [onDisk] at called
              dsimp only at called ⊢
              by_cases invalid : fileGetModeByString modeStr = .invalid
              · rw [if_pos invalid] at called
                cases called
              · rw [if_neg invalid, Option.some.injEq] at called
                rw [if_neg invalid, called]
                refine ⟨root.driveNo, ?_⟩
                generalize returned.encode = pointer
                cases iserr pointer with
                | true => exact (if_pos rfl).trans (if_pos rfl).symm
                | false =>
                    refine (if_neg Bool.false_ne_true).trans (Eq.trans ?_ (if_neg Bool.false_ne_true).symm)
                    cases fileNewDescriptor s allocated with
                    | none => rfl
                    | some made =>
                        cases made with
                        | error res => rfl
                        | ok made => rfl

/-- **The callback reports an error**: zero is returned, the table is kept, and the error is closed. -/
theorem fopen_error {code : Int} (isCode : ErrorCode code)
    (reports : openReturns s memory filename modeStr = some (.error code)) :
    fopen s memory allocated filename modeStr =
      some ⟨0, [.opened (errorPointer code), .closed (errorPointer code)], s⟩ := by
  obtain ⟨_, called⟩ := @fopen_called s memory allocated filename modeStr _ reports
  have isError := iserr_error isCode
  have negative : code < 0 := by
    have := isCode.2
    omega
  have notNull : errorPointer code ≠ 0 := by
    intro zero
    have decodes := errorI_error isCode
    rw [zero] at decodes
    exact absurd (decodes.symm.trans (by decide : errorI 0 = 0)) negative.ne
  rw [called]
  unfold ErrorReturn.encode
  dsimp only
  rw [if_pos isError, errorI_error isCode, fopenOut, if_pos negative, if_pos notNull]
  rfl

/-- **The error is closed**: whenever the callback reports an error, `fopen` is not undone. -/
theorem fopen_closesError {code : Int} (isCode : ErrorCode code)
    (reports : openReturns s memory filename modeStr = some (.error code)) :
    ¬ OpenUndone s memory allocated filename modeStr := by
  rintro ⟨result, isResult, _, closes, _⟩
  rw [fopen_error isCode reports, Option.some.injEq] at isResult
  have closed := closes (errorPointer code) (by rw [← isResult]; exact List.mem_cons_of_mem _ List.mem_cons_self)
  rw [reports] at closed
  cases closed

end Calls

/-! ### FAT16 -/

/-- The filesystem of a disk that `fat16.c` has resolved. A call that does not return is left out. -/
def fat16Filesystem (v : FatVolume) (memory : Nat → FatMemory) (descriptor : Nat) : Filesystem where
  openFunction := fun _ path nextParts mode => (fat16Open v memory descriptor path nextParts mode).getD (.error eio)

/-- A state with one disk, and no open file. -/
def oneDisk (filesystem : Filesystem) : FileSystemState where
  disks := [some filesystem]
  primaryFsDisk := none
  fileDescriptors := fun _ => 0
  descriptor := fun _ => ⟨0, 0, 0⟩

/-- The path `0:/a`. -/
def pathA : CString := ⟨[0x30#8, 0x3A#8, 0x2F#8, 0x61#8], by decide⟩

/-- The mode `w`. -/
def modeW : CString := ⟨[0x77#8], by decide⟩

/-- Writing is refused by the callback of FAT16. -/
theorem fat16_refuses (v : FatVolume) (memory : Nat → FatMemory) (descriptor : Nat) :
    openReturns (oneDisk (fat16Filesystem v memory descriptor)) (fun _ => true) pathA modeW = some (.error erdonly) := rfl

/-- A volume of which a file is opened for writing. -/
def writtenState : FileSystemState := oneDisk (fat16Filesystem (plainVolume fun _ => 0x00#8) (fun _ => plenty) 0x1000)

theorem fopen_closesError_readOnly : ¬ OpenUndone writtenState (fun _ => true) 0x2000 pathA modeW :=
  fopen_closesError (by decide : ErrorCode erdonly) (fat16_refuses _ _ _)

/-- **Opening a file for writing closes an error**: `fat16_close` is called with `-ERDONLY` as a descriptor. -/
theorem readOnly_isClosed :
    ¬ (∀ (s : FileSystemState) (memory : Nat → Bool) (allocated : Nat) (filename modeStr : CString) (code : Int),
        ErrorCode code → openReturns s memory filename modeStr = some (.error code) →
        OpenUndone s memory allocated filename modeStr) ∧
      fopen writtenState (fun _ => true) 0x2000 pathA modeW =
        some ⟨0, [.opened 0xFFFFFFFFFFFFFFFA, .closed 0xFFFFFFFFFFFFFFFA], writtenState⟩ := by
  have isCode : ErrorCode erdonly := by decide
  have reports : openReturns writtenState (fun _ => true) pathA modeW = some (.error erdonly) := fat16_refuses _ _ _
  have called := @fopen_error writtenState (fun _ => true) 0x2000 pathA modeW erdonly isCode reports
  refine ⟨fun all => ?_, called⟩
  obtain ⟨result, isResult, _, closes, _⟩ := all writtenState (fun _ => true) 0x2000 pathA modeW erdonly isCode reports
  rw [called, Option.some.injEq] at isResult
  have closed := closes (errorPointer erdonly) (by rw [← isResult]; exact List.mem_cons_of_mem _ List.mem_cons_self)
  rw [reports] at closed
  cases closed

end PeachOS
