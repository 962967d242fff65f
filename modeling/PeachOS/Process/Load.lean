/-
**The error tests of the callers.**

`fopen` tests the pointer of the `open` callback with `ISERR`, `process_load_for_slot` tests that of `task_new` with
`ERROR_I` against zero. The one misses no error and takes some pointers for errors; the other recognises no error, and
takes the pointers whose low 32 bits are zero for one.

* `processLoadForSlot` — the caller of `task_new`;
* `fopen_branch`, `processLoad_branch` — when their tests are right;
* `errorEncoding_iff` — when errors and pointers are told apart.
-/

import PeachOS.Fs.Open

namespace PeachOS

/-- `-EISTKN`. -/
def eistkn : Int := -8

/-! ### Loading a process -/

/-- What the calls of `process_load_for_slot` return, and what its pointer to the process holds before it is set. -/
structure ProcessLoad where
  isTaken : Bool
  uninitialized : Nat
  process : Nat
  loadData : Int
  stack : Nat
  pagingDesc : Nat
  mapMemory : Int
  task : ErrorReturn

/-- The result of `process_load_for_slot`, the task of the process, whether the process was put into its slot, and the
process that was freed, if one was. -/
structure LoadedProcess where
  res : Int
  task : Nat
  isInstalled : Bool
  freed : Option Nat

/-- The end of `process_load_for_slot`, where a process is freed on an error. -/
def processLoadOut (res : Int) (process task : Nat) : LoadedProcess where
  res := res
  task := task
  isInstalled := false
  freed := if res < 0 ∧ process ≠ 0 then some process else none

/-- `process_load_for_slot`. -/
def processLoadForSlot (load : ProcessLoad) : LoadedProcess :=
  if load.isTaken then processLoadOut eistkn load.uninitialized 0
  else if load.process = 0 then processLoadOut enomem 0 0
  else if load.loadData < 0 then processLoadOut load.loadData load.process 0
  else if load.stack = 0 then processLoadOut enomem load.process 0
  else if load.pagingDesc = 0 then processLoadOut eio load.process 0
  else if load.mapMemory < 0 then processLoadOut load.mapMemory load.process 0
  else if errorI load.task.encode = 0 then processLoadOut (errorI load.task.encode) load.process 0
  else { res := load.mapMemory, task := load.task.encode, isInstalled := true, freed := none }

/-- The calls before `task_new` succeed. -/
def ReachesTask (load : ProcessLoad) : Prop :=
  load.isTaken = false ∧ load.process ≠ 0 ∧ 0 ≤ load.loadData ∧ load.stack ≠ 0 ∧ load.pagingDesc ≠ 0 ∧ 0 ≤ load.mapMemory

/-- What may be returned: an error code, or a pointer of the heap. -/
def MayReturn (returned : ErrorReturn) : Prop :=
  match returned with
  | .error code => ErrorCode code
  | .pointer address => address ≠ 0 ∧ address < 2 ^ 52

/-! ### The tests -/

theorem fopenOut_events (res : Int) (descriptorPrivateData : Nat) (events : List FileEvent) (s : FileSystemState) :
    .newDescriptor ∈ (fopenOut res descriptorPrivateData events s).events ↔ .newDescriptor ∈ events := by
  unfold fopenOut
  split
  · dsimp only
    split
    · simp
    · rw [List.append_nil]
  · exact Iff.rfl

/-- Behind its test `fopen` makes a descriptor, or it does not. -/
theorem fopen_makes {s : FileSystemState} {memory : Nat → Bool} {allocated : Nat} {filename modeStr : CString}
    {returned : ErrorReturn} (called : openReturns s memory filename modeStr = some returned) {result : FileOpen}
    (isResult : fopen s memory allocated filename modeStr = some result) :
    .newDescriptor ∈ result.events ↔ iserr returned.encode = false := by
  obtain ⟨disk, isFopen⟩ := @fopen_called s memory allocated filename modeStr returned called
  rw [isFopen] at isResult
  by_cases isError : iserr returned.encode = true
  · rw [if_pos isError, Option.some.injEq] at isResult
    rw [← isResult, fopenOut_events, isError]
    simp
  · rw [if_neg isError] at isResult
    rw [Bool.not_eq_true] at isError
    cases made : fileNewDescriptor s allocated with
    | none =>
        rw [made] at isResult
        cases isResult
    | some made' =>
        cases made' with
        | error res =>
            rw [made] at isResult
            rw [← Option.some.inj isResult, fopenOut_events, isError]
            simp
        | ok made' =>
            rw [made] at isResult
            rw [← Option.some.inj isResult, fopenOut_events, isError]
            simp

/-- **The test of `fopen`** is right for errors, and for pointers whose bit 31 is clear. -/
theorem fopen_branch {s : FileSystemState} {memory : Nat → Bool} {allocated : Nat} {filename modeStr : CString}
    {returned : ErrorReturn} (called : openReturns s memory filename modeStr = some returned) (mayReturn : MayReturn returned)
    {result : FileOpen} (isResult : fopen s memory allocated filename modeStr = some result) :
    ((.newDescriptor ∉ result.events ↔ returned.isError = true) ↔
      ∀ address, returned = .pointer address → address % 2 ^ 32 < 2 ^ 31) := by
  rw [fopen_makes called isResult]
  cases returned with
  | error code =>
      have isError : iserr (ErrorReturn.error code).encode = true := iserr_error mayReturn
      rw [isError]
      exact ⟨fun _ _ isPointer => (by cases isPointer), fun _ => ⟨fun _ => rfl, fun _ => Bool.true_eq_false_eq_False⟩⟩
  | pointer address =>
      have isPointer : iserr (ErrorReturn.pointer address).encode = false ↔ address % 2 ^ 32 < 2 ^ 31 := iserr_pointer_iff address
      rw [isPointer]
      constructor
      · rintro right _ same
        cases same
        by_contra isLarge
        exact absurd (right.mp isLarge) Bool.false_ne_true
      · exact fun small => ⟨fun isLarge => absurd (small address rfl) isLarge, fun isError => absurd isError Bool.false_ne_true⟩

/-- **The test of `process_load_for_slot`** is wrong for errors, and for pointers whose low 32 bits are zero. -/
theorem processLoad_branch {load : ProcessLoad} (reaches : ReachesTask load) (mayReturn : MayReturn load.task) :
    (((processLoadForSlot load).isInstalled = false ↔ load.task.isError = true) ↔
      ∃ address, load.task = .pointer address ∧ address % 2 ^ 32 ≠ 0) := by
  obtain ⟨free, hasProcess, isLoaded, hasStack, hasPaging, isMapped⟩ := reaches
  have branch : (processLoadForSlot load).isInstalled = false ↔ errorI load.task.encode = 0 := by
    unfold processLoadForSlot
    rw [free, if_neg Bool.false_ne_true, if_neg hasProcess, if_neg (by omega), if_neg hasStack, if_neg hasPaging,
      if_neg (by omega)]
    by_cases isZero : errorI load.task.encode = 0
    · rw [if_pos isZero]
      exact ⟨fun _ => isZero, fun _ => rfl⟩
    · rw [if_neg isZero]
      exact ⟨fun isInstalled => absurd (show true = false from isInstalled) (by decide), fun zero => absurd zero isZero⟩
  rw [branch]
  cases returned : load.task with
  | error code =>
      rw [returned] at mayReturn
      have decodes : errorI (ErrorReturn.error code).encode = code := errorI_error mayReturn
      rw [decodes]
      constructor
      · intro right
        have := right.mpr rfl
        have := mayReturn.2
        omega
      · rintro ⟨_, isPointer, _⟩
        cases isPointer
  | pointer address =>
      have isZero : errorI (ErrorReturn.pointer address).encode = 0 ↔ address % 2 ^ 32 = 0 := errorI_pointer_iff address
      rw [isZero]
      constructor
      · exact fun right => ⟨address, rfl, fun zero => by cases right.mp zero⟩
      · rintro ⟨_, isPointer, notZero⟩
        cases isPointer
        exact ⟨fun zero => absurd zero notZero, fun isError => by cases isError⟩

/-! ### Errors and pointers -/

/-- **When errors and pointers are told apart**: error codes always, pointers when their bit 31 is clear; by `fopen` the
same, and by `process_load_for_slot` only pointers whose low 32 bits are not zero. -/
theorem errorEncoding_iff (code : Int) (address : Nat) (s : FileSystemState) (memory : Nat → Bool) (allocated : Nat)
    (filename modeStr : CString) (returned : ErrorReturn) (result : FileOpen) (load : ProcessLoad) :
    (ErrorCode code → iserr (errorPointer code) = true ∧ errorI (errorPointer code) = code) ∧
      (iserr address = false ↔ address % 2 ^ 32 < 2 ^ 31) ∧
      (openReturns s memory filename modeStr = some returned → MayReturn returned →
        fopen s memory allocated filename modeStr = some result →
        ((.newDescriptor ∉ result.events ↔ returned.isError = true) ↔
          ∀ pointer, returned = .pointer pointer → pointer % 2 ^ 32 < 2 ^ 31)) ∧
      (ReachesTask load → MayReturn load.task →
        (((processLoadForSlot load).isInstalled = false ↔ load.task.isError = true) ↔
          ∃ pointer, load.task = .pointer pointer ∧ pointer % 2 ^ 32 ≠ 0)) :=
  ⟨fun isCode => ⟨iserr_error isCode, errorI_error isCode⟩, iserr_pointer_iff address,
    fun called mayReturn isResult => fopen_branch called mayReturn isResult, processLoad_branch⟩

/-- The calls of `process_load_for_slot` succeed until `task_new` runs out of memory. -/
def loadWithoutTask : ProcessLoad := ⟨false, 0, 0x01000000, 0, 0x01001000, 0x01002000, 0, .error enomem⟩

/-- A refused `fopen` takes its error branch, a heap pointer below 2 GiB is none, and `-ENOMEM` is not recognised. -/
theorem errorEncoding_readOnly :
    (iserr (errorPointer enomem) = true ∧ errorI (errorPointer enomem) = enomem) ∧ iserr 0x01000000 = false ∧
      (.newDescriptor ∉ [FileEvent.opened (errorPointer erdonly), .closed (errorPointer erdonly)] ↔
        (ErrorReturn.error erdonly).isError = true) ∧
      ¬ ((processLoadForSlot loadWithoutTask).isInstalled = false ↔ loadWithoutTask.task.isError = true) := by
  obtain ⟨codes, pointers, opens, loads⟩ := errorEncoding_iff enomem 0x01000000 writtenState (fun _ => true) 0x2000 pathA
    modeW (.error erdonly) ⟨0, [.opened (errorPointer erdonly), .closed (errorPointer erdonly)], writtenState⟩ loadWithoutTask
  refine ⟨codes (by decide), pointers.mpr (by decide), ?_, fun right => ?_⟩
  · refine (opens (fat16_refuses _ _ _) (by decide : ErrorCode erdonly)
      (fopen_error (by decide) (fat16_refuses _ _ _))).mpr fun _ isPointer => ?_
    cases isPointer
  · obtain ⟨_, isPointer, _⟩ := (loads ⟨rfl, by decide, by decide, by decide, by decide, by decide⟩
      (by decide : ErrorCode enomem)).mp right
    cases isPointer

/-- **Pointers from 2 GiB on are taken for errors, and no error of `task_new` is recognised**: the process is put into its
slot with `-ENOMEM` as its task. -/
theorem errorEncoding_fails :
    ¬ (∀ address, address ≠ 0 → address < 2 ^ 52 → iserr address = false) ∧
      ¬ (∀ load, ReachesTask load → MayReturn load.task →
        ((processLoadForSlot load).isInstalled = false ↔ load.task.isError = true)) ∧
      iserr 0x80000000 = true ∧ (processLoadForSlot loadWithoutTask).isInstalled = true ∧
      (processLoadForSlot loadWithoutTask).task = 0xFFFFFFFFFFFFFFFD := by
  have highPointer : iserr 0x80000000 = true := by decide
  have isInstalled : (processLoadForSlot loadWithoutTask).isInstalled = true := by decide
  refine ⟨fun all => ?_, fun all => ?_, highPointer, isInstalled, by decide⟩
  · have isPointer := all 0x80000000 (by decide) (by decide)
    rw [highPointer] at isPointer
    cases isPointer
  · have notInstalled := (all loadWithoutTask ⟨rfl, by decide, by decide, by decide, by decide, by decide⟩
      (by decide : ErrorCode enomem)).mpr rfl
    rw [isInstalled] at notInstalled
    cases notInstalled

end PeachOS
