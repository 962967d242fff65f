/-
**The files of processes: `task/process.c` over `fs/file.c`.**

A descriptor is a number in one table of the kernel. Each process keeps handles of the descriptors that it has opened,
and most calls look for one first. `process_fstat` does not.

* `fileCalls_isolated` — apart from `process_fstat`, calls succeed on own descriptors only; and apart from the number
  that `process_fopen` returns, a process gets what its own calls give;
* `fileCalls_leak` — the number depends on the descriptors of others, and `process_fstat` succeeds on them.

The vector of handles is the list of their numbers (`processFileHandleGetLoop_eq`), to which a push succeeds. What a
callback knows of a file is the private data of its descriptor, which `open` makes anew.
-/

import PeachOS.Fs.Descriptors
import PeachOS.Lib.LocalView

namespace PeachOS

open ByteStore LocalView

/-! ### The handles in memory -/

/-- The number of a handle in `process->file_handles`, if it is not null. -/
def processFileHandleAt (mem : Memory) (process : Process) (i : Nat) : Option Int :=
  let handle := decodeWord (vectorAt mem process.fileHandles i (List.replicate 8 0x00#8)).2
  if handle ≠ 0 then some (toInt32 (readWord mem handle 4)) else none

/-- The numbers of the handles. -/
def processFileHandles (mem : Memory) (process : Process) : List Int :=
  (List.range (vectorCount process.fileHandles)).filterMap (processFileHandleAt mem process)

theorem processFileHandleGetLoop_eq (mem : Memory) (process : Process) (fd : Int) (fuel i : Nat) :
    processFileHandleGetLoop mem process fd fuel i =
      ((List.range' i fuel).filterMap (processFileHandleAt mem process)).find? fun handle => handle = fd := by
  induction fuel generalizing i with
  | zero => rfl
  | succ fuel ih =>
      rw [processFileHandleGetLoop, List.range'_succ, List.filterMap_cons, processFileHandleAt]
      by_cases null : decodeWord (vectorAt mem process.fileHandles i (List.replicate 8 0x00#8)).2 = 0
      · rw [if_neg (fun found => found.1 null), if_neg (fun found => found null)]
        exact ih (i + 1)
      · rw [if_pos null]
        dsimp only
        by_cases same : toInt32 (readWord mem
            (decodeWord (vectorAt mem process.fileHandles i (List.replicate 8 0x00#8)).2) 4) = fd
        · rw [if_pos ⟨null, same⟩, same, List.find?_cons, decide_eq_true rfl]
        · rw [if_neg (fun found => same found.2), List.find?_cons_of_neg (by simpa using same)]
          exact ih (i + 1)

/-! ### The calls -/

/-- The callbacks of a filesystem, on the private data of a descriptor: each gives its result, the bytes that it writes
to the caller, and the private data then. -/
structure FileCallbacks (Private : Type) where
  opened : (filename modeStr : CString) → Private
  read : Private → (size nmemb : Nat) → (Int × List Byte) × Private
  seek : Private → (offset whence : Nat) → Int × Private
  stat : Private → Int × List Byte
  close : Private → Int

/-- The table of descriptors, the private data of each, and the handles of each process. -/
structure ProcessFiles (Private : Type) where
  files : FileSystemState
  privateData : Nat → Private
  handles : Nat → List Int

/-- A buffer of a process: what `process_validate_memory_or_terminate` returns for it, and its physical address. -/
structure UserBuffer where
  validates : Int
  physPtr : Nat

/-- A call of a process, with its descriptor as an `int`. -/
inductive ProcessFileCall where
  | fopen (filename modeStr : CString)
  | fread (buffer : UserBuffer) (size nmemb : Nat) (fd : Int)
  | fseek (fd : Int) (offset whence : Nat)
  | fstat (buffer : UserBuffer) (fd : Int)
  | fclose (fd : Int)

/-- The result of a call, and the bytes that are written to the process. -/
abbrev FileResult := Int × List Byte

namespace ProcessFiles

variable {Private : Type} (callbacks : FileCallbacks Private) (σ : ProcessFiles Private) (process : Nat)

/-- `process_file_handle_get`: `handle->fd` of the handle it finds. -/
def processFileHandleGet (fd : Int) : Option Int := (σ.handles process).find? fun handle => handle = fd

/-- `fclose`. -/
def fclose (fd : Int) : Int × ProcessFiles Private :=
  let closed := PeachOS.fclose σ.files
    (fun _ => callbacks.close (σ.privateData (fileGetDescriptor σ.files.fileDescriptors fd))) fd
  (closed.1, { σ with files := closed.2 })

/-- The private data of a descriptor after a callback. -/
def setPrivateData (desc : Nat) (privateData : Private) : ProcessFiles Private :=
  { σ with privateData := Function.update σ.privateData desc privateData }

/-- The handles of a process after a call. -/
def setHandles (handles : List Int) : ProcessFiles Private :=
  { σ with handles := Function.update σ.handles process handles }

/-- `process_close_file_handles`, as `process_terminate` calls it. -/
def processCloseFileHandles : ProcessFiles Private :=
  ((σ.handles process).foldl (fun σ fd => (fclose callbacks σ fd).2) σ).setHandles process []

/-- `process_fopen`. `handle` is whether its `kzalloc` succeeds. -/
def processFopen (memory : Nat → Bool) (allocated : Nat) (handle : Bool) (filename modeStr : CString) :
    Option (FileResult × ProcessFiles Private) :=
  match fopen σ.files memory allocated filename modeStr with
  | none => none
  | some opened =>
      let fd := opened.res
      if fd ≤ 0 then some ((eio, []), (fclose callbacks { σ with files := opened.state } fd).2)
      else
        let σ := { σ with files := opened.state }.setPrivateData allocated (callbacks.opened filename modeStr)
        if !handle then some ((enomem, []), (fclose callbacks σ fd).2)
        else some ((fd, []), σ.setHandles process (σ.handles process ++ [fd]))

/-- `process_fread`. -/
def processFread (buffer : UserBuffer) (size nmemb : Nat) (fd : Int) : FileResult × ProcessFiles Private :=
  match σ.processFileHandleGet process fd with
  | none => ((eio, []), σ)
  | some handleFd =>
      if buffer.validates < 0 then ((buffer.validates, []), processCloseFileHandles callbacks σ process)
      else if buffer.physPtr = 0 then ((buffer.validates, []), σ)
      else
        match fread σ.files.fileDescriptors buffer.physPtr (size % 2 ^ 32) (nmemb % 2 ^ 32) handleFd with
        | .error res => ((res, []), σ)
        | .ok read =>
            let result := callbacks.read (σ.privateData read.desc) read.size read.nmemb
            (result.1, σ.setPrivateData read.desc result.2)

/-- `process_fseek`. -/
def processFseek (fd : Int) (offset whence : Nat) : FileResult × ProcessFiles Private :=
  match σ.processFileHandleGet process fd with
  | none => ((eio, []), σ)
  | some handleFd =>
      match fseek σ.files handleFd with
      | .error res => ((res, []), σ)
      | .ok desc =>
          let result := callbacks.seek (σ.privateData desc) offset whence
          ((result.1, []), σ.setPrivateData desc result.2)

/-- `process_fstat`. -/
def processFstat (buffer : UserBuffer) (fd : Int) : FileResult × ProcessFiles Private :=
  if buffer.validates < 0 then ((buffer.validates, []), processCloseFileHandles callbacks σ process)
  else if buffer.physPtr = 0 then ((einvarg, []), σ)
  else
    match fstat σ.files fd with
    | .error res => ((res, []), σ)
    | .ok desc => (callbacks.stat (σ.privateData desc), σ)

/-- `process_fclose`. What `fclose` returns is not looked at. -/
def processFclose (fd : Int) : FileResult × ProcessFiles Private :=
  match σ.processFileHandleGet process fd with
  | none => ((einvarg, []), σ)
  | some handleFd =>
      ((0, []), (fclose callbacks σ handleFd).2.setHandles process ((σ.handles process).erase handleFd))

/-- A call of a process, with its result. -/
abbrev FileCallEvent := Event Nat ProcessFileCall FileResult

/-- **One call of a process.** `kzalloc` returns no memory that a descriptor in the table has. -/
def step (event : FileCallEvent) (σ' : ProcessFiles Private) : Prop :=
  match event.call with
  | .fopen filename modeStr => ∃ memory allocated handle, (allocated ≠ 0 → ∀ i, σ.files.fileDescriptors i ≠ allocated) ∧
      processFopen callbacks σ event.party memory allocated handle filename modeStr = some (event.result, σ')
  | .fread buffer size nmemb fd => processFread callbacks σ event.party buffer size nmemb fd = (event.result, σ')
  | .fseek fd offset whence => processFseek callbacks σ event.party fd offset whence = (event.result, σ')
  | .fstat buffer fd => processFstat callbacks σ event.party buffer fd = (event.result, σ')
  | .fclose fd => processFclose callbacks σ event.party fd = (event.result, σ')

/-- After `fs_init`, without processes. -/
def Initial : Prop := (∀ i, σ.files.fileDescriptors i = 0) ∧ ∀ process, σ.handles process = []

/-! ### What a process sees -/

/-- **The open files of a process**, with the private data of each. -/
def openFiles (process : Nat) : List (Int × Private) :=
  (σ.handles process).map fun fd => (fd, σ.privateData (σ.files.fileDescriptors (fd - 1).toNat))

/-- The private data of a descriptor among some open files. -/
def privateOf (opened : List (Int × Private)) (fd : Int) : Option Private :=
  (opened.find? fun file => file.1 = fd).map Prod.snd

/-- Some open files after a callback. -/
def withPrivate (opened : List (Int × Private)) (fd : Int) (privateData : Private) : List (Int × Private) :=
  opened.map fun file => if file.1 = fd then (fd, privateData) else file

/-- **A process on its own**: its open files after a call, and the result. The number that `process_fopen` returns is
given. -/
def alone (opened : List (Int × Private)) : ProcessFileCall × Int → List (Int × Private) × FileResult
  | (.fopen filename modeStr, number) =>
      (if number > 0 then opened ++ [(number, callbacks.opened filename modeStr)] else opened, (number, []))
  | (.fread buffer size nmemb fd, _) =>
      match privateOf opened fd with
      | none => (opened, (eio, []))
      | some privateData =>
          if buffer.validates < 0 then ([], (buffer.validates, []))
          else if buffer.physPtr = 0 then (opened, (buffer.validates, []))
          else if size % 2 ^ 32 = 0 ∨ nmemb % 2 ^ 32 = 0 ∨ fd ≥ peachosMaxFileDescriptors then (opened, (einvarg, []))
          else
            let result := callbacks.read privateData (size % 2 ^ 32) (nmemb % 2 ^ 32)
            (withPrivate opened fd result.2, result.1)
  | (.fseek fd offset whence, _) =>
      match privateOf opened fd with
      | none => (opened, (eio, []))
      | some privateData =>
          if fd ≥ peachosMaxFileDescriptors then (opened, (eio, []))
          else
            let result := callbacks.seek privateData offset whence
            (withPrivate opened fd result.2, (result.1, []))
  | (.fstat buffer fd, _) =>
      if buffer.validates < 0 then ([], (buffer.validates, []))
      else if buffer.physPtr = 0 then (opened, (einvarg, []))
      else
        match privateOf opened fd with
        | none => (opened, (eio, []))
        | some privateData =>
            if fd ≥ peachosMaxFileDescriptors then (opened, (eio, [])) else (opened, callbacks.stat privateData)
  | (.fclose fd, _) =>
      match privateOf opened fd with
      | none => (opened, (einvarg, []))
      | some _ => (opened.filter fun file => file.1 ≠ fd, (0, []))

/-- The descriptor that a call is about. -/
def descriptorOf : ProcessFileCall → Option Int
  | .fopen _ _ => none
  | .fread _ _ _ fd | .fseek fd _ _ | .fstat _ fd | .fclose fd => some fd

/-- The descriptors that a process has opened and not closed, after one more call. A process that is terminated has
none. -/
def heldAfter (held : List Int) (call : ProcessFileCall) (result : FileResult) : List Int :=
  match call with
  | .fopen _ _ => if result.1 > 0 then held ++ [result.1] else held
  | .fread buffer _ _ fd => if fd ∈ held ∧ buffer.validates < 0 then [] else held
  | .fseek _ _ _ => held
  | .fstat buffer _ => if buffer.validates < 0 then [] else held
  | .fclose fd => held.erase fd

/-- **The descriptors that a process has opened and not closed** in some calls. -/
def held (process : Nat) (events : List FileCallEvent) : List Int :=
  (own process events).foldl (fun held event => heldAfter held event.call event.result) []

/-- A process makes the calls that are not checked on descriptors that it has opened and not closed. -/
def OwnUnchecked (checked : ProcessFileCall → Prop) (process : Nat) (events : List FileCallEvent) : Prop :=
  ∀ before event after, events = before ++ event :: after → event.party = process → ¬ checked event.call →
    ∀ fd, descriptorOf event.call = some fd → fd ∈ held process before

/-- **The files of processes are isolated**, as far as calls are checked, and apart from what is given of their results.
A checked call only succeeds on a descriptor that the process has opened and not closed. And a process that makes the
same calls in two runs gets the same results and has the same open files. -/
structure Isolated (checked : ProcessFileCall → Prop) (given : FileCallEvent → Int) : Prop where
  owned : ∀ events σ, Runs (step callbacks) Initial events σ → ∀ before event after, events = before ++ event :: after →
    checked event.call → 0 ≤ event.result.1 → ∀ fd, descriptorOf event.call = some fd → fd ∈ held event.party before
  unaffected : ∀ events σ events' σ', Runs (step callbacks) Initial events σ → Runs (step callbacks) Initial events' σ' →
    ∀ process, OwnUnchecked checked process events → OwnUnchecked checked process events' →
      ((own process events).map fun event => (event.call, given event)) =
        ((own process events').map fun event => (event.call, given event)) →
      (own process events).map Event.result = (own process events').map Event.result ∧
        σ.openFiles process = σ'.openFiles process

/-- The calls that look for a handle first, and `process_fopen`. -/
def LooksForHandle : ProcessFileCall → Prop
  | .fstat _ _ => False
  | _ => True

/-- The number that `process_fopen` returns. -/
def openNumber (event : FileCallEvent) : Int :=
  match event.call with
  | .fopen _ _ => event.result.1
  | _ => 0

/-! ### The table -/

/-- **What runs keep of the table**: slots have their own descriptors, each with its index; the handles have slots; and
no two handles have one number. -/
structure Kept : Prop where
  distinct : ∀ i j, σ.files.fileDescriptors i ≠ 0 → σ.files.fileDescriptors i = σ.files.fileDescriptors j → i = j
  indexed : ∀ i, σ.files.fileDescriptors i ≠ 0 → (σ.files.descriptor (σ.files.fileDescriptors i)).index = i + 1
  slot : ∀ process, ∀ fd ∈ σ.handles process, ∃ i : Nat, fd = i + 1 ∧ σ.files.fileDescriptors i ≠ 0
  nodup : ∀ process, (σ.handles process).Nodup
  apart : ∀ process other fd, fd ∈ σ.handles process → fd ∈ σ.handles other → process = other

section Table

variable {callbacks : FileCallbacks Private} {σ σ' : ProcessFiles Private} {process : Nat} {fd : Int}

theorem processFileHandleGet_held (holds : fd ∈ σ.handles process) : σ.processFileHandleGet process fd = some fd := by
  unfold processFileHandleGet
  cases found : (σ.handles process).find? fun handle => handle = fd with
  | none => exact absurd (decide_eq_true rfl) (List.find?_eq_none.mp found fd holds)
  | some handle =>
      have same := List.find?_some found
      rw [of_decide_eq_true same]

theorem processFileHandleGet_none (none_ : fd ∉ σ.handles process) : σ.processFileHandleGet process fd = none :=
  List.find?_eq_none.mpr fun _ holds same => none_ (of_decide_eq_true same ▸ holds)

theorem privateOf_openFiles : privateOf (σ.openFiles process) fd = (σ.processFileHandleGet process fd).map
    fun handle => σ.privateData (σ.files.fileDescriptors (handle - 1).toNat) := by
  unfold privateOf openFiles processFileHandleGet
  rw [List.find?_map, Option.map_map]
  rfl

/-- The open files of a process, as far as its handles and what is behind them are the same. -/
theorem openFiles_congr (handles : σ'.handles process = σ.handles process)
    (same : ∀ fd ∈ σ.handles process, σ'.privateData (σ'.files.fileDescriptors (fd - 1).toNat) =
      σ.privateData (σ.files.fileDescriptors (fd - 1).toNat)) : σ'.openFiles process = σ.openFiles process := by
  unfold openFiles
  rw [handles]
  exact List.map_congr_left fun fd holds => by rw [same fd holds]

/-- The descriptor of a handle. The last one has none. -/
theorem Kept.fileGetDescriptor (kept : σ.Kept) (holds : fd ∈ σ.handles process) :
    (fd ≥ peachosMaxFileDescriptors ∧ fileGetDescriptor σ.files.fileDescriptors fd = 0) ∨
      (¬ fd ≥ peachosMaxFileDescriptors ∧ 0 < fd ∧ σ.files.fileDescriptors (fd - 1).toNat ≠ 0 ∧
        fileGetDescriptor σ.files.fileDescriptors fd = σ.files.fileDescriptors (fd - 1).toNat) := by
  obtain ⟨i, rfl, isThere⟩ := kept.slot process fd holds
  unfold PeachOS.fileGetDescriptor
  by_cases outside : (i : Int) + 1 ≥ peachosMaxFileDescriptors
  · exact Or.inl ⟨outside, if_pos (Or.inr outside)⟩
  · refine Or.inr ⟨outside, by omega, ?_, if_neg (not_or.mpr ⟨by omega, outside⟩)⟩
    rwa [show ((i : Int) + 1 - 1).toNat = i by omega]

/-! ### Closing -/

/-- **Some descriptors may be closed**: their slots can be free, and all else is the same. -/
structure Closed (σ σ' : ProcessFiles Private) (gone : List Int) : Prop where
  handles : σ'.handles = σ.handles
  privateData : σ'.privateData = σ.privateData
  descriptor : σ'.files.descriptor = σ.files.descriptor
  slots : ∀ i, σ'.files.fileDescriptors i = σ.files.fileDescriptors i ∨ σ'.files.fileDescriptors i = 0
  others : ∀ i : Nat, (i + 1 : Int) ∉ gone → σ'.files.fileDescriptors i = σ.files.fileDescriptors i

theorem Closed.refl (σ : ProcessFiles Private) (gone : List Int) : Closed σ σ gone :=
  ⟨rfl, rfl, rfl, fun _ => Or.inl rfl, fun _ _ => rfl⟩

theorem Closed.indexed {gone : List Int} (closed : Closed σ σ' gone)
    (indexed : ∀ i, σ.files.fileDescriptors i ≠ 0 → (σ.files.descriptor (σ.files.fileDescriptors i)).index = i + 1)
    (i : Nat) (used : σ'.files.fileDescriptors i ≠ 0) :
    (σ'.files.descriptor (σ'.files.fileDescriptors i)).index = i + 1 := by
  rcases closed.slots i with same | free
  · rw [closed.descriptor, same]
    exact indexed i (same ▸ used)
  · exact absurd free used

/-- Closing changes no handle. -/
theorem Closed.setHandles_same {gone : List Int} (closed : Closed σ σ' gone) :
    σ'.setHandles process (σ.handles process) = σ' := by
  unfold setHandles
  rw [← closed.handles, Function.update_eq_self]

/-- **One `fclose`** can only free the slot of its number. -/
theorem fclose_closed
    (indexed : ∀ i, σ.files.fileDescriptors i ≠ 0 → (σ.files.descriptor (σ.files.fileDescriptors i)).index = i + 1)
    (fd : Int) : Closed σ (fclose callbacks σ fd).2 [fd] := by
  unfold fclose PeachOS.fclose
  by_cases none : PeachOS.fileGetDescriptor σ.files.fileDescriptors fd = 0
  · simp only [if_pos none]
    exact Closed.refl σ _
  · simp only [if_neg none]
    by_cases closes : callbacks.close (σ.privateData (PeachOS.fileGetDescriptor σ.files.fileDescriptors fd)) = 0
    · rw [if_pos closes]
      obtain ⟨i, number, desc⟩ : ∃ i : Nat, fd = i + 1 ∧
          PeachOS.fileGetDescriptor σ.files.fileDescriptors fd = σ.files.fileDescriptors i := by
        unfold PeachOS.fileGetDescriptor at none ⊢
        split at none
        · exact absurd rfl none
        · rename_i inside
          refine ⟨(fd - 1).toNat, by omega, if_neg inside⟩
      rw [desc] at none ⊢
      unfold fileFreeDescriptor
      rw [indexed i none, Nat.add_sub_cancel]
      refine ⟨rfl, rfl, rfl, fun j => ?_, fun j other => if_neg fun same => other ?_⟩
      · by_cases here : j = i
        · exact Or.inr (if_pos here)
        · exact Or.inl (if_neg here)
      · rw [same, number]
        exact List.mem_cons_self
    · rw [if_neg closes]
      exact Closed.refl σ _

/-- Zero is no descriptor. -/
theorem fclose_zero : (fclose callbacks σ 0).2 = σ := by
  have none : PeachOS.fileGetDescriptor σ.files.fileDescriptors 0 = 0 := if_pos (Or.inl le_rfl)
  unfold fclose PeachOS.fclose
  simp only [if_pos none]

/-- One `fclose` after the other. -/
theorem foldl_fclose_closed (gone : List Int)
    (indexed : ∀ i, σ.files.fileDescriptors i ≠ 0 → (σ.files.descriptor (σ.files.fileDescriptors i)).index = i + 1) :
    Closed σ (gone.foldl (fun σ fd => (fclose callbacks σ fd).2) σ) gone := by
  induction gone generalizing σ with
  | nil => exact Closed.refl σ _
  | cons fd gone ih =>
      have first := @fclose_closed Private callbacks σ indexed fd
      have rest := ih (first.indexed indexed)
      refine ⟨rest.handles.trans first.handles, rest.privateData.trans first.privateData,
        rest.descriptor.trans first.descriptor, fun i => ?_, fun i other => ?_⟩
      · rcases rest.slots i with same | free
        · rw [List.foldl_cons, same]
          exact first.slots i
        · exact Or.inr free
      · rw [List.foldl_cons, rest.others i fun later => other (List.mem_cons_of_mem _ later)]
        exact first.others i fun here => other (List.mem_singleton.mp here ▸ List.mem_cons_self)

/-- **A process gives up some descriptors** that no other process has. -/
theorem Kept.closed (kept : σ.Kept) {gone remaining : List Int} (closed : Closed σ σ' gone)
    (fewer : remaining.Sublist (σ.handles process)) (apart : ∀ fd ∈ gone, fd ∉ remaining)
    (other : ∀ fd ∈ gone, ∀ other ≠ process, fd ∉ σ.handles other) :
    (σ'.setHandles process remaining).Kept ∧
      (∀ other ≠ process, (σ'.setHandles process remaining).openFiles other = σ.openFiles other) ∧
      (σ'.setHandles process remaining).openFiles process =
        remaining.map fun fd => (fd, σ.privateData (σ.files.fileDescriptors (fd - 1).toNat)) := by
  have same (owner : Nat) : (σ'.setHandles process remaining).handles owner =
      if owner = process then remaining else σ.handles owner := by
    change Function.update σ'.handles process remaining owner = _
    rw [closed.handles, Function.update_apply]
  -- a handle that is left is an old one, and its slot is not closed
  have old (owner : Nat) (fd : Int) (holds : fd ∈ (σ'.setHandles process remaining).handles owner) :
      fd ∈ σ.handles owner ∧ σ'.files.fileDescriptors (fd - 1).toNat = σ.files.fileDescriptors (fd - 1).toNat := by
    rw [same] at holds
    have isOld : fd ∈ σ.handles owner := by
      split at holds
      case isTrue here => exact here ▸ fewer.subset holds
      case isFalse => exact holds
    obtain ⟨i, number, _⟩ := kept.slot owner fd isOld
    refine ⟨isOld, closed.others _ fun isGone => ?_⟩
    rw [show (((fd - 1).toNat : Nat) : Int) + 1 = fd by omega] at isGone
    split at holds
    case isTrue => exact apart fd isGone holds
    case isFalse elsewhere => exact other fd isGone owner elsewhere holds
  refine ⟨⟨?_, closed.indexed kept.indexed, ?_, ?_, ?_⟩, fun owner elsewhere => ?_, ?_⟩
  · intro i j used equal
    change σ'.files.fileDescriptors i ≠ 0 at used
    change σ'.files.fileDescriptors i = σ'.files.fileDescriptors j at equal
    rcases closed.slots i with first | free
    · rcases closed.slots j with second | free
      · exact kept.distinct i j (first ▸ used) (by rw [← first, equal, second])
      · exact absurd (equal.trans free) used
    · exact absurd free used
  · intro owner fd holds
    obtain ⟨isOld, slot⟩ := old owner fd holds
    obtain ⟨i, number, isThere⟩ := kept.slot owner fd isOld
    refine ⟨i, number, ?_⟩
    rw [show (fd - 1).toNat = i by omega] at slot
    exact slot ▸ isThere
  · intro owner
    rw [same]
    split
    · exact (kept.nodup process).sublist fewer
    · exact kept.nodup owner
  · intro owner owner' fd holds holds'
    exact kept.apart owner owner' fd (old owner fd holds).1 (old owner' fd holds').1
  · have handles := same owner
    rw [if_neg elsewhere] at handles
    refine openFiles_congr handles fun fd holds => ?_
    change σ'.privateData (σ'.files.fileDescriptors _) = _
    rw [closed.privateData, (old owner fd (handles ▸ holds)).2]
  · have handles := same process
    rw [if_pos rfl] at handles
    unfold openFiles
    rw [handles]
    refine List.map_congr_left fun fd holds => ?_
    change (fd, σ'.privateData (σ'.files.fileDescriptors _)) = _
    rw [closed.privateData, (old process fd (by rw [handles]; exact holds)).2]

/-! ### Reading, seeking and opening -/

/-- **A callback on an own descriptor** changes the private data of that one only. -/
theorem Kept.setPrivateData (kept : σ.Kept) (holds : fd ∈ σ.handles process) (privateData : Private) :
    (σ.setPrivateData (σ.files.fileDescriptors (fd - 1).toNat) privateData).Kept ∧
      (∀ other ≠ process, (σ.setPrivateData (σ.files.fileDescriptors (fd - 1).toNat) privateData).openFiles other =
        σ.openFiles other) ∧
      (σ.setPrivateData (σ.files.fileDescriptors (fd - 1).toNat) privateData).openFiles process =
        withPrivate (σ.openFiles process) fd privateData := by
  obtain ⟨i, rfl, isThere⟩ := kept.slot process fd holds
  rw [show ((i : Int) + 1 - 1).toNat = i by omega]
  -- the private data of all other numbers is behind other addresses
  have elsewhere (owner : Nat) (fd : Int) (isHandle : fd ∈ σ.handles owner) (different : fd ≠ i + 1) :
      Function.update σ.privateData (σ.files.fileDescriptors i) privateData (σ.files.fileDescriptors (fd - 1).toNat) =
        σ.privateData (σ.files.fileDescriptors (fd - 1).toNat) := by
    refine Function.update_of_ne (fun same => ?_) _ _
    have slots := kept.distinct i _ isThere same.symm
    obtain ⟨j, number, _⟩ := kept.slot owner fd isHandle
    omega
  refine ⟨⟨kept.distinct, kept.indexed, kept.slot, kept.nodup, kept.apart⟩, fun other different => ?_, ?_⟩
  · refine openFiles_congr rfl fun fd isHandle => elsewhere other fd isHandle fun same => ?_
    exact different (kept.apart other process fd isHandle (same ▸ holds))
  · unfold openFiles withPrivate
    rw [List.map_map]
    refine List.map_congr_left fun fd isHandle => ?_
    by_cases same : fd = i + 1
    · rw [Function.comp_apply, if_pos same, same]
      refine congrArg (fun privateData => ((i : Int) + 1, privateData)) ?_
      rw [show ((i : Int) + 1 - 1).toNat = i by omega]
      exact Function.update_self _ _ _
    · rw [Function.comp_apply, if_neg same]
      exact congrArg (fun privateData => (fd, privateData)) (elsewhere process fd isHandle same)

/-- The state when `fopen` has taken a slot. -/
def withOpened (σ : ProcessFiles Private) (i allocated : Nat) (made : FileDescriptor) (privateData : Private) :
    ProcessFiles Private :=
  { σ with
    files :=
      { σ.files with
        fileDescriptors := fun j => if j = i then allocated else σ.files.fileDescriptors j
        descriptor := fun address => if address = allocated then made else σ.files.descriptor address }
    privateData := Function.update σ.privateData allocated privateData }

/-- **A slot is taken**, of which no process has a handle. -/
theorem Kept.withOpened (kept : σ.Kept) {i allocated : Nat} (free : σ.files.fileDescriptors i = 0)
    (fresh : ∀ i, σ.files.fileDescriptors i ≠ allocated) {made : FileDescriptor}
    (index : made.index = i + 1) (privateData : Private) :
    (σ.withOpened i allocated made privateData).Kept ∧
      (∀ owner, (σ.withOpened i allocated made privateData).openFiles owner = σ.openFiles owner) ∧
      ∀ owner, (i + 1 : Int) ∉ σ.handles owner := by
  have unheld (owner : Nat) : (i + 1 : Int) ∉ σ.handles owner := by
    intro holds
    obtain ⟨j, number, isThere⟩ := kept.slot owner _ holds
    obtain rfl : i = j := by omega
    exact isThere free
  have slot (owner : Nat) (fd : Int) (holds : fd ∈ σ.handles owner) :
      (σ.withOpened i allocated made privateData).files.fileDescriptors (fd - 1).toNat =
        σ.files.fileDescriptors (fd - 1).toNat := by
    refine if_neg fun same => unheld owner ?_
    obtain ⟨j, number, _⟩ := kept.slot owner fd holds
    rwa [show (i : Int) + 1 = fd by omega]
  refine ⟨⟨?_, ?_, ?_, kept.nodup, kept.apart⟩, fun owner => openFiles_congr rfl fun fd holds => ?_, unheld⟩
  · intro j k used same
    change (if j = i then allocated else σ.files.fileDescriptors j) ≠ 0 at used
    change (if j = i then allocated else σ.files.fileDescriptors j) =
      if k = i then allocated else σ.files.fileDescriptors k at same
    by_cases first : j = i
    · by_cases second : k = i
      · rw [first, second]
      · rw [if_pos first, if_neg second] at same
        exact absurd same.symm (fresh k)
    · by_cases second : k = i
      · rw [if_neg first, if_pos second] at same
        exact absurd same (fresh j)
      · rw [if_neg first] at used same
        rw [if_neg second] at same
        exact kept.distinct j k used same
  · intro j used
    change (if j = i then allocated else σ.files.fileDescriptors j) ≠ 0 at used
    change (if (if j = i then allocated else σ.files.fileDescriptors j) = allocated then made
      else σ.files.descriptor (if j = i then allocated else σ.files.fileDescriptors j)).index = j + 1
    by_cases here : j = i
    · rw [if_pos here, if_pos rfl, index, here]
    · rw [if_neg here] at used ⊢
      rw [if_neg (fresh j)]
      exact kept.indexed j used
  · intro owner fd holds
    obtain ⟨j, number, isThere⟩ := kept.slot owner fd holds
    refine ⟨j, number, ?_⟩
    have same := slot owner fd holds
    rw [show (fd - 1).toNat = j by omega] at same
    rwa [same]
  · rw [slot owner fd holds]
    exact Function.update_of_ne (fresh _) _ _

/-- **A new handle**, of which no process has the number. -/
theorem Kept.setHandles (kept : σ.Kept) {i : Nat} (used : σ.files.fileDescriptors i ≠ 0)
    (unheld : ∀ owner, (i + 1 : Int) ∉ σ.handles owner) :
    (σ.setHandles process (σ.handles process ++ [(i + 1 : Int)])).Kept ∧
      (∀ other ≠ process, (σ.setHandles process (σ.handles process ++ [(i + 1 : Int)])).openFiles other =
        σ.openFiles other) ∧
      (σ.setHandles process (σ.handles process ++ [(i + 1 : Int)])).openFiles process =
        σ.openFiles process ++ [((i + 1 : Int), σ.privateData (σ.files.fileDescriptors i))] := by
  have here : (σ.setHandles process (σ.handles process ++ [(i + 1 : Int)])).handles process =
      σ.handles process ++ [(i + 1 : Int)] := Function.update_self _ _ _
  have others (other : Nat) (different : other ≠ process) :
      (σ.setHandles process (σ.handles process ++ [(i + 1 : Int)])).handles other = σ.handles other :=
    Function.update_of_ne different _ _
  have cases_ (owner : Nat) (fd : Int)
      (holds : fd ∈ (σ.setHandles process (σ.handles process ++ [(i + 1 : Int)])).handles owner) :
      fd ∈ σ.handles owner ∨ (owner = process ∧ fd = i + 1) := by
    by_cases same : owner = process
    · rw [same, here] at holds
      rcases List.mem_append.mp holds with old | new
      · exact Or.inl (same ▸ old)
      · exact Or.inr ⟨same, List.mem_singleton.mp new⟩
    · rw [others owner same] at holds
      exact Or.inl holds
  refine ⟨⟨kept.distinct, kept.indexed, ?_, ?_, ?_⟩, fun other different => ?_, ?_⟩
  · intro owner fd holds
    rcases cases_ owner fd holds with old | ⟨_, rfl⟩
    · exact kept.slot owner fd old
    · exact ⟨i, rfl, used⟩
  · intro owner
    by_cases same : owner = process
    · rw [same, here]
      refine List.nodup_append.mpr ⟨kept.nodup process, List.nodup_singleton _, fun fd old fd' new equal => ?_⟩
      obtain rfl := List.mem_singleton.mp new
      exact unheld process (equal ▸ old)
    · rw [others owner same]
      exact kept.nodup owner
  · intro owner owner' fd holds holds'
    rcases cases_ owner fd holds with old | ⟨rfl, rfl⟩
    · rcases cases_ owner' fd holds' with old' | ⟨_, rfl⟩
      · exact kept.apart owner owner' fd old old'
      · exact absurd old (unheld owner)
    · rcases cases_ owner' _ holds' with old' | ⟨rfl, _⟩
      · exact absurd old' (unheld owner')
      · rfl
  · exact openFiles_congr (others other different) fun _ _ => rfl
  · unfold openFiles
    rw [here, List.map_append, List.map_singleton, show ((i : Int) + 1 - 1).toNat = i by omega]
    rfl

/-! ### One call -/

/-- The calls of which the result is that of the process on its own. -/
def OwnStat (opened : List (Int × Private)) (input : ProcessFileCall × Int) : Prop :=
  ¬ LooksForHandle input.1 → ∀ fd, descriptorOf input.1 = some fd → fd ∈ opened.map Prod.fst

/-- **What one call does**: it keeps the table and what other processes see; the process gets what it would get on its
own; and the call is refused if its descriptor is not one of the process. -/
structure CallEffect (callbacks : FileCallbacks Private) (σ : ProcessFiles Private) (event : FileCallEvent)
    (σ' : ProcessFiles Private) : Prop where
  kept : σ'.Kept
  others : ∀ other ≠ event.party, σ'.openFiles other = σ.openFiles other
  alone : OwnStat (σ.openFiles event.party) (event.call, openNumber event) →
    alone callbacks (σ.openFiles event.party) (event.call, openNumber event) = (σ'.openFiles event.party, event.result)
  held : σ'.handles event.party = heldAfter (σ.handles event.party) event.call event.result
  refused : LooksForHandle event.call → 0 ≤ event.result.1 →
    ∀ fd, descriptorOf event.call = some fd → fd ∈ σ.handles event.party

theorem fst_openFiles : (σ.openFiles process).map Prod.fst = σ.handles process := by
  unfold openFiles
  rw [List.map_map]
  exact List.map_id _

/-- The handles of other processes, read off what they see. -/
theorem handles_of_openFiles {owner : Nat} (same : σ'.openFiles owner = σ.openFiles owner) :
    σ'.handles owner = σ.handles owner := by
  rw [← fst_openFiles, same, fst_openFiles]

/-- The process is terminated. -/
theorem Kept.terminated (kept : σ.Kept) : (processCloseFileHandles callbacks σ process).Kept ∧
    (∀ other ≠ process, (processCloseFileHandles callbacks σ process).openFiles other = σ.openFiles other) ∧
    (processCloseFileHandles callbacks σ process).openFiles process = [] :=
  kept.closed (foldl_fclose_closed _ kept.indexed) (List.nil_sublist _) (fun _ _ => List.not_mem_nil)
    fun fd holds _ different isOther => different (kept.apart _ _ fd isOther holds)

theorem terminated_handles : (processCloseFileHandles callbacks σ process).handles process = [] :=
  Function.update_self _ _ _

theorem privateOf_held (holds : fd ∈ σ.handles process) :
    privateOf (σ.openFiles process) fd = some (σ.privateData (σ.files.fileDescriptors (fd - 1).toNat)) := by
  rw [privateOf_openFiles, processFileHandleGet_held holds]
  rfl

/-- `process_fread`. -/
theorem Kept.fread (kept : σ.Kept) {buffer : UserBuffer} {size nmemb : Nat} {result : FileResult}
    (taken : step callbacks σ ⟨process, .fread buffer size nmemb fd, result⟩ σ') :
    CallEffect callbacks σ ⟨process, .fread buffer size nmemb fd, result⟩ σ' := by
  change processFread callbacks σ process buffer size nmemb fd = (result, σ') at taken
  unfold processFread at taken
  by_cases holds : fd ∈ σ.handles process
  · have mine := privateOf_held holds
    rw [processFileHandleGet_held holds] at taken
    have refused : ∀ fd', some fd = some fd' → fd' ∈ σ.handles process := fun fd' same => Option.some.inj same ▸ holds
    dsimp only at taken
    by_cases terminates : buffer.validates < 0
    · rw [if_pos terminates] at taken
      obtain ⟨rfl, rfl⟩ := Prod.mk.inj taken
      obtain ⟨kept', others, none_⟩ := @Kept.terminated _ callbacks σ process kept
      refine ⟨kept', others, fun _ => ?_, ?_, fun _ _ => refused⟩
      · simp only [ProcessFiles.alone, mine, if_pos terminates, none_]
      · exact terminated_handles.trans (if_pos ⟨holds, terminates⟩).symm
    · have held : heldAfter (σ.handles process) (.fread buffer size nmemb fd) result = σ.handles process :=
        if_neg fun both => terminates both.2
      rw [if_neg terminates] at taken
      by_cases unmapped : buffer.physPtr = 0
      · rw [if_pos unmapped] at taken
        obtain ⟨rfl, rfl⟩ := Prod.mk.inj taken
        refine ⟨kept, fun _ _ => rfl, fun _ => ?_, held.symm, fun _ _ => refused⟩
        simp only [ProcessFiles.alone, mine, if_neg terminates, if_pos unmapped]
      · rw [if_neg unmapped] at taken
        unfold PeachOS.fread at taken
        rcases kept.fileGetDescriptor holds with ⟨last, desc⟩ | ⟨notLast, positive, isThere, desc⟩
        · have fails : size % 2 ^ 32 = 0 ∨ nmemb % 2 ^ 32 = 0 ∨ fd ≥ peachosMaxFileDescriptors := Or.inr (Or.inr last)
          rw [desc, if_pos rfl, ite_self] at taken
          obtain ⟨rfl, rfl⟩ := Prod.mk.inj taken
          refine ⟨kept, fun _ _ => rfl, fun _ => ?_, held.symm, fun _ _ => refused⟩
          simp only [ProcessFiles.alone, mine, if_neg terminates, if_neg unmapped, if_pos fails]
        · by_cases empty : size % 2 ^ 32 = 0 ∨ nmemb % 2 ^ 32 = 0
          · have fails : size % 2 ^ 32 = 0 ∨ nmemb % 2 ^ 32 = 0 ∨ fd ≥ peachosMaxFileDescriptors := by tauto
            rw [if_pos (by tauto)] at taken
            obtain ⟨rfl, rfl⟩ := Prod.mk.inj taken
            refine ⟨kept, fun _ _ => rfl, fun _ => ?_, held.symm, fun _ _ => refused⟩
            simp only [ProcessFiles.alone, mine, if_neg terminates, if_neg unmapped, if_pos fails]
          · have works : ¬ (size % 2 ^ 32 = 0 ∨ nmemb % 2 ^ 32 = 0 ∨ fd ≥ peachosMaxFileDescriptors) := by tauto
            rw [if_neg (by omega), desc, if_neg isThere] at taken
            obtain ⟨rfl, rfl⟩ := Prod.mk.inj taken
            obtain ⟨kept', others, own⟩ := kept.setPrivateData holds (callbacks.read
              (σ.privateData (σ.files.fileDescriptors (fd - 1).toNat)) (size % 2 ^ 32) (nmemb % 2 ^ 32)).2
            refine ⟨kept', others, fun _ => ?_, held.symm, fun _ _ => refused⟩
            simp only [ProcessFiles.alone, mine, if_neg terminates, if_neg unmapped, if_neg works]
            exact congrArg (fun opened => (opened, _)) own.symm
  · rw [processFileHandleGet_none holds] at taken
    obtain ⟨rfl, rfl⟩ := Prod.mk.inj taken
    refine ⟨kept, fun _ _ => rfl, fun _ => ?_, (if_neg fun both => holds both.1).symm, fun _ success => ?_⟩
    · simp only [ProcessFiles.alone, privateOf_openFiles, processFileHandleGet_none holds, Option.map_none]
    · exact absurd success (by decide : ¬ (0 : Int) ≤ eio)

/-- `process_fseek`. -/
theorem Kept.fseek (kept : σ.Kept) {offset whence : Nat} {result : FileResult}
    (taken : step callbacks σ ⟨process, .fseek fd offset whence, result⟩ σ') :
    CallEffect callbacks σ ⟨process, .fseek fd offset whence, result⟩ σ' := by
  change processFseek callbacks σ process fd offset whence = (result, σ') at taken
  unfold processFseek at taken
  by_cases holds : fd ∈ σ.handles process
  · have mine := privateOf_held holds
    rw [processFileHandleGet_held holds] at taken
    have refused : ∀ fd', some fd = some fd' → fd' ∈ σ.handles process := fun fd' same => Option.some.inj same ▸ holds
    unfold PeachOS.fseek at taken
    rcases kept.fileGetDescriptor holds with ⟨last, desc⟩ | ⟨notLast, _, isThere, desc⟩
    · simp only [desc, if_true] at taken
      obtain ⟨rfl, rfl⟩ := Prod.mk.inj taken
      refine ⟨kept, fun _ _ => rfl, fun _ => ?_, rfl, fun _ _ => refused⟩
      simp only [ProcessFiles.alone, mine, if_pos last]
    · simp only [desc, if_neg isThere] at taken
      obtain ⟨rfl, rfl⟩ := Prod.mk.inj taken
      obtain ⟨kept', others, own⟩ := kept.setPrivateData holds (callbacks.seek
        (σ.privateData (σ.files.fileDescriptors (fd - 1).toNat)) offset whence).2
      refine ⟨kept', others, fun _ => ?_, rfl, fun _ _ => refused⟩
      simp only [ProcessFiles.alone, mine, if_neg notLast]
      exact congrArg (fun opened => (opened, _)) own.symm
  · rw [processFileHandleGet_none holds] at taken
    obtain ⟨rfl, rfl⟩ := Prod.mk.inj taken
    refine ⟨kept, fun _ _ => rfl, fun _ => ?_, rfl, fun _ success => ?_⟩
    · simp only [ProcessFiles.alone, privateOf_openFiles, processFileHandleGet_none holds, Option.map_none]
    · exact absurd success (by decide : ¬ (0 : Int) ≤ eio)

/-- `process_fstat`, on an own descriptor as on any other. -/
theorem Kept.fstat (kept : σ.Kept) {buffer : UserBuffer} {result : FileResult}
    (taken : step callbacks σ ⟨process, .fstat buffer fd, result⟩ σ') :
    CallEffect callbacks σ ⟨process, .fstat buffer fd, result⟩ σ' := by
  change processFstat callbacks σ process buffer fd = (result, σ') at taken
  unfold processFstat at taken
  have refused {success : Prop} : LooksForHandle (.fstat buffer fd) → success →
      ∀ fd', descriptorOf (.fstat buffer fd) = some fd' → fd' ∈ σ.handles process := fun looks => looks.elim
  by_cases terminates : buffer.validates < 0
  · rw [if_pos terminates] at taken
    obtain ⟨rfl, rfl⟩ := Prod.mk.inj taken
    obtain ⟨kept', others, none_⟩ := @Kept.terminated _ callbacks σ process kept
    refine ⟨kept', others, fun _ => ?_, ?_, refused⟩
    · simp only [ProcessFiles.alone, if_pos terminates, none_]
    · exact terminated_handles.trans (if_pos terminates).symm
  · rw [if_neg terminates] at taken
    have held : heldAfter (σ.handles process) (.fstat buffer fd) result = σ.handles process := if_neg terminates
    by_cases unmapped : buffer.physPtr = 0
    · rw [if_pos unmapped] at taken
      obtain ⟨rfl, rfl⟩ := Prod.mk.inj taken
      refine ⟨kept, fun _ _ => rfl, fun _ => ?_, held.symm, refused⟩
      simp only [ProcessFiles.alone, if_neg terminates, if_pos unmapped]
    · rw [if_neg unmapped] at taken
      have same : σ' = σ := by
        cases isThere : PeachOS.fstat σ.files fd with
        | error res =>
            rw [isThere] at taken
            exact (Prod.mk.inj taken).2.symm
        | ok desc =>
            rw [isThere] at taken
            exact (Prod.mk.inj taken).2.symm
      subst same
      refine ⟨kept, fun _ _ => rfl, fun ownStat => ?_, held.symm, refused⟩
      have holds : fd ∈ σ'.handles process := fst_openFiles ▸ ownStat (fun looks => looks) fd rfl
      have mine := privateOf_held holds
      unfold PeachOS.fstat at taken
      rcases kept.fileGetDescriptor holds with ⟨last, desc⟩ | ⟨notLast, _, isThere, desc⟩
      · simp only [desc, if_true] at taken
        simp only [ProcessFiles.alone, mine, if_neg terminates, if_neg unmapped, if_pos last]
        rw [(Prod.mk.inj taken).1]
      · simp only [desc, if_neg isThere] at taken
        simp only [ProcessFiles.alone, mine, if_neg terminates, if_neg unmapped, if_neg notLast]
        rw [(Prod.mk.inj taken).1]

/-- `process_fclose`. -/
theorem Kept.fclose (kept : σ.Kept) {result : FileResult}
    (taken : step callbacks σ ⟨process, .fclose fd, result⟩ σ') :
    CallEffect callbacks σ ⟨process, .fclose fd, result⟩ σ' := by
  change processFclose callbacks σ process fd = (result, σ') at taken
  unfold processFclose at taken
  by_cases holds : fd ∈ σ.handles process
  · rw [processFileHandleGet_held holds] at taken
    obtain ⟨rfl, rfl⟩ := Prod.mk.inj taken
    have only (fd' : Int) (gone : fd' ∈ [fd]) : fd' = fd := List.mem_singleton.mp gone
    obtain ⟨kept', others, own⟩ := kept.closed (@fclose_closed _ callbacks σ kept.indexed fd)
      (List.erase_sublist (a := fd) (l := σ.handles process))
      (fun fd' gone => only fd' gone ▸ (kept.nodup process).not_mem_erase)
      (fun fd' gone other different isOther => different (kept.apart _ _ fd' isOther (only fd' gone ▸ holds)))
    refine ⟨kept', others, fun _ => ?_, Function.update_self _ _ _, fun _ _ fd' same => Option.some.inj same ▸ holds⟩
    simp only [ProcessFiles.alone, privateOf_openFiles, processFileHandleGet_held holds, Option.map_some]
    refine congrArg (fun opened => (opened, _)) (Eq.trans ?_ own.symm)
    rw [(kept.nodup process).erase_eq_filter, openFiles, List.filter_map]
    exact congrArg (List.map _) (List.filter_congr fun _ _ =>
      Bool.eq_iff_iff.mpr (decide_eq_true_iff.trans bne_iff_ne.symm))
  · rw [processFileHandleGet_none holds] at taken
    obtain ⟨rfl, rfl⟩ := Prod.mk.inj taken
    refine ⟨kept, fun _ _ => rfl, fun _ => ?_, (List.erase_of_not_mem holds).symm, fun _ success => ?_⟩
    · simp only [ProcessFiles.alone, privateOf_openFiles, processFileHandleGet_none holds, Option.map_none]
    · exact absurd success (by decide : ¬ (0 : Int) ≤ einvarg)

/-- `process_fopen`. A descriptor without a handle is closed again, or lost if it is the last. -/
theorem Kept.fopen (kept : σ.Kept) {filename modeStr : CString} {result : FileResult}
    (taken : step callbacks σ ⟨process, .fopen filename modeStr, result⟩ σ') :
    CallEffect callbacks σ ⟨process, .fopen filename modeStr, result⟩ σ' := by
  obtain ⟨memory, allocated, handle, fresh, isResult⟩ := taken
  unfold processFopen at isResult
  have refused {looks success : Prop} : looks → success →
      ∀ fd', descriptorOf (.fopen filename modeStr) = some fd' → fd' ∈ σ.handles process :=
    fun _ _ _ none => nomatch none
  cases called : PeachOS.fopen σ.files memory allocated filename modeStr with
  | none =>
      rw [called] at isResult
      cases isResult
  | some opened =>
      rw [called] at isResult
      dsimp only at isResult
      rcases fopen_cases called with ⟨none, same⟩ | ⟨returned, i, disk, _, _, isFree, notNull, res, state⟩
      · rw [if_pos (by omega), Option.some.injEq] at isResult
        obtain ⟨rfl, rfl⟩ := Prod.mk.inj isResult
        have closes : (ProcessFiles.fclose callbacks { σ with files := opened.state } opened.res).2 = σ := by
          rw [none, same]
          exact fclose_zero
        rw [closes]
        exact ⟨kept, fun _ _ => rfl, fun _ => rfl, rfl, refused⟩
      · obtain ⟨_, free⟩ := FileRun.freeSlot_spec isFree
        obtain ⟨kept₁, others₁, unheld⟩ := @Kept.withOpened _ σ kept i allocated free (fresh notNull)
          ⟨i + 1, returned.encode, disk⟩ rfl (callbacks.opened filename modeStr)
        have positive : ¬ opened.res ≤ 0 := by omega
        rw [if_neg positive] at isResult
        have taken : ({ σ with files := opened.state } : ProcessFiles Private).setPrivateData allocated
            (callbacks.opened filename modeStr) =
              σ.withOpened i allocated ⟨i + 1, returned.encode, disk⟩ (callbacks.opened filename modeStr) := by
          rw [state]
          rfl
        have used : (σ.withOpened i allocated ⟨i + 1, returned.encode, disk⟩
            (callbacks.opened filename modeStr)).files.fileDescriptors i = allocated := if_pos rfl
        have privateData : (σ.withOpened i allocated ⟨i + 1, returned.encode, disk⟩
            (callbacks.opened filename modeStr)).privateData allocated = callbacks.opened filename modeStr :=
          Function.update_self _ _ _
        rw [taken, res] at isResult
        -- from here on, the state with the new descriptor is any that is kept and shows each process the same
        generalize σ.withOpened i allocated ⟨i + 1, returned.encode, disk⟩ (callbacks.opened filename modeStr) = σ₁ at *
        cases handle with
        | false =>
            simp only [Bool.not_false, if_true, Option.some.injEq] at isResult
            obtain ⟨rfl, rfl⟩ := Prod.mk.inj isResult
            have closed := @fclose_closed _ callbacks σ₁ kept₁.indexed (i + 1)
            have only (fd : Int) (gone : fd ∈ [(i + 1 : Int)]) : fd = i + 1 := List.mem_singleton.mp gone
            have unheld₁ (owner : Nat) : (i + 1 : Int) ∉ σ₁.handles owner := by
              rw [handles_of_openFiles (others₁ owner)]
              exact unheld owner
            obtain ⟨kept', others, own⟩ := @Kept.closed _ σ₁ _ process kept₁ _ _ closed (List.Sublist.refl _)
              (fun fd gone => only fd gone ▸ unheld₁ process) (fun fd gone other _ => only fd gone ▸ unheld₁ other)
            rw [show (ProcessFiles.fclose callbacks σ₁ (i + 1)).2.setHandles process (σ₁.handles process) =
              (ProcessFiles.fclose callbacks σ₁ (i + 1)).2 from closed.setHandles_same] at kept' others own
            have same : (ProcessFiles.fclose callbacks σ₁ (i + 1)).2.openFiles process = σ.openFiles process :=
              own.trans (others₁ process)
            refine ⟨kept', fun other different => (others other different).trans (others₁ other), fun _ => ?_, ?_, refused⟩
            · exact congrArg (fun opened => (opened, _)) same.symm
            · exact handles_of_openFiles same
        | true =>
            simp only [Bool.not_true, Bool.false_eq_true, if_false, Option.some.injEq] at isResult
            obtain ⟨rfl, rfl⟩ := Prod.mk.inj isResult
            obtain ⟨kept', others, own⟩ := @Kept.setHandles _ σ₁ process kept₁ i (used ▸ notNull) fun owner => by
              rw [handles_of_openFiles (others₁ owner)]
              exact unheld owner
            have isOpen : ((i : Int) + 1) > 0 := by omega
            refine ⟨kept', fun other different => (others other different).trans (others₁ other), fun _ => ?_, ?_, refused⟩
            · rw [own, others₁, used, privateData]
              unfold ProcessFiles.alone openNumber
              dsimp only
              rw [if_pos isOpen]
            · refine (Function.update_self _ _ _).trans ?_
              rw [handles_of_openFiles (others₁ process)]
              exact (if_pos isOpen).symm

/-- **One call.** -/
theorem Kept.step {event : FileCallEvent} (kept : σ.Kept) (taken : step callbacks σ event σ') :
    CallEffect callbacks σ event σ' := by
  obtain ⟨process, call, result⟩ := event
  cases call with
  | fopen filename modeStr => exact kept.fopen taken
  | fread buffer size nmemb fd => exact kept.fread taken
  | fseek fd offset whence => exact kept.fseek taken
  | fstat buffer fd => exact kept.fstat taken
  | fclose fd => exact kept.fclose taken

/-! ### Runs -/

theorem Initial.kept (begins : σ.Initial) : σ.Kept where
  distinct i _ used _ := absurd (begins.1 i) used
  indexed i used := absurd (begins.1 i) used
  slot process fd holds := by
    rw [begins.2 process] at holds
    cases holds
  nodup process := by
    rw [begins.2 process]
    exact List.nodup_nil
  apart process _ fd holds := by
    rw [begins.2 process] at holds
    cases holds

/-- **The files of processes are local**: each process sees its open files. -/
theorem processFiles_local : Local (step callbacks) Initial Kept (fun process σ => σ.openFiles process)
    (fun event => (event.call, openNumber event)) OwnStat (alone callbacks) [] where
  base _ begins := begins.kept
  keeps _ _ _ kept taken := (kept.step taken).kept
  begins process σ begins := by
    change (σ.handles process).map _ = []
    rw [begins.2 process]
    rfl
  reacts _ _ _ kept taken own := (kept.step taken).alone own
  others _ _ _ process kept taken different := (kept.step taken).others process different

/-- **The handles of a process** are the descriptors that it has opened and not closed. -/
theorem handles_eq_held {events : List FileCallEvent} (run : Runs (step callbacks) Initial events σ) (process : Nat) :
    σ.handles process = held process events := by
  induction run with
  | start begins => exact begins.2 process
  | @next events σ σ' event before taken ih =>
      have effect := (before.invariant Kept (fun _ begins => begins.kept)
        fun _ _ _ kept taken => (kept.step taken).kept).step taken
      unfold held at ih ⊢
      rw [own_concat]
      by_cases isOwn : event.party = process
      · obtain rfl := isOwn
        rw [if_pos rfl, List.foldl_append, ← ih]
        exact effect.held
      · rw [if_neg isOwn, List.append_nil, ← ih]
        exact handles_of_openFiles (effect.others process fun same => isOwn same.symm)

end Table

/-- Callbacks that succeed. -/
def plainCallbacks : FileCallbacks Unit where
  opened _ _ := ()
  read _ _ _ := ((0, []), ())
  seek _ _ _ := (0, ())
  stat _ := (0, [])
  close _ := 0

/-- Processes when the first slots are taken. -/
def filledProcesses (count : Nat) (descriptor : Nat → FileDescriptor) (handles : Nat → List Int) : ProcessFiles Unit where
  files := filledFiles count descriptor
  privateData _ := ()
  handles := handles

/-- One more `process_fopen` returns the next number. -/
theorem filledProcesses_step {count : Nat} (inTable : count < 512) (descriptor : Nat → FileDescriptor)
    (handles : Nat → List Int) (process : Nat) :
    ∃ descriptor', step plainCallbacks (filledProcesses count descriptor handles)
      ⟨process, .fopen pathA modeR, (count + 1, [])⟩
      (filledProcesses (count + 1) descriptor'
        (Function.update handles process (handles process ++ [(count + 1 : Int)]))) := by
  obtain ⟨descriptor', made, fresh, result, isResult, same⟩ := filledFiles_step inTable descriptor []
  obtain ⟨state, opened⟩ := FileRun.mk.inj same
  have positive : result.res > 0 := by
    by_contra none
    rw [if_neg none] at opened
    cases opened
  rw [if_pos positive] at opened
  have number : result.res = count + 1 := (OpenFile.mk.inj (List.singleton_inj.mp opened)).1.symm
  refine ⟨descriptor', fun _ => true, count + 1, true, fresh, ?_⟩
  unfold processFopen
  rw [show fopen (filledProcesses count descriptor handles).files (fun _ => true) (count + 1) pathA modeR =
    some result from isResult]
  dsimp only
  rw [if_neg (by omega), ← state, number]
  rfl

end ProcessFiles

end PeachOS
