/-
**The table of descriptors: `fs/file.c`.**

A descriptor is the number of a slot, counted from one. `fopen` takes the first free slot of all of them, but
`file_get_descriptor` refuses the number of the last one.

* `fopen_cases` — what a call of `fopen` can do;
* `fileTable_run` — as long as no `fopen` takes the last slot, descriptors are distinct, reach what `fopen` made for
  them, and are free again after `fclose`;
* `fileTable_full` — the last descriptor is returned, and cannot be used or closed.

The callbacks of the filesystem are parameters; what they do is not modelled. `kfree` does nothing.
-/

import PeachOS.Fs.Open
import PeachOS.Lib.StepRun

namespace PeachOS

open StepRun (Reachable Guarded)

/-- `fstat` up to the call of `stat` for a descriptor, or its result if it makes none. -/
def fstat (s : FileSystemState) (fd : Int) : Except Int Nat :=
  let desc := fileGetDescriptor s.fileDescriptors fd
  if desc = 0 then .error eio else .ok desc

/-- `fseek` up to the call of `seek` for a descriptor, or its result if it makes none. -/
def fseek (s : FileSystemState) (fd : Int) : Except Int Nat :=
  let desc := fileGetDescriptor s.fileDescriptors fd
  if desc = 0 then .error eio else .ok desc

/-- `file_free_descriptor`. -/
def fileFreeDescriptor (s : FileSystemState) (desc : Nat) : FileSystemState :=
  { s with fileDescriptors := fun j => if j = (s.descriptor desc).index - 1 then 0 else s.fileDescriptors j }

/-- `fclose`, with the `close` callback. -/
def fclose (s : FileSystemState) (close : FileDescriptor → Int) (fd : Int) : Int × FileSystemState :=
  let desc := fileGetDescriptor s.fileDescriptors fd
  if desc = 0 then (eio, s)
  else
    let res := close (s.descriptor desc)
    if res = 0 then (res, fileFreeDescriptor s desc) else (res, s)

/-! ### Opening -/

section Opening

variable {s : FileSystemState} {memory : Nat → Bool} {allocated : Nat} {filename modeStr : CString}

/-- `fopen` without a call of the callback returns zero. -/
theorem fopen_uncalled (uncalled : openReturns s memory filename modeStr = none) :
    fopen s memory allocated filename modeStr = some ⟨0, [], s⟩ := by
  unfold openReturns at uncalled
  unfold fopen
  split
  · rfl
  · rename_i root parsed
    rw [parsed] at uncalled
    split
    · rfl
    · rename_i path nextParts parts
      simp only [parts] at uncalled
      split
      · rfl
      · rename_i filesystem onDisk
        simp only [onDisk] at uncalled
        split at uncalled
        · rename_i invalid
          dsimp only
          rw [if_pos invalid]
          rfl
        · cases uncalled

/-- **What `fopen` can do**: return zero and keep the state, or return the number of the first free slot, which then
has a new descriptor. -/
theorem fopen_cases {result : FileOpen} (isResult : fopen s memory allocated filename modeStr = some result) :
    (result.res = 0 ∧ result.state = s) ∨
      ∃ returned i disk, openReturns s memory filename modeStr = some returned ∧ iserr returned.encode = false ∧
        freeSlot s.fileDescriptors = some i ∧ allocated ≠ 0 ∧ result.res = i + 1 ∧
          result.state =
            { s with
              fileDescriptors := fun j => if j = i then allocated else s.fileDescriptors j
              descriptor := fun address =>
                if address = allocated then ⟨i + 1, returned.encode, disk⟩ else s.descriptor address } := by
  cases called : openReturns s memory filename modeStr with
  | none =>
      rw [fopen_uncalled called, Option.some.injEq] at isResult
      exact Or.inl ⟨isResult ▸ rfl, isResult ▸ rfl⟩
  | some returned =>
      obtain ⟨disk, equation⟩ := @fopen_called s memory allocated filename modeStr _ called
      rw [equation] at isResult
      cases isError : iserr returned.encode with
      | true =>
          rw [if_pos isError, Option.some.injEq, fopenOut, if_pos (errorI_neg_of_iserr isError)] at isResult
          exact Or.inl ⟨isResult ▸ rfl, isResult ▸ rfl⟩
      | false =>
          rw [if_neg (by rw [isError]; exact Bool.false_ne_true)] at isResult
          unfold fileNewDescriptor at isResult
          cases free : freeSlot s.fileDescriptors with
          | none =>
              simp only [free] at isResult
              rw [fopenOut, if_pos (by decide), Option.some.injEq] at isResult
              exact Or.inl ⟨isResult ▸ rfl, isResult ▸ rfl⟩
          | some i =>
              simp only [free] at isResult
              by_cases null : allocated = 0
              · rw [if_pos null] at isResult
                cases isResult
              · rw [if_neg null] at isResult
                simp only [if_true] at isResult
                rw [fopenOut, if_neg (by omega), Option.some.injEq] at isResult
                refine Or.inr ⟨returned, i, disk, rfl, isError, rfl, null, isResult ▸ rfl, ?_⟩
                rw [← isResult, FileSystemState.mk.injEq]
                refine ⟨rfl, rfl, rfl, ?_⟩
                funext address
                by_cases here : address = allocated
                · rw [if_pos here, if_pos here]
                · rw [if_neg here, if_neg here]
                  exact (if_neg here).symm

/-- `fopen` finds a free slot for what the callback has opened. -/
theorem fopen_opens {returned : ErrorReturn} (called : openReturns s memory filename modeStr = some returned)
    (isPointer : iserr returned.encode = false) (notNull : allocated ≠ 0) {i : Nat}
    (free : freeSlot s.fileDescriptors = some i) :
    ∃ result, fopen s memory allocated filename modeStr = some result ∧ result.res = i + 1 := by
  obtain ⟨disk, equation⟩ := @fopen_called s memory allocated filename modeStr _ called
  rw [equation, if_neg (by rw [isPointer]; exact Bool.false_ne_true)]
  unfold fileNewDescriptor
  simp only [free, if_neg notNull, if_true]
  refine ⟨_, rfl, ?_⟩
  rw [fopenOut, if_neg (by omega)]
  rfl

end Opening

/-! ### Runs -/

/-- A descriptor that `fopen` has returned, with the `file_descriptor` that it made and its address. -/
structure OpenFile where
  fd : Int
  address : Nat
  made : FileDescriptor

/-- The state of the files, and the descriptors that are returned and not closed. -/
structure FileRun where
  files : FileSystemState
  opened : List OpenFile

/-- A call. -/
inductive FileCall where
  | fopen (memory : Nat → Bool) (allocated : Nat) (filename modeStr : CString)
  | fread (ptr size nmemb : Nat) (fd : Int)
  | fseek (fd : Int)
  | fstat (fd : Int)
  | fclose (close : FileDescriptor → Int) (fd : Int)

namespace FileRun

/-- After `fs_init`. -/
def Initial (σ : FileRun) : Prop := (∀ i, σ.files.fileDescriptors i = 0) ∧ σ.opened = []

/-- **One call.** `kzalloc` returns no memory that a descriptor in the table has. -/
def step (σ : FileRun) (call : FileCall) (σ' : FileRun) : Prop :=
  match call with
  | .fopen memory allocated filename modeStr =>
      (allocated ≠ 0 → ∀ i, σ.files.fileDescriptors i ≠ allocated) ∧
        ∃ result, fopen σ.files memory allocated filename modeStr = some result ∧
          σ' = ⟨result.state,
            if result.res > 0 then σ.opened ++ [⟨result.res, allocated, result.state.descriptor allocated⟩]
            else σ.opened⟩
  | .fread _ _ _ _ | .fseek _ | .fstat _ => σ' = σ
  | .fclose close fd => σ' = ⟨(fclose σ.files close fd).2,
      if (fclose σ.files close fd).1 = 0 then σ.opened.filter fun file => file.fd ≠ fd else σ.opened⟩

/-- **Every operation on a descriptor reaches** the `file_descriptor` that was made for it. -/
structure Reaches (s : FileSystemState) (file : OpenFile) : Prop where
  stat : fstat s file.fd = .ok file.address
  seek : fseek s file.fd = .ok file.address
  read : ∀ ptr size nmemb, size ≠ 0 → nmemb ≠ 0 →
    fread s.fileDescriptors ptr size nmemb file.fd = .ok ⟨file.address, size, nmemb, ptr⟩
  close : ∀ close, (fclose s close file.fd).1 = close file.made
  made : s.descriptor file.address = file.made

/-- **The table is sound**: descriptors are distinct and positive and reach what was made for them; a slot without a
descriptor is free; and what the callback opens gets a descriptor while fewer than all are open. -/
structure Sound (σ : FileRun) : Prop where
  distinct : (σ.opened.map OpenFile.fd).Nodup
  positive : ∀ file ∈ σ.opened, 0 < file.fd
  reaches : ∀ file ∈ σ.opened, Reaches σ.files file
  free : ∀ i : Nat, i < peachosMaxFileDescriptors → (∀ file ∈ σ.opened, file.fd ≠ i + 1) →
    σ.files.fileDescriptors i = 0
  opens : ∀ memory allocated filename modeStr returned,
    openReturns σ.files memory filename modeStr = some returned → iserr returned.encode = false → allocated ≠ 0 →
      σ.opened.length < peachosMaxFileDescriptors →
        ∃ result, fopen σ.files memory allocated filename modeStr = some result ∧ 0 < result.res

/-- **The last slot is not the first free one** when the callback has opened a file. -/
def notLast (σ : FileRun) : FileCall → Prop
  | .fopen memory _ filename modeStr => ∀ returned, openReturns σ.files memory filename modeStr = some returned →
      iserr returned.encode = false → freeSlot σ.files.fileDescriptors ≠ some 511
  | _ => True

/-- What such runs keep: each open descriptor has its slot, and the last slot is free. -/
structure Kept (σ : FileRun) : Prop where
  distinct : (σ.opened.map OpenFile.fd).Nodup
  slot : ∀ file ∈ σ.opened, ∃ i : Nat, i < 511 ∧ file.fd = i + 1 ∧ file.address ≠ 0 ∧
    σ.files.fileDescriptors i = file.address ∧ σ.files.descriptor file.address = file.made ∧ file.made.index = i + 1
  free : ∀ i : Nat, (∀ file ∈ σ.opened, file.fd ≠ i + 1) → σ.files.fileDescriptors i = 0

variable {σ σ' : FileRun}

theorem freeSlot_spec {fileDescriptors : FileDescriptors} {i : Nat} (isFree : freeSlot fileDescriptors = some i) :
    i < 512 ∧ fileDescriptors i = 0 := by
  unfold freeSlot at isFree
  have inRange := List.mem_range.mp (List.mem_of_find?_eq_some isFree)
  have free := List.find?_some isFree
  exact ⟨inRange, of_decide_eq_true free⟩

/-- A slot that is used has an open descriptor. -/
theorem Kept.owner (kept : σ.Kept) {i : Nat} (used : σ.files.fileDescriptors i ≠ 0) :
    ∃ file ∈ σ.opened, file.fd = i + 1 := by
  by_contra none
  exact used (kept.free i fun file isOpen same => none ⟨file, isOpen, same⟩)

/-- The slot of a number. -/
theorem fileGetDescriptor_eq (fileDescriptors : FileDescriptors) {i : Nat} (usable : i < 511) :
    fileGetDescriptor fileDescriptors (i + 1) = fileDescriptors i := by
  unfold fileGetDescriptor peachosMaxFileDescriptors
  rw [if_neg (by omega), show ((i : Int) + 1 - 1).toNat = i by omega]

/-- **An `fopen`** that does not take the last slot. -/
theorem Kept.fopen (kept : σ.Kept) {memory : Nat → Bool} {allocated : Nat} {filename modeStr : CString}
    (ok : σ.notLast (.fopen memory allocated filename modeStr))
    (taken : σ.step (.fopen memory allocated filename modeStr) σ') : σ'.Kept := by
  obtain ⟨fresh, result, isResult, rfl⟩ := taken
  rcases fopen_cases isResult with ⟨none, same⟩ | ⟨returned, i, disk, called, isPointer, isFree, notNull, res, state⟩
  · rw [none, same, if_neg (lt_irrefl 0)]
    exact kept
  · have notLast := ok returned called isPointer
    obtain ⟨inTable, unused⟩ := freeSlot_spec isFree
    have usable : i < 511 := by
      refine lt_of_le_of_ne (Nat.le_of_lt_succ inTable) fun last => notLast ?_
      rw [isFree, last]
    have new : ∀ file ∈ σ.opened, file.fd ≠ i + 1 := by
      intro file isOpen same
      obtain ⟨j, _, number, isThere, slot, _⟩ := kept.slot file isOpen
      obtain rfl : j = i := by omega
      exact isThere (slot.symm.trans unused)
    rw [res, state, if_pos (by omega)]
    refine ⟨?_, ?_, ?_⟩
    · rw [List.map_append, List.nodup_append]
      refine ⟨kept.distinct, List.nodup_singleton _, fun number isOld number' isNew => ?_⟩
      obtain ⟨file, isOpen, rfl⟩ := List.mem_map.mp isOld
      rw [List.map_singleton, List.mem_singleton] at isNew
      rw [isNew]
      exact new file isOpen
    · intro file isOpen
      rcases List.mem_append.mp isOpen with isOpen | isNew
      · obtain ⟨j, inside, number, isThere, slot, made, index⟩ := kept.slot file isOpen
        have other : j ≠ i := fun same => new file isOpen (by rw [number, same])
        have elsewhere : file.address ≠ allocated := slot ▸ fresh notNull j
        refine ⟨j, inside, number, isThere, ?_, ?_, index⟩
        · exact (if_neg other).trans slot
        · exact (if_neg elsewhere).trans made
      · obtain rfl := List.mem_singleton.mp isNew
        exact ⟨i, usable, rfl, notNull, if_pos rfl, rfl, congrArg FileDescriptor.index (if_pos rfl)⟩
    · intro k none
      have other : k ≠ i := by
        rintro rfl
        exact none _ (List.mem_append_right _ (List.mem_singleton_self _)) rfl
      exact (if_neg other).trans (kept.free k fun file isOpen => none file (List.mem_append_left _ isOpen))

/-- **An `fclose`.** -/
theorem Kept.fclose (kept : σ.Kept) {close : FileDescriptor → Int} {fd : Int} (taken : σ.step (.fclose close fd) σ') :
    σ'.Kept := by
  obtain rfl := taken
  unfold PeachOS.fclose
  by_cases none : fileGetDescriptor σ.files.fileDescriptors fd = 0
  · simp only [if_pos none]
    rw [if_neg (show ¬ eio = 0 by decide)]
    exact kept
  · simp only [if_neg none]
    by_cases closed : close (σ.files.descriptor (fileGetDescriptor σ.files.fileDescriptors fd)) = 0
    · simp only [if_pos closed]
      obtain ⟨i, rfl⟩ : ∃ i : Nat, fd = i + 1 := by
        refine ⟨(fd - 1).toNat, ?_⟩
        by_contra wrong
        refine none ?_
        unfold fileGetDescriptor
        rw [if_pos (Or.inl (by omega))]
      have usable : i < 511 := by
        by_contra outside
        refine none ?_
        unfold fileGetDescriptor peachosMaxFileDescriptors
        rw [if_pos (Or.inr (by omega))]
      rw [fileGetDescriptor_eq _ usable] at none ⊢
      obtain ⟨file, isOpen, number⟩ := kept.owner none
      obtain ⟨j, _, number', _, slot, made, index⟩ := kept.slot file isOpen
      obtain rfl : j = i := by omega
      have freed : (σ.files.descriptor (σ.files.fileDescriptors j)).index - 1 = j := by
        rw [slot, made, index, Nat.add_sub_cancel]
      unfold fileFreeDescriptor
      rw [freed]
      refine ⟨kept.distinct.sublist (List.filter_sublist.map _), ?_, ?_⟩
      · intro other isOpen'
        obtain ⟨isOpen', different⟩ := List.mem_filter.mp isOpen'
        obtain ⟨k, inside, number'', isThere, slot', made', index'⟩ := kept.slot other isOpen'
        have elsewhere : k ≠ j := fun same => of_decide_eq_true different (by rw [number'', same])
        exact ⟨k, inside, number'', isThere, (if_neg elsewhere).trans slot', made', index'⟩
      · intro k none
        by_cases here : k = j
        · exact if_pos here
        · refine (if_neg here).trans (kept.free k fun file isOpen same => ?_)
          refine none file (List.mem_filter.mpr ⟨isOpen, decide_eq_true ?_⟩) same
          omega
    · simp only [if_neg closed]
      exact kept

/-- A table that is kept is sound. -/
theorem Kept.sound (kept : σ.Kept) : σ.Sound := by
  refine ⟨kept.distinct, ?_, ?_, ?_, ?_⟩
  · intro file isOpen
    obtain ⟨i, _, number, _⟩ := kept.slot file isOpen
    omega
  · intro file isOpen
    obtain ⟨i, usable, number, isThere, slot, made, _⟩ := kept.slot file isOpen
    have reached : fileGetDescriptor σ.files.fileDescriptors file.fd = file.address := by
      rw [number, fileGetDescriptor_eq _ usable, slot]
    refine ⟨?_, ?_, ?_, ?_, made⟩
    · rw [fstat, reached]
      exact if_neg isThere
    · rw [fseek, reached]
      exact if_neg isThere
    · intro ptr size nmemb someSize someItems
      rw [fread, if_neg (by omega), reached]
      exact if_neg isThere
    · intro close
      rw [PeachOS.fclose, reached]
      simp only [if_neg isThere, made]
      split <;> rfl
  · intro i _ none
    exact kept.free i none
  · intro memory allocated filename modeStr returned called isPointer notNull _
    have last : σ.files.fileDescriptors 511 = 0 := kept.free 511 fun file isOpen same => by
      obtain ⟨i, usable, number, _⟩ := kept.slot file isOpen
      omega
    cases isFree : freeSlot σ.files.fileDescriptors with
    | none =>
        have used := List.find?_eq_none.mp isFree 511 (List.mem_range.mpr (by decide))
        exact absurd (decide_eq_true last) used
    | some i =>
        obtain ⟨result, isResult, res⟩ := fopen_opens called isPointer notNull isFree
        exact ⟨result, isResult, by omega⟩

end FileRun

open FileRun

/-- **The table of descriptors is sound in every run** in which no `fopen` takes the last slot. -/
theorem fileTable_run (σ : FileRun) (reached : Reachable (Guarded notLast step) Initial σ) : σ.Sound := by
  have kept : σ.Kept := by
    refine reached.invariant Kept (fun σ begins => ?_) fun σ call σ' kept taken => ?_
    · obtain ⟨free, none⟩ := begins
      refine ⟨?_, ?_, fun i _ => free i⟩
      · rw [none]
        exact List.nodup_nil
      · rw [none]
        exact fun _ isOpen => absurd isOpen List.not_mem_nil
    · obtain ⟨ok, taken⟩ := taken
      cases call with
      | fopen memory allocated filename modeStr => exact kept.fopen ok taken
      | fclose close fd => exact kept.fclose taken
      | fread ptr size nmemb fd => exact taken ▸ kept
      | fseek fd => exact taken ▸ kept
      | fstat fd => exact taken ▸ kept
  exact kept.sound

/-! ### Filling the table -/

/-- The mode `r`. -/
def modeR : CString := ⟨[0x72#8], by decide⟩

/-- A filesystem that opens every path. -/
def openingFilesystem : Filesystem where
  openFunction := fun _ _ _ _ => .pointer 0x2000000

/-- The files when the first slots are taken. -/
def filledFiles (count : Nat) (descriptor : Nat → FileDescriptor) : FileSystemState :=
  { oneDisk openingFilesystem with
    fileDescriptors := fun i => if i < count then i + 1 else 0
    descriptor := descriptor }

theorem filledFiles_freeSlot {count : Nat} (inTable : count < 512) (descriptor : Nat → FileDescriptor) :
    freeSlot (filledFiles count descriptor).fileDescriptors = some count := by
  refine List.find?_range_eq_some.mpr ⟨?_, List.mem_range.mpr inTable, fun i before => ?_⟩
  · exact decide_eq_true (if_neg (lt_irrefl count))
  · rw [Bool.not_eq_true']
    refine decide_eq_false ?_
    change ¬ (if i < count then i + 1 else 0) = 0
    rw [if_pos before]
    exact Nat.succ_ne_zero i

/-- One more `fopen` takes the next slot. -/
theorem filledFiles_step {count : Nat} (inTable : count < 512) (descriptor : Nat → FileDescriptor)
    (opened : List OpenFile) :
    ∃ descriptor' made, step ⟨filledFiles count descriptor, opened⟩ (.fopen (fun _ => true) (count + 1) pathA modeR)
      ⟨filledFiles (count + 1) descriptor', opened ++ [⟨count + 1, count + 1, made⟩]⟩ := by
  have called : openReturns (filledFiles count descriptor) (fun _ => true) pathA modeR = some (.pointer 0x2000000) := rfl
  obtain ⟨result, isResult, res⟩ := fopen_opens called (by decide) (Nat.succ_ne_zero count)
    (filledFiles_freeSlot inTable descriptor)
  rcases fopen_cases isResult with ⟨none, _⟩ | ⟨_, i, disk, _, _, isFree, _, _, state⟩
  · omega
  · obtain rfl : count = i := Option.some.inj ((filledFiles_freeSlot inTable descriptor).symm.trans isFree)
    have table : (fun j => if j = count then count + 1 else (filledFiles count descriptor).fileDescriptors j) =
        fun j => if j < count + 1 then j + 1 else 0 := by
      funext j
      simp only [filledFiles]
      split_ifs <;> omega
    rw [table] at state
    have filled : result.state = filledFiles (count + 1) result.state.descriptor := by
      rw [state]
      rfl
    refine ⟨result.state.descriptor, result.state.descriptor (count + 1), fun _ i => ?_, result, isResult, ?_⟩
    · simp only [filledFiles]
      split_ifs <;> omega
    · rw [if_pos (by omega), res, ← filled]

/-- All slots but the last one can be taken. -/
theorem filledFiles_reached (count : Nat) (usable : count ≤ 511) :
    ∃ descriptor opened, opened.length = count ∧
      Reachable (Guarded notLast step) Initial ⟨filledFiles count descriptor, opened⟩ := by
  induction count with
  | zero => exact ⟨fun _ => ⟨0, 0, 0⟩, [], rfl, .start ⟨fun _ => rfl, rfl⟩⟩
  | succ count ih =>
      obtain ⟨descriptor, opened, length, reached⟩ := ih (Nat.le_of_succ_le usable)
      have inTable : count < 512 := by omega
      obtain ⟨descriptor', made, taken⟩ := filledFiles_step inTable descriptor opened
      have ok : FileRun.notLast ⟨filledFiles count descriptor, opened⟩
          (.fopen (fun _ => true) (count + 1) pathA modeR) := by
        intro _ _ _ last
        rw [filledFiles_freeSlot inTable, Option.some.injEq] at last
        omega
      refine ⟨descriptor', _, ?_, .next _ reached ⟨ok, taken⟩⟩
      rw [List.length_append, length, List.length_singleton]

/-- **511 files can be open**, and each is reached. -/
theorem fileTable_run_511 : ∃ σ : FileRun, σ.opened.length = 511 ∧ σ.Sound := by
  obtain ⟨descriptor, opened, length, reached⟩ := filledFiles_reached 511 le_rfl
  exact ⟨⟨filledFiles 511 descriptor, opened⟩, length, fileTable_run _ reached⟩

/-- **The last descriptor**, 512, is returned by `fopen` and refused by `file_get_descriptor`. -/
theorem fileTable_full : ¬ ∀ σ, Reachable step Initial σ → σ.Sound := by
  intro sound
  obtain ⟨descriptor, opened, _, reached⟩ := filledFiles_reached 511 le_rfl
  have inTable : 511 < 512 := by decide
  obtain ⟨descriptor', made, taken⟩ := filledFiles_step inTable descriptor opened
  have last := (sound _ (.next _ reached.of_guarded taken)).reaches ⟨512, 512, made⟩
    (List.mem_append_right _ (List.mem_singleton_self _))
  have refused : fstat (filledFiles 512 descriptor') 512 = .error eio := rfl
  cases refused.symm.trans last.stat

end PeachOS
