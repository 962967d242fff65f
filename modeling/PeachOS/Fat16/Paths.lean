/-
**Resolving a path.**

`fat16_get_directory_entry` finds the parts of a path one after the other, each in the directory of the one before. It
follows the item of a part when another part is left, also when there is none, and the directory of an item, also when
it was freed.

* `resolvePath` — what a path resolves to;
* `Passable` — the paths on which nothing that is missing or freed is followed;
* `pathResolved_iff` — when a path is resolved.
-/

import PeachOS.Fat16.Directory

namespace PeachOS

/-! ### What a path resolves to -/

/-- The items that the parts of a path resolve to, from the item of a part on. Nothing is resolved in a file, in an item
that is missing, and in a directory that could not be loaded. `none` is for a search that does not return. -/
def resolveParts (v : FatVolume) (memory : Nat → FatMemory) :
    (part : Nat) → (item : Option FatItem) → (nextParts : List CString) → Option (Option FatItem)
  | _, item, [] => some item
  | part, some (.directory (some directory)), nextPart :: nextParts =>
      (fat16FindItemInDirectory v (memory (part + 1)) directory nextPart).bind fun item =>
        resolveParts v memory (part + 1) item nextParts
  | _, _, _ :: _ => some none

/-- **What a path resolves to.** -/
def resolvePath (v : FatVolume) (memory : Nat → FatMemory) (path : CString) (nextParts : List CString) :
    Option (Option FatItem) :=
  (fat16FindItemInDirectory v (memory 0) v.rootDirectory path).bind fun item => resolveParts v memory 0 item nextParts

/-! ### What is followed -/

def FatObject.isItem : FatObject → Bool
  | .item _ => true
  | .directory _ => false

/-- **No null pointer is followed, and no object that was freed is followed or freed again.** Directories are objects
for it, or items only. -/
def SoundEvents (directories : Bool) : (freed : List FatObject) → List FatEvent → Prop
  | _, [] => True
  | _, .follow none :: _ => False
  | freed, .follow (some object) :: events => ((directories || object.isItem) = true → object ∉ freed) ∧
    SoundEvents directories freed events
  | freed, .free object :: events =>
      ((directories || object.isItem) = true → object ∉ freed) ∧ SoundEvents directories (object :: freed) events

/-- **A path is resolved**: what it resolves to is returned, and nothing that is missing or freed is followed. -/
def PathResolved (directories : Bool) (v : FatVolume) (memory : Nat → FatMemory) (path : CString) (nextParts : List CString) :
    Prop :=
  (∃ item, resolvePath v memory path nextParts = some item ∧ (fat16GetDirectoryEntry v memory path nextParts).2 = some item) ∧
    SoundEvents directories [] (fat16GetDirectoryEntry v memory path nextParts).1

/-- **The parts behind an item can be passed**: all searches return; each directory that has a part behind it was loaded
and, if directories are objects, not freed; and a part that is missing in a directory is the last one. -/
def Passable (directories : Bool) (v : FatVolume) (memory : Nat → FatMemory) (part : Nat) (item : Option FatItem)
    (nextParts : List CString) : Prop :=
  (∃ result, resolveParts v memory part item nextParts = some result) ∧ ∀ n < nextParts.length,
    (∀ directory, resolveParts v memory part item (nextParts.take n) = some (some (.directory directory)) →
      ∃ loaded, directory = some loaded ∧ (directories = true → loaded.freed = false)) ∧
    (0 < n → resolveParts v memory part item (nextParts.take n) = some none →
      ∀ directory, resolveParts v memory part item (nextParts.take (n - 1)) ≠ some (some (.directory directory)))

/-- The objects that are freed when the item of a part is the current one: its directory, if it was freed when it was
loaded, but neither the item nor anything of a later part. -/
structure Tracks (freed : List FatObject) (part : Nat) (item : Option FatItem) : Prop where
  kept : FatObject.item part ∉ freed
  loaded : FatObject.directory part ∈ freed ↔
    ∃ directory : FatDirectory, item = some (.directory (some directory)) ∧ directory.freed = true
  later : ∀ later, part < later → FatObject.item later ∉ freed ∧ FatObject.directory later ∉ freed

section Parts

variable {directories : Bool} {v : FatVolume} {memory : Nat → FatMemory} {part : Nat}

theorem resolveParts_cons (loaded : FatDirectory) (nextPart : CString) (nextParts : List CString) {item : Option FatItem}
    (found : fat16FindItemInDirectory v (memory (part + 1)) loaded nextPart = some item) :
    resolveParts v memory part (some (.directory (some loaded))) (nextPart :: nextParts) =
      resolveParts v memory (part + 1) item nextParts := by
  rw [resolveParts, found, Option.bind_some]

/-- What cannot be entered resolves nothing. -/
theorem resolveParts_blocked {item : Option FatItem} (blocked : ∀ directory, item ≠ some (.directory directory))
    (nextPart : CString) (nextParts : List CString) : resolveParts v memory part item (nextPart :: nextParts) = some none := by
  cases item with
  | none => rfl
  | some item =>
      cases item with
      | directory directory => exact absurd rfl (blocked directory)
      | file item => rfl

/-- Behind a file, and behind nothing, all parts can be passed. -/
theorem passable_blocked {item : Option FatItem} (blocked : ∀ directory, item ≠ some (.directory directory))
    (nextParts : List CString) : Passable directories v memory part item nextParts := by
  have noDirectory : ∀ names directory, resolveParts v memory part item names ≠ some (some (.directory directory)) := by
    intro names directory isDirectory
    cases names with
    | nil => exact blocked directory (Option.some.inj isDirectory)
    | cons name names =>
        rw [resolveParts_blocked blocked] at isDirectory
        cases isDirectory
  refine ⟨?_, fun n _ => ⟨fun directory isDirectory => absurd isDirectory (noDirectory _ _), fun _ _ => noDirectory _⟩⟩
  cases nextParts with
  | nil => exact ⟨_, rfl⟩
  | cons nextPart nextParts => exact ⟨_, resolveParts_blocked blocked nextPart nextParts⟩

/-- **One part further**, in a directory that was loaded. -/
theorem passable_cons (loaded : FatDirectory) (nextPart : CString) (nextParts : List CString) {item : Option FatItem}
    (found : fat16FindItemInDirectory v (memory (part + 1)) loaded nextPart = some item) :
    Passable directories v memory part (some (.directory (some loaded))) (nextPart :: nextParts) ↔
      (directories = true → loaded.freed = false) ∧ (nextParts = [] ∨ item ≠ none) ∧
        Passable directories v memory (part + 1) item nextParts := by
  unfold Passable
  rw [resolveParts_cons loaded nextPart nextParts found]
  constructor
  · rintro ⟨returns, passes⟩
    have here := (passes 0 (Nat.succ_pos _)).1 (some loaded) rfl
    obtain ⟨_, same, kept⟩ := here
    cases same
    refine ⟨kept, ?_, returns, fun n inside => ?_⟩
    · by_cases isLast : nextParts = []
      · exact Or.inl isLast
      · refine Or.inr fun missing => ?_
        have next := (passes 1 (Nat.succ_lt_succ (List.length_pos_iff.mpr isLast))).2 Nat.one_pos
        rw [List.take_succ_cons, List.take_zero, resolveParts_cons loaded nextPart [] found, missing] at next
        exact next rfl (some loaded) rfl
    · obtain ⟨enters, misses⟩ := passes (n + 1) (Nat.succ_lt_succ inside)
      rw [List.take_succ_cons, resolveParts_cons loaded nextPart _ found] at enters misses
      refine ⟨enters, fun later isMissing => ?_⟩
      obtain ⟨before, rfl⟩ : ∃ before, n = before + 1 := ⟨n - 1, by omega⟩
      have further := misses (Nat.succ_pos _) isMissing
      rw [Nat.add_sub_cancel, List.take_succ_cons, resolveParts_cons loaded nextPart _ found] at further
      exact further
  · rintro ⟨kept, continues, returns, passes⟩
    refine ⟨returns, fun n inside => ?_⟩
    cases n with
    | zero =>
        refine ⟨fun directory isDirectory => ⟨loaded, ?_, kept⟩, fun positive => absurd positive (Nat.lt_irrefl 0)⟩
        exact ((FatItem.directory.inj (Option.some.inj (Option.some.inj isDirectory)))).symm
    | succ n =>
        obtain ⟨enters, misses⟩ := passes n (Nat.lt_of_succ_lt_succ inside)
        rw [List.take_succ_cons, resolveParts_cons loaded nextPart _ found, Nat.add_sub_cancel]
        refine ⟨enters, fun _ isMissing => ?_⟩
        cases n with
        | zero =>
            have isLast : nextParts ≠ [] := List.length_pos_iff.mp (Nat.lt_of_succ_lt_succ inside)
            exact absurd (Option.some.inj isMissing) (continues.resolve_left isLast)
        | succ n =>
            rw [List.take_succ_cons, resolveParts_cons loaded nextPart _ found]
            exact misses (Nat.succ_pos _) isMissing

/-- **The item of a part is made**, of which no object was freed before. -/
theorem loadEvents_sound {freed : List FatObject} (item : Option FatItem)
    (fresh : ∀ later, part ≤ later → FatObject.item later ∉ freed ∧ FatObject.directory later ∉ freed) :
    ∃ freed', Tracks freed' part item ∧ (∀ object, object ∈ freed' → object ∈ freed ∨ object = .directory part) ∧
      (∀ object ∈ freed, object ∈ freed') ∧
      ∀ events, (SoundEvents directories freed (loadEvents part item ++ events) ↔ SoundEvents directories freed' events) := by
  by_cases isFreed : ∃ directory : FatDirectory, item = some (.directory (some directory)) ∧ directory.freed = true
  · obtain ⟨directory, rfl, isFreed⟩ := isFreed
    refine ⟨.directory part :: freed, ⟨?_, ?_, fun later after => ?_⟩, fun object isObject => ?_, fun object isObject => ?_,
      fun events => ?_⟩
    · exact List.not_mem_cons_of_ne_of_not_mem (by intro same; cases same) (fresh part le_rfl).1
    · exact ⟨fun _ => ⟨directory, rfl, isFreed⟩, fun _ => List.mem_cons_self⟩
    · obtain ⟨noItem, noDirectory⟩ := fresh later after.le
      refine ⟨List.not_mem_cons_of_ne_of_not_mem (by intro same; cases same) noItem,
        List.not_mem_cons_of_ne_of_not_mem (fun same => ?_) noDirectory⟩
      exact absurd (FatObject.directory.inj same) after.ne'
    · exact (List.mem_cons.mp isObject).symm
    · exact List.mem_cons_of_mem _ isObject
    · rw [loadEvents, if_pos isFreed]
      exact ⟨fun sound => sound.2, fun sound => ⟨fun _ => (fresh part le_rfl).2, sound⟩⟩
  · have noEvents : loadEvents part item = [] := by
      unfold loadEvents
      split
      · rename_i directory
        exact if_neg fun isTrue => isFreed ⟨directory, rfl, isTrue⟩
      · rfl
    refine ⟨freed, ⟨(fresh part le_rfl).1, ?_, fun later after => fresh later after.le⟩, fun _ => Or.inl, fun _ => id,
      fun events => ?_⟩
    · exact ⟨fun isObject => absurd isObject (fresh part le_rfl).2, fun isTrue => absurd isTrue isFreed⟩
    · rw [noEvents, List.nil_append]

/-- **The current item is freed**, with its directory. -/
theorem itemFree_sound {freed : List FatObject} (directory : FatDirectory) (kept : FatObject.item part ∉ freed)
    (notFreed : directories = true → FatObject.directory part ∉ freed) (events : List FatEvent) :
    SoundEvents directories freed (fat16FatItemFree part (.directory (some directory)) ++ events) ↔
      SoundEvents directories (.item part :: .directory part :: freed) events := by
  have stillKept : FatObject.item part ∉ FatObject.directory part :: freed :=
    List.not_mem_cons_of_ne_of_not_mem (by intro same; cases same) kept
  have tracked : (directories || (FatObject.directory part).isItem) = directories := Bool.or_false directories
  show (_ ∧ (_ ∧ (_ ∧ (_ ∧ _)))) ↔ _
  rw [tracked]
  exact ⟨fun sound => sound.2.2.2.2, fun sound => ⟨fun _ => kept, notFreed, notFreed, fun _ => stillKept, sound⟩⟩

/-- What was freed of a part does not matter for the later ones. -/
theorem freed_later {freed : List FatObject} {later : Nat} (after : part < later) :
    (FatObject.item later ∈ FatObject.item part :: FatObject.directory part :: freed ↔ FatObject.item later ∈ freed) ∧
      (FatObject.directory later ∈ FatObject.item part :: FatObject.directory part :: freed ↔
        FatObject.directory later ∈ freed) := by
  have differs : later ≠ part := after.ne'
  constructor
  · simp [differs]
  · simp [differs]

theorem Tracks.next {freed : List FatObject} {item : Option FatItem} (tracks : Tracks freed (part + 1) item) :
    Tracks (.item part :: .directory part :: freed) (part + 1) item := by
  obtain ⟨sameItem, sameDirectory⟩ := @freed_later part freed (part + 1) (Nat.lt_succ_self part)
  refine ⟨?_, ?_, fun later after => ?_⟩
  · rw [sameItem]
    exact tracks.kept
  · rw [sameDirectory]
    exact tracks.loaded
  · obtain ⟨sameItem, sameDirectory⟩ := @freed_later part freed later (Nat.lt_of_succ_lt after)
    rw [sameItem, sameDirectory]
    exact tracks.later later after

/-- **One turn of the loop**, in a directory that was loaded. -/
theorem directoryEntryLoop_turn {freed : List FatObject} {loaded : FatDirectory} {tmpItem : Option FatItem}
    (tracks : Tracks freed part (some (.directory (some loaded)))) {nextPart : CString}
    (found : fat16FindItemInDirectory v (memory (part + 1)) loaded nextPart = some tmpItem) (nextParts : List CString) :
    ∃ freed', Tracks freed' (part + 1) tmpItem ∧
      (fat16GetDirectoryEntryLoop v memory part (some (.directory (some loaded))) (nextPart :: nextParts)).2 =
        (fat16GetDirectoryEntryLoop v memory (part + 1) tmpItem nextParts).2 ∧
      (SoundEvents directories freed
          (fat16GetDirectoryEntryLoop v memory part (some (.directory (some loaded))) (nextPart :: nextParts)).1 ↔
        (directories = true → loaded.freed = false) ∧
          SoundEvents directories freed' (fat16GetDirectoryEntryLoop v memory (part + 1) tmpItem nextParts).1) := by
  obtain ⟨freed', tracks', fewer, _, isSound⟩ := @loadEvents_sound directories (part + 1) freed tmpItem tracks.later
  have isFreed : FatObject.directory part ∈ freed ↔ loaded.freed = true := by
    rw [tracks.loaded]
    constructor
    · rintro ⟨directory, same, isTrue⟩
      cases same
      exact isTrue
    · exact fun isTrue => ⟨loaded, rfl, isTrue⟩
  have kept' : FatObject.item part ∉ freed' := by
    intro isObject
    rcases fewer _ isObject with before | same
    · exact tracks.kept before
    · cases same
  have tracked : (directories || (FatObject.directory part).isItem) = directories := Bool.or_false directories
  rw [fat16GetDirectoryEntryLoop, found]
  refine ⟨_, tracks'.next, rfl, ?_⟩
  show (_ ∧ (_ ∧ SoundEvents directories freed (_ ++ _ ++ _))) ↔ _
  rw [tracked, List.append_assoc, isSound]
  have notFreed : (directories = true → loaded.freed = false) ↔ (directories = true → FatObject.directory part ∉ freed) := by
    rw [isFreed, Bool.not_eq_true]
  constructor
  · rintro ⟨_, notFreedYet, sound⟩
    refine ⟨notFreed.mpr notFreedYet, (itemFree_sound loaded kept' (fun isTrue isObject => ?_) _).mp sound⟩
    rcases fewer _ isObject with before | same
    · exact notFreedYet isTrue before
    · exact absurd (FatObject.directory.inj same) (Nat.lt_succ_self part).ne
  · rintro ⟨notFreedYet, sound⟩
    refine ⟨fun _ => tracks.kept, notFreed.mp notFreedYet,
      (itemFree_sound loaded kept' (fun isTrue isObject => ?_) _).mpr sound⟩
    rcases fewer _ isObject with before | same
    · exact notFreed.mp notFreedYet isTrue before
    · exact absurd (FatObject.directory.inj same) (Nat.lt_succ_self part).ne

/-- **The loop**, from the item of a part on. -/
theorem directoryEntryLoop_iff (nextParts : List CString) : ∀ {part : Nat} {item : Option FatItem} {freed : List FatObject},
    Tracks freed part item → nextParts = [] ∨ item ≠ none →
    (((∃ result, resolveParts v memory part item nextParts = some result ∧
        (fat16GetDirectoryEntryLoop v memory part item nextParts).2 = some result) ∧
      SoundEvents directories freed (fat16GetDirectoryEntryLoop v memory part item nextParts).1) ↔
      Passable directories v memory part item nextParts) := by
  induction nextParts with
  | nil =>
      intro part item freed _ _
      exact ⟨fun _ => ⟨⟨item, rfl⟩, fun n inside => absurd inside (Nat.not_lt_zero n)⟩,
        fun _ => ⟨⟨item, rfl, rfl⟩, trivial⟩⟩
  | cons nextPart nextParts hyp =>
      intro part item freed tracks continues
      cases item with
      | none => exact absurd rfl (continues.resolve_left (List.cons_ne_nil _ _))
      | some item =>
          cases item with
          | file item =>
              refine ⟨fun _ => passable_blocked (fun _ isDirectory => by cases isDirectory) _, fun _ => ⟨⟨none, rfl, rfl⟩, ?_⟩⟩
              exact ⟨fun _ => tracks.kept, trivial⟩
          | directory directory =>
              cases directory with
              | none =>
                  -- the null directory is followed
                  constructor
                  · rintro ⟨_, _, impossible⟩
                    exact impossible.elim
                  · rintro ⟨_, passes⟩
                    obtain ⟨loaded, isLoaded, _⟩ := (passes 0 (Nat.succ_pos _)).1 none rfl
                    cases isLoaded
              | some loaded =>
                  cases found : fat16FindItemInDirectory v (memory (part + 1)) loaded nextPart with
                  | none =>
                      have noResult : resolveParts v memory part (some (.directory (some loaded))) (nextPart :: nextParts) =
                          none := by
                        rw [resolveParts, found, Option.bind_none]
                      constructor
                      · rintro ⟨⟨_, isResult, _⟩, _⟩
                        rw [noResult] at isResult
                        cases isResult
                      · rintro ⟨⟨_, isResult⟩, _⟩
                        rw [noResult] at isResult
                        cases isResult
                  | some tmpItem =>
                      obtain ⟨freed', tracks', sameResult, isSound⟩ :=
                        @directoryEntryLoop_turn directories v memory part freed loaded tmpItem tracks nextPart found nextParts
                      rw [passable_cons loaded nextPart nextParts found, resolveParts_cons loaded nextPart nextParts found,
                        sameResult, isSound]
                      by_cases continues' : nextParts = [] ∨ tmpItem ≠ none
                      · rw [← hyp tracks' continues']
                        tauto
                      · -- the part is missing, and is not the last one
                        obtain ⟨notLast, missing⟩ := not_or.mp continues'
                        obtain rfl := not_ne_iff.mp missing
                        obtain ⟨next, others, rfl⟩ := List.exists_cons_of_ne_nil notLast
                        constructor
                        · rintro ⟨_, _, impossible⟩
                          exact impossible.elim
                        · exact fun passes => absurd passes.2.1 continues'

end Parts

/-- **Resolving a path**, for every volume and path, whether directories count as objects or not. -/
theorem pathResolved_iff (directories : Bool) (v : FatVolume) (memory : Nat → FatMemory) (path : CString)
    (nextParts : List CString) :
    PathResolved directories v memory path nextParts ↔
      ∃ rootItem, fat16FindItemInDirectory v (memory 0) v.rootDirectory path = some rootItem ∧
        Passable directories v memory 0 rootItem nextParts := by
  unfold PathResolved resolvePath fat16GetDirectoryEntry
  cases found : fat16FindItemInDirectory v (memory 0) v.rootDirectory path with
  | none =>
      constructor
      · rintro ⟨⟨_, isResult, _⟩, _⟩
        cases isResult
      · rintro ⟨_, isFound, _⟩
        cases isFound
  | some rootItem =>
      cases rootItem with
      | none =>
          have blocked : ∀ directory, (none : Option FatItem) ≠ some (.directory directory) := fun _ same => by cases same
          have resolves : resolveParts v memory 0 none nextParts = some none := by
            cases nextParts with
            | nil => rfl
            | cons nextPart nextParts => exact resolveParts_blocked blocked nextPart nextParts
          exact ⟨fun _ => ⟨none, rfl, passable_blocked blocked nextParts⟩, fun _ => ⟨⟨none, resolves, rfl⟩, trivial⟩⟩
      | some rootItem =>
          obtain ⟨freed, tracks, _, _, isSound⟩ := @loadEvents_sound directories 0 [] (some rootItem)
            fun _ _ => ⟨List.not_mem_nil, List.not_mem_nil⟩
          have loop := @directoryEntryLoop_iff directories v memory nextParts 0 (some rootItem) freed tracks
            (Or.inr (Option.some_ne_none rootItem))
          dsimp only
          rw [isSound, Option.bind_some, loop]
          exact ⟨fun passes => ⟨some rootItem, rfl, passes⟩, fun ⟨_, isFound, passes⟩ => Option.some.inj isFound ▸ passes⟩

/-! ### A part that is missing in the middle -/

/-- A disk with one directory `D` in its root directory, which is empty. -/
def emptyDirectory (pos : Int) : Byte :=
  if pos = 1024 then 0x44#8
  else if 1025 ≤ pos ∧ pos < 1035 then 0x20#8
  else if pos = 1035 then fatFileSubdirectory
  else if pos = 1050 then 0x02#8
  else 0x00#8

/-- Its volume, with the root directory as it is loaded. -/
def emptyDirectoryVolume : FatVolume :=
  { plainVolume emptyDirectory with
    rootDirectory := ⟨some (itemAt (rootBytes (plainVolume emptyDirectory) emptyDirectory)), 1, 2, 33, false⟩ }

/-- **The item of a missing part is followed**: of the path `d/a/a`, the first `a` is missing in `d`. -/
theorem missingPart_followed :
    ¬ (∀ directories v memory path nextParts, PathResolved directories v memory path nextParts) ∧
      (fat16GetDirectoryEntry emptyDirectoryVolume (fun _ => plenty) ⟨[0x64#8], by decide⟩ [nameA, nameA]).1 =
        [.follow (some (.item 0)), .follow (some (.directory 0)), .follow (some (.item 0)), .follow (some (.directory 0)),
          .free (.directory 0), .free (.item 0), .follow none] := by
  have events : (fat16GetDirectoryEntry emptyDirectoryVolume (fun _ => plenty) ⟨[0x64#8], by decide⟩ [nameA, nameA]).1 =
      [.follow (some (.item 0)), .follow (some (.directory 0)), .follow (some (.item 0)), .follow (some (.directory 0)),
        .free (.directory 0), .free (.item 0), .follow none] := by
    decide +kernel
  refine ⟨fun all => ?_, events⟩
  have sound := (all false emptyDirectoryVolume (fun _ => plenty) ⟨[0x64#8], by decide⟩ [nameA, nameA]).2
  rw [events] at sound
  exact sound.2.2.2.2.2.2

end PeachOS
