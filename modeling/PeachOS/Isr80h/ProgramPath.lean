/-
**The path of a program: commands 6 and 7.**

Both commands build a path in a buffer of `PEACHOS_MAX_PATH` bytes on the stack: the prefix of a drive, then the name of the
program. Command 6 has copied the name to a buffer of the same size before and takes it from there with `strcpy`. Command 7
takes it from the first argument of the task with `strncpy`, which may write as many bytes as the whole buffer has, from its
fourth byte on.

* `storeLoop_spec` — what the loop of `strcpy` and `strncpy` stores, as long as it does not write to what it reads;
* `stored_iff` — both leave the prefix and the name within the buffer exactly when the name fits behind the prefix;
* `programPath_iff` — **each command builds the path of the name within the buffer exactly when the name has at most 104
  bytes**, or the command fails before.
-/

import PeachOS.Fat16.Model
import PeachOS.Task.CopiedString

namespace PeachOS

open ByteStore
open SpanTable (Span)

/-! ### The code -/

/-- Memory, with the addresses that were written to. -/
structure StoreLog where
  mem : Memory
  written : List Nat

/-- Writing a byte. -/
def StoreLog.store (σ : StoreLog) (a : Nat) (value : Byte) : StoreLog where
  mem := put σ.mem a value
  written := a :: σ.written

/-- The loop of `strcpy` and `strncpy` from index `i` on, with the index it ends at. -/
def storeLoop (source : Memory → Nat → Byte) (dest : Nat) : (fuel i : Nat) → StoreLog → Nat × StoreLog
  | 0, i, σ => (i, σ)
  | fuel + 1, i, σ =>
      if source σ.mem i = 0x00#8 then (i, σ)
      else storeLoop source dest fuel (i + 1) (σ.store (toWord (dest + i : Nat)) (source σ.mem i))

/-- The bytes of a string in memory. -/
def bytesAt (src : Nat) (mem : Memory) (i : Nat) : Byte := mem (toWord (src + i : Nat))

/-- The bytes of a string literal. -/
def literal (string : List Byte) (_ : Memory) (i : Nat) : Byte := string.getD i 0x00#8

/-- `strcpy`; `none` where it never finds the end of its string. -/
def strcpy (source : Memory → Nat → Byte) (dest : Nat) (σ : StoreLog) : Option StoreLog :=
  let ended := storeLoop source dest (2 ^ 64) 0 σ
  if source ended.2.mem ended.1 = 0x00#8 then some (ended.2.store (toWord (dest + ended.1 : Nat)) 0x00#8) else none

/-- `strncpy`, with the addresses it writes to. -/
def strncpyStores (source : Memory → Nat → Byte) (dest : Nat) (count : Int) (σ : StoreLog) : StoreLog :=
  let ended := storeLoop source dest (count - 1).toNat 0 σ
  ended.2.store (toWord (dest + ended.1 : Nat)) 0x00#8

/-- What a command has when it is done with the path: an error, or memory with the path. -/
inductive ProgramPath where
  | failed (res : Int)
  | built (σ : StoreLog)

/-- `"0:/"`. -/
def driveZero : List Byte := [0x30#8, 0x3A#8, 0x2F#8]

/-- `"@:/"`. -/
def driveSystem : List Byte := [0x40#8, 0x3A#8, 0x2F#8]

/-- `isr80h_command6_process_load_start` up to `process_load_switch`; `none` where it does not get there. -/
def isr80hCommand6ProcessLoadStart (width : Nat) (k : Kernel) (kernelDesc taskDesc : PagingDesc)
    (filenameUserPtr filename path : Nat) : Option ProgramPath :=
  match copyStringFromTask width k kernelDesc taskDesc filenameUserPtr filename peachosMaxPath with
  | none => none
  | some (res, k') =>
      if res < 0 then some (.failed res)
      else
        ((strcpy (literal driveZero) path ⟨k'.mem, []⟩).bind fun σ => strcpy (bytesAt filename) (path + 3) σ).map .built

/-- `isr80h_command7_invoke_system_command` up to `process_load_switch`. -/
def isr80hCommand7InvokeSystemCommand (mem : Memory) (taskDesc : PagingDesc) (argumentsUserPtr path : Nat) :
    Option ProgramPath :=
  let arguments := pagingGetPhysicalAddress mem taskDesc argumentsUserPtr
  if arguments = 0 ∨ mem arguments = 0x00#8 then some (.failed einvarg)
  else (strcpy (literal driveSystem) path ⟨mem, []⟩).map fun σ =>
    .built (strncpyStores (bytesAt arguments) (path + 3) peachosMaxPath σ)

/-- **The path of a name was built within the buffer**, or the command has failed. -/
def PathBuilt (path : Nat) (drive name : List Byte) : ProgramPath → Prop
  | .failed _ => True
  | .built σ => (∀ a ∈ σ.written, a ∈ Set.Ico path (path + peachosMaxPath)) ∧ StringAt σ.mem path (drive ++ name)

/-! ### The loop -/

section Loop

variable {source : Memory → Nat → Byte} {mem : Memory} {dest n : Nat}

/-- `strncpy` leaves the same memory. -/
theorem strncpy_stores (src : Nat) (count : Int) (σ : StoreLog) :
    strncpy (fun _ va => some va) σ.mem dest src count = some (strncpyStores (bytesAt src) dest count σ).mem := by
  have loop (fuel : Nat) : ∀ (i : Nat) (σ : StoreLog), strncpyLoop (fun _ va => some va) dest src fuel i σ.mem =
      some ((storeLoop (bytesAt src) dest fuel i σ).1, (storeLoop (bytesAt src) dest fuel i σ).2.mem) := by
    induction fuel with
    | zero => exact fun _ _ => rfl
    | succ fuel ih =>
        intro i σ
        rw [strncpyLoop, storeLoop]
        dsimp only
        by_cases ended : bytesAt src σ.mem i = 0x00#8
        · rw [if_pos (show σ.mem (toWord (src + i : Nat)) = 0x00#8 from ended), if_pos ended]
        · rw [if_neg (show ¬ σ.mem (toWord (src + i : Nat)) = 0x00#8 from ended), if_neg ended]
          exact ih (i + 1) (σ.store (toWord (dest + i : Nat)) (σ.mem (toWord (src + i : Nat))))
  unfold strncpy
  rw [loop]
  rfl

/-- **What the loop writes to**: the bytes from the destination up to the index it ends at. -/
theorem storeLoop_written (fuel : Nat) : ∀ (i : Nat) (σ : StoreLog), i ≤ (storeLoop source dest fuel i σ).1 ∧
    (storeLoop source dest fuel i σ).1 ≤ i + fuel ∧ ∀ a, a ∈ (storeLoop source dest fuel i σ).2.written ↔
      a ∈ σ.written ∨ ∃ j, i ≤ j ∧ j < (storeLoop source dest fuel i σ).1 ∧ a = toWord (dest + j : Nat) := by
  induction fuel with
  | zero =>
      refine fun i σ => ⟨le_rfl, le_rfl, fun a => ⟨Or.inl, ?_⟩⟩
      rintro (before | ⟨j, low, high, -⟩)
      · exact before
      · exact absurd high (not_lt.mpr low)
  | succ fuel ih =>
      intro i σ
      rw [storeLoop]
      by_cases ended : source σ.mem i = 0x00#8
      · rw [if_pos ended]
        refine ⟨le_rfl, Nat.le_add_right _ _, fun a => ⟨Or.inl, ?_⟩⟩
        rintro (before | ⟨j, low, high, -⟩)
        · exact before
        · exact absurd high (not_lt.mpr low)
      · rw [if_neg ended]
        obtain ⟨above, below, written⟩ := ih (i + 1) (σ.store (toWord (dest + i : Nat)) (source σ.mem i))
        refine ⟨by omega, by omega, fun a => (written a).trans ⟨?_, ?_⟩⟩
        · rintro (before | ⟨j, low, high, here⟩)
          · rcases List.mem_cons.mp before with here | before
            · exact Or.inr ⟨i, le_rfl, above, here⟩
            · exact Or.inl before
          · exact Or.inr ⟨j, by omega, high, here⟩
        · rintro (before | ⟨j, low, high, here⟩)
          · exact Or.inl (List.mem_cons_of_mem _ before)
          · rcases Nat.eq_or_lt_of_le low with rfl | later
            · exact Or.inl (here ▸ List.mem_cons_self)
            · exact Or.inr ⟨j, later, high, here⟩

/-- **What the loop stores** while it does not write to what it has not read: it goes on over bytes that are not zero, and when
it ends among the first `n` of them it has stored them all, and was ended by a zero or by its count. -/
theorem storeLoop_spec (fits : dest + n ≤ 2 ^ 64)
    (behind : ∀ i < n, ∀ mem', SameOutside (Set.Ico dest (dest + i)) mem mem' → source mem' i = source mem i)
    (fuel : Nat) : ∀ (i : Nat) (σ : StoreLog), i ≤ n → SameOutside (Set.Ico dest (dest + i)) mem σ.mem →
      (∀ j < i, source mem j ≠ 0x00#8 ∧ σ.mem (dest + j) = source mem j) →
      (∀ j < (storeLoop source dest fuel i σ).1, j < n → source mem j ≠ 0x00#8) ∧
        ((storeLoop source dest fuel i σ).1 < n →
          (source mem (storeLoop source dest fuel i σ).1 = 0x00#8 ∨ (storeLoop source dest fuel i σ).1 = i + fuel) ∧
          SameOutside (Set.Ico dest (dest + (storeLoop source dest fuel i σ).1)) mem (storeLoop source dest fuel i σ).2.mem ∧
          ∀ j < (storeLoop source dest fuel i σ).1,
            (storeLoop source dest fuel i σ).2.mem (dest + j) = source mem j) := by
  induction fuel with
  | zero =>
      intro i σ inside same stored
      exact ⟨fun j before _ => (stored j before).1, fun _ => ⟨Or.inr rfl, same, fun j before => (stored j before).2⟩⟩
  | succ fuel ih =>
      intro i σ inside same stored
      rcases Nat.eq_or_lt_of_le inside with rfl | inside
      · have above := (@storeLoop_written source dest (fuel + 1) i σ).1
        exact ⟨fun j _ below => (stored j below).1, fun below => absurd below (not_lt.mpr above)⟩
      rw [storeLoop]
      have byte := behind i inside σ.mem same
      by_cases ended : source σ.mem i = 0x00#8
      · rw [if_pos ended]
        exact ⟨fun j before _ => (stored j before).1, fun _ =>
          ⟨Or.inl (byte ▸ ended), same, fun j before => (stored j before).2⟩⟩
      · rw [if_neg ended, show i + (fuel + 1) = i + 1 + fuel by omega]
        have target : toWord (dest + i : Nat) = dest + i := toWord_natCast (by omega)
        have more : Set.Ico dest (dest + i) ⊆ Set.Ico dest (dest + (i + 1)) := Set.Ico_subset_Ico_right (by omega)
        refine ih (i + 1) _ inside ?_ fun j before => ?_
        · rw [target]
          exact (same.mono more).put ⟨Nat.le_add_right _ _, by omega⟩ _
        · rw [target]
          rcases Nat.lt_succ_iff_lt_or_eq.mp before with earlier | rfl
          · refine ⟨(stored j earlier).1, ?_⟩
            exact (put_other σ.mem (by omega) _).trans (stored j earlier).2
          · exact ⟨byte ▸ ended, (put_same _ _ _).trans byte⟩

/-- The loop from its start. -/
theorem storeLoop_start (fits : dest + n ≤ 2 ^ 64) {σ : StoreLog}
    (behind : ∀ i < n, ∀ mem', SameOutside (Set.Ico dest (dest + i)) σ.mem mem' → source mem' i = source σ.mem i) (fuel : Nat) :
    (∀ j < (storeLoop source dest fuel 0 σ).1, j < n → source σ.mem j ≠ 0x00#8) ∧
      ((storeLoop source dest fuel 0 σ).1 < n →
        (source σ.mem (storeLoop source dest fuel 0 σ).1 = 0x00#8 ∨ (storeLoop source dest fuel 0 σ).1 = fuel) ∧
        SameOutside (Set.Ico dest (dest + (storeLoop source dest fuel 0 σ).1)) σ.mem (storeLoop source dest fuel 0 σ).2.mem ∧
        ∀ j < (storeLoop source dest fuel 0 σ).1,
          (storeLoop source dest fuel 0 σ).2.mem (dest + j) = source σ.mem j) := by
  have spec := storeLoop_spec fits behind fuel 0 σ (Nat.zero_le _) (fun _ _ => rfl) fun j before =>
    absurd before (Nat.not_lt_zero j)
  rwa [Nat.zero_add] at spec

end Loop

/-! ### Strings -/

/-- There is one string at an address. -/
theorem StringAt.unique {mem : Memory} {a : Nat} {string string' : List Byte} (isString : StringAt mem a string)
    (isString' : StringAt mem a string') : string = string' := by
  have shorter {first second : List Byte} (one : StringAt mem a first) (two : StringAt mem a second) :
      first.length ≤ second.length := by
    by_contra longer
    have ended := (one.bytes second.length (by omega)).symm.trans (two.bytes second.length le_rfl)
    rw [(getD_eq_zero_iff two.nonzero le_rfl).mpr rfl, getD_eq_zero_iff one.nonzero (by omega)] at ended
    omega
  have length : string.length = string'.length := le_antisymm (shorter isString isString') (shorter isString' isString)
  refine List.ext_getElem length fun i inside inside' => ?_
  have byte := (isString.bytes i inside.le).symm.trans (isString'.bytes i inside'.le)
  rwa [List.getD_eq_getElem _ _ inside, List.getD_eq_getElem _ _ inside'] at byte

/-- The bytes that a source has before index `e`. -/
def stringBefore (source : Nat → Byte) (e : Nat) : List Byte := (List.range e).map source

theorem length_stringBefore (source : Nat → Byte) (e : Nat) : (stringBefore source e).length = e := by
  unfold stringBefore
  rw [List.length_map, List.length_range]

theorem getD_stringBefore {source : Nat → Byte} {e i : Nat} (inside : i < e) :
    (stringBefore source e).getD i 0x00#8 = source i := by
  rw [List.getD_eq_getElem _ _ (by rwa [length_stringBefore])]
  unfold stringBefore
  rw [List.getElem_map, List.getElem_range]

theorem stringBefore_nonzero {source : Nat → Byte} {e : Nat} (nonzero : ∀ j < e, source j ≠ 0x00#8) :
    0x00#8 ∉ stringBefore source e := by
  intro isIn
  obtain ⟨j, before, zero⟩ := List.mem_map.mp isIn
  exact nonzero j (List.mem_range.mp before) zero

/-- **The string up to the first zero.** -/
theorem stringAt_before {mem : Memory} {a e : Nat} (nonzero : ∀ j < e, bytesAt a mem j ≠ 0x00#8)
    (ended : bytesAt a mem e = 0x00#8) : StringAt mem a (stringBefore (bytesAt a mem) e) := by
  refine ⟨fun i inside => ?_, stringBefore_nonzero nonzero⟩
  rw [length_stringBefore] at inside
  rcases Nat.lt_or_eq_of_le inside with before | rfl
  · have byte := @getD_stringBefore (bytesAt a mem) e i before
    exact byte.symm
  · rw [List.getD_eq_default _ _ (length_stringBefore _ _).le]
    exact ended

/-! ### The prefix -/

section Path

variable {mem : Memory} {path src limit : Nat} {drive name : List Byte} {σ : StoreLog}

/-- **The prefix of a drive**, which is all that was written. -/
structure Prefixed (mem : Memory) (path : Nat) (drive : List Byte) (σ : StoreLog) : Prop where
  three : drive.length = 3
  nonzero : 0x00#8 ∉ drive
  fits : path + 3 + peachosMaxPath ≤ 2 ^ 64
  inside : ∀ a ∈ σ.written, a ∈ Set.Ico path (path + peachosMaxPath)
  same : SameOutside (Set.Ico path (path + peachosMaxPath)) mem σ.mem
  bytes : ∀ i < 3, σ.mem (path + i) = drive.getD i 0x00#8

/-- **`strcpy` of the prefix.** -/
theorem strcpy_drive (three : drive.length = 3) (nonzero : 0x00#8 ∉ drive) (fits : path + 3 + peachosMaxPath ≤ 2 ^ 64)
    (mem : Memory) : ∃ σ, strcpy (literal drive) path ⟨mem, []⟩ = some σ ∧ Prefixed mem path drive σ := by
  unfold peachosMaxPath at fits
  obtain ⟨above, below, written⟩ := @storeLoop_written (literal drive) path (2 ^ 64) 0 ⟨mem, []⟩
  obtain ⟨copied, stored⟩ := @storeLoop_start (literal drive) path 4 (by omega) ⟨mem, []⟩ (fun _ _ _ _ => rfl) (2 ^ 64)
  unfold strcpy
  dsimp only
  generalize storeLoop (literal drive) path (2 ^ 64) 0 ⟨mem, []⟩ = ended at *
  have atEnd : literal drive mem 3 = 0x00#8 := (getD_eq_zero_iff nonzero three.ge).mpr three.symm
  have upTo : ended.1 < 4 := by
    by_contra longer
    exact copied 3 (by omega) (by omega) atEnd
  obtain ⟨stops, same, bytes⟩ := stored upTo
  have last : ended.1 = 3 := by
    rcases stops with zero | all
    · exact ((getD_eq_zero_iff nonzero (by omega)).mp zero).trans three
    · omega
  rw [last] at same bytes written ⊢
  have target : toWord (path + 3 : Nat) = path + 3 := toWord_natCast (by omega)
  rw [if_pos (show literal drive ended.2.mem 3 = 0x00#8 from atEnd), target]
  refine ⟨_, rfl, three, nonzero, fits, fun a isIn => ?_, ?_, fun i inside => ?_⟩
  · unfold peachosMaxPath
    rcases List.mem_cons.mp isIn with rfl | before
    · exact ⟨Nat.le_add_right _ _, by omega⟩
    · rcases (written a).mp before with none | ⟨j, -, high, rfl⟩
      · cases none
      · rw [toWord_natCast (by omega)]
        exact ⟨Nat.le_add_right _ _, by omega⟩
  · unfold peachosMaxPath
    exact (same.mono (Set.Ico_subset_Ico_right (by omega))).put ⟨Nat.le_add_right _ _, by omega⟩ _
  · exact (put_other ended.2.mem (by omega) _).trans (bytes i inside)

/-! ### The name behind the prefix -/

/-- The bytes of the name are read before anything is written to them, as long as the path is in its buffer. -/
theorem read_behind (apart : ∀ i < 105, toWord (src + i : Nat) ∉ Set.Ico path (path + peachosMaxPath)) :
    ∀ i < 105, ∀ mem', SameOutside (Set.Ico (path + 3) (path + 3 + i)) σ.mem mem' →
      bytesAt src mem' i = bytesAt src σ.mem i := by
  intro i inside mem' same
  refine same _ fun written => apart i inside ⟨?_, ?_⟩
  · have := written.1
    omega
  · have := written.2
    unfold peachosMaxPath
    omega

/-- **A loop that ends within the buffer leaves the path** of the string it has copied. -/
theorem Prefixed.stored (prefixed : Prefixed mem path drive σ)
    (apart : ∀ i < 105, toWord (src + i : Nat) ∉ Set.Ico path (path + peachosMaxPath)) (room : 105 ≤ limit)
    (short : (storeLoop (bytesAt src) (path + 3) limit 0 σ).1 < 105) :
    StringAt mem src (stringBefore (bytesAt src mem) (storeLoop (bytesAt src) (path + 3) limit 0 σ).1) ∧
      PathBuilt path drive (stringBefore (bytesAt src mem) (storeLoop (bytesAt src) (path + 3) limit 0 σ).1)
        (.built ((storeLoop (bytesAt src) (path + 3) limit 0 σ).2.store
          (toWord (path + 3 + (storeLoop (bytesAt src) (path + 3) limit 0 σ).1 : Nat)) 0x00#8)) := by
  have fits := prefixed.fits
  unfold peachosMaxPath at fits
  obtain ⟨above, below, written⟩ := @storeLoop_written (bytesAt src) (path + 3) limit 0 σ
  obtain ⟨copied, spec⟩ := @storeLoop_start (bytesAt src) (path + 3) 105 (by omega) σ (read_behind apart) limit
  generalize storeLoop (bytesAt src) (path + 3) limit 0 σ = ended at *
  obtain ⟨stops, same, bytes⟩ := spec short
  have source (i : Nat) (inside : i < 105) : bytesAt src σ.mem i = bytesAt src mem i := prefixed.same _ (apart i inside)
  have nonzero : ∀ j < ended.1, bytesAt src mem j ≠ 0x00#8 := fun j before => by
    rw [← source j (by omega)]
    exact copied j before (by omega)
  have zero : bytesAt src mem ended.1 = 0x00#8 := by
    rw [← source _ short]
    exact stops.resolve_right (by omega)
  have target : toWord (path + 3 + ended.1 : Nat) = path + 3 + ended.1 := toWord_natCast (by omega)
  rw [target]
  refine ⟨stringAt_before nonzero zero, fun a isIn => ?_, fun i inside => ?_, fun isIn => ?_⟩
  · unfold peachosMaxPath
    rcases List.mem_cons.mp isIn with rfl | before
    · exact ⟨by omega, by omega⟩
    · rcases (written a).mp before with first | ⟨j, -, high, rfl⟩
      · exact prefixed.inside a first
      · rw [toWord_natCast (by omega)]
        exact ⟨by omega, by omega⟩
  · rw [List.length_append, prefixed.three, length_stringBefore] at inside
    rw [toWord_natCast (by omega)]
    show put ended.2.mem (path + 3 + ended.1) 0x00#8 (path + i) = _
    by_cases front : i < 3
    · rw [put_other _ (by omega), same _ fun written => absurd written.1 (by omega), prefixed.bytes i front,
        List.getD_append _ _ _ _ (by rwa [prefixed.three])]
    · rw [List.getD_append_right _ _ _ _ (by rw [prefixed.three]; omega), prefixed.three]
      rcases Nat.lt_or_eq_of_le inside with before | rfl
      · rw [getD_stringBefore (by omega), put_other _ (by omega), ← source _ (by omega), ← bytes _ (by omega)]
        congr 1
        omega
      · rw [show path + (3 + ended.1) = path + 3 + ended.1 by omega, put_same,
          List.getD_eq_default _ _ (by rw [length_stringBefore]; omega)]
  · rcases List.mem_append.mp isIn with inDrive | inName
    · exact prefixed.nonzero inDrive
    · exact stringBefore_nonzero nonzero inName

/-- **The path of a name is built within the buffer exactly when the name fits behind the prefix.** -/
theorem Prefixed.stored_iff (prefixed : Prefixed mem path drive σ)
    (apart : ∀ i < 105, toWord (src + i : Nat) ∉ Set.Ico path (path + peachosMaxPath)) (room : 105 ≤ limit) :
    PathBuilt path drive name (.built ((storeLoop (bytesAt src) (path + 3) limit 0 σ).2.store
        (toWord (path + 3 + (storeLoop (bytesAt src) (path + 3) limit 0 σ).1 : Nat)) 0x00#8)) ↔
      StringAt mem src name ∧ name.length ≤ 104 := by
  have fits := prefixed.fits
  unfold peachosMaxPath at fits
  have stored := fun short => prefixed.stored apart room short
  obtain ⟨above, below, written⟩ := @storeLoop_written (bytesAt src) (path + 3) limit 0 σ
  obtain ⟨copied, -⟩ := @storeLoop_start (bytesAt src) (path + 3) 105 (by omega) σ (read_behind apart) limit
  generalize storeLoop (bytesAt src) (path + 3) limit 0 σ = ended at *
  constructor
  · rintro ⟨inside, isPath⟩
    -- The byte behind the buffer was not written.
    have short : ended.1 < 105 := by
      by_contra long
      have next : path + peachosMaxPath ∈ (ended.2.store (toWord (path + 3 + ended.1 : Nat)) 0x00#8).written := by
        have target : toWord (path + 3 + 105 : Nat) = path + peachosMaxPath := toWord_natCast (by omega)
        rcases Nat.eq_or_lt_of_le (not_lt.mp long) with same | later
        · rw [← same, target]
          exact List.mem_cons_self
        · exact List.mem_cons_of_mem _ ((written _).mpr (Or.inr ⟨105, Nat.zero_le _, later, target.symm⟩))
      exact absurd (inside _ next).2 (lt_irrefl _)
    obtain ⟨isString, -, isPath'⟩ := stored short
    have same := List.append_cancel_left (isPath.unique isPath')
    rw [same]
    exact ⟨isString, by rw [length_stringBefore]; omega⟩
  · rintro ⟨isString, fitsBehind⟩
    have short : ended.1 < 105 := by
      by_contra long
      have byte := copied name.length (by omega) (by omega)
      unfold bytesAt at byte
      rw [prefixed.same _ (apart _ (by omega)), isString.bytes _ le_rfl, (getD_eq_zero_iff isString.nonzero le_rfl).mpr rfl]
        at byte
      exact byte rfl
    obtain ⟨isString', built⟩ := stored short
    rw [isString.unique isString']
    exact built

end Path

/-! ### The commands -/

section Commands

variable {k : Kernel} {kernelDesc taskDesc : PagingDesc} {chains : Set Span} {filename path : Nat} {name : List Byte}

/-- **The buffers of the commands on the stack**: what the copies may write to are addresses, and one buffer is not in the
other. -/
structure PathBuffers (filename path : Nat) : Prop where
  filenameFits : filename + peachosMaxPath ≤ 2 ^ 64
  pathFits : path + 3 + peachosMaxPath ≤ 2 ^ 64
  apart : path + peachosMaxPath ≤ filename ∨ filename + peachosMaxPath ≤ path

/-- `strcpy` finds the end of the name that was copied, which has at most 107 bytes. -/
theorem strcpy_copied (buffers : PathBuffers filename path) {σ : StoreLog} (isString : StringAt σ.mem filename name)
    (short : name.length < peachosMaxPath) : strcpy (bytesAt filename) (path + 3) σ =
      some ((storeLoop (bytesAt filename) (path + 3) (2 ^ 64) 0 σ).2.store
        (toWord (path + 3 + (storeLoop (bytesAt filename) (path + 3) (2 ^ 64) 0 σ).1 : Nat)) 0x00#8) := by
  obtain ⟨filenameFits, pathFits, apart⟩ := buffers
  unfold peachosMaxPath at *
  have behind : ∀ i < 108, ∀ mem', SameOutside (Set.Ico (path + 3) (path + 3 + i)) σ.mem mem' →
      bytesAt filename mem' i = bytesAt filename σ.mem i := by
    intro i inside mem' same
    refine same _ fun written => ?_
    rw [toWord_natCast (by omega)] at written
    obtain ⟨low, high⟩ := written
    omega
  obtain ⟨copied, spec⟩ := storeLoop_start pathFits behind (2 ^ 64)
  unfold strcpy
  dsimp only
  generalize storeLoop (bytesAt filename) (path + 3) (2 ^ 64) 0 σ = ended at *
  have atEnd : bytesAt filename σ.mem name.length = 0x00#8 :=
    (isString.bytes _ le_rfl).trans ((getD_eq_zero_iff isString.nonzero le_rfl).mpr rfl)
  have upTo : ended.1 < 108 := by
    by_contra longer
    exact copied name.length (by omega) short atEnd
  obtain ⟨stops, same, -⟩ := spec upTo
  rw [if_pos ((behind _ upTo _ same).trans (stops.resolve_right (by omega)))]

/-- **Command 6.** -/
theorem isr80hCommand6_iff (width : Nat) (ready : CopyReady k kernelDesc taskDesc chains filename peachosMaxPath)
    (buffers : PathBuffers filename path) {filenameUserPtr : Nat}
    (isName : (kzalloc k (toWord peachosMaxPath)).1 ≠ 0 → TaskString k taskDesc filenameUserPtr peachosMaxPath name) :
    ∃ result, isr80hCommand6ProcessLoadStart width k kernelDesc taskDesc filenameUserPtr filename path = some result ∧
      (PathBuilt path driveZero name result ↔ (kzalloc k (toWord peachosMaxPath)).1 = 0 ∨ name.length ≤ 104) := by
  unfold isr80hCommand6ProcessLoadStart
  by_cases failed : (kzalloc k (toWord peachosMaxPath)).1 = 0
  · have early : copyStringFromTask width k kernelDesc taskDesc filenameUserPtr filename peachosMaxPath =
        some (enomem, (kzalloc k (toWord peachosMaxPath)).2) := by
      unfold copyStringFromTask
      rw [if_neg (by decide)]
      dsimp only
      rw [if_pos failed]
    rw [early]
    exact ⟨.failed enomem, rfl, iff_of_true trivial (Or.inl failed)⟩
  · obtain ⟨k', copied, isString⟩ := copyStringFromTask_string width ready (by decide) (by decide) buffers.filenameFits failed
      (isName failed)
    obtain ⟨σ, started, prefixed⟩ := @strcpy_drive path driveZero rfl (by decide) buffers.pathFits k'.mem
    have cut : (name.take (peachosMaxPath - 1)).length < peachosMaxPath := by
      rw [List.length_take]
      unfold peachosMaxPath
      omega
    have apart : ∀ i < peachosMaxPath, toWord (filename + i : Nat) ∉ Set.Ico path (path + peachosMaxPath) := by
      intro i inside isIn
      obtain ⟨filenameFits, -, separate⟩ := buffers
      rw [toWord_natCast (by omega)] at isIn
      obtain ⟨low, high⟩ := isIn
      omega
    have isString' : StringAt σ.mem filename (name.take (peachosMaxPath - 1)) := by
      refine ⟨fun i inside => ?_, isString.nonzero⟩
      rw [prefixed.same _ (apart i (by omega)), isString.bytes i inside]
    have built := @Prefixed.stored_iff k'.mem path filename (2 ^ 64) driveZero name σ prefixed
      (fun i inside => apart i (by unfold peachosMaxPath; omega)) (by decide)
    rw [copied]
    dsimp only
    rw [if_neg (by decide), started, Option.bind_some, strcpy_copied buffers isString' cut]
    refine ⟨_, rfl, built.trans ⟨fun fits => Or.inr fits.2, fun fits => ?_⟩⟩
    have fits := fits.resolve_left failed
    rw [List.take_of_length_le (by unfold peachosMaxPath; omega)] at isString
    exact ⟨isString, fits⟩

/-- **Command 7.** -/
theorem isr80hCommand7_iff {mem : Memory} {argumentsUserPtr : Nat} (fits : path + 3 + peachosMaxPath ≤ 2 ^ 64)
    (apart : ∀ i < peachosMaxPath, toWord (pagingGetPhysicalAddress mem taskDesc argumentsUserPtr + i : Nat) ∉
      Set.Ico path (path + peachosMaxPath)) :
    ∃ result, isr80hCommand7InvokeSystemCommand mem taskDesc argumentsUserPtr path = some result ∧
      (PathBuilt path driveSystem name result ↔ pagingGetPhysicalAddress mem taskDesc argumentsUserPtr = 0 ∨
        mem (pagingGetPhysicalAddress mem taskDesc argumentsUserPtr) = 0x00#8 ∨
        StringAt mem (pagingGetPhysicalAddress mem taskDesc argumentsUserPtr) name ∧ name.length ≤ 104) := by
  unfold isr80hCommand7InvokeSystemCommand
  dsimp only
  generalize pagingGetPhysicalAddress mem taskDesc argumentsUserPtr = arguments at *
  by_cases failed : arguments = 0 ∨ mem arguments = 0x00#8
  · rw [if_pos failed]
    refine ⟨_, rfl, iff_of_true trivial ?_⟩
    rcases failed with null | empty
    · exact Or.inl null
    · exact Or.inr (Or.inl empty)
  · obtain ⟨σ, started, prefixed⟩ := @strcpy_drive path driveSystem rfl (by decide) fits mem
    have built := @Prefixed.stored_iff mem path arguments 107 driveSystem name σ prefixed
      (fun i inside => apart i (by unfold peachosMaxPath; omega)) (by decide)
    rw [if_neg failed, started, Option.map_some]
    refine ⟨_, rfl, built.trans ⟨fun holds => Or.inr (Or.inr holds), ?_⟩⟩
    rintro (null | empty | holds)
    · exact absurd (Or.inl null) failed
    · exact absurd (Or.inr empty) failed
    · exact holds

/-- **Each command builds the path of the name within the buffer exactly when the name has at most 104 bytes**, or it fails
before: command 6 without memory for the copy, command 7 without a page or with an empty name. Command 7 reads the name
where its first byte is, without the page tables of the task. -/
theorem programPath_iff (width : Nat) (ready : CopyReady k kernelDesc taskDesc chains filename peachosMaxPath)
    (buffers : PathBuffers filename path) {filenameUserPtr argumentsUserPtr : Nat} {argument : List Byte}
    (isName : (kzalloc k (toWord peachosMaxPath)).1 ≠ 0 → TaskString k taskDesc filenameUserPtr peachosMaxPath name)
    (apart : ∀ i < peachosMaxPath, toWord (pagingGetPhysicalAddress k.mem taskDesc argumentsUserPtr + i : Nat) ∉
      Set.Ico path (path + peachosMaxPath)) :
    (∃ result, isr80hCommand6ProcessLoadStart width k kernelDesc taskDesc filenameUserPtr filename path = some result ∧
      (PathBuilt path driveZero name result ↔ (kzalloc k (toWord peachosMaxPath)).1 = 0 ∨ name.length ≤ 104)) ∧
    (∃ result, isr80hCommand7InvokeSystemCommand k.mem taskDesc argumentsUserPtr path = some result ∧
      (PathBuilt path driveSystem argument result ↔ pagingGetPhysicalAddress k.mem taskDesc argumentsUserPtr = 0 ∨
        k.mem (pagingGetPhysicalAddress k.mem taskDesc argumentsUserPtr) = 0x00#8 ∨
        StringAt k.mem (pagingGetPhysicalAddress k.mem taskDesc argumentsUserPtr) argument ∧ argument.length ≤ 104)) :=
  ⟨isr80hCommand6_iff width ready buffers isName, isr80hCommand7_iff buffers.pathFits apart⟩

end Commands

/-! ### Two names -/

/-- The copy of a name on the kernel of `bufferMappedKernel`. -/
theorem copyReady_name : CopyReady bufferMappedKernel heapTables heapTables fourChains 0x9000 peachosMaxPath where
  tables := tablesInHeap_bufferMapped
  identity := fun _ => by decide +kernel
  allocates := fun _ => pagingMapAllocates_of_leaf (by decide +kernel)
  destination := fun i inside => Or.inl (by
    unfold peachosMaxPath at inside
    have noWrap : toWord (0x9000 + i : Nat) = 0x9000 + i := toWord_natCast (by omega)
    rw [noWrap]
    have first : bufferMappedKernel.minimal.saddr = 0x100000 := rfl
    have entries : bufferMappedKernel.minimal.table.entries + bufferMappedKernel.minimal.table.total = 0x1008 := rfl
    omega)

/-- The task has three letters in its page `0x5000`. -/
theorem taskString_letters : TaskString bufferMappedKernel heapTables 0x5000 peachosMaxPath [0x61#8, 0x61#8, 0x61#8] where
  reads := by
    have read : ∀ i ≤ 3, translate heapTables (copyBuffer bufferMappedKernel heapTables peachosMaxPath).2.mem
          (toWord (0x5000 + i : Nat)) = some (0x5000 + i) ∧
        (copyBuffer bufferMappedKernel heapTables peachosMaxPath).2.mem (0x5000 + i) =
          [0x61#8, 0x61#8, 0x61#8].getD i 0x00#8 := by decide +kernel
    have buffer : (copyBuffer bufferMappedKernel heapTables peachosMaxPath).1 = 0x104000 := by decide +kernel
    refine fun i inside _ => ⟨0x5000 + i, (read i inside).1, (read i inside).2, fun isIn => ?_⟩
    have low := isIn.1
    have inside : i ≤ 3 := inside
    omega
  nonzero := by decide

/-- The theorem at these letters. -/
theorem programPath_letters :
    (∃ result, isr80hCommand6ProcessLoadStart 40 bufferMappedKernel heapTables heapTables 0x5000 0x9000 0xA000 =
        some result ∧ (PathBuilt 0xA000 driveZero [0x61#8, 0x61#8, 0x61#8] result ↔
          (kzalloc bufferMappedKernel (toWord peachosMaxPath)).1 = 0 ∨ [0x61#8, 0x61#8, 0x61#8].length ≤ 104)) ∧
    (∃ result, isr80hCommand7InvokeSystemCommand bufferMappedKernel.mem heapTables 0x5000 0xA000 = some result ∧
      (PathBuilt 0xA000 driveSystem [0x61#8, 0x61#8, 0x61#8] result ↔
        pagingGetPhysicalAddress bufferMappedKernel.mem heapTables 0x5000 = 0 ∨
        bufferMappedKernel.mem (pagingGetPhysicalAddress bufferMappedKernel.mem heapTables 0x5000) = 0x00#8 ∨
        StringAt bufferMappedKernel.mem (pagingGetPhysicalAddress bufferMappedKernel.mem heapTables 0x5000)
          [0x61#8, 0x61#8, 0x61#8] ∧ [0x61#8, 0x61#8, 0x61#8].length ≤ 104)) := by
  have page : pagingGetPhysicalAddress bufferMappedKernel.mem heapTables 0x5000 = 0x5000 := by decide +kernel
  refine programPath_iff 40 copyReady_name ⟨by decide, by decide, Or.inr (by decide)⟩ (fun _ => taskString_letters)
    fun i inside isIn => ?_
  unfold peachosMaxPath at inside
  rw [page, toWord_natCast (by omega)] at isIn
  have low := isIn.1
  omega

/-- A task with a name of 105 letters in its page `0x5000`. -/
def longName : Memory := fun a => if 0x5000 ≤ a ∧ a < 0x5069 then 0x61#8 else bufferMappedKernel.mem a

/-- **A name of 105 letters**: the terminator of its path is written behind the buffer. -/
theorem isr80hCommand7_overflows : StringAt longName (pagingGetPhysicalAddress longName heapTables 0x5000)
      (List.replicate 105 0x61#8) ∧
    ∃ result, isr80hCommand7InvokeSystemCommand longName heapTables 0x5000 0xA000 = some result ∧
      ¬ PathBuilt 0xA000 driveSystem (List.replicate 105 0x61#8) result := by
  have page : pagingGetPhysicalAddress longName heapTables 0x5000 = 0x5000 := by decide +kernel
  have bytes : ∀ i ≤ 105, longName (0x5000 + i) = (List.replicate 105 0x61#8).getD i 0x00#8 := by decide +kernel
  obtain ⟨result, returned, built⟩ := @isr80hCommand7_iff heapTables 0xA000 (List.replicate 105 0x61#8) longName 0x5000
    (by decide) fun i inside isIn => by
      unfold peachosMaxPath at inside
      rw [page, toWord_natCast (by omega)] at isIn
      have low := isIn.1
      omega
  rw [page] at built ⊢
  refine ⟨⟨fun i inside => ?_, by decide⟩, result, returned, fun isBuilt => ?_⟩
  · rw [List.length_replicate] at inside
    rw [toWord_natCast (by omega)]
    exact bytes i inside
  · rcases built.mp isBuilt with null | empty | ⟨-, short⟩
    · exact absurd null (by decide)
    · exact absurd empty (by decide +kernel)
    · rw [List.length_replicate] at short
      exact absurd short (by decide)

end PeachOS
