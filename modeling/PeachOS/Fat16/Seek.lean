/-
**The position of an open file: `fat16_seek` of `fs/fat/fat16.c`, and what `fat16_read` does to it.**

`fat16_seek` compares its argument with the size of the file before it looks at the mode, and a relative seek adds the argument
to the position in 32 bits. `fat16_read` moves the position by what it has read, and knows no size.

* `fat16Seek_file` — what a seek does, mode by mode;
* `fat16Read_pos` — a read that succeeds moves the position by its bytes, in 32 bits;
* `callKeeps_iff` — which calls keep the position in the file and move it as they say;
* `positionKept_of_reachable` — so do all runs of these calls.
-/

import PeachOS.Fat16.Model
import PeachOS.Lib.StepRun

namespace PeachOS

open StepRun

/-! ### The code -/

/-- `-EUNIMP`. -/
def eunimp : Int := -7

/-- `struct fat_file_descriptor`. -/
structure FatFileDescriptor where
  item : FatItem
  pos : Nat

/-- `SEEK_SET`. -/
abbrev seekSet : Nat := 0

/-- `SEEK_CUR`. -/
abbrev seekCur : Nat := 1

/-- `SEEK_END`. -/
abbrev seekEnd : Nat := 2

/-- `fat16_seek`: its result, and the descriptor then. A file whose item could not be cloned is a null pointer. -/
def fat16Seek (desc : FatFileDescriptor) (offset seekMode : Nat) : Option (Int × FatFileDescriptor) :=
  match desc.item with
  | .directory _ => some (einvarg, desc)
  | .file none => none
  | .file (some ritem) =>
      if offset ≥ ritem.filesize then some (eio, desc)
      else if seekMode = seekSet then some (0, { desc with pos := offset })
      else if seekMode = seekEnd then some (eunimp, desc)
      else if seekMode = seekCur then some (0, { desc with pos := toUInt32 (desc.pos + offset : Nat) })
      else some (einvarg, desc)

/-! ### Runs -/

/-- A call for an open file. A read comes with the volume as it is then, since block reads may fail. -/
inductive SeekCall where
  | seek (offset seekMode : Nat)
  | read (v : FatVolume) (size nmemb : Nat)

/-- The descriptor of a file. -/
def openFile (item : FatDirectoryItem) (pos : Nat) : FatFileDescriptor := ⟨.file (some item), pos⟩

/-- What a call returns, and the descriptor then. -/
def SeekCall.run (item : FatDirectoryItem) (pos : Nat) : SeekCall → Option (Int × FatFileDescriptor)
  | .seek offset seekMode => fat16Seek (openFile item pos) offset seekMode
  | .read v size nmemb =>
      let read := fat16Read v item pos size nmemb
      some (read.1, openFile item read.2.1)

/-- One call moves the position. -/
def fileStep (item : FatDirectoryItem) (pos : Nat) (call : SeekCall) (pos' : Nat) : Prop :=
  ∃ res, call.run item pos = some (res, openFile item pos')

/-- A file is opened at its start. -/
def AtStart (pos : Nat) : Prop := pos = 0

/-- **A call keeps the position**: it stays in the file, a successful seek moves it as it says, and a failing one not at all. -/
def CallKeeps (item : FatDirectoryItem) (pos : Nat) (call : SeekCall) : Prop :=
  ∃ res pos', call.run item pos = some (res, openFile item pos') ∧ pos' ≤ item.filesize ∧
    ∀ offset seekMode, call = .seek offset seekMode →
      (0 ≤ res → seekMode = seekSet → pos' = offset) ∧ (0 ≤ res → seekMode = seekCur → pos' = pos + offset) ∧
        (res < 0 → pos' = pos)

/-- The reads of the items of a call. -/
def itemRead (v : FatVolume) (item : FatDirectoryItem) (pos size i : Nat) : Int × List Byte :=
  fat16ReadInternal v (toInt32 (fat16GetFirstCluster item)) (toInt32 (pos + i * size : Nat)) (toInt32 size)

/-- **A call stays in the file**: a relative seek that is not refused does not pass the end, and the items of a read are either no
more than are left, in 32 bits, or one of them cannot be read. -/
def KeepsInside (item : FatDirectoryItem) (pos : Nat) : SeekCall → Prop
  | .seek offset seekMode => seekMode = seekCur → offset < item.filesize → pos + offset ≤ item.filesize
  | .read v size nmemb =>
      (pos + nmemb * size) % 2 ^ 32 ≤ item.filesize ∨ ∃ i < nmemb, (itemRead v item pos size i).1 < 0

/-! ### One call -/

/-- **What a seek of a file does.** -/
theorem fat16Seek_file (item : FatDirectoryItem) (pos offset seekMode : Nat) :
    (item.filesize ≤ offset ∧ fat16Seek (openFile item pos) offset seekMode = some (eio, openFile item pos)) ∨
      (offset < item.filesize ∧
        ((seekMode = seekSet ∧ fat16Seek (openFile item pos) offset seekMode = some (0, openFile item offset)) ∨
          (seekMode = seekCur ∧
            fat16Seek (openFile item pos) offset seekMode = some (0, openFile item (toUInt32 (pos + offset : Nat)))) ∨
          (seekMode ≠ seekSet ∧ seekMode ≠ seekCur ∧
            ∃ res < 0, fat16Seek (openFile item pos) offset seekMode = some (res, openFile item pos)))) := by
  unfold fat16Seek openFile
  dsimp only
  by_cases refused : item.filesize ≤ offset
  · exact Or.inl ⟨refused, if_pos refused⟩
  · rw [if_neg refused]
    refine Or.inr ⟨not_le.mp refused, ?_⟩
    by_cases isSet : seekMode = seekSet
    · exact Or.inl ⟨isSet, if_pos isSet⟩
    · rw [if_neg isSet]
      by_cases isEnd : seekMode = seekEnd
      · refine Or.inr (Or.inr ⟨isSet, by rw [isEnd]; decide, eunimp, by decide, if_pos isEnd⟩)
      · rw [if_neg isEnd]
        by_cases isCur : seekMode = seekCur
        · exact Or.inr (Or.inl ⟨isCur, if_pos isCur⟩)
        · exact Or.inr (Or.inr ⟨isSet, isCur, einvarg, by decide, if_neg isCur⟩)

/-- The offset of an item, as an `int`. -/
theorem toInt32_add (offset : Int) (size : Nat) : toInt32 (toInt32 offset + size) = toInt32 (offset + size) :=
  toInt32_congr (by rw [Int.add_emod, toInt32_emod, ← Int.add_emod])

theorem toUInt32_toInt32 (value : Int) : toUInt32 (toInt32 value) = toUInt32 value := by
  unfold toUInt32
  rw [toInt32_emod]

theorem toUInt32_mod (value : Nat) : toUInt32 (value : Int) = value % 2 ^ 32 := by
  unfold toUInt32
  omega

/-- **The items of a read**: they fail if one of them does, and else the offset is behind all of them. -/
theorem readItems_offset (v : FatVolume) (item : FatDirectoryItem) (size nmemb : Nat) : ∀ pos : Nat,
    ((fat16ReadItems v item size nmemb (toInt32 pos)).1 < 0 ∧ ∃ i < nmemb, (itemRead v item pos size i).1 < 0) ∨
      (fat16ReadItems v item size nmemb (toInt32 pos)).1 = 0 ∧ (∀ i < nmemb, ¬ (itemRead v item pos size i).1 < 0) ∧
        toUInt32 (fat16ReadItems v item size nmemb (toInt32 pos)).2.1 = (pos + nmemb * size) % 2 ^ 32 := by
  induction nmemb with
  | zero =>
      intro pos
      rw [fat16ReadItems]
      refine Or.inr ⟨rfl, fun i inside => absurd inside (Nat.not_lt_zero i), ?_⟩
      rw [toUInt32_toInt32, toUInt32_mod, Nat.zero_mul, Nat.add_zero]
  | succ nmemb ih =>
      intro pos
      have first : itemRead v item pos size 0 =
          fat16ReadInternal v (toInt32 (fat16GetFirstCluster item)) (toInt32 pos) (toInt32 size) := by
        rw [itemRead, Nat.zero_mul, Nat.add_zero]
      have others : ∀ i, itemRead v item pos size (i + 1) = itemRead v item (pos + size) size i := by
        intro i
        rw [itemRead, itemRead, Nat.succ_mul, Nat.add_comm (i * size), Nat.add_assoc]
      have total : pos + (nmemb + 1) * size = pos + size + nmemb * size := by
        rw [Nat.succ_mul, Nat.add_comm (nmemb * size), Nat.add_assoc]
      by_cases fails : (itemRead v item pos size 0).1 < 0
      · have stops : fat16ReadItems v item size (nmemb + 1) (toInt32 pos) =
            ((itemRead v item pos size 0).1, toInt32 pos, (itemRead v item pos size 0).2) := by
          rw [fat16ReadItems, ← first]
          exact if_pos fails
        have code : (fat16ReadItems v item size (nmemb + 1) (toInt32 pos)).1 = (itemRead v item pos size 0).1 := by rw [stops]
        rw [code]
        exact Or.inl ⟨fails, 0, Nat.succ_pos _, fails⟩
      · have goesOn : fat16ReadItems v item size (nmemb + 1) (toInt32 pos) =
            ((fat16ReadItems v item size nmemb (toInt32 (pos + size : Nat))).1,
              (fat16ReadItems v item size nmemb (toInt32 (pos + size : Nat))).2.1,
              (itemRead v item pos size 0).2 ++ (fat16ReadItems v item size nmemb (toInt32 (pos + size : Nat))).2.2) := by
          rw [fat16ReadItems, ← first, toInt32_add, ← Int.natCast_add]
          exact if_neg fails
        have code : (fat16ReadItems v item size (nmemb + 1) (toInt32 pos)).1 =
            (fat16ReadItems v item size nmemb (toInt32 (pos + size : Nat))).1 := by simp only [goesOn]
        have moved : (fat16ReadItems v item size (nmemb + 1) (toInt32 pos)).2.1 =
            (fat16ReadItems v item size nmemb (toInt32 (pos + size : Nat))).2.1 := by simp only [goesOn]
        rw [code, moved, total]
        rcases ih (pos + size) with ⟨failed, i, inside, isItem⟩ | ⟨ok, allOk, position⟩
        · exact Or.inl ⟨failed, i + 1, Nat.succ_lt_succ inside, by rw [others]; exact isItem⟩
        · refine Or.inr ⟨ok, fun i inside => ?_, position⟩
          cases i with
          | zero => exact fails
          | succ i =>
              rw [others]
              exact allOk i (Nat.lt_of_succ_lt_succ inside)

/-- **The position after a read**: where it was if an item fails, and else behind the items, in 32 bits. -/
theorem fat16Read_pos (v : FatVolume) (item : FatDirectoryItem) (pos size nmemb : Nat) :
    ((∃ i < nmemb, (itemRead v item pos size i).1 < 0) ∧ (fat16Read v item pos size nmemb).2.1 = pos) ∨
      ((∀ i < nmemb, ¬ (itemRead v item pos size i).1 < 0) ∧
        (fat16Read v item pos size nmemb).2.1 = (pos + nmemb * size) % 2 ^ 32) := by
  unfold fat16Read
  dsimp only
  rcases readItems_offset v item size nmemb pos with ⟨failed, anItem⟩ | ⟨ok, allOk, position⟩
  · rw [if_pos failed]
    exact Or.inl ⟨anItem, rfl⟩
  · rw [if_neg (by omega)]
    exact Or.inr ⟨allOk, position⟩

theorem openFile_injective {item : FatDirectoryItem} {pos pos' : Nat} (same : openFile item pos = openFile item pos') :
    pos = pos' :=
  congrArg FatFileDescriptor.pos same

section Calls

variable {item : FatDirectoryItem} {pos : Nat}

/-- **Which calls keep the position**, from any position in the file. -/
theorem callKeeps_iff (isUInt : item.filesize < 2 ^ 32) (inside : pos ≤ item.filesize) (call : SeekCall) :
    CallKeeps item pos call ↔ KeepsInside item pos call := by
  cases call with
  | seek offset seekMode =>
      have result : ∀ {res : Int} {pos' : Nat}, fat16Seek (openFile item pos) offset seekMode = some (res, openFile item pos') →
          (CallKeeps item pos (.seek offset seekMode) ↔ pos' ≤ item.filesize ∧ (0 ≤ res → seekMode = seekSet → pos' = offset) ∧
            (0 ≤ res → seekMode = seekCur → pos' = pos + offset) ∧ (res < 0 → pos' = pos)) := by
        intro res pos' isResult
        constructor
        · rintro ⟨res', pos'', run, stays, moves⟩
          rw [SeekCall.run, isResult, Option.some.injEq, Prod.mk.injEq] at run
          obtain ⟨rfl, same⟩ := run
          rw [openFile_injective same]
          exact ⟨stays, moves offset seekMode rfl⟩
        · rintro ⟨stays, moves⟩
          refine ⟨res, pos', isResult, stays, fun offset' seekMode' same => ?_⟩
          cases same
          exact moves
      unfold KeepsInside
      rcases fat16Seek_file item pos offset seekMode with ⟨refused, isResult⟩ |
        ⟨below, ⟨isSet, isResult⟩ | ⟨isCur, isResult⟩ | ⟨noSet, noCur, res, negative, isResult⟩⟩
      · rw [result isResult]
        refine iff_of_true ⟨inside, fun success => absurd success (by decide), fun success => absurd success (by decide),
          fun _ => rfl⟩ fun _ below => ?_
        omega
      · rw [result isResult, isSet]
        exact iff_of_true ⟨below.le, fun _ _ => rfl, fun _ isCur => absurd isCur (by decide),
          fun failed => absurd failed (by decide)⟩
          fun isCur => absurd isCur (by decide)
      · rw [result isResult, isCur]
        rw [toUInt32_mod]
        constructor
        · rintro ⟨stays, -, moves, -⟩ _ _
          have exactly_ := moves le_rfl rfl
          omega
        · intro stays
          have fits := stays rfl below
          rw [Nat.mod_eq_of_lt (by omega)]
          exact ⟨fits, fun _ isSet => absurd isSet (by decide), fun _ _ => rfl, fun failed => absurd failed (by decide)⟩
      · rw [result isResult]
        exact iff_of_true ⟨inside, fun success => absurd negative (not_lt.mpr success),
          fun success => absurd negative (not_lt.mpr success), fun _ => rfl⟩ fun isCur => absurd isCur noCur
  | read v size nmemb =>
      have result : CallKeeps item pos (.read v size nmemb) ↔ (fat16Read v item pos size nmemb).2.1 ≤ item.filesize := by
        constructor
        · rintro ⟨res, pos', run, stays, -⟩
          rw [SeekCall.run, Option.some.injEq, Prod.mk.injEq] at run
          rw [openFile_injective run.2]
          exact stays
        · intro stays
          exact ⟨_, _, rfl, stays, fun offset seekMode isSeek => by cases isSeek⟩
      rw [result, KeepsInside]
      rcases fat16Read_pos v item pos size nmemb with ⟨failed, position⟩ | ⟨ok, position⟩
      · rw [position]
        exact iff_of_true inside (Or.inr failed)
      · rw [position]
        exact ⟨Or.inl, fun stays => stays.resolve_right fun ⟨i, isItem, failed⟩ => ok i isItem failed⟩

/-- A call of which the position is kept leaves it in the file. -/
theorem CallKeeps.inside {call : SeekCall} (keeps : CallKeeps item pos call) {pos' : Nat}
    (taken : fileStep item pos call pos') : pos' ≤ item.filesize := by
  obtain ⟨res, after, run, stays, -⟩ := keeps
  obtain ⟨res', run'⟩ := taken
  rw [run, Option.some.injEq, Prod.mk.injEq] at run'
  rw [← openFile_injective run'.2]
  exact stays

end Calls

/-! ### The result -/

/-- **The position of a file in every run of calls that stay inside**: it is in the file, and exactly the calls that stay inside
keep it. -/
theorem positionKept_of_reachable (item : FatDirectoryItem) (isUInt : item.filesize < 2 ^ 32) (pos : Nat)
    (reached : Reachable (Guarded (KeepsInside item) (fileStep item)) AtStart pos) :
    pos ≤ item.filesize ∧ ∀ call, CallKeeps item pos call ↔ KeepsInside item pos call := by
  have inside : pos ≤ item.filesize := by
    refine reached.invariant (fun pos => pos ≤ item.filesize) (fun pos begins => ?_) fun pos call pos' inside ⟨stays, taken⟩ => ?_
    · rw [begins]
      exact Nat.zero_le _
    · exact ((callKeeps_iff isUInt inside call).mpr stays).inside taken
  exact ⟨inside, callKeeps_iff isUInt inside⟩

/-- A file of 10 bytes. -/
def tenBytes : FatDirectoryItem := ⟨[], [], 0x00#8, 0, 2, 10⟩

/-- It is kept at position 9 after `SEEK_SET`. -/
theorem positionKept_nine : tenBytes.filesize < 2 ^ 32 ∧ 9 ≤ tenBytes.filesize := by
  have stays : KeepsInside tenBytes 0 (.seek 9 seekSet) := fun isCur => absurd isCur (by decide)
  have reached : Reachable (Guarded (KeepsInside tenBytes) (fileStep tenBytes)) AtStart 9 :=
    .next (.seek 9 seekSet) (.start rfl) ⟨stays, 0, rfl⟩
  exact ⟨by decide, (positionKept_of_reachable tenBytes (by decide) 9 reached).1⟩

/-- **A relative seek passes the end of the file**: from position 9 of 10 bytes, by 9. -/
theorem seekCur_passes : Reachable (fileStep tenBytes) AtStart 18 ∧ tenBytes.filesize < 18 := by
  refine ⟨?_, by decide⟩
  have nine : Reachable (fileStep tenBytes) AtStart 9 := .next (.seek 9 seekSet) (.start rfl) ⟨0, rfl⟩
  exact .next (.seek 9 seekCur) nine ⟨0, rfl⟩

end PeachOS
