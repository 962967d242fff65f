/-
**Short file names: what `fat16_get_full_relative_filename` writes, and what it is compared with.**

The two fields of a directory item have no terminator: `fat16_to_proper_string` stops at a blank, at a zero or at the end of the
field, and moves the caller's output pointer. The strings are those of `PeachOS.Fat16.Model`, here in memory.

* `fullRelativeFilenameAt_eq` — the buffer holds the name of the item, and nothing else is written;
* `istrncmpAt_eq` — `istrncmp` of two strings in memory is that of their bytes;
* `ShortName.text_injective` — a name has one base and one extension;
* `shortName_spec` — the three together, for the names of the 8.3 form.
-/

import PeachOS.Fat16.Names
import Mathlib.Data.List.TakeWhile

namespace PeachOS

open ByteStore

/-! ### The code -/

/-- The loop of `fat16_to_proper_string` with `left` bytes of `in` ahead: the memory and `*out` then. `size` is not zero, so
the test after a byte ends it behind the last one. -/
def properStringLoop (mem : Memory) (out field : Nat) : (left : Nat) → Memory × Nat
  | 0 => (mem, out)
  | left + 1 =>
      if mem field ≠ 0x00#8 ∧ mem field ≠ 0x20#8 then properStringLoop (put mem out (mem field)) (out + 1) (field + 1) left
      else (mem, out)

/-- `fat16_to_proper_string`: the memory and `*out` then. -/
def fat16ToProperStringAt (mem : Memory) (out field size : Nat) : Memory × Nat :=
  let copied := properStringLoop mem out field size
  (put copied.1 copied.2 0x00#8, copied.2)

/-- `fat16_get_full_relative_filename`: the memory then. -/
def fat16GetFullRelativeFilenameAt (mem : Memory) (item out maxLen : Nat) : Memory :=
  let base := fat16ToProperStringAt (memset mem out 0x00#8 maxLen) out item 8
  if base.1 (item + 8) ≠ 0x00#8 ∧ base.1 (item + 8) ≠ 0x20#8 then
    (fat16ToProperStringAt (put base.1 base.2 0x2E#8) (base.2 + 1) (item + 8) 3).1
  else base.1

/-- `tolower`, of a `char`. -/
def tolowerChar (s1 : Byte) : Byte := if 65 ≤ s1.toInt ∧ s1.toInt ≤ 90 then s1 + 32 else s1

/-- `istrncmp`. -/
def istrncmpAt (mem : Memory) (s1 s2 : Nat) : (n : Nat) → Int
  | 0 => 0
  | n + 1 =>
      let u1 := mem s1
      let u2 := mem s2
      if u1 ≠ u2 ∧ (tolowerChar u1).toInt ≠ (tolowerChar u2).toInt then u1.toNat - u2.toNat
      else if u1 = 0x00#8 then 0
      else istrncmpAt mem (s1 + 1) (s2 + 1) n

/-! ### Strings in memory -/

/-- A terminated string is in memory. -/
def HoldsString (mem : Memory) (ptr : Nat) (bytes : List Byte) : Prop :=
  0x00#8 ∉ bytes ∧ window mem ptr (bytes.length + 1) = bytes ++ [0x00#8]

theorem holdsString_nil {mem : Memory} {ptr : Nat} (holds : HoldsString mem ptr []) : mem ptr = 0x00#8 :=
  List.head_eq_of_cons_eq holds.2

theorem holdsString_cons {mem : Memory} {ptr : Nat} {byte : Byte} {bytes : List Byte}
    (holds : HoldsString mem ptr (byte :: bytes)) :
    mem ptr = byte ∧ byte ≠ 0x00#8 ∧ HoldsString mem (ptr + 1) bytes := by
  obtain ⟨noZero, bytesAt⟩ := holds
  rw [List.length_cons, window, List.cons_append, List.cons.injEq] at bytesAt
  exact ⟨bytesAt.1, fun zero => noZero (zero ▸ List.mem_cons_self), fun zero => noZero (List.mem_cons_of_mem _ zero), bytesAt.2⟩

theorem tolowerChar_eq (s1 : Byte) : tolowerChar s1 = tolower s1 := by
  have signed : (65 ≤ s1.toInt ∧ s1.toInt ≤ 90) ↔ (65 ≤ s1.toNat ∧ s1.toNat ≤ 90) := by
    rw [BitVec.toInt_eq_toNat_cond]
    have small := s1.isLt
    split <;> omega
  unfold tolowerChar tolower
  exact if_congr signed rfl rfl

/-- One turn of `istrncmp` in memory is that on the bytes. -/
theorem istrncmpAt_succ (mem : Memory) (s1 s2 n : Nat) :
    istrncmpAt mem s1 s2 (n + 1) =
      if mem s1 ≠ mem s2 ∧ tolower (mem s1) ≠ tolower (mem s2) then ((mem s1).toNat - (mem s2).toNat : Int)
      else if mem s1 = 0x00#8 then 0
      else istrncmpAt mem (s1 + 1) (s2 + 1) n := by
  have sameChar : (tolower (mem s1)).toInt ≠ (tolower (mem s2)).toInt ↔ tolower (mem s1) ≠ tolower (mem s2) :=
    not_congr BitVec.toInt_inj
  rw [istrncmpAt, tolowerChar_eq, tolowerChar_eq]
  exact if_congr (and_congr_right fun _ => sameChar) rfl rfl

/-- **`istrncmp` of two strings in memory is that of their bytes.** -/
theorem istrncmpAt_eq (mem : Memory) (n : Nat) : ∀ {s1 s2 : Nat} {bytes bytes' : List Byte}, HoldsString mem s1 bytes →
    HoldsString mem s2 bytes' → istrncmpAt mem s1 s2 n = istrncmp bytes bytes' n := by
  induction n with
  | zero => exact fun _ _ => rfl
  | succ n ih =>
      intro s1 s2 bytes bytes' first second
      rw [istrncmpAt_succ, istrncmp]
      cases bytes with
      | nil =>
          have ended := holdsString_nil first
          cases bytes' with
          | nil => rw [ended, holdsString_nil second]; rfl
          | cons u2 bytes' => rw [ended, (holdsString_cons second).1]; rfl
      | cons u1 bytes =>
          obtain ⟨isFirst, noZero, first⟩ := holdsString_cons first
          cases bytes' with
          | nil =>
              have differ : u1 ≠ 0x00#8 ∧ tolower u1 ≠ tolower 0x00#8 :=
                ⟨noZero, fun same => noZero ((tolower_zero_iff u1).mp same)⟩
              rw [isFirst, holdsString_nil second, if_pos differ]
              exact (if_pos differ).symm
          | cons u2 bytes' =>
              obtain ⟨isSecond, _, second⟩ := holdsString_cons second
              rw [isFirst, isSecond, ih first second]
              rfl

/-! ### What is written -/

/-- The loop writes the bytes of the field in front of the first blank or zero. -/
theorem properStringLoop_eq (left : Nat) : ∀ {mem : Memory} {out field : Nat}, field + left ≤ out ∨ out + left ≤ field →
    properStringLoop mem out field left =
      (blit mem out (fat16ToProperString (window mem field left)),
        out + (fat16ToProperString (window mem field left)).length) := by
  induction left with
  | zero => exact fun _ => rfl
  | succ left ih =>
      intro mem out field apart
      rw [properStringLoop, window, fat16ToProperString]
      by_cases taken : mem field ≠ 0x00#8 ∧ mem field ≠ 0x20#8
      · have kept : window (put mem out (mem field)) (field + 1) left = window mem (field + 1) left :=
          window_congr fun offset inside => put_other mem (by omega) _
        rw [if_pos taken, ih (by omega), kept,
          List.takeWhile_cons_of_pos (p := fun byte : Byte => byte ≠ 0x00#8 ∧ byte ≠ 0x20#8) (decide_eq_true taken), blit,
          List.length_cons, fat16ToProperString, Nat.add_assoc, Nat.add_comm 1]
      · rw [if_neg taken, List.takeWhile_cons_of_neg (by rw [decide_eq_true_eq]; exact taken)]
        rfl

/-- **What `fat16_to_proper_string` writes**: the string and its terminator, to which `*out` points then. -/
theorem properStringAt_eq {mem : Memory} {out field size : Nat} (apart : field + size ≤ out ∨ out + size ≤ field) :
    fat16ToProperStringAt mem out field size =
      (blit mem out (fat16ToProperString (window mem field size) ++ [0x00#8]),
        out + (fat16ToProperString (window mem field size)).length) := by
  rw [fat16ToProperStringAt, properStringLoop_eq size apart, blit_append]
  rfl

/-- The fields of the item at an address. -/
theorem itemFields (mem : Memory) (item : Nat) :
    (fatDirectoryItem fun i => mem (item + i)).filename = window mem item 8 ∧
      (fatDirectoryItem fun i => mem (item + i)).ext = window mem (item + 8) 3 := ⟨rfl, rfl⟩

/-- **The buffer holds the name of the item, terminated**, and the rest of the memory is kept. -/
theorem fullRelativeFilenameAt_eq {mem : Memory} {item out maxLen : Nat}
    (apart : item + sizeofFatDirectoryItem ≤ out ∨ out + maxLen ≤ item) (room : 12 < maxLen) :
    fat16GetFullRelativeFilenameAt mem item out maxLen =
      blit (memset mem out 0x00#8 maxLen) out
        (fat16GetFullRelativeFilename (fatDirectoryItem fun i => mem (item + i)) ++ [0x00#8]) := by
  obtain ⟨isBase, isExt⟩ := itemFields mem item
  unfold sizeofFatDirectoryItem at apart
  rw [fat16GetFullRelativeFilenameAt, fat16GetFullRelativeFilename, isBase, isExt]
  generalize isCleared : memset mem out 0x00#8 maxLen = cleared
  have keeps : ∀ offset < 11, cleared (item + offset) = mem (item + offset) := by
    intro offset inside
    rw [← isCleared]
    exact memset_outside (by omega) _
  have baseKept : window cleared item 8 = window mem item 8 := window_congr fun offset inside => keeps offset (by omega)
  have baseLength := properString_length (window mem item 8)
  rw [length_window] at baseLength
  rw [properStringAt_eq (by omega), baseKept]
  generalize fat16ToProperString (window mem item 8) = base at baseLength ⊢
  -- the extension is not in the buffer, so both stages read it as it was
  have extKept : ∀ values : List Byte, values.length ≤ 9 →
      window (blit cleared out values) (item + 8) 3 = window mem (item + 8) 3 := by
    intro values short
    refine window_congr fun offset inside => ?_
    rw [blit_outside values cleared (by omega), Nat.add_assoc, keeps (8 + offset) (by omega)]
  have first : blit cleared out (base ++ [0x00#8]) (item + 8) = (window mem (item + 8) 3).headD 0x00#8 := by
    rw [blit_outside _ cleared (by rw [List.length_append, List.length_singleton]; omega), keeps 8 (by decide)]
    rfl
  simp only [first]
  by_cases hasExt : (window mem (item + 8) 3).headD 0x00#8 ≠ 0x00#8 ∧ (window mem (item + 8) 3).headD 0x00#8 ≠ 0x20#8
  · have dotted : put (blit cleared out (base ++ [0x00#8])) (out + base.length) 0x2E#8 = blit cleared out (base ++ [0x2E#8]) := by
      rw [blit_append, blit_append]
      exact put_put _ _ _ _
    have dottedLength : (base ++ [0x2E#8]).length ≤ 9 := by
      rw [List.length_append, List.length_singleton]
      omega
    rw [if_pos hasExt, if_pos hasExt, dotted, properStringAt_eq (by omega), extKept _ dottedLength]
    have split : base ++ 0x2E#8 :: fat16ToProperString (window mem (item + 8) 3) ++ [0x00#8] =
        (base ++ [0x2E#8]) ++ (fat16ToProperString (window mem (item + 8) 3) ++ [0x00#8]) := by
      rw [List.append_assoc, List.append_assoc, List.cons_append, List.singleton_append]
    rw [split, blit_append _ (fat16ToProperString _ ++ _), List.length_append, List.length_singleton, Nat.add_assoc]
  · rw [if_neg hasExt, if_neg hasExt, List.append_nil]

/-! ### Names of the 8.3 form -/

/-- A base and an extension. -/
structure ShortName where
  base : List Byte
  ext : List Byte
  baseLength : 1 ≤ base.length ∧ base.length ≤ 8
  extLength : ext.length ≤ 3
  plain : ∀ byte ∈ base ++ ext, byte ≠ 0x00#8 ∧ byte ≠ 0x20#8 ∧ byte ≠ 0x2E#8

/-- The base, or the base, a dot and the extension. -/
def ShortName.text (name : ShortName) : List Byte := if name.ext = [] then name.base else name.base ++ 0x2E#8 :: name.ext

/-- A directory item stores a name, its fields padded with blanks. -/
def ShortName.Stored (name : ShortName) (mem : Memory) (item : Nat) : Prop :=
  window mem item 8 = name.base ++ List.replicate (8 - name.base.length) 0x20#8 ∧
    window mem (item + 8) 3 = name.ext ++ List.replicate (3 - name.ext.length) 0x20#8

theorem ShortName.text_length (name : ShortName) : name.text.length ≤ 12 := by
  have baseLength := name.baseLength
  have extLength := name.extLength
  unfold text
  split
  · omega
  · rw [List.length_append, List.length_cons]
    omega

theorem ShortName.text_base (name : ShortName) : (name.text.takeWhile fun byte => byte ≠ 0x2E#8) = name.base := by
  have noDot : ∀ byte ∈ name.base, decide (byte ≠ 0x2E#8) = true := fun byte isBase =>
    decide_eq_true (name.plain byte (List.mem_append_left _ isBase)).2.2
  unfold text
  split
  · exact List.takeWhile_eq_self_iff.mpr noDot
  · rw [List.takeWhile_append_of_pos noDot, List.takeWhile_cons_of_neg (by decide), List.append_nil]

theorem ShortName.text_ext (name : ShortName) : name.text.drop (name.base.length + 1) = name.ext := by
  unfold text
  split
  · next noExt => rw [noExt, List.drop_eq_nil_of_le (Nat.le_succ _)]
  · rw [Nat.add_comm, ← List.drop_drop]
    simp

/-- **A name has one base and one extension.** -/
theorem ShortName.text_injective : Function.Injective ShortName.text := by
  intro name other same
  have sameBase : name.base = other.base := by rw [← name.text_base, ← other.text_base, same]
  have sameExt : name.ext = other.ext := by rw [← name.text_ext, ← other.text_ext, same, sameBase]
  cases name
  cases other
  simp only at sameBase sameExt
  simp only [sameBase, sameExt]

/-- The name of an item that stores it. -/
theorem ShortName.Stored.filename {name : ShortName} {mem : Memory} {item : Nat} (stored : name.Stored mem item) :
    fat16GetFullRelativeFilename (fatDirectoryItem fun i => mem (item + i)) = name.text := by
  have plain : ∀ byte ∈ name.base ++ name.ext, byte ≠ 0x00#8 ∧ byte ≠ 0x20#8 := fun byte isName =>
    ⟨(name.plain byte isName).1, (name.plain byte isName).2.1⟩
  obtain ⟨isBase, isExt⟩ := itemFields mem item
  exact fullRelativeFilename_padded (fun byte inBase => plain byte (List.mem_append_left _ inBase))
    (fun byte inExt => plain byte (List.mem_append_right _ inExt)) (isBase.trans stored.1) (isExt.trans stored.2)

/-- **Short names**: the buffer holds the base, or the base, a dot and the extension, terminated inside of it, and nothing else is
written; no other name has this text; and `istrncmp` finds it the same as exactly the strings that are, ignoring case. -/
theorem shortName_spec (name : ShortName) {mem : Memory} {item out maxLen : Nat} (stored : name.Stored mem item)
    (apart : item + sizeofFatDirectoryItem ≤ out ∨ out + maxLen ≤ item) (room : 12 < maxLen) :
    HoldsString (fat16GetFullRelativeFilenameAt mem item out maxLen) out name.text ∧ name.text.length < maxLen ∧
      (∀ a, a < out ∨ out + maxLen ≤ a → fat16GetFullRelativeFilenameAt mem item out maxLen a = mem a) ∧
      (∀ other : ShortName, other.text = name.text → other.base = name.base ∧ other.ext = name.ext) ∧
      ∀ s2 bytes n, HoldsString (fat16GetFullRelativeFilenameAt mem item out maxLen) s2 bytes → 12 < n →
        (istrncmpAt (fat16GetFullRelativeFilenameAt mem item out maxLen) out s2 n = 0 ↔ SameName name.text bytes) := by
  have short := name.text_length
  have noZero : 0x00#8 ∉ name.text := stored.filename ▸ fullRelativeFilename_noZero _
  have written := @fullRelativeFilenameAt_eq mem item out maxLen apart room
  rw [stored.filename] at written
  have holds : HoldsString (fat16GetFullRelativeFilenameAt mem item out maxLen) out name.text := by
    refine ⟨noZero, ?_⟩
    have whole := window_blit (name.text ++ [0x00#8]) (memset mem out 0x00#8 maxLen) out
    rw [List.length_append, List.length_singleton] at whole
    rw [written, whole]
  refine ⟨holds, by omega, fun a outside => ?_, fun other same => ?_, fun s2 bytes n second limit => ?_⟩
  · rw [written, blit_outside _ _ (by rw [List.length_append, List.length_singleton]; omega)]
    exact memset_outside outside _
  · rw [ShortName.text_injective same]
    exact ⟨rfl, rfl⟩
  · rw [istrncmpAt_eq _ n holds second]
    exact istrncmp_eq_zero_iff n noZero second.1 (by omega)

/-- `KERNEL.BIN`. -/
def kernelBin : ShortName where
  base := [0x4B#8, 0x45#8, 0x52#8, 0x4E#8, 0x45#8, 0x4C#8]
  ext := [0x42#8, 0x49#8, 0x4E#8]
  baseLength := by decide
  extLength := by decide
  plain := by decide

/-- Its item at address 0, and nothing else. -/
def kernelBinMemory : Memory :=
  blit (fun _ => 0x00#8) 0 [0x4B#8, 0x45#8, 0x52#8, 0x4E#8, 0x45#8, 0x4C#8, 0x20#8, 0x20#8, 0x42#8, 0x49#8, 0x4E#8]

/-- The buffer then holds its name. -/
theorem shortName_kernelBin :
    HoldsString (fat16GetFullRelativeFilenameAt kernelBinMemory 0 32 peachosMaxPath) 32 kernelBin.text :=
  (shortName_spec kernelBin ⟨by decide, by decide⟩ (Or.inl (by decide)) (by decide)).1

end PeachOS
