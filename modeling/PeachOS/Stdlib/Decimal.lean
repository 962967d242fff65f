/-
**Numbers as text: `itoa` and `atoi`.**

The kernel and the programs have the same `itoa`. It counts below zero, so that the least `int` has its digits too.

* `itoaLoop_written` — the digits that the loop writes, from the last to the first;
* `itoa_decimal` — the text of an `int` in its buffer;
* `atoi_decimal` — reading it back.
-/

import PeachOS.Machine
import Mathlib.Data.Nat.Digits.Lemmas
import Mathlib.Tactic.Ring

namespace PeachOS

/-! ### The code -/

/-- The loop of `itoa`. -/
def itoaLoop (text : Int → Byte) (loc i : Int) : (Int → Byte) × Int :=
  if i = 0 then (text, loc)
  else itoaLoop (Function.update text (loc - 1) (.ofInt 8 (0x30 - i.tmod 10))) (loc - 1) (i.tdiv 10)
termination_by i.natAbs
decreasing_by
  rw [Int.natAbs_tdiv]
  exact Nat.div_lt_self (by omega) (by decide)

/-- `itoa`: its buffer of twelve bytes, and the index of the pointer that is returned. -/
def itoa (text : Int → Byte) (i : BitVec 32) : (Int → Byte) × Int :=
  let text := Function.update text 11 0x00#8
  let written := itoaLoop text 11 (if i.toInt ≥ 0 then -i.toInt else i.toInt)
  let written := if written.2 = 11 then (Function.update written.1 (written.2 - 1) 0x30#8, written.2 - 1) else written
  if i.toInt ≥ 0 then written else (Function.update written.1 (written.2 - 1) 0x2D#8, written.2 - 1)

/-- `atoi`, which leaves out what is no digit. -/
def atoi (str : List Byte) : Int :=
  str.foldl (fun result c => if 0x30#8 ≤ c ∧ c ≤ 0x39#8 then toInt32 (result * 10 + (c.toNat - 0x30)) else result) 0

/-! ### Decimal text -/

def digitChar (digit : Nat) : Byte := .ofNat 8 (0x30 + digit)

/-- The digits of a number, none for zero. -/
def digitsText (n : Nat) : List Byte := (Nat.digits 10 n).reverse.map digitChar

/-- **The decimal text of a number.** -/
def decimalText (i : Int) : List Byte :=
  (if i < 0 then [0x2D#8] else []) ++ if i = 0 then [0x30#8] else digitsText i.natAbs

theorem digitsText_succ {n : Nat} (positive : 0 < n) : digitsText n = digitsText (n / 10) ++ [digitChar (n % 10)] := by
  unfold digitsText
  rw [Nat.digits_def' (by decide) positive, List.reverse_cons, List.map_append]
  rfl

/-! ### Writing -/

/-- **A text in front of the terminator**, and nothing else is written. -/
structure WrittenTo (before text : Int → Byte) (loc : Int) (bytes : List Byte) : Prop where
  place : loc + bytes.length = 11
  stored : ∀ (k : Nat) byte, bytes[k]? = some byte → text (loc + k) = byte
  other : ∀ k, k < loc ∨ 11 ≤ k → text k = before k

theorem WrittenTo.cons {before text : Int → Byte} {loc : Int} {bytes : List Byte} (written : WrittenTo before text loc bytes)
    (byte : Byte) : WrittenTo before (Function.update text (loc - 1) byte) (loc - 1) (byte :: bytes) := by
  have place := written.place
  refine ⟨by rw [List.length_cons]; omega, fun k other isByte => ?_, fun k outside => ?_⟩
  · cases k with
    | zero =>
        rw [Nat.cast_zero, add_zero, Function.update_self]
        exact Option.some.inj isByte
    | succ k =>
        rw [Function.update_of_ne (by omega), ← written.stored k other isByte]
        congr 1
        omega
  · rw [Function.update_of_ne (by omega), written.other k (by omega)]

/-- **The loop writes the digits** in front of what is there. -/
theorem itoaLoop_written {before : Int → Byte} (n : Nat) : ∀ {text : Int → Byte} {loc : Int} {bytes : List Byte},
    WrittenTo before text loc bytes →
    WrittenTo before (itoaLoop text loc (-n)).1 (itoaLoop text loc (-n)).2 (digitsText n ++ bytes) := by
  induction n using Nat.strong_induction_on with
  | _ n ih =>
      intro text loc bytes written
      rw [itoaLoop]
      by_cases zero : n = 0
      · subst zero
        exact written
      · have positive : 0 < n := Nat.pos_of_ne_zero zero
        have digit : (BitVec.ofInt 8 (0x30 - (-(n : Int)).tmod 10) : Byte) = digitChar (n % 10) := by
          rw [Int.neg_tmod, sub_neg_eq_add, digitChar, ← BitVec.ofInt_natCast]
          rfl
        have rest : (-(n : Int)).tdiv 10 = -((n / 10 : Nat) : Int) := by
          rw [Int.neg_tdiv]
          rfl
        rw [if_neg (by omega), digit, rest, digitsText_succ positive, List.append_assoc]
        exact ih (n / 10) (by omega) (written.cons _)

/-- **The text of an `int`**: it ends at the terminator of the buffer, and nothing outside the buffer is written. -/
theorem itoa_decimal (before : Int → Byte) (i : BitVec 32) :
    0 ≤ (itoa before i).2 ∧ (itoa before i).2 + (decimalText i.toInt).length = 11 ∧
      (∀ (k : Nat) byte, (decimalText i.toInt)[k]? = some byte → (itoa before i).1 ((itoa before i).2 + k) = byte) ∧
      (itoa before i).1 11 = 0x00#8 ∧ ∀ k, k < 0 ∨ 12 ≤ k → (itoa before i).1 k = before k := by
  have low := BitVec.le_toInt i
  have high := BitVec.toInt_lt (x := i)
  have start : WrittenTo (Function.update before 11 0x00#8) (Function.update before 11 0x00#8) 11 [] :=
    ⟨rfl, by simp, fun _ _ => rfl⟩
  have digits := itoaLoop_written i.toInt.natAbs start
  have few : (digitsText i.toInt.natAbs).length ≤ 10 := by
    rw [digitsText, List.length_map, List.length_reverse, Nat.digits_length_le_iff (by decide)]
    have : (10 : Nat) ^ 10 = 10000000000 := by norm_num
    omega
  have below : (if i.toInt ≥ 0 then -i.toInt else i.toInt) = -(i.toInt.natAbs : Int) := by split <;> omega
  have all : WrittenTo (Function.update before 11 0x00#8) (itoa before i).1 (itoa before i).2 (decimalText i.toInt) := by
    unfold itoa decimalText
    dsimp only
    rw [below]
    rw [List.append_nil] at digits
    generalize itoaLoop (Function.update before 11 0x00#8) 11 (-(i.toInt.natAbs : Int)) = loop at digits ⊢
    have place := digits.place
    by_cases zero : i.toInt = 0
    · have none_ : digitsText i.toInt.natAbs = [] := by rw [zero]; rfl
      rw [none_] at digits place
      rw [if_pos (show loop.2 = 11 from (add_zero _).symm.trans place), if_pos (show i.toInt ≥ 0 by omega),
        if_neg (show ¬ i.toInt < 0 by omega), if_pos zero]
      exact digits.cons _
    · have some_ : 0 < (digitsText i.toInt.natAbs).length := by
        rw [digitsText_succ (by omega), List.length_append]
        exact Nat.succ_pos _
      rw [if_neg (show loop.2 ≠ 11 by omega), if_neg zero]
      by_cases negative : i.toInt < 0
      · rw [if_neg (show ¬ i.toInt ≥ 0 by omega), if_pos negative]
        exact digits.cons _
      · rw [if_pos (show i.toInt ≥ 0 by omega), if_neg negative]
        exact digits
  have short : (decimalText i.toInt).length ≤ 11 := by
    unfold decimalText
    rw [List.length_append]
    split <;> split <;> simp <;> omega
  have place := all.place
  refine ⟨by omega, place, all.stored, ?_, fun k outside => ?_⟩
  · rw [all.other 11 (by omega), Function.update_self]
  · rw [all.other k (by omega), Function.update_of_ne (by omega)]

/-! ### Reading -/

theorem atoi_snoc (str : List Byte) {digit : Nat} (isDigit : digit < 10) :
    atoi (str ++ [digitChar digit]) = toInt32 (atoi str * 10 + digit) := by
  have value : (digitChar digit).toNat = 0x30 + digit := by
    rw [digitChar, BitVec.toNat_ofNat, Nat.mod_eq_of_lt (by omega)]
  have inside : 0x30#8 ≤ digitChar digit ∧ digitChar digit ≤ 0x39#8 := by
    rw [BitVec.le_def, BitVec.le_def, value]
    exact ⟨Nat.le_add_right _ _, by show _ ≤ 0x39; omega⟩
  unfold atoi
  rw [List.foldl_append, List.foldl_cons, List.foldl_nil, if_pos inside, value]
  congr 2
  push_cast
  ring

/-- Digits are read as their number. -/
theorem atoi_digits (n : Nat) : atoi (digitsText n) = toInt32 n := by
  induction n using Nat.strong_induction_on with
  | _ n ih =>
      by_cases zero : n = 0
      · subst zero
        rfl
      · rw [digitsText_succ (Nat.pos_of_ne_zero zero), atoi_snoc _ (Nat.mod_lt _ (by decide)), ih (n / 10) (by omega)]
        unfold toInt32
        split <;> split <;> split <;> omega

/-- **The text of a number is read as its magnitude.** -/
theorem atoi_decimal (i : Int) : atoi (decimalText i) = toInt32 i.natAbs := by
  unfold decimalText
  by_cases zero : i = 0
  · subst zero
    decide
  · rw [if_neg zero]
    split
    · exact atoi_digits i.natAbs
    · exact atoi_digits i.natAbs

end PeachOS
