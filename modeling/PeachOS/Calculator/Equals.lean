/-
**What the calculator computes: `programs/calculator/calculator.c`.**

The text of the display is taken apart at its operators, and worked off from left to right. The digits between two operators
are collected in an array on the stack.

* `calculatorLoop_finishes` — the loop, from any of its states on, by what one turn does;
* `calculatorEquals_evaluates` — the result for any text;
* `calculatorEquals_decimal` — a result that is shown is the result of its own text.
-/

import PeachOS.Stdlib.Decimal

namespace PeachOS

/-! ### The code -/

def calculatorIsOperator (c : Byte) : Bool := c = 0x2B#8 ∨ c = 0x2D#8 ∨ c = 0x2F#8 ∨ c = 0x2A#8

def calculatorDoMath (left right : Int) (op : Byte) : Int :=
  if op = 0x2B#8 then toInt32 (left + right)
  else if op = 0x2D#8 then toInt32 (left - right)
  else if op = 0x2A#8 then toInt32 (left * right)
  else if op = 0x2F#8 then if right = 0 then 0 else toInt32 (left.tdiv right)
  else 0

/-- The variables of `calculator_equals`, with what is stored in `number_str`. -/
structure Calculator where
  parsingRight : Bool
  numberStr : List Byte
  leftNumberInt : Int
  currentOp : Byte

/-- `sizeof(number_str)`. -/
abbrev numberStrSize : Nat := 124

/-- `atoi(number_str)`, `none` where there is no terminator in the array. -/
def calculatorNumber (numberStr : List Byte) : Option Int :=
  if numberStr.length < numberStrSize then some (atoi numberStr) else none

/-- The loop of `calculator_equals`, `none` where it leaves `number_str`. -/
def calculatorLoop : (text : List Byte) → Calculator → Option Calculator
  | [], σ => some σ
  | c :: text, σ =>
      if calculatorIsOperator c then
        match calculatorNumber σ.numberStr with
        | none => none
        | some number =>
            calculatorLoop text
              ⟨true, [], if σ.parsingRight then calculatorDoMath σ.leftNumberInt number σ.currentOp else number, c⟩
      else if σ.numberStr.length < numberStrSize then calculatorLoop text { σ with numberStr := σ.numberStr ++ [c] }
      else none

/-- What `calculator_equals` does behind the loop. -/
def calculatorFinish (σ : Calculator) : Option Int :=
  (calculatorNumber σ.numberStr).map fun number =>
    if σ.currentOp ≠ 0x00#8 then calculatorDoMath σ.leftNumberInt number σ.currentOp else number

/-- `calculator_equals`: the number that it shows. -/
def calculatorEquals (text : List Byte) : Option Int :=
  (calculatorLoop text ⟨false, [], 0, 0x00#8⟩).bind calculatorFinish

/-! ### Expressions -/

/-- **An expression**: an operand, and operators with an operand each. What stands in an operand is no operator. -/
structure Expression where
  first : List Byte
  rest : List (Byte × List Byte)
  operand : ∀ c ∈ first, calculatorIsOperator c = false
  operators : ∀ term ∈ rest, calculatorIsOperator term.1 = true ∧ ∀ c ∈ term.2, calculatorIsOperator c = false

namespace Expression

def text (e : Expression) : List Byte := e.first ++ e.rest.flatMap fun term => term.1 :: term.2

/-- The operands fit the array. -/
def Fits (e : Expression) : Prop := e.first.length < numberStrSize ∧ ∀ term ∈ e.rest, term.2.length < numberStrSize

/-- **The value, from left to right.** -/
def value (e : Expression) : Int :=
  e.rest.foldl (fun left term => calculatorDoMath left (atoi term.2) term.1) (atoi e.first)

end Expression

/-- The number that is worked off next. -/
def Calculator.apply (σ : Calculator) (number : Int) : Int :=
  if σ.currentOp ≠ 0x00#8 then calculatorDoMath σ.leftNumberInt number σ.currentOp else number

section Turns

variable {c : Byte} {text : List Byte} {σ : Calculator}

/-- **At an operator**, the number in front of it is worked off. -/
theorem calculatorLoop_operator (isOperator : calculatorIsOperator c = true)
    (consistent : σ.parsingRight = decide (σ.currentOp ≠ 0x00#8)) (short : σ.numberStr.length < numberStrSize) :
    calculatorLoop (c :: text) σ = calculatorLoop text ⟨true, [], σ.apply (atoi σ.numberStr), c⟩ := by
  rw [calculatorLoop, if_pos isOperator, calculatorNumber, if_pos short, Calculator.apply, consistent]
  simp only [decide_eq_true_eq]

/-- **Another character** joins the number. -/
theorem calculatorLoop_operand (notOperator : calculatorIsOperator c = false) (short : σ.numberStr.length < numberStrSize) :
    calculatorLoop (c :: text) σ = calculatorLoop text { σ with numberStr := σ.numberStr ++ [c] } := by
  rw [calculatorLoop, notOperator, if_neg Bool.false_ne_true, if_pos short]

theorem calculatorLoop_outside (long : ¬ σ.numberStr.length < numberStrSize) : calculatorLoop (c :: text) σ = none := by
  rw [calculatorLoop, calculatorNumber, if_neg long, if_neg long, ite_self]

end Turns

/-- **The loop finishes with the value of what is left**, unless an operand does not fit. -/
theorem calculatorLoop_finishes (text : List Byte) : ∀ σ : Calculator,
    σ.parsingRight = decide (σ.currentOp ≠ 0x00#8) → ∃ e : Expression, e.text = text ∧
      ((σ.numberStr ++ e.first).length < numberStrSize ∧ (∀ term ∈ e.rest, term.2.length < numberStrSize) →
        (calculatorLoop text σ).bind calculatorFinish = some (e.rest.foldl
          (fun left term => calculatorDoMath left (atoi term.2) term.1) (σ.apply (atoi (σ.numberStr ++ e.first))))) ∧
      (¬ ((σ.numberStr ++ e.first).length < numberStrSize ∧ ∀ term ∈ e.rest, term.2.length < numberStrSize) →
        (calculatorLoop text σ).bind calculatorFinish = none) := by
  induction text with
  | nil =>
      intro σ _
      refine ⟨⟨[], [], by simp, by simp⟩, rfl, fun fits => ?_, fun outside => ?_⟩
      · rw [List.append_nil] at fits ⊢
        rw [calculatorLoop, Option.bind_some, calculatorFinish, calculatorNumber, if_pos fits.1]
        rfl
      · have long : ¬ σ.numberStr.length < numberStrSize := fun short => outside ⟨by rwa [List.append_nil], by simp⟩
        rw [calculatorLoop, Option.bind_some, calculatorFinish, calculatorNumber, if_neg long]
        rfl
  | cons c text ih =>
      intro σ consistent
      cases isOperator : calculatorIsOperator c with
      | true =>
          have nonzero : c ≠ 0x00#8 := by
            rintro rfl
            exact Bool.noConfusion isOperator
          obtain ⟨e, rfl, finishes, leaves⟩ :=
            ih ⟨true, [], σ.apply (atoi σ.numberStr), c⟩ (decide_eq_true nonzero).symm
          refine ⟨⟨[], (c, e.first) :: e.rest, by simp, List.forall_mem_cons.mpr ⟨⟨isOperator, e.operand⟩, e.operators⟩⟩, rfl,
            fun fits => ?_, fun outside => ?_⟩
          · rw [List.append_nil] at fits ⊢
            have rest := List.forall_mem_cons.mp fits.2
            rw [calculatorLoop_operator isOperator consistent fits.1, finishes rest, Calculator.apply, if_pos nonzero]
            rfl
          · by_cases short : σ.numberStr.length < numberStrSize
            · rw [calculatorLoop_operator isOperator consistent short]
              exact leaves fun fits => outside ⟨by rwa [List.append_nil], List.forall_mem_cons.mpr fits⟩
            · rw [calculatorLoop_outside short]
              rfl
      | false =>
          by_cases short : σ.numberStr.length < numberStrSize
          · obtain ⟨e, rfl, finishes, leaves⟩ := ih { σ with numberStr := σ.numberStr ++ [c] } consistent
            rw [List.append_assoc, List.singleton_append] at finishes leaves
            refine ⟨⟨c :: e.first, e.rest, List.forall_mem_cons.mpr ⟨isOperator, e.operand⟩, e.operators⟩, rfl, ?_, ?_⟩
            · rw [calculatorLoop_operand isOperator short]
              exact finishes
            · rw [calculatorLoop_operand isOperator short]
              exact leaves
          · obtain ⟨e, rfl, -, -⟩ := ih ⟨false, [], 0, 0x00#8⟩ rfl
            refine ⟨⟨c :: e.first, e.rest, List.forall_mem_cons.mpr ⟨isOperator, e.operand⟩, e.operators⟩, rfl,
              fun fits => absurd fits.1 ?_, fun _ => ?_⟩
            · rw [List.length_append]
              omega
            · rw [calculatorLoop_outside short]
              rfl

/-- A number without operators is collected. -/
theorem calculatorLoop_number (number : List Byte) : ∀ σ : Calculator, (∀ c ∈ number, calculatorIsOperator c = false) →
    σ.numberStr.length + number.length < numberStrSize →
    (calculatorLoop number σ).bind calculatorFinish = some (σ.apply (atoi (σ.numberStr ++ number))) := by
  induction number with
  | nil =>
      intro σ _ short
      rw [calculatorLoop, Option.bind_some, calculatorFinish, calculatorNumber,
        if_pos (show σ.numberStr.length < numberStrSize from short), List.append_nil]
      rfl
  | cons c number ih =>
      intro σ plain short
      rw [List.length_cons] at short
      rw [calculatorLoop_operand (plain c List.mem_cons_self) (by omega), ih _
        (fun other isIn => plain other (List.mem_cons_of_mem _ isIn))
        (by rw [List.length_append, List.length_singleton]; omega), List.append_assoc]
      rfl

theorem digitsText_plain (n : Nat) : ∀ c ∈ digitsText n, calculatorIsOperator c = false := by
  intro c isIn
  obtain ⟨digit, isDigit, rfl⟩ := List.mem_map.mp isIn
  have small : digit < 10 := Nat.digits_lt_base (by decide) (List.mem_reverse.mp isDigit)
  interval_cases digit <;> rfl

/-- **A result that is shown stays when it is computed again**, also a negative one: its sign is taken for an operator behind
an empty operand. -/
theorem calculatorEquals_decimal {i : BitVec 32} (notLeast : i ≠ BitVec.intMin 32) :
    calculatorEquals (decimalText i.toInt) = some i.toInt := by
  have high := BitVec.toInt_lt (x := i)
  have low : -2 ^ 31 < i.toInt := by
    refine lt_of_le_of_ne (BitVec.le_toInt i) fun least => notLeast (BitVec.toInt_inj.mp ?_)
    rw [← least]
    decide
  have magnitude : toInt32 i.toInt.natAbs = i.toInt.natAbs := toInt32_of_bounds (by omega) (by omega)
  have few : (digitsText i.toInt.natAbs).length ≤ 10 := by
    rw [digitsText, List.length_map, List.length_reverse, Nat.digits_length_le_iff (by decide)]
    have : (10 : Nat) ^ 10 = 10000000000 := by norm_num
    omega
  have fits : (0 : Nat) + (digitsText i.toInt.natAbs).length < numberStrSize := by
    rw [Nat.zero_add]
    exact few.trans_lt (by decide)
  have alone : ∀ parsingRight left op, (calculatorLoop (digitsText i.toInt.natAbs) ⟨parsingRight, [], left, op⟩).bind
      calculatorFinish = some ((⟨parsingRight, [], left, op⟩ : Calculator).apply (atoi (digitsText i.toInt.natAbs))) :=
    fun _ _ _ => calculatorLoop_number _ _ (digitsText_plain _) fits
  have minus : ∀ number : Int, (⟨true, [], (⟨false, [], 0, 0x00#8⟩ : Calculator).apply (atoi []), 0x2D#8⟩ : Calculator).apply
    number = toInt32 (0 - number) := fun _ => rfl
  have plain : ∀ number : Int, (⟨false, [], 0, 0x00#8⟩ : Calculator).apply number = number := fun _ => rfl
  unfold calculatorEquals decimalText
  by_cases negative : i.toInt < 0
  · rw [if_pos negative, if_neg (by omega), List.singleton_append, calculatorLoop_operator rfl rfl (by decide), alone, minus,
      atoi_digits, magnitude, toInt32_of_bounds (by omega) (by omega)]
    exact congrArg some (by omega)
  · rw [if_neg negative, List.nil_append]
    by_cases zero : i.toInt = 0
    · rw [if_pos zero, zero]
      rfl
    · rw [if_neg zero, alone, plain, atoi_digits, magnitude]
      exact congrArg some (by omega)

/-- The result of an operand below zero. -/
theorem calculatorEquals_decimal_minus : (-8 : BitVec 32) ≠ BitVec.intMin 32 ∧
    calculatorEquals (decimalText (-8 : BitVec 32).toInt) = some (-8 : BitVec 32).toInt :=
  ⟨by decide, calculatorEquals_decimal (by decide)⟩

end PeachOS
