/-
**The buffer of a textfield: `programs/guilib/src/gui/textfield.c`.**

The cursor is an `int` that is set to anything, the limits are `size_t`, and the bytes of a buffer that grew are what `realloc`
left there. A character is written where the cursor is, behind the end of the buffer too, and it may take the last zero byte.

* `store_safe_iff` — when one write keeps the buffer;
* `textfieldPutChar_safe_iff`, `textfieldBackspace_safe_iff` — the calls that do it;
* `textfield_safe_of_reachable` — so the buffer is kept in every run of such calls.
-/

import PeachOS.Machine
import PeachOS.Lib.StepRun

namespace PeachOS

open StepRun

/-! ### The code -/

/-- `TEXTFIELD_DEFAULT_BUFFER_SIZE`. -/
def textfieldDefaultBufferSize : Nat := 128

/-- A write to the text: its offset, and the bytes that were allocated. -/
structure TextfieldWrite where
  offset : Int
  allocated : Nat
deriving DecidableEq

/-- What `struct textfield_private_data` has of the text, and the writes. `text` is `none` for `NULL`. -/
structure Textfield where
  text : Option (Int → Byte)
  maxAllowedLen : Nat
  currentAllocatedLen : Nat
  currentLen : Nat
  index : Int
  written : List TextfieldWrite

/-- What an allocation of a size finds in its memory; `none` when it fails. -/
abbrev FreshBytes := Nat → Option (Int → Byte)

namespace Textfield

/-- The bytes behind `text.text`. -/
def allocated (field : Textfield) : Nat := if field.text.isSome then field.currentAllocatedLen else 0

/-- `text.text[offset] = value`. -/
def store (field : Textfield) (offset : Int) (value : Byte) : Textfield :=
  { field with
    text := field.text.map fun text => Function.update text offset value
    written := ⟨offset, field.allocated⟩ :: field.written }

end Textfield

/-- `realloc` of a text of `size` bytes. -/
def extendText (text : Int → Byte) (size : Nat) (bytes : Int → Byte) : Int → Byte :=
  fun offset => if offset < size then text offset else bytes offset

/-- `gui_element_textfield_realloc_text`. -/
def textfieldReallocText (fresh : FreshBytes) (field : Textfield) (newSize : Nat) : Textfield :=
  match field.text with
  | none =>
      { field with text := (fresh newSize).map fun _ _ => 0x00#8, currentLen := 0, currentAllocatedLen := newSize }
  | some text =>
      if field.currentAllocatedLen = newSize then field
      else
        let field' := { field with
          text := (fresh newSize).map (extendText text field.currentAllocatedLen), currentAllocatedLen := newSize }
        if newSize ≤ field.currentLen then
          { field' with currentLen := toWord ((newSize : Int) - 1), index := toInt32 ((toWord ((newSize : Int) - 1) : Int) - 1) }
        else field'

namespace Textfield

/-- `index >= max_allowed_len - 1`, as `size_t`. -/
def Refuses (field : Textfield) : Prop := toWord ((field.maxAllowedLen : Int) - 1) ≤ toWord field.index

/-- `index >= current_allocated_len - 1`, as `size_t`. -/
def Full (field : Textfield) : Prop := toWord ((field.currentAllocatedLen : Int) - 1) ≤ toWord field.index

instance (field : Textfield) : Decidable field.Refuses := inferInstanceAs (Decidable (_ ≤ _))

instance (field : Textfield) : Decidable field.Full := inferInstanceAs (Decidable (_ ≤ _))

/-- `current_allocated_len + TEXTFIELD_DEFAULT_BUFFER_SIZE`. -/
def newSize (field : Textfield) : Nat := toWord (field.currentAllocatedLen + textfieldDefaultBufferSize : Nat)

/-- `private_data->index++`, and the length when the cursor is behind it. -/
def advance (field : Textfield) : Textfield :=
  let field := { field with index := toInt32 (field.index + 1) }
  if toWord ((field.currentLen : Int) - 1) ≤ toWord field.index then
    { field with currentLen := toWord (toInt32 (field.index + 1)) }
  else field

end Textfield

/-- `gui_element_textfield_put_char`. `gui_element_textfield_realloc_text` returns zero always. -/
def textfieldPutChar (fresh : FreshBytes) (field : Textfield) (c : Byte) : Textfield :=
  if field.Refuses then field
  else
    let field := if field.Full then textfieldReallocText fresh field field.newSize else field
    (field.store field.index c).advance

/-- `gui_element_textfield_clear`. -/
def textfieldClear (field : Textfield) : Textfield :=
  { field with
    index := 0
    currentLen := 0
    text := field.text.map fun text offset => if 0 ≤ offset ∧ offset < field.currentAllocatedLen then 0x00#8 else text offset
    written := (List.range field.currentAllocatedLen).map (⟨·, field.allocated⟩) ++ field.written }

/-- `gui_element_textfield_cursor_set`. -/
def textfieldCursorSet (field : Textfield) (index : Int) : Textfield := { field with index := index }

/-- `gui_element_text_field_max_characters_set`. -/
def textfieldMaxCharactersSet (field : Textfield) (maxCharactersAllowed : Nat) : Textfield :=
  { field with maxAllowedLen := maxCharactersAllowed }

/-- `gui_element_textfield_text_set`. -/
def textfieldTextSet (fresh : FreshBytes) (field : Textfield) (text : List Byte) : Textfield :=
  text.foldl (textfieldPutChar fresh) (textfieldClear field)

/-- `gui_element_textfield_backspace`. -/
def textfieldBackspace (field : Textfield) : Textfield :=
  if field.index = 0 then field
  else
    let field := field.store (field.index - 1) 0x00#8
    { field with index := toInt32 (field.index - 1) }

/-- The text of `gui_element_textfield_create`. -/
def textfieldCreate (fresh : FreshBytes) : Textfield :=
  textfieldReallocText fresh (textfieldMaxCharactersSet ⟨none, 0, 0, 0, 0, []⟩ textfieldDefaultBufferSize)
    textfieldDefaultBufferSize

/-- The calls on a textfield. -/
inductive TextfieldCall
  | putChar (c : Byte)
  | backspace
  | textSet (text : List Byte)
  | clear
  | cursorSet (index : Int)
  | maxCharactersSet (maxCharactersAllowed : Nat)

/-- What a call does. -/
def TextfieldCall.run (fresh : FreshBytes) (field : Textfield) : TextfieldCall → Textfield
  | putChar c => textfieldPutChar fresh field c
  | backspace => textfieldBackspace field
  | textSet text => textfieldTextSet fresh field text
  | clear => textfieldClear field
  | cursorSet index => textfieldCursorSet field index
  | maxCharactersSet maxCharactersAllowed => textfieldMaxCharactersSet field maxCharactersAllowed

/-- A call on a textfield, with what its allocations find. -/
def textfieldStep (field : Textfield) (input : TextfieldCall × FreshBytes) (field' : Textfield) : Prop :=
  field' = input.1.run input.2 field

/-- A textfield whose text was allocated. -/
def TextfieldCreated (field : Textfield) : Prop :=
  ∃ fresh : FreshBytes, (fresh textfieldDefaultBufferSize).isSome ∧ field = textfieldCreate fresh

/-! ### The buffer -/

/-- A zero byte of a text, at another offset than the cursor. -/
def HasZeroBut (text : Int → Byte) (size : Nat) (place : Int) : Prop :=
  ∃ offset : Int, 0 ≤ offset ∧ offset < size ∧ offset ≠ place ∧ text offset = 0x00#8

/-- **The buffer is kept**: every write went into it, and the text ends in it. -/
structure Textfield.Safe (field : Textfield) : Prop where
  inside : ∀ write ∈ field.written, 0 ≤ write.offset ∧ write.offset < write.allocated
  ends : ∃ text, field.text = some text ∧ ∃ offset : Int, 0 ≤ offset ∧ offset < field.currentAllocatedLen ∧ text offset = 0x00#8

/-- A character can be put at a place: it is in the buffer, and a zero byte is left. -/
def PlaceTakes (text : Option (Int → Byte)) (size : Nat) (place : Int) (c : Byte) : Prop :=
  ∃ bytes, text = some bytes ∧ (0 ≤ place ∧ place < size) ∧ (c = 0x00#8 ∨ HasZeroBut bytes size place)

section Buffer

variable {field field' : Textfield} {fresh : FreshBytes}

namespace Textfield

/-- It is the text, its size and the writes that count. -/
theorem Safe.congr (safe : field.Safe) (text : field'.text = field.text)
    (size : field'.currentAllocatedLen = field.currentAllocatedLen) (written : field'.written = field.written) : field'.Safe where
  inside := written ▸ safe.inside
  ends := by
    rw [text, size]
    exact safe.ends

/-- The cursor moves on in the buffer. -/
theorem advance_safe_iff : field.advance.Safe ↔ field.Safe := by
  unfold advance
  dsimp only
  split
  · exact ⟨fun safe => safe.congr rfl rfl rfl, fun safe => safe.congr rfl rfl rfl⟩
  · exact ⟨fun safe => safe.congr rfl rfl rfl, fun safe => safe.congr rfl rfl rfl⟩

/-- **When one write keeps the buffer.** -/
theorem store_safe_iff (inside : ∀ write ∈ field.written, 0 ≤ write.offset ∧ write.offset < write.allocated)
    (place : Int) (c : Byte) :
    (field.store place c).Safe ↔ PlaceTakes field.text field.currentAllocatedLen place c := by
  constructor
  · rintro ⟨allInside, text, isText, offset, low, high, zero⟩
    obtain ⟨bytes, isBytes, rfl⟩ := Option.map_eq_some_iff.mp isText
    have written := allInside _ List.mem_cons_self
    rw [allocated, isBytes, Option.isSome_some, if_pos rfl] at written
    refine ⟨bytes, isBytes, written, ?_⟩
    by_cases same : offset = place
    · rw [same, Function.update_self] at zero
      exact Or.inl zero
    · rw [Function.update_of_ne same] at zero
      exact Or.inr ⟨offset, low, high, same, zero⟩
  · rintro ⟨bytes, isBytes, written, zeroLeft⟩
    constructor
    · refine List.forall_mem_cons.mpr ⟨?_, inside⟩
      rwa [allocated, isBytes, Option.isSome_some, if_pos rfl]
    · refine ⟨Function.update bytes place c, by rw [store, isBytes, Option.map_some], ?_⟩
      rcases zeroLeft with isZero | ⟨offset, low, high, other, zero⟩
      · exact ⟨place, written.1, written.2, by rw [Function.update_self, isZero]⟩
      · exact ⟨offset, low, high, by rw [Function.update_of_ne other, zero]⟩

end Textfield

/-! ### The calls -/

namespace Textfield

/-- The text that a character is put into. -/
def putText (fresh : FreshBytes) (field : Textfield) : Option (Int → Byte) :=
  if field.Full then field.text.bind fun text => (fresh field.newSize).map (extendText text field.currentAllocatedLen)
    else field.text

/-- Its size. -/
def putSize (field : Textfield) : Nat := if field.Full then field.newSize else field.currentAllocatedLen

/-- Where it is put: the cursor is moved back when the length is behind the buffer. -/
def putPlace (field : Textfield) : Int :=
  if field.Full ∧ field.newSize ≤ field.currentLen then toInt32 ((toWord ((field.newSize : Int) - 1) : Int) - 1)
  else field.index

/-- **A character can be put**: it is refused, or there is room for it where the cursor is. -/
def PutFits (fresh : FreshBytes) (field : Textfield) (c : Byte) : Prop :=
  field.Refuses ∨ PlaceTakes (field.putText fresh) field.putSize field.putPlace c

end Textfield

/-- A buffer that grows gets another size. -/
theorem newSize_ne (field : Textfield) : field.currentAllocatedLen ≠ field.newSize := by
  unfold Textfield.newSize textfieldDefaultBufferSize
  rw [toWord_mod]
  omega

/-- The field when there is room for a character. -/
def Textfield.grown (fresh : FreshBytes) (field : Textfield) : Textfield :=
  if field.Full then textfieldReallocText fresh field field.newSize else field

/-- What it is then. -/
theorem Textfield.grown_spec {text : Int → Byte} (isText : field.text = some text) :
    ((field.grown fresh).text = field.putText fresh ∧ (field.grown fresh).currentAllocatedLen = field.putSize) ∧
      (field.grown fresh).index = field.putPlace ∧ (field.grown fresh).written = field.written := by
  by_cases full : field.Full
  · simp only [grown, putText, putSize, putPlace, full, if_true, true_and, textfieldReallocText, isText,
      if_neg (newSize_ne field)]
    by_cases behind : field.newSize ≤ field.currentLen
    · simp only [behind, if_true, and_self, Option.bind_some]
    · simp only [behind, if_false, and_self, Option.bind_some]
  · simp only [grown, putText, putSize, putPlace, full, false_and, if_false, and_self]

/-- **A character keeps the buffer exactly when it can be put.** -/
theorem textfieldPutChar_safe_iff (safe : field.Safe) (c : Byte) :
    (textfieldPutChar fresh field c).Safe ↔ field.PutFits fresh c := by
  by_cases refuses : field.Refuses
  · rw [textfieldPutChar, if_pos refuses]
    exact iff_of_true safe (Or.inl refuses)
  · obtain ⟨text, isText, -⟩ := safe.ends
    obtain ⟨⟨text', size⟩, place, written⟩ := @Textfield.grown_spec field fresh text isText
    have put := Textfield.store_safe_iff (written ▸ safe.inside) (field.grown fresh).index c
    rw [text', size, place] at put
    have same : (textfieldPutChar fresh field c).Safe ↔ ((field.grown fresh).store field.putPlace c).Safe := by
      rw [textfieldPutChar, if_neg refuses, ← place]
      exact Textfield.advance_safe_iff
    rw [same, put, Textfield.PutFits, or_iff_right refuses]

/-- **So does a backspace when the cursor is in the buffer.** -/
theorem textfieldBackspace_safe_iff (safe : field.Safe) :
    (textfieldBackspace field).Safe ↔ 0 ≤ field.index ∧ field.index ≤ field.currentAllocatedLen := by
  unfold textfieldBackspace
  split
  · next start => exact iff_of_true safe ⟨start.ge, start.le.trans (Int.natCast_nonneg _)⟩
  · next other =>
      obtain ⟨text, isText, -⟩ := safe.ends
      have stored := Textfield.store_safe_iff safe.inside (field.index - 1) 0x00#8
      constructor
      · intro kept
        obtain ⟨-, -, inside, -⟩ := stored.mp (kept.congr rfl rfl rfl)
        omega
      · intro inside
        exact (stored.mpr ⟨text, isText, by omega, Or.inl rfl⟩).congr rfl rfl rfl

/-- A field that is cleared is kept. -/
theorem textfieldClear_safe (safe : field.Safe) : (textfieldClear field).Safe := by
  obtain ⟨text, isText, offset, low, high, -⟩ := safe.ends
  constructor
  · intro write isWrite
    rcases List.mem_append.mp isWrite with isCleared | isBefore
    · obtain ⟨cleared, inRange, rfl⟩ := List.mem_map.mp isCleared
      rw [Textfield.allocated, isText, Option.isSome_some, if_pos rfl]
      exact ⟨Int.natCast_nonneg _, Int.ofNat_lt.mpr (List.mem_range.mp inRange)⟩
    · exact safe.inside write isBefore
  · refine ⟨_, congrArg (Option.map _) isText, offset, low, high, ?_⟩
    exact if_pos ⟨low, high⟩

/-- Every character of a text can be put, one after the other. -/
def PutsFit (fresh : FreshBytes) : Textfield → List Byte → Prop
  | _, [] => True
  | field, c :: text => field.PutFits fresh c ∧ PutsFit fresh (textfieldPutChar fresh field c) text

/-- Then the text keeps the buffer. -/
theorem foldl_putChar_safe (text : List Byte) (safe : field.Safe) (fits : PutsFit fresh field text) :
    (text.foldl (textfieldPutChar fresh) field).Safe := by
  induction text generalizing field with
  | nil => exact safe
  | cons c text ih => exact ih ((textfieldPutChar_safe_iff safe c).mpr fits.1) fits.2

end Buffer

/-! ### The result -/

/-- **A call fits**: its characters can be put, and a backspace has the cursor in the buffer. -/
def CallFits (field : Textfield) : TextfieldCall × FreshBytes → Prop
  | (.putChar c, fresh) => field.PutFits fresh c
  | (.backspace, _) => 0 ≤ field.index ∧ field.index ≤ field.currentAllocatedLen
  | (.textSet text, fresh) => PutsFit fresh (textfieldClear field) text
  | _ => True

/-- A created field is kept. -/
theorem textfieldCreate_safe {field : Textfield} (created : TextfieldCreated field) : field.Safe := by
  obtain ⟨fresh, isSome, rfl⟩ := created
  obtain ⟨bytes, isBytes⟩ := Option.isSome_iff_exists.mp isSome
  have positive : (0 : Int) < textfieldDefaultBufferSize := by decide
  exact ⟨fun write isWrite => absurd isWrite List.not_mem_nil, fun _ => 0x00#8, congrArg (Option.map _) isBytes, 0,
    le_rfl, positive, rfl⟩

/-- **The buffer in every run of calls that fit**: it is kept, and exactly the calls that fit keep it. -/
theorem textfield_safe_of_reachable {field : Textfield}
    (reached : Reachable (Guarded CallFits textfieldStep) TextfieldCreated field) :
    field.Safe ∧ (∀ fresh c, (textfieldPutChar fresh field c).Safe ↔ CallFits field (.putChar c, fresh)) ∧
      ∀ fresh, (textfieldBackspace field).Safe ↔ CallFits field (.backspace, fresh) := by
  have safe : field.Safe := by
    refine reached.invariant _ (fun _ => textfieldCreate_safe) ?_
    rintro field ⟨call, fresh⟩ _ safe ⟨fits, rfl⟩
    cases call with
    | putChar c => exact (textfieldPutChar_safe_iff safe c).mpr fits
    | backspace => exact (textfieldBackspace_safe_iff safe).mpr fits
    | textSet text => exact foldl_putChar_safe text (textfieldClear_safe safe) fits
    | clear => exact textfieldClear_safe safe
    | cursorSet index => exact safe.congr rfl rfl rfl
    | maxCharactersSet maxCharactersAllowed => exact safe.congr rfl rfl rfl
  exact ⟨safe, fun _ => textfieldPutChar_safe_iff safe, fun _ => textfieldBackspace_safe_iff safe⟩

/-- Memory that is found zeroed. -/
def zeroedMemory : FreshBytes := fun _ => some fun _ => 0x00#8

/-- A field with one character. -/
theorem textfield_safe_of_reachable_typed : (textfieldPutChar zeroedMemory (textfieldCreate zeroedMemory) 0x61#8).Safe := by
  have fits : (textfieldCreate zeroedMemory).PutFits zeroedMemory 0x61#8 :=
    Or.inr ⟨fun _ => 0x00#8, rfl, by decide, Or.inr ⟨1, by decide, by decide, by decide, rfl⟩⟩
  have created : TextfieldCreated (textfieldCreate zeroedMemory) := ⟨zeroedMemory, rfl, rfl⟩
  exact (textfield_safe_of_reachable (.next (.putChar 0x61#8, zeroedMemory) (.start created) ⟨fits, rfl⟩)).1

/-- **A character is written behind the buffer.** -/
theorem textfield_writesBehind : ¬ ∀ field, Reachable textfieldStep TextfieldCreated field → field.Safe := by
  intro always
  have created : Reachable textfieldStep TextfieldCreated (textfieldCreate zeroedMemory) := .start ⟨zeroedMemory, rfl, rfl⟩
  have raised := Reachable.next (.maxCharactersSet 1000, zeroedMemory) created rfl
  have moved := Reachable.next (.cursorSet 500, zeroedMemory) raised rfl
  have put := Reachable.next (.putChar 0x61#8, zeroedMemory) moved rfl
  have inside := (always _ put).inside ⟨500, 256⟩ (by decide)
  exact absurd inside.2 (by decide)

end PeachOS
