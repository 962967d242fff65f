/-
**A line that is read: `peachos_terminal_readline` of `programs/stdlib/src/peachos.c`.**

The loop variable is the length of the line and the place of the next write. A backspace takes it back, but on an empty line
the backspace is stored like a character. The line is then the one that was meant behind a backspace, until a second backspace
on an empty line takes the first one away.

* `readlineLoop_edits` — the loop edits a line, with that backspace;
* `typedLine_eq_iff` — the line is the one that was meant when no backspace is left in it;
* `peachosTerminalReadline_iff` — so the stored string is it exactly then.
-/

import PeachOS.Machine

namespace PeachOS

/-! ### The code -/

/-- The offsets that are written, the last one first, and the characters that are printed. -/
structure Readline where
  out : Int → Byte
  written : List Int
  printed : List Byte

/-- `out[offset] = value`. -/
def Readline.store (σ : Readline) (offset : Int) (value : Byte) : Readline where
  out := Function.update σ.out offset value
  written := offset :: σ.written
  printed := σ.printed

/-- `peachos_putchar`. -/
def Readline.putchar (σ : Readline) (key : Byte) : Readline := { σ with printed := key :: σ.printed }

/-- `peachos_getkeyblock`: what `peachos_getkey` returns is zero while there is no key. `none` when there is no more of it. -/
def peachosGetkeyblock : List Byte → Option (Byte × List Byte)
  | [] => none
  | val :: polled => if val = 0x00#8 then peachosGetkeyblock polled else some (val, polled)

/-- The loop of `peachos_terminal_readline`; `none` when it waits for a key. -/
def readlineLoop (max : Int) (outputWhileTyping : Bool) : Nat → List Byte → Int → Readline → Option Int × Readline
  | 0, _, _, σ => (none, σ)
  | fuel + 1, polled, i, σ =>
      if i < max - 1 then
        match peachosGetkeyblock polled with
        | none => (none, σ)
        | some (key, polled) =>
            if key = 0x0D#8 then (some i, σ)
            else
              let σ := if outputWhileTyping then σ.putchar key else σ
              if key = 0x08#8 ∧ 1 ≤ i then readlineLoop max outputWhileTyping fuel polled (i - 2 + 1) (σ.store (i - 1) 0x00#8)
              else readlineLoop max outputWhileTyping fuel polled (i + 1) (σ.store i key)
      else (some i, σ)

/-- `peachos_terminal_readline`, and whether it returns. -/
def peachosTerminalReadline (out : Int → Byte) (max : Int) (outputWhileTyping : Bool) (polled : List Byte) : Bool × Readline :=
  match readlineLoop max outputWhileTyping (polled.length + 1) polled 0 ⟨out, [], []⟩ with
  | (none, σ) => (false, σ)
  | (some i, σ) => (true, σ.store i 0x00#8)

/-! ### The line -/

/-- A line that is edited, by what a backspace does to it, up to a carriage return or until it is full; `none` when more keys
are needed. -/
def editLine (backspace : List Byte → List Byte) (limit : Nat) : (keys line : List Byte) → Option (List Byte)
  | [], line => if limit ≤ line.length then some line else none
  | key :: keys, line =>
      if limit ≤ line.length then some line
      else if key = 0x0D#8 then some line
      else if key = 0x08#8 then editLine backspace limit keys (backspace line)
      else editLine backspace limit keys (line ++ [key])

/-- A full line ends. -/
theorem editLine_full {backspace : List Byte → List Byte} {limit : Nat} {keys line : List Byte} (full : limit ≤ line.length) :
    editLine backspace limit keys line = some line := by
  cases keys with
  | nil => rw [editLine, if_pos full]
  | cons key keys => rw [editLine, if_pos full]

/-- **The line that is meant**: a backspace removes the last character. -/
def editedLine (limit : Nat) (keys : List Byte) : Option (List Byte) := editLine List.dropLast limit keys []

/-- On an empty line the code stores the backspace. -/
def typedBackspace (line : List Byte) : List Byte := if line = [] then [0x08#8] else line.dropLast

/-- **No backspace is in the line when it ends.** Every backspace on an empty line puts one there or takes it away. -/
def endsClean (limit : Nat) : (keys line : List Byte) → (stray : Bool) → Bool
  | [], line, stray => if stray && decide (limit ≤ line.length + 1) then false else true
  | key :: keys, line, stray =>
      if stray && decide (limit ≤ line.length + 1) then false
      else if limit ≤ line.length then true
      else if key = 0x0D#8 then !stray
      else if key = 0x08#8 then
        if line = [] then endsClean limit keys [] !stray else endsClean limit keys line.dropLast stray
      else endsClean limit keys (line ++ [key]) stray

/-- The keys. -/
def keysOf (polled : List Byte) : List Byte := polled.filter fun val => val ≠ 0x00#8

/-! ### The loop -/

/-- The next key. -/
theorem peachosGetkeyblock_keys (polled : List Byte) :
    match peachosGetkeyblock polled with
    | none => keysOf polled = []
    | some (key, rest) => keysOf polled = key :: keysOf rest ∧ rest.length < polled.length := by
  induction polled with
  | nil => rfl
  | cons val polled ih =>
      unfold peachosGetkeyblock keysOf
      by_cases none : val = 0x00#8
      · rw [if_pos none, List.filter_cons_of_neg (by simp [none])]
        split at ih
        · exact ih
        · exact ⟨ih.1, ih.2.trans (Nat.lt_succ_self _)⟩
      · rw [if_neg none, List.filter_cons_of_pos (by simp [none])]
        exact ⟨rfl, Nat.lt_succ_self _⟩

/-- **The line before the next write.** -/
structure Readline.Typing (σ : Readline) (max : Int) (line : List Byte) (i : Int) : Prop where
  index : i = line.length
  room : i ≤ max - 1
  text : ∀ n (inside : n < line.length), σ.out n = (line)[n]
  written : ∀ offset ∈ σ.written, 0 ≤ offset ∧ offset < max - 1

namespace Readline.Typing

variable {σ : Readline} {max i : Int} {line : List Byte}

theorem putchar (typing : σ.Typing max line i) (outputWhileTyping : Bool) (key : Byte) :
    (if outputWhileTyping then σ.putchar key else σ).Typing max line i := by
  cases outputWhileTyping
  · exact typing
  · exact ⟨typing.index, typing.room, typing.text, typing.written⟩

/-- A character is appended. -/
theorem append (typing : σ.Typing max line i) (more : i < max - 1) (key : Byte) :
    (σ.store i key).Typing max (line ++ [key]) (i + 1) where
  index := by rw [typing.index, List.length_append, List.length_singleton, Nat.cast_add, Nat.cast_one]
  room := more
  text := fun n inside => by
    rw [List.length_append, List.length_singleton] at inside
    rw [List.getElem_append]
    have index := typing.index
    split
    · next old => exact (Function.update_of_ne (by omega) _ _).trans (typing.text n old)
    · next new =>
        have here : (n : Int) = i := by omega
        have stored : (σ.store i key).out n = key := by
          rw [here]
          exact Function.update_self _ _ _
        rw [stored, List.getElem_singleton]
  written := fun offset isIn => by
    have index := typing.index
    rcases List.mem_cons.mp isIn with rfl | old
    · exact ⟨by omega, more⟩
    · exact typing.written offset old

/-- The last character is removed. -/
theorem dropLast (typing : σ.Typing max line i) (some : 1 ≤ i) :
    (σ.store (i - 1) 0x00#8).Typing max line.dropLast (i - 2 + 1) where
  index := by
    have index := typing.index
    rw [List.length_dropLast]
    omega
  room := by
    have room := typing.room
    omega
  text := fun n inside => by
    have index := typing.index
    rw [List.length_dropLast] at inside
    rw [List.getElem_dropLast]
    exact (Function.update_of_ne (by omega) _ _).trans (typing.text n (by omega))
  written := fun offset isIn => by
    have room := typing.room
    rcases List.mem_cons.mp isIn with rfl | old
    · exact ⟨by omega, by omega⟩
    · exact typing.written offset old

/-- A full line. -/
theorem full_iff (typing : σ.Typing max line i) : (max - 1).toNat ≤ line.length ↔ ¬ i < max - 1 := by
  have index := typing.index
  omega

/-- A backspace on an empty line. -/
theorem empty_iff (typing : σ.Typing max line i) : line = [] ↔ ¬ 1 ≤ i := by
  have index := typing.index
  rw [← List.length_eq_zero_iff]
  omega

end Readline.Typing

/-- **The loop edits a line.** -/
theorem readlineLoop_edits {max : Int} (outputWhileTyping : Bool) (fuel : Nat) (polled : List Byte) (i : Int) (σ : Readline)
    (line : List Byte) (enough : polled.length < fuel) (typing : σ.Typing max line i) :
    (∀ offset ∈ (readlineLoop max outputWhileTyping fuel polled i σ).2.written, 0 ≤ offset ∧ offset < max - 1) ∧
    match editLine typedBackspace (max - 1).toNat (keysOf polled) line with
    | none => (readlineLoop max outputWhileTyping fuel polled i σ).1 = none
    | some line' => ∃ i', (readlineLoop max outputWhileTyping fuel polled i σ).1 = some i' ∧
        (readlineLoop max outputWhileTyping fuel polled i σ).2.Typing max line' i' := by
  induction fuel generalizing polled i σ line with
  | zero => exact absurd enough (Nat.not_lt_zero _)
  | succ fuel ih =>
      have delivered := peachosGetkeyblock_keys polled
      rw [readlineLoop]
      by_cases more : i < max - 1
      · rw [if_pos more]
        have notFull : ¬ (max - 1).toNat ≤ line.length := fun full => typing.full_iff.mp full more
        split at delivered
        · rw [delivered, editLine, if_neg notFull]
          exact ⟨typing.written, rfl⟩
        · next key rest _ =>
            obtain ⟨keys, shorter⟩ := delivered
            rw [keys, editLine, if_neg notFull]
            dsimp only
            by_cases ends : key = 0x0D#8
            · rw [if_pos ends, if_pos ends]
              exact ⟨typing.written, i, rfl, typing⟩
            · rw [if_neg ends, if_neg ends]
              have echoed := typing.putchar outputWhileTyping key
              have enough' : rest.length < fuel := by omega
              by_cases back : key = 0x08#8
              · rw [if_pos back, typedBackspace]
                by_cases some : 1 ≤ i
                · rw [if_pos ⟨back, some⟩, if_neg (fun empty => typing.empty_iff.mp empty some)]
                  exact ih rest _ _ _ enough' (echoed.dropLast some)
                · have empty := typing.empty_iff.mpr some
                  have stored := echoed.append more key
                  rw [if_neg (fun both => some both.2), if_pos empty]
                  rw [empty, List.nil_append, back] at stored
                  rw [back]
                  exact ih rest _ _ _ enough' stored
              · rw [if_neg (fun both => back both.1), if_neg back]
                exact ih rest _ _ _ enough' (echoed.append more key)
      · have full := typing.full_iff.mpr more
        rw [if_neg more, editLine_full full]
        exact ⟨typing.written, i, rfl, typing⟩

/-! ### The line that is meant -/

/-- What a backspace keeps of a line, both do. -/
theorem editLine_keeps {keep : Byte → Prop} {backspace : List Byte → List Byte}
    (backspaces : ∀ line, (∀ byte ∈ line, keep byte) → ∀ byte ∈ backspace line, keep byte) {limit : Nat}
    {keys line line' : List Byte}
    (typed : ∀ key ∈ keys, key ≠ 0x08#8 → keep key) (kept : ∀ byte ∈ line, keep byte)
    (ends : editLine backspace limit keys line = some line') : ∀ byte ∈ line', keep byte := by
  induction keys generalizing line with
  | nil =>
      rw [editLine] at ends
      split at ends
      · exact Option.some.inj ends ▸ kept
      · exact absurd ends (by simp)
  | cons key keys ih =>
      have later : ∀ other ∈ keys, other ≠ 0x08#8 → keep other := fun other isIn => typed other (List.mem_cons_of_mem key isIn)
      rw [editLine] at ends
      split at ends
      · exact Option.some.inj ends ▸ kept
      split at ends
      · exact Option.some.inj ends ▸ kept
      split at ends
      · exact ih later (backspaces line kept) ends
      · next other =>
          refine ih later (fun byte isIn => ?_) ends
          rcases List.mem_append.mp isIn with old | new
          · exact kept byte old
          · rw [List.mem_singleton.mp new]
            exact typed key List.mem_cons_self other

/-- A line with a backspace in it is not the one that is meant. -/
theorem editLine_stray {limit : Nat} {keys line rest : List Byte} (none : ∀ byte ∈ line, byte ≠ 0x08#8) :
    editLine List.dropLast limit keys line ≠ some (0x08#8 :: rest) := fun ends =>
  editLine_keeps (fun _ kept byte isIn => kept byte (List.dropLast_subset _ isIn)) (fun _ _ other => other) none ends
    0x08#8 List.mem_cons_self rfl

/-- The line of the code: with a backspace before the one that is meant, or without. -/
def strayLine (stray : Bool) (line : List Byte) : List Byte := if stray then 0x08#8 :: line else line

/-- A character goes to the end of both. -/
theorem strayLine_append (stray : Bool) (line : List Byte) (key : Byte) :
    strayLine stray line ++ [key] = strayLine stray (line ++ [key]) := by
  cases stray <;> rfl

/-- A backspace takes away the last character of both, or the backspace itself. -/
theorem typedBackspace_strayLine (stray : Bool) (line : List Byte) :
    typedBackspace (strayLine stray line) = if line = [] then strayLine (!stray) [] else strayLine stray line.dropLast := by
  cases stray with
  | false => rfl
  | true =>
      cases line with
      | nil => rfl
      | cons first rest => rfl

/-- A line that is full with a backspace in it is not the one that is meant. -/
theorem typedLine_stops {limit : Nat} (keys line : List Byte) (clean : ∀ byte ∈ line, byte ≠ 0x08#8)
    (full : limit ≤ line.length + 1) :
    editLine typedBackspace limit keys (strayLine true line) ≠ editLine List.dropLast limit keys line := by
  intro same
  rw [strayLine, if_pos rfl, editLine_full (by rwa [List.length_cons])] at same
  exact editLine_stray clean same.symm

/-- A line that is not. -/
theorem strayLine_open {limit : Nat} {line : List Byte} {stray : Bool} (more : ¬ limit ≤ line.length)
    (goesOn : ¬ (stray = true ∧ limit ≤ line.length + 1)) : ¬ limit ≤ (strayLine stray line).length := by
  cases stray with
  | false => exact more
  | true => exact fun full => goesOn ⟨rfl, full⟩

/-- **The line of the code is the one that is meant when no backspace is left in it.** -/
theorem typedLine_eq_iff {limit : Nat} (keys line : List Byte) (stray : Bool) (clean : ∀ byte ∈ line, byte ≠ 0x08#8) :
    editLine typedBackspace limit keys (strayLine stray line) = editLine List.dropLast limit keys line ↔
      endsClean limit keys line stray = true := by
  induction keys generalizing line stray with
  | nil =>
      rw [endsClean]
      by_cases stops : stray = true ∧ limit ≤ line.length + 1
      · obtain ⟨rfl, full⟩ := stops
        rw [decide_eq_true full]
        exact iff_of_false (typedLine_stops [] line clean full) Bool.false_ne_true
      · rw [if_neg (by simpa using stops)]
        refine iff_of_true ?_ rfl
        by_cases full : limit ≤ line.length
        · have noStray : stray = false := Bool.eq_false_iff.mpr fun has => stops ⟨has, full.trans (Nat.le_succ _)⟩
          rw [noStray, strayLine, if_neg Bool.false_ne_true, editLine_full full, editLine_full full]
        · rw [editLine, editLine, if_neg full, if_neg (strayLine_open full stops)]
  | cons key keys ih =>
      rw [endsClean]
      by_cases stops : stray = true ∧ limit ≤ line.length + 1
      · obtain ⟨rfl, full⟩ := stops
        rw [decide_eq_true full]
        exact iff_of_false (typedLine_stops _ line clean full) Bool.false_ne_true
      · rw [if_neg (by simpa using stops)]
        by_cases full : limit ≤ line.length
        · have noStray : stray = false := Bool.eq_false_iff.mpr fun has => stops ⟨has, full.trans (Nat.le_succ _)⟩
          rw [if_pos full, noStray, strayLine, if_neg Bool.false_ne_true, editLine_full full, editLine_full full]
          exact iff_of_true rfl rfl
        · rw [if_neg full, editLine, editLine, if_neg full, if_neg (strayLine_open full stops)]
          by_cases ends : key = 0x0D#8
          · rw [if_pos ends, if_pos ends, if_pos ends]
            cases stray with
            | false => exact iff_of_true rfl rfl
            | true => exact iff_of_false (fun same => List.cons_ne_self _ _ (Option.some.inj same)) Bool.false_ne_true
          · rw [if_neg ends, if_neg ends, if_neg ends]
            by_cases back : key = 0x08#8
            · rw [if_pos back, if_pos back, if_pos back, typedBackspace_strayLine]
              by_cases empty : line = []
              · rw [if_pos empty, if_pos empty, empty]
                exact ih [] (!stray) fun byte isIn => absurd isIn List.not_mem_nil
              · rw [if_neg empty, if_neg empty]
                exact ih line.dropLast stray fun byte isIn => clean byte (List.dropLast_subset _ isIn)
            · rw [if_neg back, if_neg back, if_neg back, strayLine_append]
              refine ih (line ++ [key]) stray fun byte isIn => ?_
              rcases List.mem_append.mp isIn with old | new
              · exact clean byte old
              · rw [List.mem_singleton.mp new]
                exact back

/-! ### The stored string -/

/-- **A string is stored**, up to its terminator. -/
structure Readline.Stores (σ : Readline) (line : List Byte) : Prop where
  text : ∀ n (inside : n < line.length), σ.out n = (line)[n]
  terminated : σ.out line.length = 0x00#8

/-- There is one such string without a zero. -/
theorem Readline.Stores.unique {σ : Readline} {line line' : List Byte} (stores : σ.Stores line) (stores' : σ.Stores line')
    (nonzero : ∀ byte ∈ line, byte ≠ 0x00#8) (nonzero' : ∀ byte ∈ line', byte ≠ 0x00#8) : line = line' := by
  have length : line.length = line'.length := by
    rcases lt_trichotomy line.length line'.length with less | same | more
    · exact absurd (stores'.text _ less ▸ stores.terminated) (nonzero' _ (List.getElem_mem less))
    · exact same
    · exact absurd (stores.text _ more ▸ stores'.terminated) (nonzero _ (List.getElem_mem more))
  exact List.ext_getElem length fun n inside inside' => (stores.text n inside).symm.trans (stores'.text n inside')

/-- **`peachos_terminal_readline` reads a line**: it returns when the line that is meant ends, stores it, and writes nothing
but the offsets below `max`. -/
structure ReadsLine (max : Int) (keys : List Byte) (result : Bool × Readline) : Prop where
  returns : result.1 = (editedLine (max - 1).toNat keys).isSome
  stores : ∀ line, editedLine (max - 1).toNat keys = some line → result.2.Stores line
  written : ∀ offset ∈ result.2.written, 0 ≤ offset ∧ offset < max

/-- The string that the code stores. -/
theorem peachosTerminalReadline_stores {max : Int} (positive : 1 ≤ max) (out : Int → Byte) (outputWhileTyping : Bool)
    (polled : List Byte) :
    (peachosTerminalReadline out max outputWhileTyping polled).1 =
      (editLine typedBackspace (max - 1).toNat (keysOf polled) []).isSome ∧
    (∀ line, editLine typedBackspace (max - 1).toNat (keysOf polled) [] = some line →
      (peachosTerminalReadline out max outputWhileTyping polled).2.Stores line) ∧
    ∀ offset ∈ (peachosTerminalReadline out max outputWhileTyping polled).2.written, 0 ≤ offset ∧ offset < max := by
  have typing : (Readline.mk out [] []).Typing max [] 0 :=
    ⟨rfl, by omega, fun n inside => absurd inside (Nat.not_lt_zero n), fun _ isIn => absurd isIn List.not_mem_nil⟩
  obtain ⟨written, edits⟩ := readlineLoop_edits outputWhileTyping _ polled 0 _ [] (Nat.lt_succ_self _) typing
  unfold peachosTerminalReadline
  generalize readlineLoop max outputWhileTyping (polled.length + 1) polled 0 ⟨out, [], []⟩ = loop at written edits ⊢
  generalize editLine typedBackspace (max - 1).toNat (keysOf polled) [] = edited at edits ⊢
  obtain ⟨ended, σ⟩ := loop
  cases edited with
  | none =>
      obtain rfl : ended = none := edits
      refine ⟨rfl, fun line none => absurd none (by simp), fun offset isIn => ?_⟩
      have bounds := written offset isIn
      omega
  | some line =>
      obtain ⟨i, rfl, typing'⟩ : ∃ i, ended = Option.some i ∧ σ.Typing max line i := edits
      have index := typing'.index
      have room := typing'.room
      refine ⟨rfl, fun other same => ?_, fun offset isIn => ?_⟩
      · obtain rfl : line = other := Option.some.inj same
        refine ⟨fun n inside => ?_, ?_⟩
        · exact (Function.update_of_ne (by omega) _ _).trans (typing'.text n inside)
        · show (σ.store i 0x00#8).out line.length = 0x00#8
          rw [← index]
          exact Function.update_self _ _ _
      · rcases List.mem_cons.mp isIn with rfl | old
        · omega
        · have bounds := written offset old
          omega

/-- **It reads a line exactly when no backspace is left in it.** -/
theorem peachosTerminalReadline_iff {max : Int} (positive : 1 ≤ max) (out : Int → Byte) (outputWhileTyping : Bool)
    (polled : List Byte) :
    ReadsLine max (keysOf polled) (peachosTerminalReadline out max outputWhileTyping polled) ↔
      endsClean (max - 1).toNat (keysOf polled) [] false = true := by
  rw [← typedLine_eq_iff (keysOf polled) [] false fun byte isIn => absurd isIn List.not_mem_nil]
  obtain ⟨returns, stores, written⟩ := peachosTerminalReadline_stores positive out outputWhileTyping polled
  have nonzero : ∀ key ∈ keysOf polled, key ≠ 0x00#8 := fun key isIn => of_decide_eq_true (List.mem_filter.mp isIn).2
  have backspaces : ∀ line : List Byte, (∀ byte ∈ line, byte ≠ 0x00#8) → ∀ byte ∈ typedBackspace line, byte ≠ 0x00#8 := by
    intro line kept byte isIn
    unfold typedBackspace at isIn
    split at isIn
    · rw [List.mem_singleton.mp isIn]
      decide
    · exact kept byte (List.dropLast_subset _ isIn)
  have empty : ∀ byte ∈ ([] : List Byte), byte ≠ 0x00#8 := fun byte isIn => absurd isIn List.not_mem_nil
  unfold strayLine
  rw [if_neg Bool.false_ne_true]
  change _ ↔ _ = editedLine (max - 1).toNat (keysOf polled)
  constructor
  · intro reads
    have isSome := returns.symm.trans reads.returns
    cases edited : editedLine (max - 1).toNat (keysOf polled) with
    | none =>
        rw [edited] at isSome
        exact Option.not_isSome_iff_eq_none.mp (by rw [isSome]; exact Bool.false_ne_true)
    | some line =>
        rw [edited] at isSome
        obtain ⟨typed, same⟩ := Option.isSome_iff_exists.mp isSome
        have stored := stores typed same
        have meant := reads.stores line edited
        rw [same, stored.unique meant (editLine_keeps backspaces (fun key isIn _ => nonzero key isIn) empty same)
          (editLine_keeps (fun _ kept byte isIn => kept byte (List.dropLast_subset _ isIn)) (fun key isIn _ => nonzero key isIn)
            empty edited)]
  · intro same
    rw [same] at returns stores
    exact ⟨returns, stores, written⟩

/-- A backspace before the end of the line, with room for more: the string is the backspace. -/
theorem peachosTerminalReadline_storesBackspace : ¬ ∀ max, 1 ≤ max → ∀ out outputWhileTyping polled,
    ReadsLine max (keysOf polled) (peachosTerminalReadline out max outputWhileTyping polled) := by
  intro always
  have reads := always 10 (by decide) (fun _ => 0xAA#8) false [0x08#8, 0x0D#8]
  exact absurd (reads.stores [] (by decide)).terminated (by decide)

/-- A word, with a letter too many that is taken back. -/
theorem peachosTerminalReadline_iff_word :
    ReadsLine 10 [0x6C#8, 0x73#8, 0x73#8, 0x08#8, 0x0D#8]
      (peachosTerminalReadline (fun _ => 0xAA#8) 10 true [0x00#8, 0x6C#8, 0x73#8, 0x73#8, 0x00#8, 0x08#8, 0x0D#8]) :=
  (peachosTerminalReadline_iff (by decide) (fun _ => 0xAA#8) true
    [0x00#8, 0x6C#8, 0x73#8, 0x73#8, 0x00#8, 0x08#8, 0x0D#8]).mpr (by decide)

end PeachOS
