/-
**The tokens of a string: `strtok` of `programs/stdlib/src/string.c`.**

Between its calls `strtok` keeps its place in `sp`. A new string is only taken when there is no place: after a tokenization
that was given up, it is not looked at, and the old one goes on.

* `strtok_token`, `strtok_separators` — one call;
* `strtokTokens_text` — the calls from a place on return the tokens of the string there, and leave no place;
* `strtokTokens_iff` — so the tokens of a new string are returned when there is no place, or one at its first token.
-/

import PeachOS.Lib.StepRun
import PeachOS.Lib.Tokens
import PeachOS.Task.CopiedString

namespace PeachOS

open ByteStore StepRun Tokens

/-! ### The code -/

/-- The memory of a program, and `sp`. -/
structure Strtok where
  mem : Memory
  sp : Nat

/-- The first loop of `strtok`: the place behind the delimiters. -/
def strtokSkip (delimiters : List Byte) (mem : Memory) : (fuel pStart : Nat) → Option Nat
  | 0, _ => none
  | fuel + 1, pStart => if mem pStart ∈ delimiters then strtokSkip delimiters mem fuel (pStart + 1) else some pStart

/-- The second loop: the place behind the token, which is terminated. -/
def strtokEnd (delimiters : List Byte) : (fuel sp : Nat) → Memory → Option (Nat × Memory)
  | 0, _, _ => none
  | fuel + 1, sp, mem =>
      if mem sp = 0x00#8 then some (sp, mem)
      else if mem sp ∈ delimiters then some (sp + 1, put mem sp 0x00#8)
      else strtokEnd delimiters fuel (sp + 1) mem

/-- Where `strtok` starts: the string is only taken when there is no place. -/
def strtokStart (str : Nat) (σ : Strtok) : Nat := if str ≠ 0 ∧ σ.sp = 0 then str else σ.sp

/-- `strtok`, for the bytes of its delimiters. The loops go on as long as there is fuel. -/
def strtok (fuel : Nat) (delimiters : List Byte) (str : Nat) (σ : Strtok) : Option (Nat × Strtok) :=
  if str = 0 ∧ σ.sp = 0 then some (0, σ)
  else
    match strtokSkip delimiters σ.mem fuel (strtokStart str σ) with
    | none => none
    | some pStart =>
        if σ.mem pStart = 0x00#8 then some (0, ⟨σ.mem, 0⟩)
        else (strtokEnd delimiters fuel pStart σ.mem).map fun (sp, mem) => (pStart, ⟨mem, sp⟩)

/-- `strtok(str, delimiters)`, and `strtok(NULL, delimiters)` until it returns `NULL`. -/
def strtokTokens (fuel : Nat) (delimiters : List Byte) : (turns str : Nat) → Strtok → Option (List Nat × Strtok)
  | 0, _, _ => none
  | turns + 1, str, σ =>
      match strtok fuel delimiters str σ with
      | none => none
      | some (token, σ) =>
          if token = 0 then some ([], σ)
          else (strtokTokens fuel delimiters turns 0 σ).map fun (tokens, σ) => (token :: tokens, σ)

/-! ### Strings of a program -/

/-- **A string of a program**, which lies below the end of the addresses. -/
structure TextAt (mem : Memory) (a : Nat) (text : List Byte) : Prop where
  string : StringAt mem a text
  inside : a + text.length < 2 ^ 64

namespace TextAt

variable {mem mem' : Memory} {a : Nat} {text front rest token : List Byte}

theorem byte (isText : TextAt mem a text) {i : Nat} (inside : i ≤ text.length) : mem (a + i) = text.getD i 0x00#8 := by
  have bytes := isText.string.bytes i inside
  have bound := isText.inside
  rwa [toWord_natCast (by omega)] at bytes

theorem of_bytes (bytes : ∀ i ≤ text.length, mem (a + i) = text.getD i 0x00#8) (nonzero : 0x00#8 ∉ text)
    (bound : a + text.length < 2 ^ 64) : TextAt mem a text where
  string := ⟨fun i inside => by rw [toWord_natCast (by omega)]; exact bytes i inside, nonzero⟩
  inside := bound

/-- The byte behind the front of a string. -/
theorem head (isText : TextAt mem a (front ++ rest)) : mem (a + front.length) = rest.getD 0 0x00#8 := by
  rw [isText.byte (by rw [List.length_append]; exact Nat.le_add_right _ _), List.getD_append_right _ _ _ _ le_rfl, Nat.sub_self]

/-- The end of a string is one. -/
theorem behind (isText : TextAt mem a (front ++ rest)) : TextAt mem (a + front.length) rest := by
  have bound := isText.inside
  rw [List.length_append] at bound
  refine .of_bytes (fun i inside => ?_) (fun isIn => isText.string.nonzero (List.mem_append_right front isIn)) (by omega)
  rw [Nat.add_assoc, isText.byte (by rw [List.length_append]; omega), List.getD_append_right _ _ _ _ (Nat.le_add_right _ _),
    Nat.add_sub_cancel_left]

/-- A place has one string. -/
theorem unique (isText : TextAt mem a text) (isText' : TextAt mem a front) : text = front := by
  have shorter {text text' : List Byte} (first : TextAt mem a text) (second : TextAt mem a text') :
      text'.length ≤ text.length := by
    by_contra longer
    have last := first.byte le_rfl
    rw [second.byte (by omega), List.getD_eq_default _ _ le_rfl] at last
    have same := (getD_eq_zero_iff second.string.nonzero (by omega)).mp last
    omega
  refine List.ext_getElem (le_antisymm (shorter isText' isText) (shorter isText isText')) fun i inside inside' => ?_
  rw [← List.getD_eq_getElem _ 0x00#8 inside, ← List.getD_eq_getElem _ 0x00#8 inside', ← isText.byte inside.le,
    isText'.byte inside'.le]

/-- A string stays where its bytes and its terminator do. -/
theorem congr (isText : TextAt mem a text) (same : ∀ other, a ≤ other → other ≤ a + text.length → mem' other = mem other) :
    TextAt mem' a text :=
  .of_bytes (fun i inside => by rw [same _ (Nat.le_add_right _ _) (by omega), isText.byte inside]) isText.string.nonzero
    isText.inside

/-- A terminator cuts a string. -/
theorem cut (isText : TextAt mem a (token ++ rest)) : TextAt (put mem (a + token.length) 0x00#8) a token := by
  have bound := isText.inside
  rw [List.length_append] at bound
  refine .of_bytes (fun i inside => ?_) (fun isIn => isText.string.nonzero (List.mem_append_left rest isIn)) (by omega)
  rcases Nat.lt_or_eq_of_le inside with before | rfl
  · rw [put_other mem (by omega), isText.byte (by rw [List.length_append]; omega), List.getD_append _ _ _ _ before]
  · rw [put_same, List.getD_eq_default _ _ le_rfl]

end TextAt

/-! ### One call -/

/-- A delimiter separates. -/
def isDelimiter (delimiters : List Byte) (byte : Byte) : Bool := decide (byte ∈ delimiters)

section Call

variable {delimiters : List Byte} {mem : Memory} {a fuel : Nat} {front token rest : List Byte}

/-- The first loop goes to the first byte that is no delimiter, or to the end. -/
theorem strtokSkip_text (isText : TextAt mem a (front ++ rest)) (separators : ∀ byte ∈ front, isDelimiter delimiters byte = true)
    (stops : rest.getD 0 0x00#8 ∉ delimiters) (enough : front.length < fuel) :
    strtokSkip delimiters mem fuel a = some (a + front.length) := by
  induction front generalizing a fuel with
  | nil =>
      obtain ⟨fuel, rfl⟩ : ∃ fuel', fuel = fuel' + 1 := ⟨fuel - 1, by omega⟩
      have first : mem a = rest.getD 0 0x00#8 := isText.head
      rw [strtokSkip, first, if_neg stops]
      rfl
  | cons byte front ih =>
      obtain ⟨fuel, rfl⟩ : ∃ fuel', fuel = fuel' + 1 := ⟨fuel - 1, by omega⟩
      have first : mem a = byte := isText.byte (Nat.zero_le _)
      have later : TextAt mem (a + 1) (front ++ rest) := @TextAt.behind mem a [byte] (front ++ rest) isText
      rw [strtokSkip, first, if_pos (of_decide_eq_true (separators byte List.mem_cons_self)),
        ih later (fun other isIn => separators other (List.mem_cons_of_mem byte isIn)) (Nat.lt_of_succ_lt_succ enough),
        List.length_cons, Nat.add_assoc, Nat.add_comm 1]

/-- The place behind a token: behind the delimiter that ends it, or at the end of the string. -/
def behindToken (place : Nat) (rest : List Byte) : Nat := if rest = [] then place else place + 1

/-- It is not behind the end of the string. -/
theorem behindToken_bounds (place : Nat) (rest : List Byte) : place ≤ behindToken place rest ∧
    behindToken place rest + rest.tail.length ≤ place + rest.length ∧
      (rest.tail.length = 0 ∨ place < behindToken place rest) := by
  unfold behindToken
  cases rest with
  | nil => exact ⟨le_rfl, le_rfl, Or.inl rfl⟩
  | cons byte rest =>
      rw [if_neg (List.cons_ne_nil _ _), List.tail_cons, List.length_cons]
      omega

/-- The tokens there are those behind the delimiter. -/
theorem tokensAt_behindToken (place : Nat) (rest : List Byte) :
    tokensAt (isDelimiter delimiters) (place + 1) rest.tail =
      tokensAt (isDelimiter delimiters) (behindToken place rest) rest.tail := by
  unfold behindToken
  split
  · next none => rw [none]; rfl
  · rfl

/-- The second loop goes to the end of the token, and terminates it. -/
theorem strtokEnd_text (isText : TextAt mem a (token ++ rest)) (noSeparator : ∀ byte ∈ token, isDelimiter delimiters byte = false)
    (divided : Divided (isDelimiter delimiters) rest) (enough : token.length < fuel) :
    strtokEnd delimiters fuel a mem = some (behindToken (a + token.length) rest, put mem (a + token.length) 0x00#8) := by
  induction token generalizing a fuel with
  | nil =>
      obtain ⟨fuel, rfl⟩ : ∃ fuel', fuel = fuel' + 1 := ⟨fuel - 1, by omega⟩
      have first : mem a = rest.getD 0 0x00#8 := isText.head
      rw [strtokEnd]
      cases rest with
      | nil =>
          have ended : mem a = 0x00#8 := first
          have same : put mem a 0x00#8 = mem := by
            funext other
            by_cases here : other = a
            · rw [here, put_same, ended]
            · rw [put_other mem here]
          rw [if_pos ended]
          exact congrArg (fun mem' => some (a, mem')) same.symm
      | cons byte rest =>
          have delimiter : mem a = byte := first
          have nonzero : byte ≠ 0x00#8 := fun zero => isText.string.nonzero (zero ▸ List.mem_append_right [] List.mem_cons_self)
          rw [delimiter, if_neg nonzero, if_pos (of_decide_eq_true (divided byte rfl))]
          rfl
  | cons byte token ih =>
      obtain ⟨fuel, rfl⟩ : ∃ fuel', fuel = fuel' + 1 := ⟨fuel - 1, by omega⟩
      have first : mem a = byte := isText.byte (Nat.zero_le _)
      have nonzero : byte ≠ 0x00#8 := fun zero => isText.string.nonzero (zero ▸ List.mem_cons_self)
      have notOne : byte ∉ delimiters := of_decide_eq_false (noSeparator byte List.mem_cons_self)
      have later : TextAt mem (a + 1) (token ++ rest) := @TextAt.behind mem a [byte] (token ++ rest) isText
      rw [strtokEnd, first, if_neg nonzero, if_neg notOne,
        ih later (fun other isIn => noSeparator other (List.mem_cons_of_mem byte isIn)) (Nat.lt_of_succ_lt_succ enough),
        List.length_cons, Nat.add_assoc, Nat.add_comm 1]

/-- The string behind a token. -/
theorem TextAt.behindToken (isText : TextAt mem a (token ++ rest)) :
    TextAt (put mem (a + token.length) 0x00#8) (behindToken (a + token.length) rest) rest.tail := by
  unfold PeachOS.behindToken
  cases rest with
  | nil =>
      rw [if_pos rfl]
      have bound := isText.inside
      rw [List.append_nil] at bound
      refine .of_bytes (fun i inside => ?_) List.not_mem_nil bound
      rw [Nat.le_zero.mp inside, Nat.add_zero, put_same]
      rfl
  | cons byte rest =>
      rw [if_neg (List.cons_ne_nil _ _)]
      have later : TextAt mem (a + token.length + 1) rest := @TextAt.behind mem _ [byte] rest isText.behind
      exact later.congr fun other low _ => put_other mem (by omega) _

/-- **A call that finds a token** returns it, terminated, and keeps the place behind it. -/
theorem strtok_token {str : Nat} {σ : Strtok} (start : strtokStart str σ = a) (nonnull : a ≠ 0)
    (isText : TextAt σ.mem a (front ++ (token ++ rest))) (separators : ∀ byte ∈ front, isDelimiter delimiters byte = true)
    (some : token ≠ []) (noSeparator : ∀ byte ∈ token, isDelimiter delimiters byte = false)
    (divided : Divided (isDelimiter delimiters) rest) (enough : (front ++ (token ++ rest)).length < fuel) :
    strtok fuel delimiters str σ = Option.some (a + front.length,
      ⟨put σ.mem (a + front.length + token.length) 0x00#8, behindToken (a + front.length + token.length) rest⟩) := by
  obtain ⟨byte, token, rfl⟩ := List.exists_cons_of_ne_nil some
  rw [List.length_append, List.length_append] at enough
  have first : σ.mem (a + front.length) = byte := isText.head
  have nonzero : byte ≠ 0x00#8 := fun zero =>
    isText.string.nonzero (zero ▸ List.mem_append_right front (List.mem_append_left rest List.mem_cons_self))
  have notBoth : ¬ (str = 0 ∧ σ.sp = 0) := by
    rintro ⟨rfl, none⟩
    unfold strtokStart at start
    rw [if_neg (fun both => both.1 rfl), none] at start
    exact nonnull start.symm
  have skipped := strtokSkip_text isText separators (of_decide_eq_false (noSeparator byte List.mem_cons_self))
    (show front.length < fuel by omega)
  unfold strtok
  rw [if_neg notBoth, start, skipped]
  dsimp only
  rw [first, if_neg nonzero, strtokEnd_text isText.behind noSeparator divided (by omega)]
  rfl

/-- **A call that finds no token** returns `NULL` and leaves no place. -/
theorem strtok_separators {str : Nat} {σ : Strtok} {text : List Byte} (start : strtokStart str σ = a)
    (isText : TextAt σ.mem a text)
    (noZero : 0x00#8 ∉ delimiters) (separators : ∀ byte ∈ text, isDelimiter delimiters byte = true)
    (enough : text.length < fuel) :
    strtok fuel delimiters str σ = some (0, ⟨σ.mem, 0⟩) := by
  rw [← List.append_nil text] at isText
  have ended : σ.mem (a + text.length) = 0x00#8 := isText.head
  unfold strtok
  split
  · next neither =>
      obtain ⟨mem, sp⟩ := σ
      exact congrArg (fun sp => some (0, Strtok.mk mem sp)) neither.2
  · rw [start, strtokSkip_text isText separators noZero enough]
    dsimp only
    rw [if_pos ended]

end Call

/-! ### All calls -/

/-- **The calls from a place on** return the tokens of the string there, and leave no place. They change that string only. -/
theorem strtokTokens_text {delimiters : List Byte} (noZero : 0x00#8 ∉ delimiters) (text : List Byte) {fuel turns str a : Nat}
    {σ : Strtok} (start : strtokStart str σ = a) (nonnull : a ≠ 0) (isText : TextAt σ.mem a text) (enough : text.length < fuel)
    (enough' : text.length < turns) :
    ∃ σ', strtokTokens fuel delimiters turns str σ =
      some ((tokensAt (isDelimiter delimiters) a text).map Prod.fst, σ') ∧ σ'.sp = 0 ∧
      (∀ token ∈ tokensAt (isDelimiter delimiters) a text, TextAt σ'.mem token.1 token.2) ∧
      SameOutside (Set.Ico a (a + text.length)) σ.mem σ'.mem := by
  obtain ⟨turns, rfl⟩ : ∃ turns', turns = turns' + 1 := ⟨turns - 1, by omega⟩
  induction text using @tokens_induction _ (isDelimiter delimiters) generalizing turns str a σ with
  | separators text separators =>
      refine ⟨⟨σ.mem, 0⟩, ?_, rfl, ?_, fun _ _ => rfl⟩
      · rw [strtokTokens, strtok_separators start isText noZero separators enough, tokensAt_eq_nil separators]
        rfl
      · rw [tokensAt_eq_nil separators]
        exact fun token isIn => absurd isIn List.not_mem_nil
  | token front token rest separators some noSeparator divided ih =>
      have nonempty := List.length_pos_iff.mpr some
      have found := strtok_token start nonnull isText separators some noSeparator divided enough
      have behind := isText.behind.behindToken
      have cut := isText.behind.cut
      generalize next : behindToken (a + front.length + token.length) rest = place at found behind
      obtain ⟨low, high, apart⟩ := behindToken_bounds (a + front.length + token.length) rest
      have tokensBehind := @tokensAt_behindToken delimiters (a + front.length + token.length) rest
      rw [next] at low high apart tokensBehind
      rw [List.length_append, List.length_append] at enough enough'
      obtain ⟨turns, rfl⟩ : ∃ turns', turns = turns' + 1 := ⟨turns - 1, by omega⟩
      obtain ⟨σ', calls, idle, texts, same⟩ := @ih 0 place ⟨put σ.mem (a + front.length + token.length) 0x00#8, place⟩
        rfl (by omega) behind (by omega) turns (by omega)
      rw [tokensAt_separators separators, tokensAt_token some noSeparator divided, tokensBehind]
      refine ⟨σ', ?_, idle, ?_, ?_⟩
      · rw [strtokTokens, found]
        dsimp only
        rw [if_neg (by omega), calls]
        rfl
      · refine List.forall_mem_cons.mpr ⟨cut.congr fun other _ before => same other fun inside => ?_, texts⟩
        obtain ⟨after, between⟩ := inside
        omega
      · intro other outside
        rw [Set.mem_Ico, List.length_append, List.length_append] at outside
        rw [same other fun inside => outside ⟨by have := inside.1; omega, by have := inside.2; omega⟩]
        by_cases ended : other = a + front.length + token.length
        · -- The terminator is only written where it is already.
          have none : rest = [] := List.length_eq_zero_iff.mp (by omega)
          subst none
          rw [ended]
          exact (put_same _ _ _).trans isText.behind.head.symm
        · exact put_other σ.mem ended _

/-! ### Earlier calls -/

/-- **A call returns**, with fuel enough. -/
def StrtokReturns (delimiters : List Byte) (str : Nat) (σ : Strtok) (token : Nat) (σ' : Strtok) : Prop :=
  ∃ bound, ∀ fuel ≥ bound, strtok fuel delimiters str σ = some (token, σ')

/-- What a program does: it calls `strtok`, or writes to its memory. -/
inductive StrtokUse
  | call (delimiters : List Byte) (str token : Nat)
  | write (mem : Memory)

/-- Strings are passed to `strtok`, and a string stays one while there is a place in it. -/
def strtokUses (σ : Strtok) : StrtokUse → Strtok → Prop
  | .call delimiters str token, σ' =>
      0x00#8 ∉ delimiters ∧ (str = 0 ∨ ∃ text, TextAt σ.mem str text) ∧ StrtokReturns delimiters str σ token σ'
  | .write mem, σ' => (σ.sp = 0 ∨ ∃ text, TextAt mem σ.sp text) ∧ σ' = ⟨mem, σ.sp⟩

/-- `char *sp = 0`. -/
def strtokStarts (σ : Strtok) : Prop := σ.sp = 0

/-- The place is in a string. -/
def Strtok.Placed (σ : Strtok) : Prop := σ.sp = 0 ∨ ∃ text, TextAt σ.mem σ.sp text

/-- A call leaves a place in a string, or none. -/
theorem Strtok.Placed.call {σ σ' : Strtok} {delimiters : List Byte} {str token : Nat} (placed : σ.Placed)
    (noZero : 0x00#8 ∉ delimiters)
    (isString : str = 0 ∨ ∃ text, TextAt σ.mem str text) (returns : StrtokReturns delimiters str σ token σ') : σ'.Placed := by
  obtain ⟨bound, returns⟩ := returns
  by_cases neither : str = 0 ∧ σ.sp = 0
  · have same := returns bound le_rfl
    rw [strtok, if_pos neither] at same
    rw [← (Prod.mk.inj (Option.some.inj same)).2]
    exact Or.inl neither.2
  have started : ∃ a text, strtokStart str σ = a ∧ a ≠ 0 ∧ TextAt σ.mem a text := by
    by_cases idle : σ.sp = 0
    · have nonnull : str ≠ 0 := fun null => neither ⟨null, idle⟩
      obtain ⟨text, isText⟩ := isString.resolve_left nonnull
      exact ⟨str, text, if_pos ⟨nonnull, idle⟩, nonnull, isText⟩
    · obtain ⟨text, isText⟩ := placed.resolve_left idle
      exact ⟨σ.sp, text, if_neg fun both => idle both.2, idle, isText⟩
  obtain ⟨a, text, start, nonnull, isText⟩ := started
  have result := returns (max bound (text.length + 1)) (le_max_left _ _)
  have enough : text.length < max bound (text.length + 1) := Nat.lt_of_succ_le (le_max_right _ _)
  rcases tokens_cases (isDelimiter delimiters) text with separators |
    ⟨front, first, rest, rfl, separators, some, noSeparator, divided⟩
  · rw [strtok_separators start isText noZero separators enough] at result
    rw [← (Prod.mk.inj (Option.some.inj result)).2]
    exact Or.inl rfl
  · rw [strtok_token start nonnull isText separators some noSeparator divided enough] at result
    rw [← (Prod.mk.inj (Option.some.inj result)).2]
    exact Or.inr ⟨_, isText.behind.behindToken⟩

/-- **After every history of calls the place is in a string**, or there is none. -/
theorem placed_of_reached {σ : Strtok} (reached : Reachable strtokUses strtokStarts σ) : σ.Placed := by
  refine reached.invariant Strtok.Placed (fun _ starts => Or.inl starts) fun σ use σ' placed used => ?_
  cases use with
  | call delimiters str token => exact placed.call used.1 used.2.1 used.2.2
  | write mem =>
      obtain ⟨kept, rfl⟩ := used
      exact kept

/-! ### A new string -/

/-- **The calls return the tokens of a string**: pointers into it, in order, at which the tokens are strings then. -/
def ReturnsTokens (delimiters : List Byte) (s : Nat) (text : List Byte) (σ : Strtok) : Prop :=
  ∃ bound, ∀ fuel ≥ bound, ∃ σ',
    strtokTokens fuel delimiters fuel s σ = some ((tokensAt (isDelimiter delimiters) s text).map Prod.fst, σ') ∧
      ∀ token ∈ tokensAt (isDelimiter delimiters) s text, TextAt σ'.mem token.1 token.2

/-- Where the first token is. -/
def firstToken (delimiters : List Byte) (a : Nat) (text : List Byte) : Option Nat :=
  ((tokensAt (isDelimiter delimiters) a text).map Prod.fst).head?

/-- Strings with the same first token have the same tokens. -/
theorem tokensAt_eq_of_first {mem : Memory} {delimiters text text' : List Byte} {a a' : Nat} (isText : TextAt mem a text)
    (isText' : TextAt mem a' text') (same : firstToken delimiters a text = firstToken delimiters a' text') :
    tokensAt (isDelimiter delimiters) a text = tokensAt (isDelimiter delimiters) a' text' := by
  unfold firstToken at same
  rcases tokens_cases (isDelimiter delimiters) text with separators |
    ⟨front, token, rest, rfl, separators, some, noSeparator, divided⟩
  · rw [tokensAt_eq_nil separators] at same ⊢
    exact (List.map_eq_nil_iff.mp (List.head?_eq_none_iff.mp same.symm)).symm
  rcases tokens_cases (isDelimiter delimiters) text' with
    separators' | ⟨front', token', rest', rfl, separators', some', noSeparator', divided'⟩
  · rw [tokensAt_eq_nil separators'] at same ⊢
    exact List.map_eq_nil_iff.mp (List.head?_eq_none_iff.mp same)
  · rw [tokensAt_separators separators, tokensAt_separators separators'] at same ⊢
    rw [tokensAt_token some noSeparator divided, tokensAt_token some' noSeparator' divided'] at same
    have place : a + front.length = a' + front'.length := Option.some.inj same
    have behind := isText.behind
    rw [place] at behind ⊢
    rw [behind.unique isText'.behind]

/-- **The tokens of a new string are returned when there is no place**, or when it is at the same first token. -/
theorem strtokTokens_iff {σ : Strtok} (reached : Reachable strtokUses strtokStarts σ) {delimiters : List Byte}
    (noZero : 0x00#8 ∉ delimiters) {s : Nat} (nonnull : s ≠ 0) {text : List Byte} (isText : TextAt σ.mem s text) :
    ReturnsTokens delimiters s text σ ↔
      σ.sp = 0 ∨ ∃ old, TextAt σ.mem σ.sp old ∧ firstToken delimiters σ.sp old = firstToken delimiters s text := by
  by_cases idle : σ.sp = 0
  · refine iff_of_true ⟨text.length + 1, fun fuel enough => ?_⟩ (Or.inl idle)
    obtain ⟨σ', calls, -, texts, -⟩ := strtokTokens_text noZero text (if_pos ⟨nonnull, idle⟩) nonnull isText enough enough
    exact ⟨σ', calls, texts⟩
  obtain ⟨old, isOld⟩ := (placed_of_reached reached).resolve_left idle
  have start : strtokStart s σ = σ.sp := if_neg fun both => idle both.2
  constructor
  · rintro ⟨bound, returns⟩
    have enough : old.length < max bound (old.length + 1) := Nat.lt_of_succ_le (le_max_right _ _)
    obtain ⟨σ', returned, -⟩ := returns (max bound (old.length + 1)) (le_max_left _ _)
    obtain ⟨σ'', calls, -⟩ := strtokTokens_text noZero old start idle isOld enough enough
    rw [calls] at returned
    exact Or.inr ⟨old, isOld, congrArg List.head? (Prod.mk.inj (Option.some.inj returned)).1⟩
  · rintro (none | ⟨old', isOld', same⟩)
    · exact absurd none idle
    · refine ⟨old'.length + 1, fun fuel enough => ?_⟩
      obtain ⟨σ', calls, -, texts, -⟩ := strtokTokens_text noZero old' start idle isOld' enough enough
      rw [tokensAt_eq_of_first isOld' isText same] at calls texts
      exact ⟨σ', calls, texts⟩

/-! ### A tokenization that was given up -/

/-- The strings `a b` and `x`. -/
def twoStrings : Memory := blit (blit (fun _ => 0x00#8) 0x1000 [0x61#8, 0x20#8, 0x62#8]) 0x2000 [0x78#8]

theorem twoStrings_first : TextAt twoStrings 0x1000 [0x61#8, 0x20#8, 0x62#8] :=
  .of_bytes (by decide +kernel) (by decide) (by decide)

/-- `strtok` after its first call for `a b`. -/
def firstTaken : Strtok := ⟨put twoStrings 0x1001 0x00#8, 0x1002⟩

theorem firstTaken_second : TextAt firstTaken.mem 0x2000 [0x78#8] := .of_bytes (by decide +kernel) (by decide) (by decide)

theorem firstTaken_rest : TextAt firstTaken.mem 0x1002 [0x62#8] := .of_bytes (by decide +kernel) (by decide) (by decide)

theorem firstTaken_reached : Reachable strtokUses strtokStarts firstTaken := by
  refine .next (.call [0x20#8] 0x1000 0x1000) (.start (show strtokStarts ⟨twoStrings, 0⟩ from rfl))
    ⟨by decide, Or.inr ⟨_, twoStrings_first⟩, 4, fun fuel enough => ?_⟩
  have divided : Divided (isDelimiter [0x20#8]) [0x20#8, 0x62#8] := fun byte isHead => by
    obtain rfl : 0x20#8 = byte := Option.some.inj isHead
    decide
  exact @strtok_token [0x20#8] 0x1000 fuel [] [0x61#8] [0x20#8, 0x62#8] 0x1000 ⟨twoStrings, 0⟩ rfl (by decide) twoStrings_first
    (fun byte isIn => absurd isIn List.not_mem_nil) (by decide) (by decide) divided enough

/-- **The new string is not looked at.** -/
theorem strtokTokens_givenUp : ¬ ∀ σ, Reachable strtokUses strtokStarts σ → ∀ delimiters, 0x00#8 ∉ delimiters → ∀ s, s ≠ 0 →
    ∀ text, TextAt σ.mem s text → ReturnsTokens delimiters s text σ := by
  intro always
  obtain ⟨bound, returns⟩ := always _ firstTaken_reached [0x20#8] (by decide) 0x2000 (by decide) _ firstTaken_second
  have enough : [0x62#8].length < max bound 2 := Nat.lt_of_succ_le (le_max_right _ _)
  obtain ⟨σ', returned, -⟩ := returns (max bound 2) (le_max_left _ _)
  obtain ⟨σ'', calls, -⟩ := @strtokTokens_text [0x20#8] (by decide) [0x62#8] (max bound 2) (max bound 2) 0x2000 0x1002
    firstTaken rfl
    (by decide) firstTaken_rest enough enough
  rw [calls] at returned
  exact absurd (Prod.mk.inj (Option.some.inj returned)).1 (by decide)

/-- Its tokens are returned before any other call. -/
theorem strtokTokens_iff_twoStrings : ReturnsTokens [0x20#8] 0x1000 [0x61#8, 0x20#8, 0x62#8] ⟨twoStrings, 0⟩ :=
  (strtokTokens_iff (.start (show strtokStarts ⟨twoStrings, 0⟩ from rfl)) (by decide) (by decide) twoStrings_first).mpr
    (Or.inl rfl)

end PeachOS
