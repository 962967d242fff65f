/-
**A command line as a list of arguments: `peachos_parse_command` of `programs/stdlib/src/peachos.c`.**

The command is copied to the stack and taken apart there by `strtok`; each token is copied to a new node at the end of the list.

* `fillArgument_token` — a node, with its argument and no next node;
* `parseCommandLoop_tokens` — the nodes that the loop appends;
* `peachosParseCommand_words` — the arguments of the list are the words of the command.
-/

import PeachOS.Process.Arguments
import PeachOS.Stdlib.Strtok

namespace PeachOS

open ByteStore Tokens

/-! ### The code -/

/-- A node is filled: its argument, and no next node. -/
def fillArgument (mem : Memory) (node token : Nat) : Option Memory :=
  (strncpy (fun _ va => some va) mem node token sizeofArgument).map fun mem =>
    writeWord mem (toWord (node + sizeofArgument : Nat)) 8 0

/-- The loop of `peachos_parse_command`. The `n`-th `peachos_malloc` returns `malloc n`. -/
def parseCommandLoop (fuel : Nat) (malloc : Nat → Nat) : (turns n current : Nat) → Strtok → Option Strtok
  | 0, _, _, _ => none
  | turns + 1, n, current, σ =>
      match strtok fuel [0x20#8] 0 σ with
      | none => none
      | some (token, σ) =>
          if token = 0 ∨ malloc n = 0 then some σ
          else
            match fillArgument σ.mem (malloc n) token with
            | none => none
            | some mem =>
                parseCommandLoop fuel malloc turns (n + 1) (malloc n)
                  ⟨writeWord mem (toWord (current + sizeofArgument : Nat)) 8 (malloc n), σ.sp⟩

/-- `peachos_parse_command`, with `scommand` on the stack. -/
def peachosParseCommand (fuel : Nat) (malloc : Nat → Nat) (scommand command : Nat) (max : Int) (σ : Strtok) :
    Option (Nat × Strtok) :=
  if max ≥ 1025 then some (0, σ)
  else
    match strncpy (fun _ va => some va) σ.mem scommand command 1025 with
    | none => none
    | some mem =>
        match strtok fuel [0x20#8] scommand ⟨mem, σ.sp⟩ with
        | none => none
        | some (token, σ) =>
            if token = 0 ∨ malloc 0 = 0 then some (0, σ)
            else
              match fillArgument σ.mem (malloc 0) token with
              | none => none
              | some mem => (parseCommandLoop fuel malloc fuel 1 (malloc 0) ⟨mem, σ.sp⟩).map fun σ => (malloc 0, σ)

/-! ### Nodes -/

/-- The bytes of a node. -/
def nodeBytes (node : Nat) : Set Nat := Set.Ico node (node + sizeofCommandArgument)

/-- The bytes of a string, with its terminator. -/
def textBytes (a : Nat) (text : List Byte) : Set Nat := Set.Ico a (a + text.length + 1)

/-- The bytes of `node->next`. -/
def nextBytes (node : Nat) : Set Nat := Set.Ico (node + sizeofArgument) (node + sizeofCommandArgument)

theorem argument_sizes : sizeofArgument = 512 ∧ sizeofCommandArgument = 520 := ⟨rfl, rfl⟩

section Node

variable {mem mem' : Memory} {bytes : Set Nat} {a node token : Nat} {text : List Byte}

/-- A string apart from what changes is kept. -/
theorem TextAt.kept (isText : TextAt mem a text) (same : SameOutside bytes mem mem') (apart : Disjoint (textBytes a text) bytes) :
    TextAt mem' a text :=
  isText.congr fun _ low high => same _ (Set.disjoint_left.mp apart ⟨low, Nat.lt_succ_of_le high⟩)

/-- So is a pointer to the next node. -/
theorem nextArgument_kept (inside : node + sizeofCommandArgument ≤ 2 ^ 64) (same : SameOutside bytes mem mem')
    (apart : Disjoint (nextBytes node) bytes) : nextArgument mem' node = nextArgument mem node := by
  obtain ⟨size, size'⟩ := argument_sizes
  unfold nextArgument
  rw [toWord_natCast (by omega)]
  exact readWord_congr fun offset small => same _ (Set.disjoint_left.mp apart ⟨by omega, by omega⟩)

/-- The pointer is written. -/
theorem nextArgument_written (inside : node + sizeofCommandArgument ≤ 2 ^ 64) {value : Nat} (word : value < 2 ^ 64) :
    nextArgument (writeWord mem (toWord (node + sizeofArgument : Nat)) 8 value) node = value ∧
      SameOutside (nextBytes node) mem (writeWord mem (toWord (node + sizeofArgument : Nat)) 8 value) := by
  obtain ⟨size, size'⟩ := argument_sizes
  unfold nextArgument
  refine ⟨readWord_writeWord (word.trans_eq (by norm_num)), fun other outside => ?_⟩
  rw [nextBytes, Set.mem_Ico] at outside
  rw [toWord_natCast (by omega)]
  exact writeWord_outside (by omega)

/-- **A node has its argument and no next node.** -/
theorem fillArgument_token (isText : TextAt mem token text) (short : text.length < sizeofArgument)
    (inside : node + sizeofCommandArgument ≤ 2 ^ 64) (apart : Disjoint (textBytes token text) (nodeBytes node)) :
    ∃ mem', fillArgument mem node token = some mem' ∧ SameOutside (nodeBytes node) mem mem' ∧ TextAt mem' node text ∧
      nextArgument mem' node = 0 := by
  obtain ⟨size, size'⟩ := argument_sizes
  have bound := isText.inside
  have places : CopyPlaces (fun _ va => some va) mem node token sizeofArgument text := by
    refine ⟨fun mem' same i small => ?_, fun mem' same i inText small => ?_, isText.string.nonzero⟩
    · rw [toWord_natCast (by omega)]
    · rw [toWord_natCast (by omega)]
      refine ⟨token + i, rfl, ?_⟩
      rw [same _ fun isIn => ?_, isText.byte inText]
      have inNode : token + i ∈ nodeBytes node := ⟨isIn.1, isIn.2.trans_le (Nat.add_le_add_left (by decide) node)⟩
      exact Set.disjoint_left.mp apart ⟨Nat.le_add_right _ _, by omega⟩ inNode
  obtain ⟨mem', copied, same, string⟩ := strncpy_string places (by decide) (show node + sizeofArgument ≤ 2 ^ 64 by omega)
  rw [List.take_of_length_le (by omega)] at string
  obtain ⟨next, others⟩ := @nextArgument_written mem' node inside 0 (by norm_num)
  have argument : TextAt mem' node text := ⟨string, by omega⟩
  refine ⟨_, ?_, fun other outside => ?_, argument.kept others ?_, next⟩
  · unfold fillArgument
    rw [copied]
    rfl
  · rw [nodeBytes, Set.mem_Ico] at outside
    rw [others other fun isIn => outside ⟨(Nat.le_add_right _ _).trans isIn.1, isIn.2⟩]
    exact same other fun isIn => outside ⟨isIn.1, isIn.2.trans_le (by omega)⟩
  · refine Set.disjoint_left.mpr fun other inText inNext => ?_
    have low := inNext.1
    have high := inText.2
    omega

end Node

/-- **Allocation succeeds**: so many nodes, apart from each other and from some bytes. -/
structure FreeNodes (malloc : Nat → Nat) (first count : Nat) (bytes : Set Nat) : Prop where
  nonnull : ∀ n, first ≤ n → n < first + count → malloc n ≠ 0
  inside : ∀ n, first ≤ n → n < first + count → malloc n + sizeofCommandArgument ≤ 2 ^ 64
  apart : ∀ n, first ≤ n → n < first + count → Disjoint (nodeBytes (malloc n)) bytes
  disjoint : ∀ n m, first ≤ n → n < m → m < first + count → Disjoint (nodeBytes (malloc n)) (nodeBytes (malloc m))

/-- The bytes of the nodes. -/
def nodesBytes (malloc : Nat → Nat) (first count : Nat) : Set Nat :=
  { a | ∃ n, first ≤ n ∧ n < first + count ∧ a ∈ nodeBytes (malloc n) }

namespace FreeNodes

variable {malloc : Nat → Nat} {first count : Nat} {bytes : Set Nat}

/-- The nodes behind the first one. -/
theorem tail (free : FreeNodes malloc first (count + 1) bytes) :
    FreeNodes malloc (first + 1) count (bytes ∪ nodeBytes (malloc first)) where
  nonnull := fun n low high => free.nonnull n (by omega) (by omega)
  inside := fun n low high => free.inside n (by omega) (by omega)
  apart := fun n low high =>
    (free.apart n (by omega) (by omega)).union_right (free.disjoint first n le_rfl (by omega) (by omega)).symm
  disjoint := fun n m low less high => free.disjoint n m (by omega) less (by omega)

/-- They are apart from what the first ones are. -/
theorem nodesBytes_apart (free : FreeNodes malloc first count bytes) {others : Set Nat} (among : others ⊆ bytes) :
    Disjoint others (nodesBytes malloc first count) := by
  refine Set.disjoint_left.mpr fun a isIn isNode => ?_
  obtain ⟨n, low, high, inNode⟩ := isNode
  exact Set.disjoint_left.mp (free.apart n low high) inNode (among isIn)

end FreeNodes

/-- The nodes are the first one and those behind it. -/
theorem nodesBytes_succ (malloc : Nat → Nat) (first count : Nat) :
    nodeBytes (malloc first) ∪ nodesBytes malloc (first + 1) count ⊆ nodesBytes malloc first (count + 1) := by
  rintro a (inFirst | ⟨n, low, high, inNode⟩)
  · exact ⟨first, le_rfl, by omega, inFirst⟩
  · exact ⟨n, by omega, by omega, inNode⟩

theorem nextBytes_subset (node : Nat) : nextBytes node ⊆ nodeBytes node := fun _ inside =>
  ⟨(Nat.le_add_right _ _).trans inside.1, inside.2⟩

/-- A short string lies in the argument of a node. -/
theorem textBytes_subset {node : Nat} {text : List Byte} (short : text.length < sizeofArgument) :
    textBytes node text ⊆ nodeBytes node := by
  rintro a ⟨low, high⟩
  obtain ⟨size, size'⟩ := argument_sizes
  exact ⟨low, by omega⟩

theorem textBytes_apart {node : Nat} {text : List Byte} (short : text.length < sizeofArgument) :
    Disjoint (textBytes node text) (nextBytes node) := by
  refine Set.disjoint_left.mpr fun a inText inNext => ?_
  obtain ⟨-, high⟩ := inText
  obtain ⟨low, -⟩ := inNext
  omega

/-! ### The loop -/

/-- A blank. -/
abbrev blank : List Byte := [0x20#8]

/-- The words of a string that starts at a place. -/
def wordsAt (a : Nat) (text : List Byte) : List (List Byte) := (tokensAt (isDelimiter blank) a text).map Prod.snd

/-- **A token was copied to a node**, and the place is behind it. -/
structure TakenToNode (mem : Memory) (a node : Nat) (text token rest : List Byte) (place : Nat) (mem' : Memory) : Prop where
  words : wordsAt a text = token :: wordsAt place rest
  nonnull : place ≠ 0
  among : textBytes place rest ⊆ textBytes a text
  behind : TextAt mem' place rest
  argument : TextAt mem' node token
  next : nextArgument mem' node = 0
  same : SameOutside (textBytes a text ∪ nodeBytes node) mem mem'

/-- `strtok` finds a token, and it is copied to a node. -/
theorem strtok_toNode {front token rest : List Byte} {fuel str a node : Nat} {σ : Strtok}
    (start : strtokStart str σ = a) (nonnull : a ≠ 0)
    (isText : TextAt σ.mem a (front ++ (token ++ rest))) (separators : ∀ byte ∈ front, isDelimiter blank byte = true)
    (some : token ≠ []) (noSeparator : ∀ byte ∈ token, isDelimiter blank byte = false)
    (divided : Divided (isDelimiter blank) rest)
    (enough : (front ++ (token ++ rest)).length < fuel) (short : token.length < sizeofArgument)
    (inside : node + sizeofCommandArgument ≤ 2 ^ 64)
    (apart : Disjoint (nodeBytes node) (textBytes a (front ++ (token ++ rest)))) :
    ∃ place mem mem', strtok fuel blank str σ = Option.some (a + front.length, ⟨mem, place⟩) ∧
      fillArgument mem node (a + front.length) = Option.some mem' ∧
      TakenToNode σ.mem a node (front ++ (token ++ rest)) token rest.tail place mem' := by
  have found := strtok_token start nonnull isText separators some noSeparator divided enough
  have behind := isText.behind.behindToken
  have cut := isText.behind.cut
  obtain ⟨low, high, -⟩ := behindToken_bounds (a + front.length + token.length) rest
  have words : wordsAt a (front ++ (token ++ rest)) =
      token :: wordsAt (behindToken (a + front.length + token.length) rest) rest.tail := by
    unfold wordsAt
    rw [tokensAt_separators separators, tokensAt_token some noSeparator divided, tokensAt_behindToken]
    rfl
  generalize behindToken (a + front.length + token.length) rest = place at found behind low high words
  have total : (front ++ (token ++ rest)).length = front.length + (token.length + rest.length) := by
    rw [List.length_append, List.length_append]
  have tokenAmong : textBytes (a + front.length) token ⊆ textBytes a (front ++ (token ++ rest)) := fun other isIn => by
    obtain ⟨after, before⟩ := isIn
    exact ⟨by omega, by omega⟩
  have restAmong : textBytes place rest.tail ⊆ textBytes a (front ++ (token ++ rest)) := fun other isIn => by
    obtain ⟨after, before⟩ := isIn
    exact ⟨by omega, by omega⟩
  obtain ⟨mem', filled, same, argument, next⟩ := fillArgument_token cut short inside (apart.symm.mono_left tokenAmong)
  refine ⟨place, _, mem', found, filled, words, by omega, restAmong, behind.kept same (apart.symm.mono_left restAmong),
    argument, next,
    fun other outside => ?_⟩
  rw [Set.mem_union, not_or] at outside
  rw [same other outside.2]
  exact put_other σ.mem (fun here => outside.1 ⟨by omega, by omega⟩) _

/-- **The loop appends a node for every word** behind the place. -/
theorem parseCommandLoop_tokens (text : List Byte) {malloc : Nat → Nat} {fuel turns first current a : Nat} {σ : Strtok}
    {bytes : Set Nat}
    (placed : σ.sp = a) (nonnull : a ≠ 0) (isText : TextAt σ.mem a text) (among : textBytes a text ⊆ bytes)
    (ended : nextArgument σ.mem current = 0) (amongCurrent : nodeBytes current ⊆ bytes)
    (insideCurrent : current + sizeofCommandArgument ≤ 2 ^ 64) (apartCurrent : Disjoint (nodeBytes current) (textBytes a text))
    (free : FreeNodes malloc first (wordsAt a text).length bytes) (short : ∀ word ∈ wordsAt a text, word.length < sizeofArgument)
    (enough : text.length < fuel) (enough' : text.length < turns) :
    ∃ σ' nodes, parseCommandLoop fuel malloc turns first current σ = some σ' ∧ σ'.sp = 0 ∧
      ArgumentList σ'.mem (nextArgument σ'.mem current) nodes ∧ List.Forall₂ (TextAt σ'.mem) nodes (wordsAt a text) ∧
      SameOutside (textBytes a text ∪ nextBytes current ∪ nodesBytes malloc first (wordsAt a text).length) σ.mem σ'.mem := by
  obtain ⟨turns, rfl⟩ : ∃ turns', turns = turns' + 1 := ⟨turns - 1, by omega⟩
  induction text using @tokens_induction _ (isDelimiter blank) generalizing turns first current a σ bytes with
  | separators text separators =>
      refine ⟨⟨σ.mem, 0⟩, [], ?_, rfl, ended, ?_, fun _ _ => rfl⟩
      · rw [parseCommandLoop, strtok_separators (show strtokStart 0 σ = a from placed) isText (by decide) separators enough]
        rfl
      · rw [wordsAt, tokensAt_eq_nil separators]
        exact List.Forall₂.nil
  | token front token rest separators some noSeparator divided ih =>
      have words : wordsAt a (front ++ (token ++ rest)) = token :: wordsAt (a + front.length + token.length + 1) rest.tail := by
        unfold wordsAt
        rw [tokensAt_separators separators, tokensAt_token some noSeparator divided]
        rfl
      have hasNode : 0 < (wordsAt a (front ++ (token ++ rest))).length := by
        rw [words]
        exact Nat.succ_pos _
      have nodeNonnull := free.nonnull first le_rfl (by omega)
      have nodeInside := free.inside first le_rfl (by omega)
      have nodeApart := free.apart first le_rfl (by omega)
      have tokenShort := short token (by rw [words]; exact List.mem_cons_self)
      obtain ⟨place, mem, filledMem, found, filled, taken⟩ :=
        strtok_toNode (show strtokStart 0 σ = a from placed) nonnull isText separators
        some noSeparator divided enough tokenShort nodeInside (nodeApart.mono_right among)
      -- The node is appended to the current one.
      obtain ⟨nextWritten, sameWritten⟩ := @nextArgument_written filledMem current insideCurrent (malloc first)
        (lt_of_lt_of_le (Nat.lt_add_of_pos_right (by decide)) nodeInside)
      generalize linked : writeWord filledMem (toWord (current + sizeofArgument : Nat)) 8 (malloc first) =
        linkedMem at nextWritten sameWritten
      have nextApart : Disjoint (nextBytes current) (nodeBytes (malloc first)) :=
        (nodeApart.mono_right ((nextBytes_subset current).trans amongCurrent)).symm
      have inNode := @textBytes_subset (malloc first) token tokenShort
      have argument := taken.argument.kept sameWritten (nextApart.symm.mono_left inNode)
      have behind := taken.behind.kept sameWritten (apartCurrent.mono (nextBytes_subset current) taken.among).symm
      have nextLinked : nextArgument linkedMem (malloc first) = 0 := by
        rw [nextArgument_kept nodeInside sameWritten (nextApart.symm.mono_left (nextBytes_subset _))]
        exact taken.next
      have fewer : rest.tail.length + 1 ≤ (front ++ (token ++ rest)).length := by
        have nonempty := List.length_pos_iff.mpr some
        rw [List.length_append, List.length_append, List.length_tail]
        omega
      obtain ⟨turns, rfl⟩ : ∃ turns', turns = turns' + 1 := ⟨turns - 1, by omega⟩
      rw [taken.words] at free short ⊢
      rw [List.length_cons] at free ⊢
      obtain ⟨σ', nodes, loop, idle, list, strings, same⟩ := @ih (first + 1) (malloc first) place ⟨linkedMem, place⟩
        (bytes ∪ nodeBytes (malloc first)) rfl taken.nonnull behind
          ((taken.among.trans among).trans Set.subset_union_left) nextLinked
        Set.subset_union_right nodeInside (nodeApart.mono_right (taken.among.trans among)) free.tail
        (fun word isIn => short word (List.mem_cons_of_mem token isIn)) (by omega) turns (by omega)
      refine ⟨σ', malloc first :: nodes, ?_, idle, ⟨?_, nodeNonnull, list⟩, List.Forall₂.cons ?_ strings, fun other outside => ?_⟩
      · rw [parseCommandLoop, found]
        dsimp only
        rw [if_neg (not_or.mpr ⟨by omega, nodeNonnull⟩), filled]
        dsimp only
        rw [linked]
        exact loop
      · rw [nextArgument_kept insideCurrent same, nextWritten]
        refine ((apartCurrent.mono (nextBytes_subset current) taken.among).union_right ?_).union_right ?_
        · exact nextApart.mono_right (nextBytes_subset _)
        · exact free.tail.nodesBytes_apart (((nextBytes_subset current).trans amongCurrent).trans Set.subset_union_left)
      · refine argument.kept same ((Disjoint.union_right ?_ ?_).union_right ?_)
        · exact nodeApart.mono inNode (taken.among.trans among)
        · exact textBytes_apart tokenShort
        · exact free.tail.nodesBytes_apart (inNode.trans Set.subset_union_right)
      · rw [Set.mem_union, Set.mem_union, not_or, not_or] at outside
        obtain ⟨⟨notText, notNext⟩, notNode⟩ := outside
        have notFirst : other ∉ nodeBytes (malloc first) := fun inside => notNode (nodesBytes_succ _ _ _ (Or.inl inside))
        refine (same other ?_).trans ((sameWritten other notNext).trans (taken.same other fun inside => ?_))
        · rintro ((inRest | inNext) | inNodes)
          · exact notText (taken.among inRest)
          · exact notFirst (nextBytes_subset _ inNext)
          · exact notNode (nodesBytes_succ _ _ _ (Or.inr inNodes))
        · exact inside.elim notText notFirst

/-! ### The command -/

/-- **`peachos_parse_command` can parse a command**: there is room on the stack for a copy, and nodes for the words. -/
structure CanParse (mem : Memory) (malloc : Nat → Nat) (scommand command : Nat) (text : List Byte) : Prop where
  isText : TextAt mem command text
  fits : text.length ≤ 1024
  short : ∀ word ∈ (text.splitOn 0x20#8).filter (fun part => !part.isEmpty), word.length ≤ 511
  stack : scommand ≠ 0
  inside : scommand + 1025 ≤ 2 ^ 64
  apart : Disjoint (textBytes command text) (Set.Ico scommand (scommand + 1025))
  free : FreeNodes malloc 0 ((text.splitOn 0x20#8).filter fun part => !part.isEmpty).length
    (textBytes command text ∪ Set.Ico scommand (scommand + 1025))

/-- The words are the parts between the blanks that are not empty. -/
theorem wordsAt_splitOn (a : Nat) (text : List Byte) :
    wordsAt a text = (text.splitOn 0x20#8).filter fun part => !part.isEmpty := by
  unfold wordsAt
  have same : isDelimiter blank = fun byte => byte == 0x20#8 := by
    funext byte
    exact Bool.eq_iff_iff.mpr (by rw [isDelimiter, decide_eq_true_iff, List.mem_singleton, beq_iff_eq])
  rw [tokensAt_splitOnP, same, List.splitOn_eq_splitOnP]

/-- The copy on the stack. -/
theorem CanParse.copied {mem : Memory} {malloc : Nat → Nat} {scommand command : Nat} {text : List Byte}
    (can : CanParse mem malloc scommand command text) :
    ∃ mem', strncpy (fun _ va => some va) mem scommand command 1025 = some mem' ∧
      SameOutside (Set.Ico scommand (scommand + 1025)) mem mem' ∧ TextAt mem' scommand text := by
  have bound := can.isText.inside
  have inside := can.inside
  have fits := can.fits
  have places : CopyPlaces (fun _ va => some va) mem scommand command 1025 text := by
    refine ⟨fun mem' same i small => ?_, fun mem' same i inText small => ?_, can.isText.string.nonzero⟩
    · rw [toWord_natCast (by omega)]
    · rw [toWord_natCast (by omega)]
      refine ⟨command + i, rfl, ?_⟩
      rw [same _ (Set.disjoint_left.mp can.apart ⟨Nat.le_add_right _ _, by omega⟩), can.isText.byte inText]
  obtain ⟨mem', copied, same, string⟩ := strncpy_string places (by decide) inside
  rw [List.take_of_length_le (by omega)] at string
  exact ⟨mem', copied, same, string, by omega⟩

/-- **The list has the words of the command**, which is left as it was, and `strtok` is left without a place. -/
theorem peachosParseCommand_words {σ : Strtok} {malloc : Nat → Nat} {scommand command : Nat} {text : List Byte} {max : Int}
    (idle : σ.sp = 0) (can : CanParse σ.mem malloc scommand command text) (small : max < 1025) :
    ∃ bound, ∀ fuel ≥ bound, ∃ root σ' nodes, peachosParseCommand fuel malloc scommand command max σ = some (root, σ') ∧
      ArgumentList σ'.mem root nodes ∧
      List.Forall₂ (TextAt σ'.mem) nodes ((text.splitOn 0x20#8).filter fun part => !part.isEmpty) ∧
      TextAt σ'.mem command text ∧ σ'.sp = 0 := by
  refine ⟨text.length + 1, fun fuel enough => ?_⟩
  obtain ⟨mem, copied, sameCopied, isText⟩ := can.copied
  have kept := can.isText.kept sameCopied can.apart
  have start : strtokStart scommand ⟨mem, σ.sp⟩ = scommand := if_pos ⟨can.stack, idle⟩
  have inStack : textBytes scommand text ⊆ Set.Ico scommand (scommand + 1025) := fun other inside => by
    have fits := can.fits
    exact ⟨inside.1, inside.2.trans_le (by omega)⟩
  have short := can.short
  have free := can.free
  rw [← wordsAt_splitOn scommand] at short free ⊢
  unfold peachosParseCommand
  rw [if_neg (by omega), copied]
  dsimp only
  rcases tokens_cases (isDelimiter blank) text with separators | ⟨front, token, rest, rfl, separators, some, noSeparator, divided⟩
  · rw [strtok_separators start isText (by decide) separators enough]
    refine ⟨0, ⟨mem, 0⟩, [], rfl, rfl, ?_, kept, rfl⟩
    rw [wordsAt, tokensAt_eq_nil separators]
    exact List.Forall₂.nil
  · have words : wordsAt scommand (front ++ (token ++ rest)) =
        token :: wordsAt (scommand + front.length + token.length + 1) rest.tail := by
      unfold wordsAt
      rw [tokensAt_separators separators, tokensAt_token some noSeparator divided]
      rfl
    have hasNode : 0 < (wordsAt scommand (front ++ (token ++ rest))).length := by
      rw [words]
      exact Nat.succ_pos _
    have rootNonnull := free.nonnull 0 le_rfl (by omega)
    have rootInside := free.inside 0 le_rfl (by omega)
    have rootApart := free.apart 0 le_rfl (by omega)
    have stackApart := rootApart.mono_right (inStack.trans Set.subset_union_right)
    have tokenShort := Nat.lt_succ_of_le (short token (by rw [words]; exact List.mem_cons_self))
    obtain ⟨place, mem', filledMem, found, filled, taken⟩ :=
      strtok_toNode start can.stack isText separators some noSeparator divided
      enough tokenShort rootInside stackApart
    rw [taken.words] at free short ⊢
    rw [List.length_cons] at free
    have nonempty := List.length_pos_iff.mpr some
    have fewer : rest.tail.length < fuel := by
      rw [List.length_append, List.length_append] at enough
      rw [List.length_tail]
      omega
    have behindAmong := (taken.among.trans inStack).trans
      (Set.subset_union_right (s := textBytes command (front ++ (token ++ rest))))
    obtain ⟨σ', nodes, loop, idle', list, strings, same⟩ := @parseCommandLoop_tokens rest.tail malloc fuel fuel 1 (malloc 0) place
      ⟨filledMem, place⟩ _ rfl taken.nonnull taken.behind (behindAmong.trans Set.subset_union_left) taken.next
        Set.subset_union_right
      rootInside (rootApart.mono_right behindAmong) free.tail
      (fun word isIn => Nat.lt_succ_of_le (short word (List.mem_cons_of_mem token isIn))) fewer fewer
    have inRoot := @textBytes_subset (malloc 0) token tokenShort
    refine ⟨malloc 0, σ', malloc 0 :: nodes, ?_, ⟨rfl, rootNonnull, list⟩, List.Forall₂.cons ?_ strings, ?_, idle'⟩
    · rw [found]
      dsimp only
      rw [if_neg (not_or.mpr ⟨?_, rootNonnull⟩), filled]
      · dsimp only
        rw [loop]
        rfl
      · have nonnull := can.stack
        omega
    · refine taken.argument.kept same ((Disjoint.union_right ?_ ?_).union_right ?_)
      · exact rootApart.mono inRoot behindAmong
      · exact textBytes_apart tokenShort
      · exact free.tail.nodesBytes_apart (inRoot.trans Set.subset_union_right)
    · refine (kept.kept taken.same (Disjoint.union_right ?_ ?_)).kept same ((Disjoint.union_right ?_ ?_).union_right ?_)
      · exact can.apart.mono_right inStack
      · exact (rootApart.mono_right Set.subset_union_left).symm
      · exact can.apart.mono_right (taken.among.trans inStack)
      · exact (rootApart.mono (nextBytes_subset _) Set.subset_union_left).symm
      · exact free.tail.nodesBytes_apart (Set.subset_union_left.trans Set.subset_union_left)

/-- The command ` ls  a`. -/
def listCommand : List Byte := [0x20#8, 0x6C#8, 0x73#8, 0x20#8, 0x20#8, 0x61#8]

theorem listCommand_words : (listCommand.splitOn 0x20#8).filter (fun part => !part.isEmpty) =
    [[0x6C#8, 0x73#8], [0x61#8]] := by decide

/-- It lies apart from the stack and from the nodes. -/
theorem canParse_listCommand :
    CanParse (blit (fun _ => 0x00#8) 0x1000 listCommand) (fun n => 0x3000 + 0x1000 * n) 0x2000 0x1000 listCommand := by
  have node (n : Nat) : nodeBytes (0x3000 + 0x1000 * n) = Set.Ico (0x3000 + 0x1000 * n) (0x3000 + 0x1000 * n + 520) := rfl
  have text : textBytes 0x1000 listCommand = Set.Ico 0x1000 0x1007 := rfl
  refine ⟨.of_bytes (by decide +kernel) (by decide) (by decide), by decide, ?_, by decide, by decide, ?_, ⟨?_, ?_, ?_, ?_⟩⟩
  · rw [listCommand_words]
    decide
  · rw [text]
    refine Set.disjoint_left.mpr fun a inText inStack => ?_
    obtain ⟨-, high⟩ := inText
    obtain ⟨low, -⟩ := inStack
    omega
  · exact fun n _ _ => by omega
  · intro n _ high
    rw [listCommand_words] at high
    simp only [List.length_cons, List.length_nil, sizeofCommandArgument] at high ⊢
    omega
  · intro n _ _
    rw [node, text]
    refine Set.disjoint_left.mpr fun a inNode others => ?_
    obtain ⟨low, -⟩ := inNode
    rcases others with ⟨-, high⟩ | ⟨-, high⟩ <;> omega
  · intro n m _ less _
    rw [node, node]
    refine Set.disjoint_left.mpr fun a inNode inOther => ?_
    obtain ⟨-, high⟩ := inNode
    obtain ⟨low, -⟩ := inOther
    omega

/-- Its words are `ls` and `a`. -/
theorem peachosParseCommand_words_list : ∃ bound, ∀ fuel ≥ bound, ∃ root σ' nodes,
    peachosParseCommand fuel (fun n => 0x3000 + 0x1000 * n) 0x2000 0x1000 1024 ⟨blit (fun _ => 0x00#8) 0x1000 listCommand, 0⟩ =
      some (root, σ') ∧
      ArgumentList σ'.mem root nodes ∧ List.Forall₂ (TextAt σ'.mem) nodes [[0x6C#8, 0x73#8], [0x61#8]] ∧
      TextAt σ'.mem 0x1000 listCommand ∧ σ'.sp = 0 := by
  have parsed := @peachosParseCommand_words ⟨blit (fun _ => 0x00#8) 0x1000 listCommand, 0⟩ _ _ _ _ 1024 rfl canParse_listCommand
    (by decide)
  rw [listCommand_words] at parsed
  exact parsed

end PeachOS
