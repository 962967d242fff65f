/-
**The keyboard buffer of a process: `keyboard/keyboard.c`.**

The buffer is a ring of characters with a free-running tail and head. A zero byte marks an empty slot; there is no
test for a full ring, and a push into one overwrites the oldest character.

* `run_holds` — while pushes find an empty slot, the ring is a queue;
* `keyboard_faithful` — then characters are popped in push order, none is lost, and an emptied ring starts over;
* `full_push_popped`, `keyboard_overflows` — one character too many is popped first.

The process exists; the listeners that `keyboard_push` tells are not modelled.
-/

import PeachOS.Lib.RingQueue
import PeachOS.Machine
import Mathlib.Data.List.Induction

namespace PeachOS

open ByteStore RingQueue

/-- `PEACHOS_KEYBOARD_BUFFER_SIZE`. -/
abbrev peachosKeyboardBufferSize : Nat := 1024

/-- `struct keyboard_buffer`. -/
structure KeyboardBuffer where
  buffer : Store Byte
  tail : Int
  head : Int

/-- The buffer of a new process. -/
def KeyboardBuffer.zeroed : KeyboardBuffer where
  buffer := fun _ => 0x00#8
  tail := 0
  head := 0

/-- `keyboard_get_tail_index`: the `int` is converted to a `size_t`. -/
def keyboardGetTailIndex (keyboard : KeyboardBuffer) : Nat := toWord keyboard.tail % peachosKeyboardBufferSize

/-- `keyboard_push`. -/
def keyboardPush (keyboard : KeyboardBuffer) (c : Byte) : KeyboardBuffer :=
  if c = 0x00#8 then keyboard
  else
    { keyboard with
      buffer := put keyboard.buffer (keyboardGetTailIndex keyboard) c
      tail := toInt32 (keyboard.tail + 1) }

/-- `keyboard_pop`: zero when there is nothing to pop. -/
def keyboardPop (keyboard : KeyboardBuffer) : Byte × KeyboardBuffer :=
  let realIndex := toWord keyboard.head % peachosKeyboardBufferSize
  let c := keyboard.buffer realIndex
  if c = 0x00#8 then (0x00#8, keyboard)
  else (c, { keyboard with buffer := put keyboard.buffer realIndex 0x00#8, head := toInt32 (keyboard.head + 1) })

/-! ### Runs -/

/-- A call for the buffer of one process. -/
inductive KeyboardCall where
  | push (c : Byte)
  | pop
deriving DecidableEq

/-- The characters that are pushed. -/
def pushedCharacters : List KeyboardCall → List Byte
  | [] => []
  | .push c :: calls => if c = 0x00#8 then pushedCharacters calls else c :: pushedCharacters calls
  | .pop :: calls => pushedCharacters calls

/-- The characters that are popped, and the buffer then. -/
def KeyboardBuffer.run : List KeyboardCall → KeyboardBuffer → List Byte × KeyboardBuffer
  | [], keyboard => ([], keyboard)
  | .push c :: calls, keyboard => run calls (keyboardPush keyboard c)
  | .pop :: calls, keyboard =>
      let popped := keyboardPop keyboard
      let result := run calls popped.2
      if popped.1 = 0x00#8 then result else (popped.1 :: result.1, result.2)

/-- **Every push finds an empty slot.** -/
def PushesFit : List KeyboardCall → KeyboardBuffer → Prop
  | [], _ => True
  | .push c :: calls, keyboard =>
      (c = 0x00#8 ∨ keyboard.buffer (keyboardGetTailIndex keyboard) = 0x00#8) ∧ PushesFit calls (keyboardPush keyboard c)
  | .pop :: calls, keyboard => PushesFit calls (keyboardPop keyboard).2

/-- The backlog never exceeds the buffer. -/
def BacklogFits (calls : List KeyboardCall) (keyboard : KeyboardBuffer) : Prop :=
  ∀ before, before <+: calls →
    (pushedCharacters before).length ≤ (keyboard.run before).1.length + peachosKeyboardBufferSize

/-- **A faithful run**: characters are popped in push order; none is lost as long as the backlog fits; and once the
ring is empty, whatever came before, later characters are popped in push order again and none of them is lost. -/
structure KeyboardFaithful (calls : List KeyboardCall) : Prop where
  ordered : ((KeyboardBuffer.zeroed.run calls).1).Sublist (pushedCharacters calls)
  kept : BacklogFits calls .zeroed →
    (KeyboardBuffer.zeroed.run (calls ++ List.replicate (pushedCharacters calls).length .pop)).1 = pushedCharacters calls
  recovers : ∀ before after, calls = before ++ after →
    (∀ slot < peachosKeyboardBufferSize, (KeyboardBuffer.zeroed.run before).2.buffer slot = 0x00#8) →
    BacklogFits after (KeyboardBuffer.zeroed.run before).2 →
      (((KeyboardBuffer.zeroed.run before).2).run after).1 <+: pushedCharacters after ∧
      (((KeyboardBuffer.zeroed.run before).2).run
        (after ++ List.replicate (pushedCharacters after).length .pop)).1 = pushedCharacters after

@[simp] theorem run_push (c : Byte) (calls : List KeyboardCall) (keyboard : KeyboardBuffer) :
    keyboard.run (.push c :: calls) = (keyboardPush keyboard c).run calls := rfl

@[simp] theorem run_pop (calls : List KeyboardCall) (keyboard : KeyboardBuffer) :
    keyboard.run (.pop :: calls) = if (keyboardPop keyboard).1 = 0x00#8 then (keyboardPop keyboard).2.run calls
      else ((keyboardPop keyboard).1 :: ((keyboardPop keyboard).2.run calls).1, ((keyboardPop keyboard).2.run calls).2) := rfl

@[simp] theorem pushedCharacters_push (c : Byte) (calls : List KeyboardCall) :
    pushedCharacters (.push c :: calls) =
      if c = 0x00#8 then pushedCharacters calls else c :: pushedCharacters calls := rfl

@[simp] theorem pushedCharacters_pop (calls : List KeyboardCall) :
    pushedCharacters (.pop :: calls) = pushedCharacters calls := rfl

theorem run_append (first second : List KeyboardCall) (keyboard : KeyboardBuffer) :
    (keyboard.run (first ++ second)).1 = (keyboard.run first).1 ++ ((keyboard.run first).2.run second).1 ∧
      (keyboard.run (first ++ second)).2 = ((keyboard.run first).2.run second).2 := by
  induction first generalizing keyboard with
  | nil => exact ⟨rfl, rfl⟩
  | cons call calls ih =>
      cases call with
      | push c => exact ih (keyboardPush keyboard c)
      | pop =>
          obtain ⟨popped, state⟩ := ih (keyboardPop keyboard).2
          rw [List.cons_append, run_pop, run_pop]
          split
          · exact ⟨popped, state⟩
          · exact ⟨congrArg (List.cons _) popped, state⟩

theorem pushedCharacters_append (first second : List KeyboardCall) :
    pushedCharacters (first ++ second) = pushedCharacters first ++ pushedCharacters second := by
  induction first with
  | nil => rfl
  | cons call calls ih =>
      cases call with
      | push c =>
          rw [List.cons_append, pushedCharacters_push, pushedCharacters_push]
          split
          · exact ih
          · rw [ih, List.cons_append]
      | pop => exact ih

/-! ### The ring as a queue -/

/-- **The buffer holds a queue**: from the head on, with the tail behind its last character. -/
structure KeyboardBuffer.Queue (keyboard : KeyboardBuffer) (queue : List Byte) : Prop where
  holds : Holds 0x00#8 peachosKeyboardBufferSize keyboard.buffer (toWord keyboard.head) queue
  tail : toWord keyboard.tail % peachosKeyboardBufferSize =
    (toWord keyboard.head + queue.length) % peachosKeyboardBufferSize

/-- One more character: the counters wrap around at a multiple of the size. -/
theorem toWord_toInt32_succ (value : Int) : toWord (toInt32 (value + 1)) % peachosKeyboardBufferSize =
    (toWord value + 1) % peachosKeyboardBufferSize := by
  simp only [peachosKeyboardBufferSize]
  have same := (toWord_emod (toInt32 (value + 1))).trans (toInt32_emod (value + 1))
  have before := toWord_emod value
  omega

namespace KeyboardBuffer.Queue

variable {keyboard : KeyboardBuffer} {queue : List Byte}

theorem zeroed : KeyboardBuffer.zeroed.Queue [] where
  holds := .empty _ _ fun _ _ => rfl
  tail := rfl

/-- A push finds an empty slot exactly when there is room. -/
theorem fits_iff (isQueue : keyboard.Queue queue) :
    keyboard.buffer (keyboardGetTailIndex keyboard) = 0x00#8 ↔ queue.length < peachosKeyboardBufferSize := by
  unfold keyboardGetTailIndex
  rw [isQueue.tail]
  exact isQueue.holds.room_iff (by decide)

theorem push (isQueue : keyboard.Queue queue) {c : Byte} (notZero : c ≠ 0x00#8)
    (room : queue.length < peachosKeyboardBufferSize) : (keyboardPush keyboard c).Queue (queue ++ [c]) := by
  unfold keyboardPush
  rw [if_neg notZero]
  refine ⟨?_, ?_⟩
  · change Holds _ _ (put keyboard.buffer (toWord keyboard.tail % peachosKeyboardBufferSize) c) (toWord keyboard.head) _
    rw [isQueue.tail]
    exact isQueue.holds.push room notZero
  · change toWord (toInt32 (keyboard.tail + 1)) % peachosKeyboardBufferSize = _
    rw [toWord_toInt32_succ, Nat.add_mod, isQueue.tail, ← Nat.add_mod, List.length_append, List.length_singleton,
      Nat.add_assoc]

theorem pop_empty (isQueue : keyboard.Queue []) : keyboardPop keyboard = (0x00#8, keyboard) := by
  unfold keyboardPop
  exact if_pos (isQueue.holds.drained (by decide))

theorem pop {first : Byte} (isQueue : keyboard.Queue (first :: queue)) :
    (keyboardPop keyboard).1 = first ∧ first ≠ 0x00#8 ∧ (keyboardPop keyboard).2.Queue queue := by
  have front := isQueue.holds.front
  have notZero : first ≠ 0x00#8 := fun isZero => isQueue.holds.marked (isZero ▸ List.mem_cons_self)
  unfold keyboardPop
  dsimp only
  rw [front, if_neg notZero]
  refine ⟨rfl, notZero, ?_, ?_⟩
  · exact isQueue.holds.pop.congr_head (toWord_toInt32_succ keyboard.head)
  · change toWord keyboard.tail % peachosKeyboardBufferSize = _
    rw [isQueue.tail, Nat.add_mod (toWord (toInt32 (keyboard.head + 1))), toWord_toInt32_succ, ← Nat.add_mod,
      List.length_cons]
    congr 1
    omega

/-- An empty queue is a ring without characters. -/
theorem eq_nil_of_cleared (isQueue : keyboard.Queue queue)
    (cleared : ∀ slot < peachosKeyboardBufferSize, keyboard.buffer slot = 0x00#8) : queue = [] := by
  cases queue with
  | nil => rfl
  | cons first queue =>
      have front := isQueue.holds.front
      rw [cleared _ (Nat.mod_lt _ (by decide))] at front
      exact absurd (front ▸ List.mem_cons_self) isQueue.holds.marked

end KeyboardBuffer.Queue

/-- **A run whose pushes fit is a run of the queue**: what is popped, and then what is left, is what was there and
what was pushed. -/
theorem run_holds (calls : List KeyboardCall) {keyboard : KeyboardBuffer} {queue : List Byte}
    (isQueue : keyboard.Queue queue) (fit : PushesFit calls keyboard) :
    ∃ left, (keyboard.run calls).2.Queue left ∧ (keyboard.run calls).1 ++ left = queue ++ pushedCharacters calls := by
  induction calls generalizing keyboard queue with
  | nil => exact ⟨queue, isQueue, (List.append_nil queue).symm⟩
  | cons call calls ih =>
      cases call with
      | push c =>
          obtain ⟨empty, fit⟩ := fit
          rw [run_push, pushedCharacters_push]
          by_cases isZero : c = 0x00#8
          · have same : keyboardPush keyboard c = keyboard := if_pos isZero
            rw [same] at fit ⊢
            rw [if_pos isZero]
            exact ih isQueue fit
          · have room := isQueue.fits_iff.mp (empty.resolve_left isZero)
            obtain ⟨left, isLeft, all⟩ := ih (isQueue.push isZero room) fit
            rw [if_neg isZero]
            exact ⟨left, isLeft, by rw [all, List.append_assoc, List.singleton_append]⟩
      | pop =>
          change PushesFit calls (keyboardPop keyboard).2 at fit
          rw [run_pop, pushedCharacters_pop]
          cases queue with
          | nil =>
              rw [isQueue.pop_empty] at fit ⊢
              rw [if_pos rfl]
              exact ih isQueue fit
          | cons first queue =>
              obtain ⟨popped, notZero, rest⟩ := isQueue.pop
              obtain ⟨left, isLeft, all⟩ := ih rest fit
              rw [popped, if_neg notZero]
              exact ⟨left, isLeft, by rw [List.cons_append, all, List.cons_append]⟩

/-- A queue that is popped as often as it is long comes out whole. -/
theorem run_pops (count : Nat) {keyboard : KeyboardBuffer} {queue : List Byte} (isQueue : keyboard.Queue queue)
    (enough : queue.length ≤ count) : (keyboard.run (List.replicate count .pop)).1 = queue := by
  induction count generalizing keyboard queue with
  | zero => exact (List.eq_nil_of_length_eq_zero (Nat.le_zero.mp enough)).symm
  | succ count ih =>
      rw [List.replicate_succ, run_pop]
      cases queue with
      | nil =>
          rw [isQueue.pop_empty, if_pos rfl]
          exact ih isQueue (Nat.zero_le count)
      | cons first queue =>
          obtain ⟨popped, notZero, rest⟩ := isQueue.pop
          rw [popped, if_neg notZero, ih rest (Nat.le_of_succ_le_succ enough)]

/-- **A run from the empty queue**: what is popped is a prefix of what is pushed, and draining pops the rest. -/
theorem run_drained {calls : List KeyboardCall} {keyboard : KeyboardBuffer} (isQueue : keyboard.Queue [])
    (fit : PushesFit calls keyboard) : (keyboard.run calls).1 <+: pushedCharacters calls ∧
      (keyboard.run (calls ++ List.replicate (pushedCharacters calls).length .pop)).1 = pushedCharacters calls := by
  obtain ⟨left, isLeft, all⟩ := run_holds calls isQueue fit
  rw [List.nil_append] at all
  refine ⟨⟨left, all⟩, ?_⟩
  have fewer : left.length ≤ (pushedCharacters calls).length := by
    rw [← all, List.length_append]
    exact Nat.le_add_left _ _
  rw [(run_append _ _ _).1, run_pops _ isLeft fewer, all]

theorem pushesFit_append (first second : List KeyboardCall) (keyboard : KeyboardBuffer) :
    PushesFit (first ++ second) keyboard ↔ PushesFit first keyboard ∧ PushesFit second (keyboard.run first).2 := by
  induction first generalizing keyboard with
  | nil => exact iff_of_eq (true_and (PushesFit second keyboard)).symm
  | cons call calls ih =>
      cases call with
      | push c => exact (and_congr_right fun _ => ih (keyboardPush keyboard c)).trans and_assoc.symm
      | pop =>
          refine (ih (keyboardPop keyboard).2).trans (and_congr_right fun _ => ?_)
          rw [run_pop]
          split <;> exact Iff.rfl

/-- **Pushes fit as long as the backlog fits.** -/
theorem pushesFit_iff (calls : List KeyboardCall) {keyboard : KeyboardBuffer} (isQueue : keyboard.Queue []) :
    PushesFit calls keyboard ↔ BacklogFits calls keyboard := by
  constructor
  · rintro fit before ⟨after, rfl⟩
    obtain ⟨left, isLeft, all⟩ := run_holds before isQueue ((pushesFit_append _ _ _).mp fit).1
    rw [List.nil_append] at all
    rw [← all, List.length_append]
    exact Nat.add_le_add_left isLeft.holds.fits _
  · intro fits
    induction calls using List.reverseRecOn with
    | nil => trivial
    | append_singleton calls call ih =>
        have earlier := ih fun before isPrefix => fits before (isPrefix.trans (List.prefix_append _ _))
        refine (pushesFit_append _ _ _).mpr ⟨earlier, ?_⟩
        obtain ⟨left, isLeft, all⟩ := run_holds calls isQueue earlier
        cases call with
        | pop => trivial
        | push c =>
            refine ⟨or_iff_not_imp_left.mpr fun notZero => isLeft.fits_iff.mpr ?_, trivial⟩
            -- the backlog with the new character
            have bound := fits _ (List.prefix_rfl (l := calls ++ [.push c]))
            rw [pushedCharacters_append, (run_append _ _ _).1] at bound
            simp only [pushedCharacters, if_neg notZero, KeyboardBuffer.run, List.append_nil, List.length_append,
              List.length_singleton] at bound
            have whole := congrArg List.length all
            rw [List.nil_append, List.length_append] at whole
            omega

/-- **While pushes find an empty slot, the ring is faithful.** -/
theorem keyboard_faithful (calls : List KeyboardCall) (fit : PushesFit calls .zeroed) : KeyboardFaithful calls := by
  have run := run_drained .zeroed fit
  refine ⟨run.1.sublist, fun _ => run.2, ?_⟩
  rintro before after rfl cleared _
  obtain ⟨first, second⟩ := (pushesFit_append _ _ _).mp fit
  obtain ⟨left, isLeft, _⟩ := run_holds before .zeroed first
  obtain rfl := isLeft.eq_nil_of_cleared cleared
  exact run_drained isLeft second

/-- **Two characters and three pops.** -/
theorem keyboard_faithful_two : KeyboardFaithful [.push 0x61#8, .push 0x62#8, .pop, .pop, .pop] :=
  keyboard_faithful _ ⟨Or.inr rfl, Or.inr rfl, trivial⟩

/-! ### One character too many -/

/-- **A push into a full ring overtakes** all characters but the one it replaces. -/
theorem full_push_popped {keyboard : KeyboardBuffer} {first second : Byte} {queue : List Byte}
    (isQueue : keyboard.Queue (first :: second :: queue)) (full : queue.length + 2 = peachosKeyboardBufferSize) {c : Byte}
    (notZero : c ≠ 0x00#8) : (keyboard.run [.push c, .pop, .pop]).1 = [c, second] := by
  have atHead : keyboardGetTailIndex keyboard = toWord keyboard.head % peachosKeyboardBufferSize := by
    unfold keyboardGetTailIndex
    rw [isQueue.tail, List.length_cons, List.length_cons, full, Nat.add_mod_right]
  have next : toWord (toInt32 (keyboard.head + 1)) % peachosKeyboardBufferSize ≠
      toWord keyboard.head % peachosKeyboardBufferSize := by
    rw [toWord_toInt32_succ]
    change (toWord keyboard.head + 1) % 1024 ≠ toWord keyboard.head % 1024
    omega
  have isSecond : keyboard.buffer (toWord (toInt32 (keyboard.head + 1)) % peachosKeyboardBufferSize) = second := by
    rw [toWord_toInt32_succ]
    exact isQueue.holds.entry 1 (Nat.succ_lt_succ (Nat.succ_pos _))
  have secondNotZero : second ≠ 0x00#8 := fun isZero =>
    isQueue.holds.marked (isZero ▸ List.mem_cons_of_mem _ List.mem_cons_self)
  have pushed : keyboardPush keyboard c =
      { keyboard with
        buffer := put keyboard.buffer (toWord keyboard.head % peachosKeyboardBufferSize) c
        tail := toInt32 (keyboard.tail + 1) } := by
    unfold keyboardPush
    rw [if_neg notZero, atHead]
  rw [run_push, pushed, run_pop]
  simp only [keyboardPop, put_same, if_neg notZero, put_other _ next, isSecond, if_neg secondNotZero,
    KeyboardBuffer.run]

/-- As many characters as the buffer has slots. -/
def fullCalls (c : Byte) : List KeyboardCall := List.replicate peachosKeyboardBufferSize (.push c)

theorem pushedCharacters_replicate {c : Byte} (notZero : c ≠ 0x00#8) (count : Nat) :
    pushedCharacters (List.replicate count (.push c)) = List.replicate count c := by
  induction count with
  | zero => rfl
  | succ count ih => rw [List.replicate_succ, pushedCharacters_push, if_neg notZero, ih, List.replicate_succ]

/-- They fit. -/
theorem fullCalls_fit {c : Byte} (notZero : c ≠ 0x00#8) : PushesFit (fullCalls c) .zeroed := by
  refine (pushesFit_iff _ .zeroed).mpr fun before isPrefix => ?_
  have fewer : (pushedCharacters before).length ≤ peachosKeyboardBufferSize := by
    obtain ⟨after, split⟩ := isPrefix
    have all := congrArg List.length (congrArg pushedCharacters split)
    rw [pushedCharacters_append, List.length_append, fullCalls, pushedCharacters_replicate notZero,
      List.length_replicate] at all
    omega
  omega

/-- Pushing alone pops nothing. -/
theorem run_pushes (c : Byte) (count : Nat) (keyboard : KeyboardBuffer) :
    (keyboard.run (List.replicate count (.push c))).1 = [] := by
  induction count generalizing keyboard with
  | zero => rfl
  | succ count ih => exact ih (keyboardPush keyboard c)

/-- The last character of a list is not in front of another one. -/
theorem not_sublist_overtaken {c other : Byte} (different : c ≠ other) (count : Nat) :
    ¬ [c, other].Sublist (List.replicate count other ++ [c]) := by
  intro ordered
  obtain ⟨front, back, split, inFront, inBack⟩ := List.sublist_append_iff.mp ordered
  cases front with
  | nil =>
      rw [List.nil_append] at split
      rw [← split] at inBack
      exact absurd inBack.length_le (Nat.not_succ_le_self 1)
  | cons first front =>
      obtain ⟨rfl, _⟩ := List.cons.inj split
      exact different (List.eq_of_mem_replicate (inFront.subset List.mem_cons_self))

/-- **The ring overflows**: of a full buffer and one more character, that one is popped first. -/
theorem keyboard_overflows : ¬ ∀ calls, KeyboardFaithful calls := by
  intro faithful
  have notZero : (0x61#8 : Byte) ≠ 0x00#8 := by decide
  obtain ⟨left, isLeft, all⟩ := run_holds _ .zeroed (fullCalls_fit notZero)
  have ordered := (faithful (fullCalls 0x61#8 ++ [.push 0x62#8, .pop, .pop])).ordered
  obtain ⟨count, countEq⟩ : ∃ count, peachosKeyboardBufferSize = count + 2 := ⟨1022, rfl⟩
  unfold fullCalls at isLeft all ordered
  rw [run_pushes, pushedCharacters_replicate notZero, List.nil_append, List.nil_append] at all
  have shape : left = 0x61#8 :: 0x61#8 :: List.replicate count 0x61#8 := by
    rw [all, countEq, List.replicate_succ, List.replicate_succ]
  rw [shape] at isLeft
  have overtaken := full_push_popped isLeft (by rw [List.length_replicate, countEq]) (show (0x62#8 : Byte) ≠ 0x00#8 by decide)
  rw [(run_append _ _ _).1, run_pushes, overtaken, List.nil_append, pushedCharacters_append,
    pushedCharacters_replicate notZero] at ordered
  exact not_sublist_overtaken (by decide) _ ordered

end PeachOS
