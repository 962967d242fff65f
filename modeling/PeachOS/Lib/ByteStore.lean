/-
**Stores: one value per address, and what a ranged update leaves alone.**

A store is a total function from addresses to values. Four updates are enough for the programs
that use this file:

* `put` writes one address;
* `fill` writes one value at `n` consecutive addresses, lowest first;
* `copy` moves `n` values one by one, lowest first, so that a destination above an overlapping
  source reads what it has just written;
* `blit` writes a list of values.

Each has an `_apply` lemma that reads the result at every address and an `_outside` lemma that is
its frame. `window` reads `n` consecutive values back as a list; `encodeWord` and `decodeWord` are
the little-endian words kept in stores of bytes, `readWord` and `writeWord` their accesses.
-/

import Mathlib.Data.List.Basic
import Mathlib.Tactic.Ring

namespace ByteStore

/-- A store holds one value at every address. -/
abbrev Store (β : Type) := Nat → β

section Updates

variable {β : Type} (store : Store β)

/-- Write one address. -/
def put (address : Nat) (value : β) : Store β :=
  fun other => if other = address then value else store other

@[simp] theorem put_same (address : Nat) (value : β) : put store address value address = value :=
  if_pos rfl

theorem put_other {address other : Nat} (different : other ≠ address) (value : β) :
    put store address value other = store other :=
  if_neg different

/-- The last of two writes to one address stays. -/
theorem put_put (address : Nat) (value value' : β) :
    put (put store address value) address value' = put store address value' := by
  funext other
  by_cases here : other = address
  · rw [here, put_same, put_same]
  · rw [put_other _ here, put_other _ here, put_other _ here]

/-- A field that a written value shares with the one before is kept everywhere. -/
theorem put_field {γ : Type} (field : β → γ) {address : Nat} {value : β} (same : field value = field (store address))
    (other : Nat) : field (put store address value other) = field (store other) := by
  by_cases here : other = address
  · rw [here, put_same, same]
  · rw [put_other store here]

/-- Write one value at `count` consecutive addresses, lowest first. -/
def fill (base : Nat) (value : β) : Nat → Store β
  | 0 => store
  | count + 1 => put (fill base value count) (base + count) value

/-- **What a fill leaves at every address.** -/
theorem fill_apply (base : Nat) (value : β) (count other : Nat) :
    fill store base value count other =
      if base ≤ other ∧ other < base + count then value else store other := by
  induction count with
  | zero =>
      rw [if_neg (by omega)]
      rfl
  | succ count ih =>
      rw [fill]
      by_cases last : other = base + count
      · rw [last, put_same, if_pos (by omega)]
      · rw [put_other _ last, ih]
        by_cases inside : base ≤ other ∧ other < base + count
        · rw [if_pos inside, if_pos (by omega)]
        · rw [if_neg inside, if_neg (by omega)]

theorem fill_outside {base count other : Nat} (outside : other < base ∨ base + count ≤ other)
    (value : β) : fill store base value count other = store other := by
  rw [fill_apply, if_neg (by omega)]

/-- Copy `count` values one by one, lowest first. -/
def copy (target source : Nat) : Nat → Store β
  | 0 => store
  | count + 1 =>
      put (copy target source count) (target + count) (copy target source count (source + count))

theorem copy_outside {target source count other : Nat}
    (outside : other < target ∨ target + count ≤ other) :
    copy store target source count other = store other := by
  induction count with
  | zero => rfl
  | succ count ih =>
      rw [copy, put_other _ (by omega)]
      exact ih (by omega)

/-- **A forward copy delivers the source**, unless the target starts inside the source above its
first address. -/
theorem copy_inside {target source count offset : Nat} (inside : offset < count)
    (apart : target ≤ source ∨ source + count ≤ target) :
    copy store target source count (target + offset) = store (source + offset) := by
  induction count with
  | zero => omega
  | succ count ih =>
      rw [copy]
      by_cases last : offset = count
      · -- the source value has not been overwritten by the values copied before it
        rw [last, put_same]
        exact copy_outside store (by omega)
      · rw [put_other _ (by omega)]
        exact ih (by omega) (by omega)

/-- Write a list of values at consecutive addresses. -/
def blit (store : Store β) (base : Nat) : List β → Store β
  | [] => store
  | value :: values => blit (put store base value) (base + 1) values

theorem blit_outside (values : List β) : ∀ (store : Store β) {base other : Nat},
    other < base ∨ base + values.length ≤ other → blit store base values other = store other := by
  induction values with
  | nil => exact fun _ _ _ _ => rfl
  | cons value values ih =>
      intro store base other outside
      rw [List.length_cons] at outside
      rw [blit, ih _ (by omega), put_other _ (by omega)]

theorem blit_inside {values : List β} (store : Store β) (base : Nat) {offset : Nat} (inside : offset < values.length) :
    blit store base values (base + offset) = values[offset] := by
  induction values generalizing store base offset with
  | nil => cases inside
  | cons value values ih =>
      rw [blit]
      cases offset with
      | zero =>
          change blit (put store base value) (base + 1) values base = value
          rw [blit_outside values _ (Or.inl (Nat.lt_add_one base)), put_same]
      | succ offset =>
          rw [show base + (offset + 1) = base + 1 + offset by omega]
          exact ih (put store base value) (base + 1) (Nat.lt_of_succ_lt_succ inside)

theorem blit_append (values values' : List β) : ∀ (store : Store β) (base : Nat),
    blit store base (values ++ values') = blit (blit store base values) (base + values.length) values' := by
  induction values with
  | nil => exact fun _ _ => rfl
  | cons value values ih =>
      intro store base
      rw [List.cons_append, blit, blit, ih, List.length_cons, Nat.add_assoc, Nat.add_comm 1]

/-- The values at `count` consecutive addresses. -/
def window (store : Store β) (base : Nat) : Nat → List β
  | 0 => []
  | count + 1 => store base :: window store (base + 1) count

@[simp] theorem length_window (store : Store β) (base count : Nat) :
    (window store base count).length = count := by
  induction count generalizing base with
  | zero => rfl
  | succ count ih => rw [window, List.length_cons, ih]

/-- **The window of a blit is the list that was written.** -/
theorem window_blit (values : List β) : ∀ (store : Store β) (base : Nat),
    window (blit store base values) base values.length = values := by
  induction values with
  | nil => exact fun _ _ => rfl
  | cons value values ih =>
      intro store base
      have head : blit store base (value :: values) base = value := by
        rw [blit, blit_outside values _ (Or.inl (Nat.lt_succ_self base)), put_same]
      rw [List.length_cons, window, head, blit, ih]

theorem window_congr {first second : Store β} {base count : Nat}
    (same : ∀ offset < count, first (base + offset) = second (base + offset)) :
    window first base count = window second base count := by
  induction count generalizing base with
  | zero => rfl
  | succ count ih =>
      rw [window, window, show first base = second base from same 0 (Nat.succ_pos count)]
      congr 1
      exact ih fun offset inside => by
        have shifted := same (offset + 1) (by omega)
        rwa [show base + (offset + 1) = base + 1 + offset by omega] at shifted

end Updates

/-! ### Little-endian words -/

/-- The `count` low bytes of a value, lowest first. -/
def encodeWord : Nat → Nat → List (BitVec 8)
  | 0, _ => []
  | count + 1, value => BitVec.ofNat 8 value :: encodeWord count (value / 256)

/-- The value of a list of bytes, lowest first. -/
def decodeWord : List (BitVec 8) → Nat
  | [] => 0
  | byte :: bytes => byte.toNat + 256 * decodeWord bytes

@[simp] theorem length_encodeWord (count value : Nat) : (encodeWord count value).length = count := by
  induction count generalizing value with
  | zero => rfl
  | succ count ih => rw [encodeWord, List.length_cons, ih]

/-- **Words survive the round trip** when they fit. -/
theorem decodeWord_encodeWord {count value : Nat} (fits : value < 256 ^ count) :
    decodeWord (encodeWord count value) = value := by
  induction count generalizing value with
  | zero =>
      have zero : value = 0 := by simpa using fits
      rw [zero]
      rfl
  | succ count ih =>
      have rest : value / 256 < 256 ^ count := by
        rw [Nat.div_lt_iff_lt_mul (by norm_num)]
        rwa [pow_succ] at fits
      rw [encodeWord, decodeWord, ih rest, BitVec.toNat_ofNat]
      exact Nat.mod_add_div value 256

theorem decodeWord_lt (bytes : List (BitVec 8)) : decodeWord bytes < 256 ^ bytes.length := by
  induction bytes with
  | nil => exact Nat.one_pos
  | cons byte bytes ih =>
      have low := byte.isLt
      rw [decodeWord, List.length_cons, pow_succ]
      omega

/-- The word of `count` bytes at an address. -/
def readWord (store : Store (BitVec 8)) (address count : Nat) : Nat := decodeWord (window store address count)

/-- Write a word of `count` bytes. -/
def writeWord (store : Store (BitVec 8)) (address count value : Nat) : Store (BitVec 8) :=
  blit store address (encodeWord count value)

section Words

variable {store store' : Store (BitVec 8)} {address other count value : Nat}

theorem readWord_lt : readWord store address count < 256 ^ count := by
  have bound := decodeWord_lt (window store address count)
  rwa [length_window] at bound

theorem readWord_congr (same : ∀ offset < count, store' (address + offset) = store (address + offset)) :
    readWord store' address count = readWord store address count := by
  rw [readWord, window_congr same, readWord]

/-- **A written word is read back.** -/
theorem readWord_writeWord (fits : value < 256 ^ count) :
    readWord (writeWord store address count value) address count = value := by
  have written := window_blit (encodeWord count value) store address
  rw [length_encodeWord] at written
  rw [readWord, writeWord, written, decodeWord_encodeWord fits]

theorem writeWord_outside (outside : other < address ∨ address + count ≤ other) :
    writeWord store address count value other = store other :=
  blit_outside _ _ (by rwa [length_encodeWord])

/-- A word apart from the written one is unchanged. -/
theorem readWord_writeWord_apart {count' : Nat} (apart : other + count' ≤ address ∨ address + count ≤ other) :
    readWord (writeWord store address count value) other count' = readWord store other count' :=
  readWord_congr fun offset inside => writeWord_outside (by omega)

/-- Cleared bytes are the word zero. -/
theorem readWord_eq_zero (zero : ∀ offset < count, store (address + offset) = 0#8) :
    readWord store address count = 0 := by
  unfold readWord
  induction count generalizing address with
  | zero => rfl
  | succ count ih =>
      have rest := @ih (address + 1) fun offset inside => by
        have shifted := zero (offset + 1) (by omega)
        rwa [show address + (offset + 1) = address + 1 + offset by omega] at shifted
      have head : store address = 0#8 := zero 0 (Nat.succ_pos count)
      rw [window, decodeWord, rest, head]
      rfl

/-- The low bytes of a word. -/
theorem readWord_mod (store : Store (BitVec 8)) (address low high : Nat) :
    readWord store address (low + high) % 256 ^ low = readWord store address low := by
  induction low generalizing address with
  | zero => exact Nat.mod_one _
  | succ low ih =>
      have rest := ih (address + 1)
      simp only [readWord] at rest ⊢
      rw [Nat.succ_add, window, decodeWord, window, decodeWord, ← rest, pow_succ, Nat.mul_comm (256 ^ low), Nat.mod_mul,
        Nat.add_mul_mod_self_left, Nat.add_mul_div_left _ _ (by decide), Nat.mod_eq_of_lt (store address).isLt,
        Nat.div_eq_of_lt (store address).isLt, Nat.zero_add]

/-- **Equal words have equal bytes.** -/
theorem readWord_injective (same : readWord store' address count = readWord store address count) :
    ∀ offset < count, store' (address + offset) = store (address + offset) := by
  induction count generalizing address with
  | zero =>
      intro offset inside
      omega
  | succ count ih =>
      simp only [readWord, window, decodeWord] at same
      have low := (store' address).isLt
      have low' := (store address).isLt
      have first : store' address = store address := BitVec.eq_of_toNat_eq (by omega)
      have rest := @ih (address + 1) (by simp only [readWord]; omega)
      intro offset inside
      rcases offset with _ | offset
      · exact first
      · rw [show address + (offset + 1) = address + 1 + offset by omega]
        exact rest offset (by omega)

end Words

end ByteStore
