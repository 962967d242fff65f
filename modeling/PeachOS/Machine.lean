/-
**The machine the kernel runs on: 64-bit words and byte memory.**

Addresses and sizes are natural numbers below `2 ^ 64`; the C conversions that the kernel relies on
are `toWord` (to `size_t`, `uintptr_t` and `uint64_t`), `toInt64` (to `int64_t` and `long`) and
`toInt32` (to `int`), all of them reducing modulo the width as the compiler of this kernel does.
Memory is a store of bytes.

`memset` and `memcpy` are the kernel's own (`memory/memory.c`). Both count with an `int`:

* `memset` compares its `int` counter with a `size_t`, so a counter that overflows becomes a huge
  unsigned number and the loop ends: it writes at most `2 ^ 31` bytes;
* `memcpy` takes its length as an `int` and counts it down to zero, so it copies the length modulo
  `2 ^ 32` bytes.
-/

import PeachOS.Lib.ByteStore

namespace PeachOS

open ByteStore

/-- A byte of memory. -/
abbrev Byte := BitVec 8

/-- Physical memory. -/
abbrev Memory := Store Byte

/-! ### Conversions -/

/-- Conversion to an unsigned 64-bit word. -/
def toWord (value : Int) : Nat := (value % 2 ^ 64).toNat

/-- Conversion to `uint32_t`. -/
def toUInt32 (value : Int) : Nat := (value % 2 ^ 32).toNat

/-- Conversion to `uint16_t`. -/
def toUInt16 (value : Int) : Nat := (value % 2 ^ 16).toNat

/-- Conversion to a signed 64-bit integer. -/
def toInt64 (value : Int) : Int :=
  if value % 2 ^ 64 < 2 ^ 63 then value % 2 ^ 64 else value % 2 ^ 64 - 2 ^ 64

/-- Conversion to `int`. -/
def toInt32 (value : Int) : Int :=
  if value % 2 ^ 32 < 2 ^ 31 then value % 2 ^ 32 else value % 2 ^ 32 - 2 ^ 32

theorem toWord_lt (value : Int) : toWord value < 2 ^ 64 := by
  unfold toWord
  omega

theorem toWord_of_bounds {value : Int} (low : 0 ≤ value) (high : value < 2 ^ 64) :
    toWord value = value.toNat := by
  unfold toWord
  rw [Int.emod_eq_of_lt low high]

theorem toWord_mod (value : Nat) : toWord (value : Int) = value % 2 ^ 64 := by
  unfold toWord
  omega

/-- A word converts to itself. -/
theorem toWord_natCast {value : Nat} (high : value < 2 ^ 64) : toWord (value : Int) = value := by
  rw [toWord_of_bounds (by omega) (by omega), Int.toNat_natCast]

theorem toWord_eq {value : Int} {word : Nat} (equal : value = word) (high : word < 2 ^ 64) : toWord value = word := by
  rw [equal, toWord_natCast high]

theorem toUInt32_natCast {value : Nat} (high : value < 2 ^ 32) : toUInt32 (value : Int) = value := by
  unfold toUInt32
  omega

theorem toUInt16_natCast {value : Nat} (high : value < 2 ^ 16) : toUInt16 (value : Int) = value := by
  unfold toUInt16
  omega

theorem toInt64_of_bounds {value : Int} (low : -2 ^ 63 ≤ value) (high : value < 2 ^ 63) :
    toInt64 value = value := by
  unfold toInt64
  split <;> omega

theorem toInt32_of_bounds {value : Int} (low : -2 ^ 31 ≤ value) (high : value < 2 ^ 31) :
    toInt32 value = value := by
  unfold toInt32
  split <;> omega

theorem toInt32_natCast_add {x y : Nat} (small : x + y < 2 ^ 31) : toInt32 ((x : Int) + y) = (x + y : Nat) := by
  rw [toInt32_of_bounds (by omega) (by omega), Nat.cast_add]

theorem toInt32_bounds (value : Int) : -2 ^ 31 ≤ toInt32 value ∧ toInt32 value < 2 ^ 31 := by
  unfold toInt32
  split <;> omega

theorem toWord_add (x y : Int) : toWord ((toWord x : Nat) + y) = toWord (x + y) := by
  unfold toWord
  rw [Int.toNat_of_nonneg (Int.emod_nonneg _ (by decide)), Int.emod_add_emod]

theorem toWord_emod (value : Int) : (toWord value : Int) % 2 ^ 32 = value % 2 ^ 32 := by
  unfold toWord
  rw [Int.toNat_of_nonneg (Int.emod_nonneg _ (by decide)), Int.emod_emod_of_dvd _ (by decide)]

theorem toInt32_emod (value : Int) : toInt32 value % 2 ^ 32 = value % 2 ^ 32 := by
  unfold toInt32
  split
  · exact Int.emod_emod_of_dvd _ (by decide)
  · rw [Int.sub_emod_right, Int.emod_emod_of_dvd _ (by decide)]

theorem toInt64_emod (value : Int) : toInt64 value % 2 ^ 32 = value % 2 ^ 32 := by
  unfold toInt64
  split
  · exact Int.emod_emod_of_dvd _ (by decide)
  · rw [Int.sub_emod, Int.emod_emod_of_dvd _ (by decide)]
    simp

theorem toInt32_congr {value value' : Int} (same : value % 2 ^ 32 = value' % 2 ^ 32) : toInt32 value = toInt32 value' := by
  unfold toInt32
  rw [same]

theorem toWord_sub {x y : Nat} (order : y ≤ x) (high : x < 2 ^ 64) : toWord ((x : Int) - y) = x - y := by
  rw [← Int.ofNat_sub order, toWord_natCast (by omega)]

/-! ### Memory functions -/

/-- `memset`: `for (int i = 0; i < size; i++)`. -/
def memset (mem : Memory) (ptr : Nat) (c : Byte) (size : Nat) : Memory :=
  fill mem ptr c (min size (2 ^ 31))

/-- `memcpy`: `while (len--)`, with the length converted to `int`. -/
def memcpy (mem : Memory) (dest src : Nat) (len : Nat) : Memory :=
  copy mem dest src (len % 2 ^ 32)

theorem memset_outside {mem : Memory} {ptr size other : Nat}
    (outside : other < ptr ∨ ptr + size ≤ other) (c : Byte) : memset mem ptr c size other = mem other :=
  fill_outside mem (by omega) c

theorem memcpy_outside {mem : Memory} {dest src len other : Nat}
    (outside : other < dest ∨ dest + len ≤ other) : memcpy mem dest src len other = mem other :=
  copy_outside mem (by have := Nat.mod_le len (2 ^ 32); omega)

/-! ### Status codes and configuration -/

/-- `-EIO`. -/
def eio : Int := -1

/-- `-EINVARG`. -/
def einvarg : Int := -2

/-- `-ENOMEM`. -/
def enomem : Int := -3

/-- `-EOUTOFRANGE`. -/
def eoutofrange : Int := -10

/-- `-ENOTFOUND`. -/
def enotfound : Int := -11

/-- `-EINVAL`. -/
def einval : Int := -13

/-- `PEACHOS_HEAP_BLOCK_SIZE`. -/
abbrev peachosHeapBlockSize : Nat := 4096

/-- `PEACHOS_HEAP_MINIMUM_SIZE_BYTES`: 100 MB. -/
abbrev peachosHeapMinimumSizeBytes : Nat := 104857600

/-- `PEACHOS_MINIMAL_HEAP_ADDRESS`. -/
abbrev peachosMinimalHeapAddress : Nat := 0x01100000

/-- `PEACHOS_MINIMAL_HEAP_TABLE_ADDRESS`. -/
abbrev peachosMinimalHeapTableAddress : Nat := 0x01000000

end PeachOS
