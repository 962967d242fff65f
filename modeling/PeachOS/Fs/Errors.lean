/-
**Errors in pointers: the macros of `kernel.h`.**

A function that returns a pointer returns an error as a pointer as well, `ERROR` of a negative number. A caller tells
them apart by the low 32 bits.

* `ErrorReturn` — what such a function means to return, and the pointer that it returns for it;
* `iserr_error`, `errorI_error` — errors are recognised;
* `iserr_pointer_iff`, `errorI_pointer_iff` — which pointers are not taken for an error, and which are not taken for zero.
-/

import PeachOS.Machine

namespace PeachOS

/-- `ERROR`. -/
def errorPointer (value : Int) : Nat := toWord value

/-- `ERROR_I`. -/
def errorI (value : Nat) : Int := toInt32 value

/-- `ISERR`. -/
def iserr (value : Nat) : Bool := toInt32 value < 0

/-- **What a function returns that may fail**: an error, or a pointer. -/
inductive ErrorReturn where
  | error (code : Int)
  | pointer (address : Nat)
deriving DecidableEq

/-- The pointer that the caller gets. -/
def ErrorReturn.encode : ErrorReturn → Nat
  | .error code => errorPointer code
  | .pointer address => address

def ErrorReturn.isError : ErrorReturn → Bool
  | .error _ => true
  | .pointer _ => false

/-- The error codes. -/
def ErrorCode (code : Int) : Prop := -4095 ≤ code ∧ code ≤ -1

instance (code : Int) : Decidable (ErrorCode code) := inferInstanceAs (Decidable (_ ∧ _))

theorem errorI_error {code : Int} (isCode : ErrorCode code) : errorI (errorPointer code) = code := by
  obtain ⟨low, high⟩ := isCode
  unfold errorI errorPointer toWord toInt32
  split <;> omega

theorem iserr_error {code : Int} (isCode : ErrorCode code) : iserr (errorPointer code) = true := by
  have decodes := errorI_error isCode
  rw [errorI] at decodes
  rw [iserr, decodes]
  exact decide_eq_true (by have := isCode.2; omega)

/-- A pointer is taken for an error by the sign of its low 32 bits. -/
theorem iserr_pointer_iff (address : Nat) : iserr address = false ↔ address % 2 ^ 32 < 2 ^ 31 := by
  rw [iserr, decide_eq_false_iff_not]
  unfold toInt32
  split <;> omega

theorem errorI_pointer_iff (address : Nat) : errorI address = 0 ↔ address % 2 ^ 32 = 0 := by
  unfold errorI toInt32
  split <;> omega

/-- What is taken for an error has a negative code. -/
theorem errorI_neg_of_iserr {value : Nat} (isError : iserr value = true) : errorI value < 0 :=
  of_decide_eq_true isError

end PeachOS
