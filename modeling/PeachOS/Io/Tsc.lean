/-
**The time stamp counter: `io/tsc.c` and `tsc_microseconds` of `io/tsc.asm`.**

The frequency is taken from CPUID: in hertz from leaf 0x15, or in megahertz from leaf 0x16, which is multiplied by 1,000,000
at once. Then it is multiplied by 1,000,000 once more, whichever leaf it is from.

* `tscFrequency_of_reached` — every call gives the described frequency times 1,000,000, in 64 bits;
* `rightAt_iff` — which counter values are converted rightly;
* `waitsFor_iff` — which delays are long enough;
* `keepsTime_never` — **for no answer of CPUID are all counter values converted rightly**.
-/

import PeachOS.Machine
import PeachOS.Lib.StepRun
import Mathlib.Order.Monotone.Basic

namespace PeachOS

open StepRun

/-! ### The code -/

/-- The registers after `cpuid`. -/
structure CpuidLeaf where
  eax : BitVec 32
  ebx : BitVec 32
  ecx : BitVec 32
  edx : BitVec 32

/-- The answers of a processor, by leaf and sub-leaf. -/
abbrev Cpuid := (leaf subleaf : Nat) → CpuidLeaf

/-- `tsc_frequency`: what it returns, and `tsc_freq_val` then. -/
def tscFrequency (cpuid : Cpuid) (tscFreqVal : Nat) : Nat × Nat :=
  if tscFreqVal ≠ 0 then (tscFreqVal, tscFreqVal)
  else
    let crystal := cpuid 0x15 0
    let tscFreq :=
      if crystal.eax ≠ 0 ∧ crystal.ebx ≠ 0 ∧ crystal.ecx ≠ 0 then
        toWord (crystal.ecx.toNat * crystal.ebx.toNat : Nat) / crystal.eax.toNat
      else 0
    let base := cpuid 0x16 0
    let tscFreq := if tscFreq = 0 ∧ base.eax ≠ 0 then toWord (base.eax.toNat * 1000000 : Nat) else tscFreq
    let tscFreq := toWord (tscFreq * 1000000 : Nat)
    (tscFreq, tscFreq)

/-- `div` of a 128-bit number by a 64-bit one: it faults where the divisor is zero or the quotient is larger than a register. -/
def div64 (dividend divisor : Nat) : Option Nat :=
  if divisor = 0 ∨ 2 ^ 64 ≤ dividend / divisor then none else some (dividend / divisor)

/-- `tsc_microseconds`. -/
def tscMicroseconds (cpuid : Cpuid) (tscFreqVal currentTsc : Nat) : Option Nat :=
  div64 (currentTsc * 1000000) (tscFrequency cpuid tscFreqVal).1

/-- The loop of `udelay`, from reading `k` of the counter on: the reading it ends with. -/
def udelayLoop (readTsc : Nat → Nat) (start cyclesToWait : Nat) : (fuel k : Nat) → Option Nat
  | 0, _ => none
  | fuel + 1, k =>
      if toWord ((readTsc k : Int) - start) < cyclesToWait then udelayLoop readTsc start cyclesToWait fuel (k + 1) else some k

/-- `udelay`, whose reading 0 is `start`. -/
def udelay (cpuid : Cpuid) (tscFreqVal microseconds : Nat) (readTsc : Nat → Nat) (fuel : Nat) : Option Nat :=
  let tscFreq := (tscFrequency cpuid tscFreqVal).1
  let cyclesToWait := toWord (microseconds * tscFreq : Nat) / 1000000
  udelayLoop readTsc (readTsc 0) cyclesToWait fuel 1

/-! ### The statement -/

/-- **The frequency that the leaves describe**, in whole hertz: that of the crystal times the ratio of leaf 0x15, or else the
megahertz of leaf 0x16. It is zero when neither describes one. -/
def describedFrequency (cpuid : Cpuid) : Nat :=
  let crystal := cpuid 0x15 0
  let ofCrystal := crystal.ecx.toNat * crystal.ebx.toNat / crystal.eax.toNat
  if ofCrystal ≠ 0 then ofCrystal else 1000000 * (cpuid 0x16 0).eax.toNat

/-- The values of `tsc_freq_val` in any sequence of calls. -/
def TscFreqReached (cpuid : Cpuid) : Nat → Prop :=
  Reachable (fun tscFreqVal (_ : Unit) after => after = (tscFrequency cpuid tscFreqVal).2) (· = 0)

/-- A counter value is converted without a fault, and rightly if there is a frequency. -/
def RightAt (cpuid : Cpuid) (tscFreqVal currentTsc : Nat) : Prop :=
  ∃ microseconds, tscMicroseconds cpuid tscFreqVal currentTsc = some microseconds ∧
    (describedFrequency cpuid ≠ 0 → microseconds = currentTsc * 1000000 / describedFrequency cpuid)

/-- A delay that returns does so after the cycles of its microseconds, whatever the readings of a counter that goes on. -/
def WaitsFor (cpuid : Cpuid) (tscFreqVal microseconds : Nat) : Prop :=
  ∀ cycles : Nat → Nat, Monotone cycles → ∀ fuel k,
    udelay cpuid tscFreqVal microseconds (fun k => cycles k % 2 ^ 64) fuel = some k →
    microseconds * describedFrequency cpuid / 1000000 ≤ cycles k - cycles 0

/-- **Time is kept**: all counter values are converted rightly, and all delays are long enough. -/
def KeepsTime (cpuid : Cpuid) (tscFreqVal : Nat) : Prop :=
  (∀ currentTsc < 2 ^ 64, RightAt cpuid tscFreqVal currentTsc) ∧
    ∀ microseconds < 2 ^ 64, microseconds * describedFrequency cpuid < 2 ^ 64 → WaitsFor cpuid tscFreqVal microseconds

/-- **The counter values that are converted rightly**: with a frequency below `2 ^ 64 / 1000000` hertz, those of the first
microsecond; with a larger one, those with the same quotient by what is left of it. -/
def FirstMicrosecond (frequency currentTsc : Nat) : Prop :=
  frequency ≠ 0 ∧
    if frequency * 1000000 < 2 ^ 64 then currentTsc * 1000000 < frequency
    else
      frequency * 1000000 % 2 ^ 64 ≠ 0 ∧
        currentTsc * 1000000 / (frequency * 1000000 % 2 ^ 64) = currentTsc * 1000000 / frequency

/-! ### The frequency -/

theorem crystalProduct_lt (cpuid : Cpuid) : (cpuid 0x15 0).ecx.toNat * (cpuid 0x15 0).ebx.toNat < 2 ^ 64 :=
  lt_of_lt_of_le (Nat.mul_lt_mul'' (cpuid 0x15 0).ecx.isLt (cpuid 0x15 0).ebx.isLt) (by decide)

theorem describedFrequency_lt (cpuid : Cpuid) : describedFrequency cpuid < 2 ^ 64 := by
  have base := (cpuid 0x16 0).eax.isLt
  have product := crystalProduct_lt cpuid
  unfold describedFrequency
  dsimp only
  split
  · exact lt_of_le_of_lt (Nat.div_le_self _ _) product
  · omega

/-- **The frequency that is computed** is the described one times 1,000,000. -/
theorem tscFrequency_eq (cpuid : Cpuid) :
    tscFrequency cpuid 0 = (describedFrequency cpuid * 1000000 % 2 ^ 64, describedFrequency cpuid * 1000000 % 2 ^ 64) := by
  have base := (cpuid 0x16 0).eax.isLt
  have product := crystalProduct_lt cpuid
  have crystal : (if (cpuid 0x15 0).eax ≠ 0 ∧ (cpuid 0x15 0).ebx ≠ 0 ∧ (cpuid 0x15 0).ecx ≠ 0 then
      toWord ((cpuid 0x15 0).ecx.toNat * (cpuid 0x15 0).ebx.toNat : Nat) / (cpuid 0x15 0).eax.toNat else 0) =
        (cpuid 0x15 0).ecx.toNat * (cpuid 0x15 0).ebx.toNat / (cpuid 0x15 0).eax.toNat := by
    rw [toWord_natCast product]
    split
    · rfl
    · rename_i missing
      by_cases noRatio : (cpuid 0x15 0).eax = 0
      · rw [noRatio]
        exact (Nat.div_zero _).symm
      · by_cases noNumerator : (cpuid 0x15 0).ebx = 0
        · rw [noNumerator]
          exact (Nat.zero_div _).symm
        · have noCrystal : (cpuid 0x15 0).ecx = 0 := by
            by_contra hasCrystal
            exact missing ⟨noRatio, noNumerator, hasCrystal⟩
          rw [noCrystal]
          exact (Nat.zero_div _).symm.trans (congrArg (· / _) (Nat.zero_mul _).symm)
  have leaves : (if (cpuid 0x15 0).ecx.toNat * (cpuid 0x15 0).ebx.toNat / (cpuid 0x15 0).eax.toNat = 0 ∧
      (cpuid 0x16 0).eax ≠ 0 then toWord ((cpuid 0x16 0).eax.toNat * 1000000 : Nat)
      else (cpuid 0x15 0).ecx.toNat * (cpuid 0x15 0).ebx.toNat / (cpuid 0x15 0).eax.toNat) = describedFrequency cpuid := by
    unfold describedFrequency
    dsimp only
    generalize (cpuid 0x15 0).ecx.toNat * (cpuid 0x15 0).ebx.toNat / (cpuid 0x15 0).eax.toNat = ofCrystal
    by_cases none_ : ofCrystal = 0
    · by_cases noBase : (cpuid 0x16 0).eax = 0
      · rw [if_neg fun ⟨_, hasBase⟩ => hasBase noBase, if_neg (not_not.mpr none_), none_, noBase]
        rfl
      · rw [if_pos ⟨none_, noBase⟩, if_neg (not_not.mpr none_), toWord_natCast (by omega), Nat.mul_comm]
    · rw [if_neg fun ⟨isNone, _⟩ => none_ isNone, if_pos none_]
  unfold tscFrequency
  rw [if_neg (not_not.mpr rfl)]
  dsimp only
  rw [crystal, leaves, toWord_mod]

/-- **Every call gives the same frequency.** -/
theorem tscFrequency_of_reached {cpuid : Cpuid} {tscFreqVal : Nat} (reached : TscFreqReached cpuid tscFreqVal) :
    (tscFrequency cpuid tscFreqVal).1 = describedFrequency cpuid * 1000000 % 2 ^ 64 := by
  have kept : tscFreqVal = 0 ∨ tscFreqVal = describedFrequency cpuid * 1000000 % 2 ^ 64 := by
    refine reached.invariant (fun value => value = 0 ∨ value = describedFrequency cpuid * 1000000 % 2 ^ 64)
      (fun value begins => Or.inl begins) ?_
    rintro value - after before rfl
    by_cases zero : value = 0
    · rw [zero, tscFrequency_eq]
      exact Or.inr rfl
    · rw [tscFrequency, if_pos zero]
      exact before
  by_cases zero : tscFreqVal = 0
  · rw [zero, tscFrequency_eq]
  · rw [tscFrequency, if_pos zero]
    exact kept.resolve_left zero

/-! ### Conversions -/

theorem tscMicroseconds_of_reached {cpuid : Cpuid} {tscFreqVal : Nat} (reached : TscFreqReached cpuid tscFreqVal)
    (currentTsc : Nat) :
    tscMicroseconds cpuid tscFreqVal currentTsc =
      div64 (currentTsc * 1000000) (describedFrequency cpuid * 1000000 % 2 ^ 64) := by
  rw [tscMicroseconds, tscFrequency_of_reached reached]

/-- **Which counter values are converted rightly.** -/
theorem rightAt_iff {cpuid : Cpuid} {tscFreqVal : Nat} (reached : TscFreqReached cpuid tscFreqVal) {currentTsc : Nat}
    (isCounter : currentTsc < 2 ^ 64) :
    RightAt cpuid tscFreqVal currentTsc ↔ FirstMicrosecond (describedFrequency cpuid) currentTsc := by
  have frequencyLt := describedFrequency_lt cpuid
  unfold RightAt FirstMicrosecond
  rw [tscMicroseconds_of_reached reached]
  generalize describedFrequency cpuid = frequency at *
  by_cases none_ : frequency = 0
  · -- a division by zero
    rw [none_, div64, if_pos (Or.inl (by decide))]
    exact iff_of_false (fun ⟨_, isSome, _⟩ => by cases isSome) fun ⟨nonzero, _⟩ => nonzero rfl
  · rw [and_iff_right none_]
    by_cases small : frequency * 1000000 < 2 ^ 64
    · -- the quotient is that of the cycles by the hertz
      have quotient : currentTsc * 1000000 / (frequency * 1000000 % 2 ^ 64) = currentTsc / frequency := by
        rw [Nat.mod_eq_of_lt small, Nat.mul_div_mul_right _ _ (by decide)]
      have fits : currentTsc / frequency < 2 ^ 64 := lt_of_le_of_lt (Nat.div_le_self _ _) isCounter
      have noFault : ¬ (frequency * 1000000 % 2 ^ 64 = 0 ∨
          2 ^ 64 ≤ currentTsc * 1000000 / (frequency * 1000000 % 2 ^ 64)) := by
        rw [quotient, Nat.mod_eq_of_lt small]
        omega
      rw [div64, if_neg noFault, quotient, if_pos small]
      have scaled : 1000000 * (currentTsc / frequency) ≤ currentTsc * 1000000 / frequency := by
        rw [Nat.mul_comm currentTsc]
        exact Nat.mul_div_le_mul_div_assoc 1000000 currentTsc frequency
      constructor
      · rintro ⟨microseconds, isResult, right⟩
        rw [Option.some.injEq] at isResult
        have same := isResult.trans (right none_)
        exact Nat.lt_of_div_eq_zero (Nat.pos_of_ne_zero none_) (by omega)
      · intro first
        have zero : currentTsc * 1000000 / frequency = 0 := Nat.div_eq_of_lt first
        exact ⟨_, rfl, fun _ => by omega⟩
    · rw [if_neg small, div64]
      by_cases zero : frequency * 1000000 % 2 ^ 64 = 0
      · rw [if_pos (Or.inl zero)]
        exact iff_of_false (fun ⟨_, isSome, _⟩ => by cases isSome) fun ⟨nonzero, _⟩ => nonzero zero
      · rw [and_iff_right zero]
        constructor
        · rintro ⟨microseconds, isResult, right⟩
          split at isResult
          · cases isResult
          · rw [Option.some.injEq] at isResult
            exact isResult.trans (right none_)
        · intro same
          have fits : currentTsc * 1000000 / frequency < 2 ^ 64 := by
            rw [Nat.div_lt_iff_lt_mul (Nat.pos_of_ne_zero none_)]
            omega
          have noFault : ¬ (frequency * 1000000 % 2 ^ 64 = 0 ∨
              2 ^ 64 ≤ currentTsc * 1000000 / (frequency * 1000000 % 2 ^ 64)) := by
            rw [same]
            exact not_or.mpr ⟨zero, not_le.mpr fits⟩
          rw [if_neg noFault]
          exact ⟨_, rfl, fun _ => same⟩

/-- The frequency that is computed is not the described one: 999,999 is odd. -/
theorem scaled_ne {frequency : Nat} (nonzero : frequency ≠ 0) (isLt : frequency < 2 ^ 64) :
    frequency * 1000000 % 2 ^ 64 ≠ frequency := by
  intro same
  have divides : 2 ^ 64 ∣ frequency * 999999 := by
    have difference := Nat.sub_mod_eq_zero_of_mod_eq (same.trans (Nat.mod_eq_of_lt isLt).symm)
    rw [← Nat.mul_sub_one] at difference
    exact Nat.dvd_of_mod_eq_zero difference
  have coprime : Nat.Coprime (2 ^ 64) 999999 := by decide
  exact absurd (Nat.le_of_dvd (Nat.pos_of_ne_zero nonzero) (coprime.dvd_of_dvd_mul_right divides)) (not_le.mpr isLt)

/-- **No frequency converts all counter values rightly**: the smaller one of it and what is computed is one second for that one
only. -/
theorem not_rightAt_all {cpuid : Cpuid} {tscFreqVal : Nat} (reached : TscFreqReached cpuid tscFreqVal) :
    ¬ ∀ currentTsc < 2 ^ 64, RightAt cpuid tscFreqVal currentTsc := by
  intro all
  have frequencyLt := describedFrequency_lt cpuid
  have atZero := (rightAt_iff reached (show 0 < 2 ^ 64 by decide)).mp (all 0 (by decide))
  obtain ⟨something, -⟩ := atZero
  by_cases small : describedFrequency cpuid * 1000000 < 2 ^ 64
  · have second := ((rightAt_iff reached frequencyLt).mp (all _ frequencyLt)).2
    rw [if_pos small] at second
    omega
  · obtain ⟨nonzero, -⟩ : describedFrequency cpuid * 1000000 % 2 ^ 64 ≠ 0 ∧ True := by
      have := ((rightAt_iff reached (show 0 < 2 ^ 64 by decide)).mp (all 0 (by decide))).2
      rw [if_neg small] at this
      exact ⟨this.1, trivial⟩
    have quotients : ∀ currentTsc < 2 ^ 64, currentTsc * 1000000 / (describedFrequency cpuid * 1000000 % 2 ^ 64) =
        currentTsc * 1000000 / describedFrequency cpuid := by
      intro currentTsc isCounter
      have same := ((rightAt_iff reached isCounter).mp (all currentTsc isCounter)).2
      rw [if_neg small] at same
      exact same.2
    have computedLt : describedFrequency cpuid * 1000000 % 2 ^ 64 < 2 ^ 64 := Nat.mod_lt _ (by decide)
    have different := scaled_ne something frequencyLt
    generalize describedFrequency cpuid * 1000000 % 2 ^ 64 = computed at *
    generalize describedFrequency cpuid = frequency at *
    rcases Nat.lt_or_gt_of_ne different with less | more
    · have same := quotients computed computedLt
      rw [Nat.mul_div_cancel_left _ (Nat.pos_of_ne_zero nonzero)] at same
      have fewer : computed * 1000000 / frequency < 1000000 := by
        rw [Nat.div_lt_iff_lt_mul (Nat.pos_of_ne_zero something)]
        omega
      omega
    · have same := quotients frequency frequencyLt
      rw [Nat.mul_div_cancel_left _ (Nat.pos_of_ne_zero something)] at same
      have fewer : frequency * 1000000 / computed < 1000000 := by
        rw [Nat.div_lt_iff_lt_mul (Nat.pos_of_ne_zero nonzero)]
        omega
      omega

/-! ### Delays -/

/-- A delay ends with a reading that is far enough from the first. -/
theorem udelayLoop_ended {readTsc : Nat → Nat} {start cyclesToWait : Nat} (fuel : Nat) : ∀ {k last : Nat},
    udelayLoop readTsc start cyclesToWait fuel k = some last → cyclesToWait ≤ toWord ((readTsc last : Int) - start) := by
  induction fuel with
  | zero =>
      intro k last ended
      cases ended
  | succ fuel ih =>
      intro k last ended
      rw [udelayLoop] at ended
      split at ended
      · exact ih ended
      · rename_i enough
        rw [Option.some.injEq] at ended
        rw [← ended]
        exact not_lt.mp enough

/-- **Which delays are long enough**: those whose number of cycles is still so when it was multiplied by 1,000,000 in 64 bits. -/
theorem waitsFor_iff {cpuid : Cpuid} {tscFreqVal : Nat} (reached : TscFreqReached cpuid tscFreqVal) (microseconds : Nat) :
    WaitsFor cpuid tscFreqVal microseconds ↔
      microseconds * describedFrequency cpuid / 1000000 ≤
        microseconds * describedFrequency cpuid * 1000000 % 2 ^ 64 / 1000000 := by
  have cyclesToWait : toWord (microseconds * (tscFrequency cpuid tscFreqVal).1 : Nat) =
      microseconds * describedFrequency cpuid * 1000000 % 2 ^ 64 := by
    rw [tscFrequency_of_reached reached, toWord_mod, Nat.mul_mod_mod, Nat.mul_assoc]
  have isWord : microseconds * describedFrequency cpuid * 1000000 % 2 ^ 64 / 1000000 < 2 ^ 64 :=
    lt_of_le_of_lt (Nat.div_le_self _ _) (Nat.mod_lt _ (by decide))
  unfold WaitsFor udelay
  dsimp only
  rw [cyclesToWait]
  generalize microseconds * describedFrequency cpuid * 1000000 % 2 ^ 64 / 1000000 = cycles at *
  constructor
  · intro waits
    -- the second reading is just enough
    have jump : Monotone fun k : Nat => if k = 0 then 0 else cycles := by
      intro first second order
      dsimp only
      split <;> split <;> omega
    have ends : udelayLoop (fun k => (if k = 0 then 0 else cycles) % 2 ^ 64) ((if 0 = 0 then 0 else cycles) % 2 ^ 64) cycles 1 1 =
        some 1 := by
      rw [udelayLoop, if_neg]
      rw [if_neg (by decide), if_pos rfl, Nat.mod_eq_of_lt isWord, Nat.zero_mod, Nat.cast_zero, sub_zero, toWord_mod,
        Nat.mod_eq_of_lt isWord]
      exact lt_irrefl _
    have elapsed := waits _ jump 1 1 ends
    rw [if_neg (by decide), if_pos rfl] at elapsed
    exact elapsed
  · intro enough counter goesOn fuel k ends
    have far := udelayLoop_ended fuel ends
    have order : counter 0 ≤ counter k := goesOn (Nat.zero_le k)
    have difference : toWord (((counter k % 2 ^ 64 : Nat) : Int) - (counter 0 % 2 ^ 64 : Nat)) ≤ counter k - counter 0 := by
      unfold toWord
      omega
    exact enough.trans (far.trans difference)

/-! ### The result -/

/-- **No answer of CPUID lets time be kept.** A counter value is converted rightly in the first microsecond only, and a delay is
long enough exactly when its cycles stay so in 64 bits. -/
theorem keepsTime_never (cpuid : Cpuid) {tscFreqVal : Nat} (reached : TscFreqReached cpuid tscFreqVal) :
    ¬ KeepsTime cpuid tscFreqVal ∧
      (∀ currentTsc < 2 ^ 64, RightAt cpuid tscFreqVal currentTsc ↔ FirstMicrosecond (describedFrequency cpuid) currentTsc) ∧
      ∀ microseconds < 2 ^ 64, microseconds * describedFrequency cpuid < 2 ^ 64 →
        (WaitsFor cpuid tscFreqVal microseconds ↔ microseconds * describedFrequency cpuid / 1000000 ≤
          microseconds * describedFrequency cpuid * 1000000 % 2 ^ 64 / 1000000) :=
  ⟨fun keeps => not_rightAt_all reached keeps.1, fun _ isCounter => rightAt_iff reached isCounter,
    fun microseconds _ _ => waitsFor_iff reached microseconds⟩

/-- A processor of 3 GHz that has leaf 0x16 only. -/
def threeGigahertz : Cpuid := fun leaf _ => if leaf = 0x16 then ⟨3000#32, 0#32, 0#32, 0#32⟩ else ⟨0#32, 0#32, 0#32, 0#32⟩

/-- It does not keep time. -/
theorem keepsTime_threeGigahertz : TscFreqReached threeGigahertz 0 ∧ ¬ KeepsTime threeGigahertz 0 :=
  ⟨.start rfl, (keepsTime_never threeGigahertz (.start rfl)).1⟩

/-- **One second is one microsecond**: it is converted to 1. -/
theorem second_converted : describedFrequency threeGigahertz = 3000000000 ∧
    tscMicroseconds threeGigahertz 0 3000000000 = some 1 ∧ ¬ RightAt threeGigahertz 0 3000000000 := by
  refine ⟨by decide, by decide, ?_⟩
  rintro ⟨microseconds, isResult, right⟩
  have converted : tscMicroseconds threeGigahertz 0 3000000000 = some 1 := by decide
  rw [converted, Option.some.injEq] at isResult
  have expected := right (by decide)
  rw [← isResult] at expected
  exact absurd expected (by decide)

end PeachOS
