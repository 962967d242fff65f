/-
**Configuration space in memory: `pci_ecam_install_range`, `pci_ecam_cfg_ptr`.**

The enhanced configuration access mechanism (ECAM) maps the configuration spaces of a range of buses, a megabyte for each.
The search for the range of a bus skips ranges that end above the bus, where those that end below it were meant: it finds a
range at its last bus, or behind it.

* `ecamLookup_eq` — the range that is found: the first one that ends at the bus or before it;
* `pciEcamCfgPtr_iff` — the pointers of a bus are right exactly when that range is the one of the bus, or lies in memory as if
  it were.
-/

import PeachOS.Machine
import Mathlib.Data.Nat.ModEq
import Mathlib.Data.List.Pairwise

namespace PeachOS

/-- `PCI_ECAM_MAX_RANGES`. -/
abbrev pciEcamMaxRanges : Nat := 8

/-- `struct pci_ecam_range`. -/
structure EcamRange where
  segGroup : Nat
  startBus : Nat
  endBus : Nat
  physBase : Nat
  virtBase : Nat
deriving DecidableEq

/-- `g_ecam` up to `g_ecam_count`, and `g_ecam_enabled`. -/
structure EcamTable where
  ranges : List EcamRange
  enabled : Bool

/-- `pci_ecam_install_range`. -/
def pciEcamInstallRange (table : EcamTable) (range : EcamRange) : Int × EcamTable :=
  if table.ranges.length ≥ pciEcamMaxRanges then (enomem, table)
  else if range.virtBase = 0 ∨ range.startBus > range.endBus then (einval, table)
  else (0, ⟨table.ranges ++ [range], true⟩)

/-- The offset of a register behind the start of a range: a megabyte for each bus, 32 kilobytes for each device, and four for
each function. -/
def ecamOffset (range : EcamRange) (bus slot func offset : Nat) : Nat :=
  (bus - range.startBus) <<< 20 + slot <<< 15 + func <<< 12 + offset

/-- The loop of `pci_ecam_cfg_ptr`. -/
def ecamLookup : List EcamRange → (bus slot func offset : Nat) → Nat
  | [], _, _, _, _ => 0
  | r :: ranges, bus, slot, func, offset =>
      if bus < r.startBus ∨ bus < r.endBus then ecamLookup ranges bus slot func offset
      else toWord (r.virtBase + ecamOffset r bus slot func offset : Nat)

/-- `pci_ecam_cfg_ptr`; the null pointer is 0. -/
def pciEcamCfgPtr (table : EcamTable) (bus slot func offset : Nat) : Nat :=
  if !table.enabled then 0
  else if offset ≥ 4096 then 0
  else ecamLookup table.ranges bus slot func offset

/-! ### What was meant -/

namespace EcamRange

/-- The range contains a bus. -/
def Contains (range : EcamRange) (bus : Nat) : Prop := range.startBus ≤ bus ∧ bus ≤ range.endBus

instance (range : EcamRange) (bus : Nat) : Decidable (range.Contains bus) := inferInstanceAs (Decidable (_ ∧ _))

/-- The window of a range, a megabyte for each bus, is in memory. -/
def Mapped (range : EcamRange) : Prop := range.virtBase + (range.endBus + 1 - range.startBus) * 2 ^ 20 ≤ 2 ^ 64

/-- No bus is in two ranges. -/
def Apart (first second : EcamRange) : Prop := ∀ bus, first.Contains bus → ¬ second.Contains bus

/-- Two ranges put a bus at the same place, as far as their bases go. -/
def SamePlace (first second : EcamRange) : Prop :=
  (first.virtBase + second.startBus * 2 ^ 20) % 2 ^ 64 = (second.virtBase + first.startBus * 2 ^ 20) % 2 ^ 64

end EcamRange

/-- **The pointer of a register is right**: it is that of the range that contains the bus, in the window of the range, and null
when there is none. -/
structure EcamRight (table : EcamTable) (bus slot func offset : Nat) : Prop where
  inside : ∀ range ∈ table.ranges, range.Contains bus →
    pciEcamCfgPtr table bus slot func offset = range.virtBase + ecamOffset range bus slot func offset ∧
      range.virtBase ≤ pciEcamCfgPtr table bus slot func offset ∧
      pciEcamCfgPtr table bus slot func offset < range.virtBase + (range.endBus + 1 - range.startBus) * 2 ^ 20
  null : pciEcamCfgPtr table bus slot func offset = 0 ↔ ∀ range ∈ table.ranges, ¬ range.Contains bus

/-- **When the pointers of a bus are right**: all ranges end above the bus and none contains it; or one contains it, and of
the ranges that end at the bus or before it the first one puts the bus at the same place. -/
def EcamServes (table : EcamTable) (bus : Nat) : Prop :=
  (∀ range ∈ table.ranges, bus < range.endBus ∧ ¬ range.Contains bus) ∨
    ∃ found own, table.ranges.find? (fun range => range.endBus ≤ bus) = some found ∧ own ∈ table.ranges ∧
      own.Contains bus ∧ found.SamePlace own

/-! ### Installing -/

/-- Calls of `pci_ecam_install_range`, one after the other. -/
def ecamAfter (table : EcamTable) (requests : List EcamRange) : EcamTable :=
  requests.foldl (fun table range => (pciEcamInstallRange table range).2) table

/-- No range. -/
def noEcam : EcamTable := ⟨[], false⟩

/-- **What is installed**: ranges that were asked for, with a base and in order; there are any exactly when they are used. -/
structure Installed (table : EcamTable) (requests : List EcamRange) : Prop where
  asked : table.ranges.Sublist requests
  based : ∀ range ∈ table.ranges, range.virtBase ≠ 0 ∧ range.startBus ≤ range.endBus
  enabled : table.enabled = true ↔ table.ranges ≠ []

/-- **One call.** -/
theorem Installed.install {table : EcamTable} {requests : List EcamRange} (installed : Installed table requests)
    (range : EcamRange) : Installed (pciEcamInstallRange table range).2 (requests ++ [range]) := by
  have more : table.ranges.Sublist (requests ++ [range]) := installed.asked.trans (List.sublist_append_left _ _)
  unfold pciEcamInstallRange
  split
  · exact ⟨more, installed.based, installed.enabled⟩
  · split
    · exact ⟨more, installed.based, installed.enabled⟩
    · next accepted =>
        obtain ⟨based, inOrder⟩ := not_or.mp accepted
        refine ⟨installed.asked.append (List.Sublist.refl _), fun other isIn => ?_, ?_⟩
        · rcases List.mem_append.mp isIn with before | isLast
          · exact installed.based other before
          · rw [List.mem_singleton.mp isLast]
            exact ⟨based, Nat.not_lt.mp inOrder⟩
        · exact iff_of_true rfl (List.append_ne_nil_of_right_ne_nil _ (List.cons_ne_nil _ _))

/-- **Any sequence of calls.** -/
theorem installed_after (requests : List EcamRange) : Installed (ecamAfter noEcam requests) requests := by
  suffices ∀ (table : EcamTable) (before : List EcamRange), Installed table before →
      Installed (ecamAfter table requests) (before ++ requests) from
    this noEcam [] ⟨List.Sublist.refl _, fun _ isIn => absurd isIn List.not_mem_nil, by decide⟩
  induction requests with
  | nil =>
      intro table before installed
      rwa [List.append_nil]
  | cons range requests ih =>
      intro table before installed
      have later := ih _ _ (installed.install range)
      rwa [List.append_assoc] at later

/-! ### Looking up -/

/-- **The range that is found** is the first one that ends at the bus or before it. -/
theorem ecamLookup_eq {ranges : List EcamRange} (inOrder : ∀ range ∈ ranges, range.startBus ≤ range.endBus)
    (bus slot func offset : Nat) :
    ecamLookup ranges bus slot func offset =
      match ranges.find? (fun range => range.endBus ≤ bus) with
      | none => 0
      | some range => toWord (range.virtBase + ecamOffset range bus slot func offset : Nat) := by
  induction ranges with
  | nil => rfl
  | cons range ranges ih =>
      have sorted := inOrder range List.mem_cons_self
      rw [ecamLookup, List.find?_cons]
      by_cases ends : range.endBus ≤ bus
      · rw [if_neg (by omega), decide_eq_true ends]
      · rw [if_pos (Or.inr (Nat.not_le.mp ends)), decide_eq_false ends]
        exact ih fun other isIn => inOrder other (List.mem_cons_of_mem _ isIn)

/-- The offset as a sum. -/
theorem ecamOffset_eq (range : EcamRange) (bus slot func offset : Nat) : ecamOffset range bus slot func offset =
    (bus - range.startBus) * 2 ^ 20 + slot * 2 ^ 15 + func * 2 ^ 12 + offset := by
  unfold ecamOffset
  rw [Nat.shiftLeft_eq, Nat.shiftLeft_eq, Nat.shiftLeft_eq]

/-- The offset counts from the first bus of the range. -/
theorem ecamOffset_add {range : EcamRange} {bus : Nat} (low : range.startBus ≤ bus) (slot func offset : Nat) :
    ecamOffset range bus slot func offset + range.startBus * 2 ^ 20 = bus * 2 ^ 20 + slot * 2 ^ 15 + func * 2 ^ 12 + offset := by
  rw [ecamOffset_eq]
  omega

/-- Registers of a bus in the range lie in its window. -/
theorem ecamOffset_lt {range : EcamRange} {bus slot func offset : Nat} (contains : range.Contains bus) (slots : slot < 32)
    (funcs : func < 8) (offsets : offset < 4096) :
    ecamOffset range bus slot func offset < (range.endBus + 1 - range.startBus) * 2 ^ 20 := by
  obtain ⟨low, high⟩ := contains
  rw [ecamOffset_eq]
  omega

section Table

variable {table : EcamTable} {requests : List EcamRange} {bus : Nat}

/-- The pointer, by the range that is found. -/
theorem pciEcamCfgPtr_eq (installed : Installed table requests) {slot func offset : Nat} (offsets : offset < 4096) :
    pciEcamCfgPtr table bus slot func offset =
      match table.ranges.find? (fun range => range.endBus ≤ bus) with
      | none => 0
      | some range => toWord (range.virtBase + ecamOffset range bus slot func offset : Nat) := by
  rw [← ecamLookup_eq (fun range isIn => (installed.based range isIn).2)]
  unfold pciEcamCfgPtr
  by_cases any : table.ranges = []
  · have disabled : table.enabled = false := by
      rw [Bool.eq_false_iff]
      exact fun enabled => installed.enabled.mp enabled any
    rw [disabled, any]
    rfl
  · rw [installed.enabled.mpr any, if_neg (by decide), if_neg (Nat.not_le.mpr offsets)]

/-- The pointer that two ranges give is the same exactly when they put the bus at the same place. -/
theorem samePlace_iff {found own : EcamRange} (low : found.startBus ≤ bus) (ownLow : own.startBus ≤ bus)
    {slot func offset : Nat} (fits : own.virtBase + ecamOffset own bus slot func offset < 2 ^ 64) :
    toWord (found.virtBase + ecamOffset found bus slot func offset : Nat) =
        own.virtBase + ecamOffset own bus slot func offset ↔ found.SamePlace own := by
  have place := ecamOffset_add low slot func offset
  have ownPlace := ecamOffset_add ownLow slot func offset
  rw [toWord_mod, ← Nat.mod_eq_of_lt fits, EcamRange.SamePlace]
  generalize ecamOffset found bus slot func offset = found_, ecamOffset own bus slot func offset = own_,
    bus * 2 ^ 20 + slot * 2 ^ 15 + func * 2 ^ 12 + offset = register at *
  have shifted : found.virtBase + found_ + (found.startBus * 2 ^ 20 + own.startBus * 2 ^ 20) =
      found.virtBase + own.startBus * 2 ^ 20 + register := by omega
  have ownShifted : own.virtBase + own_ + (found.startBus * 2 ^ 20 + own.startBus * 2 ^ 20) =
      own.virtBase + found.startBus * 2 ^ 20 + register := by omega
  constructor
  · intro same
    have moved := Nat.ModEq.add_right (found.startBus * 2 ^ 20 + own.startBus * 2 ^ 20) same
    rw [shifted, ownShifted] at moved
    exact Nat.ModEq.add_right_cancel' register moved
  · intro same
    have moved := Nat.ModEq.add_right register same
    rw [← shifted, ← ownShifted] at moved
    exact Nat.ModEq.add_right_cancel' _ moved

/-- **The pointers of a bus are right exactly when the range that is found serves it.** -/
theorem Installed.right_iff (installed : Installed table requests) (mapped : ∀ range ∈ requests, range.Mapped)
    (apart : requests.Pairwise EcamRange.Apart) :
    (∀ slot < 32, ∀ func < 8, ∀ offset < 4096, EcamRight table bus slot func offset) ↔ EcamServes table bus := by
  have pointer : ∀ slot func offset, offset < 4096 → _ := fun slot func offset offsets =>
    @pciEcamCfgPtr_eq table requests bus installed slot func offset offsets
  have window : ∀ own ∈ table.ranges, own.Contains bus → ∀ slot < 32, ∀ func < 8, ∀ offset < 4096,
      own.virtBase + ecamOffset own bus slot func offset < own.virtBase + (own.endBus + 1 - own.startBus) * 2 ^ 20 ∧
        own.virtBase + ecamOffset own bus slot func offset < 2 ^ 64 := by
    intro own isIn contains slot slots func funcs offset offsets
    have below := ecamOffset_lt contains slots funcs offsets
    have fits := mapped own (installed.asked.subset isIn)
    unfold EcamRange.Mapped at fits
    exact ⟨by omega, by omega⟩
  cases isFound : table.ranges.find? (fun range => range.endBus ≤ bus) with
  | none =>
      rw [isFound] at pointer
      have above : ∀ range ∈ table.ranges, bus < range.endBus := fun range isIn =>
        Nat.not_le.mp (of_decide_eq_false (by simpa using List.find?_eq_none.mp isFound range isIn))
      constructor
      · intro right
        have null := (right 0 (by decide) 0 (by decide) 0 (by decide)).null.mp (pointer 0 0 0 (by decide))
        exact Or.inl fun range isIn => ⟨above range isIn, null range isIn⟩
      · rintro (all | ⟨found, own, found', -⟩) slot slots func funcs offset offsets
        · exact ⟨fun range isIn contains => absurd contains (all range isIn).2,
            iff_of_true (pointer slot func offset offsets) fun range isIn => (all range isIn).2⟩
        · rw [isFound] at found'
          cases found'
  | some found =>
      rw [isFound] at pointer
      have foundIn := List.mem_of_find?_eq_some isFound
      have ends : found.endBus ≤ bus := by simpa using List.find?_some isFound
      have low := (installed.based found foundIn).2.trans ends
      constructor
      · intro right
        refine Or.inr ⟨found, ?_⟩
        -- The pointers of two registers are not both null.
        obtain ⟨own, isIn, contains⟩ : ∃ own ∈ table.ranges, own.Contains bus := by
          by_contra none_
          have outside : ∀ range ∈ table.ranges, ¬ range.Contains bus := fun range isIn contains =>
            none_ ⟨range, isIn, contains⟩
          have first : toWord (found.virtBase + ecamOffset found bus 0 0 0 : Nat) = 0 :=
            (pointer 0 0 0 (by decide)).symm.trans ((right 0 (by decide) 0 (by decide) 0 (by decide)).null.mpr outside)
          have second : toWord (found.virtBase + ecamOffset found bus 0 0 1 : Nat) = 0 :=
            (pointer 0 0 1 (by decide)).symm.trans ((right 0 (by decide) 0 (by decide) 1 (by decide)).null.mpr outside)
          rw [ecamOffset_eq] at first second
          unfold toWord at first second
          omega
        refine ⟨own, isFound, isIn, contains, ?_⟩
        have same := (right 0 (by decide) 0 (by decide) 0 (by decide)).inside own isIn contains
        rw [pointer 0 0 0 (by decide)] at same
        exact (samePlace_iff low contains.1
          (window own isIn contains 0 (by decide) 0 (by decide) 0 (by decide)).2).mp same.1
      · rintro (all | ⟨found', own, same, isIn, contains, place⟩) slot slots func funcs offset offsets
        · exact absurd ((all found foundIn).1.trans_le ends) (lt_irrefl _)
        · obtain rfl := Option.some.inj (isFound.symm.trans same)
          obtain ⟨inWindow, fits⟩ := window own isIn contains slot slots func funcs offset offsets
          have isOwn := (pointer slot func offset offsets).trans ((samePlace_iff low contains.1 fits).mpr place)
          refine ⟨fun range rangeIn rangeContains => ?_, iff_of_false (fun null => ?_) fun none_ => none_ own isIn contains⟩
          · -- No other range contains the bus.
            obtain rfl : range = own := by
              by_contra different
              have symmetric : Std.Symm EcamRange.Apart := ⟨fun _ _ before bus inSecond inFirst => before bus inFirst inSecond⟩
              exact (apart.sublist installed.asked).forall rangeIn isIn different bus rangeContains contains
            rw [isOwn]
            exact ⟨rfl, Nat.le_add_right _ _, inWindow⟩
          · have based := (installed.based own isIn).1
            rw [isOwn] at null
            omega

end Table

/-- **After any sequence of installed ranges of which no two contain a bus, the pointers of a bus are right exactly when** no
range contains it and all end above it, or one does and the first range that ends at the bus or before it puts the bus where
that one does. -/
theorem pciEcamCfgPtr_iff (requests : List EcamRange) (apart : requests.Pairwise EcamRange.Apart)
    (mapped : ∀ range ∈ requests, range.Mapped) (bus : Nat) :
    (∀ slot < 32, ∀ func < 8, ∀ offset < 4096, EcamRight (ecamAfter noEcam requests) bus slot func offset) ↔
      EcamServes (ecamAfter noEcam requests) bus :=
  (installed_after requests).right_iff mapped apart

/-- A range of one bus. -/
def oneBus : EcamRange := ⟨0, 5, 5, 0xE0500000, 0xE0500000⟩

/-- **A range of one bus serves that bus**, down to the last register of its last function. -/
theorem pciEcamCfgPtr_iff_one : EcamRight (ecamAfter noEcam [oneBus]) 5 31 7 4095 :=
  (pciEcamCfgPtr_iff [oneBus] (List.pairwise_singleton _ _)
    (fun range isIn => by rw [List.mem_singleton.mp isIn]; unfold EcamRange.Mapped; decide) 5).mpr
      (Or.inr ⟨oneBus, oneBus, by decide, by decide, by decide, rfl⟩) 31 (by decide) 7 (by decide) 4095 (by decide)

/-- All buses of a segment. -/
def allBuses : EcamRange := ⟨0, 0, 255, 0xE0000000, 0xE0000000⟩

/-- **The first bus of a range of all buses has no pointer.** -/
theorem pciEcamCfgPtr_misses : ¬ ∀ requests : List EcamRange, requests.Pairwise EcamRange.Apart →
    (∀ range ∈ requests, range.Mapped) → ∀ bus < 256, ∀ slot < 32, ∀ func < 8, ∀ offset < 4096,
      EcamRight (ecamAfter noEcam requests) bus slot func offset := by
  intro always
  have right := always [allBuses] (List.pairwise_singleton _ _)
    (fun range isIn => by rw [List.mem_singleton.mp isIn]; unfold EcamRange.Mapped; decide) 0 (by decide) 0 (by decide) 0
      (by decide) 0 (by decide)
  exact absurd (right.null.mp (by decide) allBuses (by decide)) (not_not.mpr (by decide))

end PeachOS
