/-
**Tables that record disjoint spans, one entry per block.**

A span is a run of consecutive blocks. A table of `total` entries records a set of spans when every
block of a span carries an entry that tells its place in the span and every other block carries a
free entry. How entries tell it is a parameter, a `Coding`:

* `Decodes coding table total spans` — the table records exactly these spans;
* `Decodes.insert`, `Decodes.erase`, `Decodes.replace` — one span added, dropped or exchanged, stated
  by what the new table holds inside the old and the new span and that it is unchanged elsewhere;
* `Decodes.unique` — under a coding that shows where a span starts and whether it goes on
  (`Coding.Legible`), a table records at most one set of spans;
* `countWhere_add`, `countWhere_congr` — how the number of entries with a property moves when one
  range of the table is rewritten;
* `walk` — the number of blocks a chain of "goes on" entries leads through.
-/

import Mathlib.Data.Set.Pairwise.Basic
import Mathlib.Order.CompletePartialOrder
import Mathlib.Order.Interval.Finset.Nat
import Mathlib.Data.Finset.Card

namespace SpanTable

/-- A run of `len` consecutive blocks. -/
structure Span where
  start : Nat
  len : Nat
deriving DecidableEq

/-- The blocks of a span. -/
def Span.blocks (span : Span) : Set Nat := Set.Ico span.start (span.start + span.len)

theorem Span.mem_blocks {span : Span} {block : Nat} :
    block ∈ span.blocks ↔ span.start ≤ block ∧ block < span.start + span.len := Iff.rfl

theorem Span.start_mem {span : Span} (nonempty : 0 < span.len) : span.start ∈ span.blocks :=
  ⟨le_rfl, by omega⟩

/-- Spans with a block in common are not apart. -/
theorem Span.not_disjoint {first second : Span} {block : Nat} (inFirst : block ∈ first.blocks)
    (inSecond : block ∈ second.blocks) : ¬ Disjoint first.blocks second.blocks :=
  fun apart => Set.disjoint_left.mp apart inFirst inSecond

/-- Nonempty, pairwise disjoint spans inside a table of `total` blocks. -/
structure Packed (total : Nat) (spans : Set Span) : Prop where
  nonempty : ∀ span ∈ spans, 0 < span.len
  within : ∀ span ∈ spans, span.start + span.len ≤ total
  disjoint : spans.PairwiseDisjoint Span.blocks

/-- What the entries of a table say: which are free, and which may stand at a place of a span. -/
structure Coding (Entry : Type) where
  free : Entry → Prop
  mark : (len place : Nat) → Entry → Prop

/-- **The table records exactly these spans.** -/
structure Decodes {Entry : Type} (coding : Coding Entry) (table : Nat → Entry) (total : Nat)
    (spans : Set Span) : Prop extends Packed total spans where
  marked : ∀ span ∈ spans, ∀ place < span.len,
    coding.mark span.len place (table (span.start + place))
  vacant : ∀ block < total, (∀ span ∈ spans, block ∉ span.blocks) → coding.free (table block)

namespace Decodes

variable {Entry : Type} {coding : Coding Entry} {table table' : Nat → Entry} {total : Nat}
  {spans : Set Span}

/-- A table of free entries records no span. -/
theorem empty (allFree : ∀ block < total, coding.free (table block)) :
    Decodes coding table total ∅ where
  nonempty := fun _ member => member.elim
  within := fun _ member => member.elim
  disjoint := Set.pairwiseDisjoint_empty
  marked := fun _ member => member.elim
  vacant := fun block inside _ => allFree block inside

/-- A coding that accepts more entries at each place accepts the same tables. -/
theorem mono {coarser : Coding Entry} (decodes : Decodes coding table total spans)
    (free : ∀ entry, coding.free entry → coarser.free entry)
    (mark : ∀ len place entry, coding.mark len place entry → coarser.mark len place entry) :
    Decodes coarser table total spans where
  toPacked := decodes.toPacked
  marked := fun span member place inside => mark _ _ _ (decodes.marked span member place inside)
  vacant := fun block inside outside => free _ (decodes.vacant block inside outside)

/-- Only the entries of the table matter. -/
theorem congr (decodes : Decodes coding table total spans)
    (same : ∀ block < total, table' block = table block) : Decodes coding table' total spans where
  toPacked := decodes.toPacked
  marked := fun span member place inside => by
    rw [same _ (by have := decodes.within span member; omega)]
    exact decodes.marked span member place inside
  vacant := fun block inside outside => by
    rw [same block inside]
    exact decodes.vacant block inside outside

/-- Two recorded spans that share a block are one span. -/
theorem eq_of_mem (decodes : Decodes coding table total spans) {first second : Span} {block : Nat}
    (member : first ∈ spans) (member' : second ∈ spans) (inFirst : block ∈ first.blocks)
    (inSecond : block ∈ second.blocks) : first = second :=
  decodes.disjoint.elim member member' (Span.not_disjoint inFirst inSecond)

/-- **One span exchanged for another.** The new span lies inside the table and apart from the other
spans, the new table marks it, its old blocks it does not keep are free, and nothing else changed. -/
theorem replace (decodes : Decodes coding table total spans) {old : Span} (member : old ∈ spans) (new : Span)
    (nonempty : 0 < new.len) (within : new.start + new.len ≤ total)
    (apart : ∀ other ∈ spans, other ≠ old → Disjoint new.blocks other.blocks)
    (marked : ∀ place < new.len, coding.mark new.len place (table' (new.start + place)))
    (freed : ∀ block < total, block ∈ old.blocks → block ∉ new.blocks → coding.free (table' block))
    (same : ∀ block < total, block ∉ old.blocks → block ∉ new.blocks → table' block = table block) :
    Decodes coding table' total (insert new (spans \ {old})) where
  nonempty := by
    rintro span (rfl | ⟨kept, _⟩)
    · exact nonempty
    · exact decodes.nonempty span kept
  within := by
    rintro span (rfl | ⟨kept, _⟩)
    · exact within
    · exact decodes.within span kept
  disjoint := by
    refine (decodes.disjoint.subset Set.sdiff_subset).insert fun other kept _ => ?_
    exact apart other kept.1 fun equal => kept.2 equal
  marked := by
    rintro span (rfl | ⟨kept, different⟩) place inside
    · exact marked place inside
    · -- a kept span lies outside both the old and the new one, where the table is unchanged
      have inSpan : span.start + place ∈ span.blocks := ⟨Nat.le_add_right _ _, by omega⟩
      rw [same _ (by have := decodes.within span kept; omega)
        (fun inOld => different (decodes.eq_of_mem kept member inSpan inOld))
        (fun inNew => Span.not_disjoint inNew inSpan (apart span kept different))]
      exact decodes.marked span kept place inside
  vacant := fun block inside outside => by
    have notNew : block ∉ new.blocks := outside new (Set.mem_insert _ _)
    by_cases inOld : block ∈ old.blocks
    · exact freed block inside inOld notNew
    · rw [same block inside inOld notNew]
      refine decodes.vacant block inside fun span recorded => ?_
      by_cases equal : span = old
      · rw [equal]
        exact inOld
      · exact outside span (Set.mem_insert_of_mem _ ⟨recorded, equal⟩)

/-- **One span added**, on blocks no recorded span has. -/
theorem insert (decodes : Decodes coding table total spans) (new : Span) (nonempty : 0 < new.len)
    (within : new.start + new.len ≤ total)
    (apart : ∀ other ∈ spans, Disjoint new.blocks other.blocks)
    (marked : ∀ place < new.len, coding.mark new.len place (table' (new.start + place)))
    (same : ∀ block < total, block ∉ new.blocks → table' block = table block) :
    Decodes coding table' total (insert new spans) where
  nonempty := by
    rintro span (rfl | kept)
    · exact nonempty
    · exact decodes.nonempty span kept
  within := by
    rintro span (rfl | kept)
    · exact within
    · exact decodes.within span kept
  disjoint := decodes.disjoint.insert fun other kept _ => apart other kept
  marked := by
    rintro span (rfl | kept) place inside
    · exact marked place inside
    · have inSpan : span.start + place ∈ span.blocks := ⟨Nat.le_add_right _ _, by omega⟩
      rw [same _ (by have := decodes.within span kept; omega)
        (fun inNew => Span.not_disjoint inNew inSpan (apart span kept))]
      exact decodes.marked span kept place inside
  vacant := fun block inside outside => by
    rw [same block inside (outside new (Set.mem_insert _ _))]
    exact decodes.vacant block inside fun span recorded =>
      outside span (Set.mem_insert_of_mem _ recorded)

/-- **One span dropped**, its blocks freed. -/
theorem erase (decodes : Decodes coding table total spans) {old : Span} (member : old ∈ spans)
    (freed : ∀ block < total, block ∈ old.blocks → coding.free (table' block))
    (same : ∀ block < total, block ∉ old.blocks → table' block = table block) :
    Decodes coding table' total (spans \ {old}) where
  nonempty := fun span kept => decodes.nonempty span kept.1
  within := fun span kept => decodes.within span kept.1
  disjoint := decodes.disjoint.subset Set.sdiff_subset
  marked := by
    rintro span ⟨kept, different⟩ place inside
    have inSpan : span.start + place ∈ span.blocks := ⟨Nat.le_add_right _ _, by omega⟩
    rw [same _ (by have := decodes.within span kept; omega)
      (fun inOld => different (decodes.eq_of_mem kept member inSpan inOld))]
    exact decodes.marked span kept place inside
  vacant := fun block inside outside => by
    by_cases inOld : block ∈ old.blocks
    · exact freed block inside inOld
    · rw [same block inside inOld]
      refine decodes.vacant block inside fun span recorded => ?_
      by_cases equal : span = old
      · rw [equal]
        exact inOld
      · exact outside span ⟨recorded, equal⟩

end Decodes

/-! ### At most one reading -/

section Unique

variable {Entry : Type} {coding : Coding Entry} {table : Nat → Entry} {total : Nat}

/-- Entries show whether a span starts at them and whether it goes on after them. -/
structure Coding.Legible (coding : Coding Entry) (first next : Entry → Prop) : Prop where
  free_not_first : ∀ entry, coding.free entry → ¬ first entry
  first_iff : ∀ len place entry, coding.mark len place entry → (first entry ↔ place = 0)
  next_iff : ∀ len place entry, coding.mark len place entry → (next entry ↔ place + 1 < len)

variable {first next : Entry → Prop}

theorem Decodes.mem_of_mem (legible : coding.Legible first next) {spans spans' : Set Span}
    (decodes : Decodes coding table total spans) (decodes' : Decodes coding table total spans')
    {span : Span} (member : span ∈ spans) : span ∈ spans' := by
  have nonempty := decodes.nonempty span member
  have within := decodes.within span member
  have starts : first (table span.start) :=
    (legible.first_iff _ _ _ (decodes.marked span member 0 nonempty)).mpr rfl
  -- the start of the span is not free, so some span of the other reading covers it
  have covered : ∃ other ∈ spans', span.start ∈ other.blocks := by
    by_contra uncovered
    refine legible.free_not_first _ (decodes'.vacant span.start (by omega) ?_) starts
    exact fun other recorded inside => uncovered ⟨other, recorded, inside⟩
  obtain ⟨other, member', low, high⟩ := covered
  -- and starts there as well
  obtain ⟨place, startEq⟩ := Nat.exists_eq_add_of_le low
  have placeZero : place = 0 := by
    rw [startEq] at starts
    exact (legible.first_iff _ _ _ (decodes'.marked other member' place (by omega))).mp starts
  have sameStart : span.start = other.start := by omega
  have nonempty' := decodes'.nonempty other member'
  have goesOn : ∀ place, place < span.len → place < other.len →
      (place + 1 < span.len ↔ place + 1 < other.len) := by
    intro place inside inside'
    have mine := legible.next_iff _ _ _ (decodes.marked span member place inside)
    have theirs := legible.next_iff _ _ _ (decodes'.marked other member' place inside')
    rw [sameStart] at mine
    exact mine.symm.trans theirs
  have sameLen : span.len = other.len := by
    rcases lt_trichotomy span.len other.len with shorter | same | longer
    · have := goesOn (span.len - 1) (by omega) (by omega)
      omega
    · exact same
    · have := goesOn (other.len - 1) (by omega) (by omega)
      omega
  have same : span = other := by
    cases span
    cases other
    simp only at sameStart sameLen
    rw [sameStart, sameLen]
  rw [same]
  exact member'

/-- **A table has at most one reading** under a legible coding. -/
theorem Decodes.unique (legible : coding.Legible first next) {spans spans' : Set Span}
    (decodes : Decodes coding table total spans) (decodes' : Decodes coding table total spans') :
    spans = spans' :=
  Set.Subset.antisymm (fun _ member => decodes.mem_of_mem legible decodes' member)
    (fun _ member => decodes'.mem_of_mem legible decodes member)

end Unique

/-! ### Counting entries -/

section Count

variable {Entry : Type} (holds : Entry → Prop) [DecidablePred holds]

/-- The number of entries with a property. -/
def countWhere (table : Nat → Entry) (total : Nat) : Nat :=
  ((Finset.range total).filter fun block => holds (table block)).card

theorem countWhere_le (table : Nat → Entry) (total : Nat) : countWhere holds table total ≤ total := by
  have bound := Finset.card_filter_le (Finset.range total) fun block => holds (table block)
  rwa [Finset.card_range] at bound

theorem countWhere_congr {table table' : Nat → Entry} {total : Nat}
    (same : ∀ block < total, holds (table' block) ↔ holds (table block)) :
    countWhere holds table' total = countWhere holds table total := by
  unfold countWhere
  congr 1
  exact Finset.filter_congr fun block inside => same block (Finset.mem_range.mp inside)

theorem countWhere_eq_total {table : Nat → Entry} {total : Nat}
    (all : ∀ block < total, holds (table block)) : countWhere holds table total = total := by
  unfold countWhere
  rw [Finset.filter_true_of_mem fun block inside => all block (Finset.mem_range.mp inside),
    Finset.card_range]

theorem countWhere_eq_zero {table : Nat → Entry} {total : Nat}
    (none : ∀ block < total, ¬ holds (table block)) : countWhere holds table total = 0 := by
  unfold countWhere
  rw [Finset.filter_false_of_mem fun block inside => none block (Finset.mem_range.mp inside),
    Finset.card_empty]

/-- The number of entries of one range with a property. -/
def countIn (table : Nat → Entry) (start len : Nat) : Nat :=
  ((Finset.Ico start (start + len)).filter fun block => holds (table block)).card

theorem countIn_le (table : Nat → Entry) (start len : Nat) : countIn holds table start len ≤ len := by
  have bound := Finset.card_filter_le (Finset.Ico start (start + len)) fun block => holds (table block)
  rwa [Nat.card_Ico, Nat.add_sub_cancel_left] at bound

theorem countIn_zero (table : Nat → Entry) (start : Nat) : countIn holds table start 0 = 0 := by
  unfold countIn
  rw [Nat.add_zero, Finset.Ico_self, Finset.filter_empty, Finset.card_empty]

/-- The first entry of a range is counted apart. -/
theorem countIn_succ (table : Nat → Entry) (start len : Nat) :
    countIn holds table start (len + 1) =
      (if holds (table start) then 1 else 0) + countIn holds table (start + 1) len := by
  have parts : Finset.Ico start (start + (len + 1)) =
      insert start (Finset.Ico (start + 1) (start + 1 + len)) := by
    ext block
    rw [Finset.mem_insert, Finset.mem_Ico, Finset.mem_Ico]
    omega
  unfold countIn
  rw [parts, Finset.filter_insert]
  split
  · rw [Finset.card_insert_of_notMem (by simp), Nat.add_comm]
  · rw [Nat.zero_add]

/-- A range is counted in two parts. -/
theorem countIn_append (table : Nat → Entry) (start len more : Nat) :
    countIn holds table start (len + more) =
      countIn holds table start len + countIn holds table (start + len) more := by
  induction len generalizing start with
  | zero => rw [Nat.zero_add, countIn_zero, Nat.zero_add, Nat.add_zero]
  | succ len ih =>
      rw [show len + 1 + more = len + more + 1 by omega, countIn_succ, countIn_succ, ih,
        show start + 1 + len = start + (len + 1) by omega, Nat.add_assoc]

theorem countIn_eq_zero {table : Nat → Entry} {start len : Nat}
    (none : ∀ block, start ≤ block → block < start + len → ¬ holds (table block)) :
    countIn holds table start len = 0 := by
  unfold countIn
  rw [Finset.filter_false_of_mem, Finset.card_empty]
  intro block inside
  rw [Finset.mem_Ico] at inside
  exact none block inside.1 inside.2

/-- All entries of a range have the property exactly when the count is the length. -/
theorem countIn_eq_len {table : Nat → Entry} {start len : Nat} :
    countIn holds table start len = len ↔
      ∀ block, start ≤ block → block < start + len → holds (table block) := by
  unfold countIn
  constructor
  · intro full block low high
    have whole : (Finset.Ico start (start + len)).filter (fun block => holds (table block))
        = Finset.Ico start (start + len) :=
      Finset.eq_of_subset_of_card_le (Finset.filter_subset _ _)
        (by rw [full, Nat.card_Ico, Nat.add_sub_cancel_left])
    have member : block ∈ (Finset.Ico start (start + len)).filter fun block => holds (table block) := by
      rw [whole]
      exact Finset.mem_Ico.mpr ⟨low, high⟩
    exact (Finset.mem_filter.mp member).2
  · intro all
    rw [Finset.filter_true_of_mem fun block inside =>
      all block (Finset.mem_Ico.mp inside).1 (Finset.mem_Ico.mp inside).2, Nat.card_Ico,
      Nat.add_sub_cancel_left]

/-- **One range rewritten.** Where the tables agree outside a range of the table, their counts
differ by the counts of the range. -/
theorem countWhere_add (table table' : Nat → Entry) {total start len : Nat}
    (within : start + len ≤ total)
    (same : ∀ block < total, (block < start ∨ start + len ≤ block) →
      (holds (table' block) ↔ holds (table block))) :
    countWhere holds table' total + countIn holds table start len =
      countWhere holds table total + countIn holds table' start len := by
  classical
  have split : ∀ any : Nat → Entry, countWhere holds any total =
      ((Finset.range total \ Finset.Ico start (start + len)).filter fun block => holds (any block)).card
        + countIn holds any start len := by
    intro any
    have inside : Finset.Ico start (start + len) ⊆ Finset.range total := by
      intro block member
      rw [Finset.mem_Ico] at member
      rw [Finset.mem_range]
      omega
    unfold countWhere countIn
    rw [← Finset.card_union_of_disjoint (Finset.disjoint_filter_filter Finset.sdiff_disjoint),
      ← Finset.filter_union, Finset.sdiff_union_of_subset inside]
  have outer : ((Finset.range total \ Finset.Ico start (start + len)).filter
        fun block => holds (table' block)).card
      = ((Finset.range total \ Finset.Ico start (start + len)).filter
        fun block => holds (table block)).card := by
    congr 1
    refine Finset.filter_congr fun block member => ?_
    rw [Finset.mem_sdiff, Finset.mem_range, Finset.mem_Ico] at member
    exact same block member.1 (by omega)
  rw [split table', split table, outer]
  omega

end Count

/-! ### Walking a chain -/

section Walk

variable {Entry : Type} (next : Entry → Bool) (table : Nat → Entry)

/-- The number of blocks visited from a start while entries say "goes on", at most `fuel`. -/
def walk : Nat → Nat → Nat
  | 0, _ => 0
  | fuel + 1, block => if next (table block) then walk fuel (block + 1) + 1 else 1

theorem walk_le (fuel block : Nat) : walk next table fuel block ≤ fuel := by
  induction fuel generalizing block with
  | zero => exact le_rfl
  | succ fuel ih =>
      rw [walk]
      split
      · exact Nat.succ_le_succ (ih _)
      · omega

/-- **The length of a walk**: `len` blocks that go on but for the last, which stops or is the last
the fuel allows. -/
theorem walk_eq (fuel block len : Nat) (positive : 0 < len) (enough : len ≤ fuel)
    (goesOn : ∀ place, place + 1 < len → next (table (block + place)) = true)
    (stops : len = fuel ∨ next (table (block + (len - 1))) = false) :
    walk next table fuel block = len := by
  induction fuel generalizing block len with
  | zero => omega
  | succ fuel ih =>
      rw [walk]
      by_cases one : len = 1
      · subst one
        by_cases more : next (table block) = true
        · rcases stops with exhausted | stop
          · have none : fuel = 0 := by omega
            rw [if_pos more, none, walk]
          · rw [Nat.sub_self, Nat.add_zero, more] at stop
            cases stop
        · rw [if_neg more]
      · rw [if_pos (by simpa using goesOn 0 (by omega))]
        have tail := ih (block + 1) (len - 1) (by omega) (by omega)
          (fun place inside => by
            have shifted := goesOn (place + 1) (by omega)
            rwa [show block + (place + 1) = block + 1 + place by omega] at shifted)
          (by
            rcases stops with exhausted | stop
            · exact Or.inl (by omega)
            · refine Or.inr ?_
              rwa [show block + 1 + (len - 1 - 1) = block + (len - 1) by omega])
        rw [tail]
        omega

theorem walk_congr {table' : Nat → Entry} (fuel block : Nat)
    (same : ∀ place < fuel, table' (block + place) = table (block + place)) :
    walk next table' fuel block = walk next table fuel block := by
  induction fuel generalizing block with
  | zero => rfl
  | succ fuel ih =>
      have head : table' block = table block := same 0 (Nat.succ_pos fuel)
      have tail := ih (block + 1) fun place inside => by
        have shifted := same (place + 1) (by omega)
        rwa [show block + (place + 1) = block + 1 + place by omega] at shifted
      rw [walk, walk, head, tail]

end Walk

end SpanTable
