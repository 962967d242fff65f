/-
**Which sectors a read of a disk stream asks for.**

The last sector that `diskstreamer_read` goes over is the one behind the range: the end of the range is aligned up, and the loop
takes the sector there in. Unless the cache has an entry for it, the driver is asked for a sector that the range does not
overlap, and at the end of a partition there is none.

* `readLoop_within` — the loop succeeds within the range exactly when every sector is found or read, and the last one is found;
* `StreamCall.readsWithin_iff` — the same for calls;
* `lastSector_fails` — a read of the last sector of a partition.
-/

import PeachOS.Disk.Failures

namespace PeachOS

/-! ### Turns -/

section Turns

variable {memory : CacheMemory} {disk : Disk} (fuel i : Nat) (σ : ReadState) {slot : CacheSlot} {cache : DiskStreamCache}

theorem readTurns_found {buf : Nat → Byte} (entry : cache slot = some buf)
    (found : diskstreamerCacheFind memory disk.sectorSize σ.cache (toInt32 (diskRealOffset disk i)) =
      some (.ok (false, slot, cache))) :
    blockReads (readTurns memory disk (fuel + 1) i σ) =
      blockReads (readTurns memory disk fuel (i + 1) (σ.turn disk.sectorSize cache σ.res buf)) := by
  rw [readTurns, found]
  simp only [Bool.false_eq_true, if_false, entry, Option.getD_some]
  rfl

theorem readTurns_new
    (found : diskstreamerCacheFind memory disk.sectorSize σ.cache (toInt32 (diskRealOffset disk i)) =
      some (.ok (true, slot, cache))) :
    ∃ outcome rest, blockReads (readTurns memory disk (fuel + 1) i σ) = ⟨i, outcome⟩ :: rest ∧
      ∀ bytes, diskReadBlock disk i 1 = .ok bytes →
        rest = blockReads (readTurns memory disk fuel (i + 1)
          (σ.turn disk.sectorSize (cache.fillSector disk.sectorSize slot bytes) 0
            (((cache.fillSector disk.sectorSize slot bytes) slot).getD (memory.newBuffer slot)))) := by
  rw [readTurns, found]
  simp only [if_true]
  cases read : diskReadBlock disk i 1 with
  | error res => exact ⟨.error res, [], rfl, fun bytes isOk => by cases isOk⟩
  | ok bytes =>
      refine ⟨.ok bytes, _, rfl, fun bytes' isOk => ?_⟩
      rw [Except.ok.inj isOk]
      rfl

end Turns

/-! ### The loop -/

/-- **A sector is found, or an entry can be made for it.** -/
def LooksUp (memory : CacheMemory) (disk : Disk) (cache : DiskStreamCache) (k : Nat) : Prop :=
  ∃ slot, sectorSlot disk.sectorSize disk.startingLba k = some slot ∧ ((cache slot).isSome ∨ 0 ≤ memory.allocated slot)

/-- **A sector is found** in the cache, or in the entry of a sector that was gone over from the first one on. -/
def FoundAfter (disk : Disk) (cache : DiskStreamCache) (first k : Nat) : Prop :=
  ∃ slot, sectorSlot disk.sectorSize disk.startingLba k = some slot ∧
    ((cache slot).isSome ∨ ∃ j, first ≤ j ∧ j < k ∧ sectorSlot disk.sectorSize disk.startingLba j = some slot)

section Loop

variable {memory : CacheMemory} {disk : Disk} {cache cache' : DiskStreamCache} {slot : CacheSlot} {first k : Nat}

/-- A sector whose slot has an entry makes no difference for those after it. -/
theorem foundAfter_found (inArrays : sectorSlot disk.sectorSize disk.startingLba first = some slot)
    (entry : (cache slot).isSome) : FoundAfter disk cache first k ↔ FoundAfter disk cache (first + 1) k := by
  refine exists_congr fun own => and_congr_right fun isOwn => ⟨fun found => ?_, fun found => ?_⟩
  · rcases found with isEntry | ⟨j, from_, before, same⟩
    · exact Or.inl isEntry
    · rcases Nat.eq_or_lt_of_le from_ with rfl | after
      · rw [inArrays, Option.some.injEq] at same
        exact Or.inl (same ▸ entry)
      · exact Or.inr ⟨j, after, before, same⟩
  · rcases found with isEntry | ⟨j, from_, before, same⟩
    · exact Or.inl isEntry
    · exact Or.inr ⟨j, by omega, before, same⟩

/-- **A new entry is found by the sectors after it.** -/
theorem foundAfter_new (inArrays : sectorSlot disk.sectorSize disk.startingLba first = some slot)
    {buf : Nat → Byte} (inserts : ∀ other, cache' other = if other = slot then some buf else cache other) (later : first < k) :
    FoundAfter disk cache first k ↔ FoundAfter disk cache' (first + 1) k := by
  refine exists_congr fun own => and_congr_right fun isOwn => ?_
  rw [inserts]
  constructor
  · rintro (isEntry | ⟨j, from_, before, same⟩)
    · refine Or.inl ?_
      split
      · rfl
      · exact isEntry
    · rcases Nat.eq_or_lt_of_le from_ with rfl | after
      · rw [inArrays, Option.some.injEq] at same
        exact Or.inl (by rw [if_pos same.symm]; rfl)
      · exact Or.inr ⟨j, after, before, same⟩
  · rintro (isEntry | ⟨j, from_, before, same⟩)
    · split at isEntry
      · next here => exact Or.inr ⟨first, le_rfl, later, here ▸ inArrays⟩
      · exact Or.inl isEntry
    · exact Or.inr ⟨j, by omega, before, same⟩

theorem looksUp_new (available : 0 ≤ memory.allocated slot) {buf : Nat → Byte}
    (inserts : ∀ other, cache' other = if other = slot then some buf else cache other) :
    LooksUp memory disk cache k ↔ LooksUp memory disk cache' k := by
  refine exists_congr fun own => and_congr_right fun isOwn => ?_
  rw [inserts]
  split
  · next here => exact iff_of_true (Or.inr (here ▸ available)) (Or.inl rfl)
  · exact Iff.rfl

/-- **The loop up to a sector behind the range**, by induction on the sectors left: it succeeds without asking for the last
sector exactly when every sector is found or read, and the last one is found. -/
theorem readLoop_within {last : Nat} (reads : ∀ i < last, ∃ bytes, diskReadBlock disk i 1 = .ok bytes) (fuel : Nat) :
    ∀ {i : Nat} {σ : ReadState} {cache : DiskStreamCache}, σ.cache = some cache → σ.res = 0 → i + fuel = last + 1 →
    ((∃ after, diskstreamerReadLoop memory disk disk.sectorSize fuel i σ = some after ∧ after.res = 0 ∧
        ∀ read ∈ blockReads (readTurns memory disk fuel i σ), read.sector < last) ↔
      (∀ k, i ≤ k → k ≤ last → LooksUp memory disk cache k) ∧ (i ≤ last → FoundAfter disk cache i last)) := by
  induction fuel with
  | zero =>
      intro i σ cache entries success range
      refine iff_of_true ⟨σ, rfl, success, fun read isRead => absurd isRead List.not_mem_nil⟩ ⟨?_, ?_⟩
      · intro k from_ upTo
        omega
      · omega
  | succ fuel ih =>
      intro i σ cache entries success range
      have inRange : i ≤ last := by omega
      -- The sectors are this one and those after it.
      have split_ : (∀ k, i ≤ k → k ≤ last → LooksUp memory disk cache k) ↔
          LooksUp memory disk cache i ∧ ∀ k, i + 1 ≤ k → k ≤ last → LooksUp memory disk cache k := by
        refine ⟨fun all => ⟨all i le_rfl inRange, fun k from_ => all k (by omega)⟩, fun ⟨own, rest⟩ k from_ upTo => ?_⟩
        rcases Nat.eq_or_lt_of_le from_ with rfl | after
        · exact own
        · exact rest k after upTo
      cases inArrays : sectorSlot disk.sectorSize disk.startingLba i with
      | none =>
          have outside := cacheFind_outside memory ((sectorSlot_eq disk i).trans inArrays) cache
          rw [← entries] at outside
          refine iff_of_false (fun ⟨after, result, _⟩ => ?_) fun ⟨all, _⟩ => ?_
          · rw [readLoop_outside fuel i σ outside] at result
            cases result
          · obtain ⟨slot, isSlot, -⟩ := all i le_rfl inRange
            rw [inArrays] at isSlot
            cases isSlot
      | some slot =>
          have slotEq := (sectorSlot_eq disk i).trans inArrays
          cases entry : cache slot with
          | some buf =>
              have found := cacheFind_entry memory slotEq entry
              rw [← entries] at found
              have own : LooksUp memory disk cache i := ⟨slot, inArrays, Or.inl (entry ▸ rfl)⟩
              have rest := @ih (i + 1) (σ.turn disk.sectorSize cache σ.res buf) cache rfl success (by omega)
              rw [readLoop_found fuel i σ found, readTurns_found fuel i σ entry found, entry, Option.getD_some, rest, split_,
                and_iff_right own]
              refine and_congr_right fun _ => ?_
              rcases Nat.eq_or_lt_of_le inRange with rfl | later
              · exact iff_of_true (fun beyond => absurd beyond (Nat.not_succ_le_self _))
                  fun _ => ⟨slot, inArrays, Or.inl (entry ▸ rfl)⟩
              · rw [foundAfter_found inArrays (entry ▸ rfl)]
                exact ⟨fun found _ => found later, fun found _ => found inRange⟩
          | none =>
              by_cases available : 0 ≤ memory.allocated slot
              · have found := cacheFind_new slotEq entry available
                have inserts := @fillSector_new memory disk.sectorSize slot cache
                generalize (fun other => if other = slot then some (memory.newBuffer slot) else cache other) =
                  made at found inserts
                rw [← entries] at found
                obtain ⟨outcome, restReads, asked, restEq⟩ := readTurns_new fuel i σ found
                have own : LooksUp memory disk cache i := ⟨slot, inArrays, Or.inr available⟩
                rw [asked, split_, and_iff_right own]
                rcases Nat.eq_or_lt_of_le inRange with rfl | later
                · -- The sector behind the range is asked for.
                  refine iff_of_false (fun ⟨after, _, _, within⟩ => ?_) fun ⟨_, behind⟩ => ?_
                  · exact absurd (within _ List.mem_cons_self) (lt_irrefl _)
                  · obtain ⟨own, isOwn, isFound⟩ := behind le_rfl
                    rw [inArrays, Option.some.injEq] at isOwn
                    subst isOwn
                    rcases isFound with isEntry | ⟨j, from_, before, _⟩
                    · rw [entry] at isEntry
                      cases isEntry
                    · omega
                · obtain ⟨bytes, isOk⟩ := reads i later
                  have rest := @ih (i + 1) (σ.turn disk.sectorSize (DiskStreamCache.fillSector made disk.sectorSize slot bytes) 0
                    ((DiskStreamCache.fillSector made disk.sectorSize slot bytes slot).getD (memory.newBuffer slot))) _
                    rfl rfl (by omega)
                  have within : (∀ read ∈ (⟨i, outcome⟩ : BlockRead) :: restReads, read.sector < last) ↔
                      ∀ read ∈ restReads, read.sector < last := by
                    rw [List.forall_mem_cons, and_iff_right later]
                  rw [readLoop_new fuel i σ found isOk]
                  simp only [within]
                  rw [restEq bytes isOk, rest]
                  refine and_congr ?_ ?_
                  · exact forall_congr' fun k => imp_congr_right fun _ => imp_congr_right fun _ =>
                      (looksUp_new available (inserts bytes)).symm
                  · rw [foundAfter_new inArrays (inserts bytes) later]
                    exact ⟨fun found _ => found later, fun found _ => found inRange⟩
              · refine iff_of_false (fun ⟨after, result, isZero, _⟩ => ?_) fun ⟨all, _⟩ => ?_
                · have fails : diskstreamerCacheFind memory disk.sectorSize σ.cache (toInt32 (diskRealOffset disk i)) =
                      some (.error (memory.allocated slot)) := by
                    rw [entries, diskstreamerCacheFind, slotEq]
                    simp only [entry, if_pos (not_le.mp available)]
                  rw [diskstreamerReadLoop, fails, Option.some.injEq] at result
                  rw [← result] at isZero
                  exact available (le_of_eq isZero.symm)
                · obtain ⟨own, isOwn, isFound⟩ := all i le_rfl inRange
                  rw [inArrays, Option.some.injEq] at isOwn
                  subst isOwn
                  rcases isFound with isEntry | isAvailable
                  · rw [entry] at isEntry
                    cases isEntry
                  · exact available isAvailable

end Loop

/-! ### Calls -/

/-- **A disk of so many sectors**: the block reads of these succeed, and no others. -/
def ServesOnly (disk : Disk) (sectors : Nat) : Prop :=
  (∀ i < sectors, ∃ bytes, diskReadBlock disk i 1 = .ok bytes) ∧
    ∀ i, sectors ≤ i → i < 2 ^ 31 → ∃ res < 0, diskReadBlock disk i 1 = .error res

namespace StreamCall

variable (disk : Disk) (call : StreamCall)

/-- A sector overlaps the range of a call. -/
def Overlaps (i : Nat) : Prop :=
  ((i * disk.sectorSize : Nat) : Int) < call.pos + call.total ∧ call.pos < (i + 1) * disk.sectorSize

/-- **A call succeeds, and asks only for sectors that its range overlaps.** -/
def ReadsWithin (cache : Option DiskStreamCache) : Prop :=
  ∃ after, call.run disk ⟨cache, []⟩ = some after ∧ after.res = 0 ∧
    ∀ read ∈ blockReads (call.turns disk ⟨cache, []⟩), call.Overlaps disk read.sector

/-- The end of the range of a call, aligned up. -/
def rangeEnd : Nat := alignedEnd disk.sectorSize (call.pos + call.total.toNat)

/-- **Every sector that a call goes over is found or can be read, and the one behind the range is found.** Where the end aligned
up is no `int`, a call goes over no sector, and panics if it starts in the first one. -/
def FindsLast (cache : Option DiskStreamCache) : Prop :=
  (2 ^ 31 ≤ call.rangeEnd disk ∧ disk.sectorSize ≤ call.pos) ∨
    (call.rangeEnd disk < 2 ^ 31 ∧ ∃ entries, cache = some entries ∧
      (∀ k, call.pos / disk.sectorSize ≤ k → k ≤ call.rangeEnd disk / disk.sectorSize →
        LooksUp call.memory (call.diskOf disk) entries k) ∧
      FoundAfter (call.diskOf disk) entries (call.pos / disk.sectorSize) (call.rangeEnd disk / disk.sectorSize))

end StreamCall

/-- The sectors before the aligned end, from that of the position on, are those that a range overlaps. -/
theorem overlaps_iff {sectorSize pos total i : Nat} (positive : 0 < sectorSize) (from_ : pos / sectorSize ≤ i) :
    (((i * sectorSize : Nat) : Int) < pos + total ∧ pos < (i + 1) * sectorSize) ↔
      i < alignedEnd sectorSize (pos + total) / sectorSize := by
  obtain ⟨upper, lower⟩ := alignedEnd_bounds positive (pos + total)
  have aligned := alignedEnd_mul positive (pos + total)
  have start : pos < (i + 1) * sectorSize := Nat.lt_mul_of_div_lt (Nat.lt_succ_of_le from_) positive
  rw [and_iff_left start]
  constructor
  · intro inside
    exact Nat.lt_of_mul_lt_mul_right (a := sectorSize) (by omega)
  · intro before
    have whole := Nat.mul_le_mul_right sectorSize (Nat.succ_le_of_lt before)
    rw [Nat.succ_mul] at whole
    omega

/-- A block read is that of a turn. -/
theorem mem_blockReads {turns : List ReadTurn} {read : BlockRead} (isRead : read ∈ blockReads turns) :
    ∃ turn ∈ turns, turn.sector = read.sector := by
  obtain ⟨turn, isTurn, asked⟩ := List.mem_filterMap.mp isRead
  obtain ⟨outcome, -, rfl⟩ := Option.map_eq_some_iff.mp asked
  exact ⟨turn, isTurn, rfl⟩

/-- **A read of a disk stream succeeds within its range exactly when the sector behind the range is found in the cache**, and all
others are found or have room for an entry. -/
theorem StreamCall.readsWithin_iff (disk : Disk) (call : StreamCall) (cache : Option DiskStreamCache) {sectors : Nat}
    (positive : 0 < disk.sectorSize) (sector : disk.sectorSize ≤ 2048) (something : 0 < call.total)
    (bound : call.pos + call.total < 2 ^ 31) (inside : call.pos + call.total ≤ (sectors * disk.sectorSize : Nat))
    (serves : ServesOnly (call.diskOf disk) sectors) : call.ReadsWithin disk cache ↔ call.FindsLast disk cache := by
  obtain ⟨memory, read, pos, isInt, total⟩ := call
  obtain ⟨total, rfl⟩ := Int.eq_ofNat_of_zero_le something.le
  dsimp only at bound inside serves something
  have bound : pos + total < 2 ^ 31 := by omega
  have inside : pos + total ≤ sectors * disk.sectorSize := by omega
  unfold StreamCall.ReadsWithin StreamCall.FindsLast StreamCall.rangeEnd StreamCall.run StreamCall.turns
  dsimp only
  rw [Int.toNat_natCast]
  have final := @toInt32_natCast_add pos total (by omega)
  have start : StreamCall.startingSector disk ⟨memory, read, pos, isInt, total⟩ = (pos / disk.sectorSize : Nat) := by
    unfold StreamCall.startingSector
    dsimp only
    rw [alignedDown_natCast isInt, ← Int.ofNat_tdiv, Nat.mul_div_cancel _ positive]
  by_cases fits : alignedEnd disk.sectorSize (pos + total) < 2 ^ 31
  · obtain ⟨upper, lower⟩ := alignedEnd_bounds positive (pos + total)
    have aligned := alignedEnd_mul positive (pos + total)
    have first : pos / disk.sectorSize ≤ alignedEnd disk.sectorSize (pos + total) / disk.sectorSize :=
      Nat.div_le_div_right (by omega)
    have end_ : StreamCall.endingSector disk ⟨memory, read, pos, isInt, total⟩ =
        (alignedEnd disk.sectorSize (pos + total) / disk.sectorSize : Nat) := by
      unfold StreamCall.endingSector
      dsimp only
      rw [final, alignedUp_natCast positive bound fits, ← Int.ofNat_tdiv]
    have overlaps := @overlaps_iff disk.sectorSize pos total
    rw [start, end_]
    have loop : diskstreamerRead memory (diskstreamerSeek (diskstreamerNewFromDisk { disk with read := read }) pos)
      cache total = _ :=
      diskstreamerRead_eq memory { disk with read := read } cache positive bound fits
    show (∃ after, diskstreamerRead memory
      (diskstreamerSeek (diskstreamerNewFromDisk { disk with read := read }) pos) cache total =
      some after ∧ _) ↔ _
    rw [loop]
    generalize alignedEnd disk.sectorSize (pos + total) / disk.sectorSize = last at first aligned overlaps
    have fuel : ((last : Int) + 1 - (pos / disk.sectorSize : Nat)).toNat = last + 1 - pos / disk.sectorSize := by omega
    rw [fuel, Int.toNat_natCast, or_iff_right fun wraps => fits.not_ge wraps.1, and_iff_right fits]
    cases cache with
    | none =>
        refine iff_of_false ?_ ?_
        · rintro ⟨after, result, isZero, -⟩
          obtain ⟨turns, isTurns⟩ : ∃ n, last + 1 - pos / disk.sectorSize = n + 1 := ⟨last - pos / disk.sectorSize, by omega⟩
          rw [isTurns, diskstreamerReadLoop] at result
          cases result
          exact absurd (show enoent = 0 from isZero) (by decide)
        · rintro ⟨entries, isCache, -⟩
          cases isCache
    | some entries =>
        have reads : ∀ i < last, ∃ bytes, diskReadBlock { disk with read := read } i 1 = .ok bytes := by
          intro i before
          refine serves.1 i (Nat.lt_of_mul_lt_mul_right (a := disk.sectorSize) ?_)
          have whole := Nat.mul_le_mul_right disk.sectorSize (Nat.succ_le_of_lt before)
          rw [Nat.succ_mul] at whole
          omega
        have within := @readLoop_within memory { disk with read := read } last reads (last + 1 - pos / disk.sectorSize)
          (pos / disk.sectorSize) ⟨total, pos, some entries, [], 0⟩ entries rfl rfl (by omega)
        constructor
        · rintro ⟨after, result, isZero, asks⟩
          have runs := @loopRuns_of_result _ { disk with read := read } _ _ _ _ result
          obtain ⟨looksUp, behind⟩ := within.mp ⟨after, result, isZero, fun asked isAsked => by
            obtain ⟨turn, isTurn, same⟩ := mem_blockReads isAsked
            exact (overlaps positive (same ▸ (runs.sectors turn isTurn).1)).mp (asks asked isAsked)⟩
          exact ⟨entries, rfl, looksUp, behind first⟩
        · rintro ⟨own, isOwn, looksUp, behind⟩
          obtain rfl : entries = own := Option.some_injective _ isOwn
          obtain ⟨after, result, isZero, asks⟩ := within.mpr ⟨looksUp, fun _ => behind⟩
          have runs := @loopRuns_of_result _ { disk with read := read } _ _ _ _ result
          refine ⟨after, result, isZero, fun asked isAsked => ?_⟩
          obtain ⟨turn, isTurn, same⟩ := mem_blockReads isAsked
          exact (overlaps positive (same ▸ (runs.sectors turn isTurn).1)).mpr (asks asked isAsked)
  · rcases diskstreamerRead_overflow memory { disk with read := read } cache positive sector bound (not_lt.mp fits) with
      ⟨panics, isFirst, -⟩ | ⟨noSector, later⟩
    · refine iff_of_false ?_ ?_
      · rintro ⟨after, result, -⟩
        exact absurd (panics.symm.trans result) (by simp)
      · rintro (⟨-, later⟩ | ⟨fits', -⟩)
        · exact absurd later (not_le.mpr isFirst)
        · exact fits fits'
    · refine iff_of_true ⟨_, noSector, rfl, fun asked isAsked => ?_⟩ (Or.inl ⟨not_lt.mp fits, later⟩)
      have none_ : (StreamCall.endingSector disk ⟨memory, read, pos, isInt, total⟩ + 1 -
          (pos / disk.sectorSize : Nat)).toNat = 0 := by
        have negative := alignedEnd_wrapped positive sector bound
        unfold StreamCall.endingSector
        dsimp only
        rw [final, alignedUp_overflow positive bound sector (not_lt.mp fits)]
        generalize ((alignedEnd disk.sectorSize (pos + total) : Int) - 2 ^ 32).tdiv disk.sectorSize = last at negative
        generalize pos / disk.sectorSize = first
        omega
      rw [start, none_] at isAsked
      exact absurd isAsked List.not_mem_nil

/-! ### A partition of two sectors -/

/-- A partition of two sectors of a hardware disk of `0xFF`. -/
def twoSectors : Disk := ⟨512, 2048, 2050, some workingDriver⟩

/-- A call for one of its sectors. -/
def oneSectorCall (pos : Nat) (isInt : pos < 2 ^ 31) : StreamCall := ⟨clearMemory, some workingDriver, pos, isInt, 512⟩

theorem twoSectors_serves : ServesOnly twoSectors 2 := by
  have numbers : ∀ i : Nat, i < 2 ^ 31 →
      toWord ((toWord ((twoSectors.startingLba : Int) + (i : Int)) : Int) + ((1 : Nat) : Int)) = 2048 + i + 1 := by
    intro i small
    show toWord ((toWord (((2048 : Nat) : Int) + (i : Int)) : Int) + ((1 : Nat) : Int)) = _
    have absolute : toWord (((2048 : Nat) : Int) + (i : Int)) = 2048 + i := by
      rw [← Nat.cast_add, toWord_natCast (by omega)]
    rw [absolute, ← Nat.cast_add, toWord_natCast (by omega)]
  have ending : twoSectors.endingLba = 2050 := rfl
  refine ⟨fun i inside => ⟨fun _ => 0xFF#8, ?_⟩, fun i outside small => ⟨eio, by decide, ?_⟩⟩
  · unfold diskReadBlock
    dsimp only
    rw [numbers i (by omega), ending, if_neg (by omega)]
    rfl
  · unfold diskReadBlock
    dsimp only
    rw [numbers i small, ending, if_pos ⟨by omega, by decide, by decide⟩]

/-- **The last sector of a partition is not read**: the sector behind it is asked for, and that fails. -/
theorem lastSector_fails : ServesOnly ((oneSectorCall 512 (by decide)).diskOf twoSectors) 2 ∧
    ((oneSectorCall 512 (by decide)).run twoSectors ⟨some fun _ => none, []⟩).map (·.res) = some eio ∧
    ¬ (oneSectorCall 512 (by decide)).ReadsWithin twoSectors (some fun _ => none) := by
  have fails : ((oneSectorCall 512 (by decide)).run twoSectors ⟨some fun _ => none, []⟩).map (·.res) = some eio := by
    decide +kernel
  refine ⟨twoSectors_serves, fails, fun ⟨after, result, isZero, _⟩ => ?_⟩
  rw [result, Option.map_some, isZero] at fails
  exact absurd fails (by decide)

/-- A cache with an entry for the second sector. -/
def secondCached : DiskStreamCache := fun slot => if slot = ⟨0, 0, 32, 1⟩ then some fun _ => 0xFF#8 else none

/-- **The first sector is read where the second one is in the cache.** -/
theorem firstSector_reads : (oneSectorCall 0 (by decide)).ReadsWithin twoSectors (some secondCached) := by
  refine (StreamCall.readsWithin_iff twoSectors (oneSectorCall 0 (by decide)) (some secondCached) (by decide) (by decide)
    (by decide) (by decide) (by decide) twoSectors_serves).mpr (Or.inr ⟨by decide, secondCached, rfl, fun k _ upTo => ?_, ?_⟩)
  · have first : sectorSlot 512 2048 0 = some ⟨0, 0, 32, 0⟩ := by decide +kernel
    have second : sectorSlot 512 2048 1 = some ⟨0, 0, 32, 1⟩ := by decide +kernel
    have upTo : k ≤ 1 := upTo
    rcases Nat.le_one_iff_eq_zero_or_eq_one.mp upTo with rfl | rfl
    · exact ⟨_, first, Or.inr le_rfl⟩
    · exact ⟨_, second, Or.inr le_rfl⟩
  · exact ⟨⟨0, 0, 32, 1⟩, by decide +kernel, Or.inl rfl⟩

end PeachOS
