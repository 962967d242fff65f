/-
**Which reads of a disk stream are right.**

The sectors of a read end at its last byte aligned up. That is an `int`, and one sector more is looked up than
the read needs.

* `diskstreamerRead_eq`, `diskstreamerRead_overflow` — the sectors that `diskstreamer_read` goes over;
* `diskstreamerRead_exact_iff` — for which positions and lengths every read is right, whatever is on the
  disk and in its cache.
-/

import PeachOS.Disk.Streamer
import Mathlib.Tactic.Ring

namespace PeachOS

/-! ### The sectors of a read -/

/-- The end of a read aligned up, without overflow. -/
def alignedEnd (sectorSize offset : Nat) : Nat :=
  if offset % sectorSize ≠ 0 then offset + (sectorSize - offset % sectorSize) else offset

theorem alignedEnd_bounds {sectorSize : Nat} (positive : 0 < sectorSize) (offset : Nat) :
    offset ≤ alignedEnd sectorSize offset ∧ alignedEnd sectorSize offset < offset + sectorSize := by
  unfold alignedEnd
  split <;> omega

/-- The aligned end is the start of a sector. -/
theorem alignedEnd_mul {sectorSize : Nat} (positive : 0 < sectorSize) (offset : Nat) :
    alignedEnd sectorSize offset / sectorSize * sectorSize = alignedEnd sectorSize offset := by
  apply Nat.div_mul_cancel
  have parts := Nat.div_add_mod offset sectorSize
  have inside := Nat.mod_lt offset positive
  unfold alignedEnd
  split
  · refine ⟨offset / sectorSize + 1, ?_⟩
    rw [Nat.mul_add]
    omega
  · exact Nat.dvd_of_mod_eq_zero (by omega)

theorem alignedDown_natCast {sectorSize offset : Nat} (small : offset < 2 ^ 31) :
    alignedDown sectorSize offset = (offset / sectorSize * sectorSize : Nat) := by
  have parts := Nat.div_add_mod' offset sectorSize
  unfold alignedDown
  rw [← Int.ofNat_tmod]
  by_cases aligned : offset % sectorSize = 0
  · rw [if_neg (by rw [aligned]; decide)]
    omega
  · rw [if_pos (by omega), toInt32_of_bounds (by omega) (by omega)]
    omega

theorem alignedUp_natCast {sectorSize offset : Nat} (positive : 0 < sectorSize) (small : offset < 2 ^ 31)
    (fits : alignedEnd sectorSize offset < 2 ^ 31) : alignedUp sectorSize offset = alignedEnd sectorSize offset := by
  have inside := Nat.mod_lt offset positive
  unfold alignedUp
  unfold alignedEnd at fits ⊢
  rw [← Int.ofNat_tmod]
  by_cases aligned : offset % sectorSize = 0
  · rw [if_neg (by omega), if_neg (by omega)]
  · rw [if_pos aligned] at fits
    rw [if_pos (by omega), if_pos aligned, toInt32_of_bounds (by omega) (by omega)]
    omega

/-- The aligned end of a read near `2^31` becomes negative. -/
theorem alignedUp_overflow {sectorSize offset : Nat} (positive : 0 < sectorSize) (small : offset < 2 ^ 31)
    (sector : sectorSize ≤ 2048) (overflows : 2 ^ 31 ≤ alignedEnd sectorSize offset) :
    alignedUp sectorSize offset = alignedEnd sectorSize offset - 2 ^ 32 := by
  have inside := Nat.mod_lt offset positive
  unfold alignedUp
  unfold alignedEnd at overflows ⊢
  rw [← Int.ofNat_tmod]
  by_cases aligned : offset % sectorSize = 0
  · rw [if_neg (by omega)] at overflows
    omega
  · rw [if_pos aligned] at overflows
    rw [if_pos (by omega), if_pos aligned]
    unfold toInt32
    split <;> omega

/-- Its sector, where it is no `int`, is negative. -/
theorem alignedEnd_wrapped {sectorSize offset : Nat} (positive : 0 < sectorSize) (sector : sectorSize ≤ 2048)
    (bound : offset < 2 ^ 31) : ((alignedEnd sectorSize offset : Int) - 2 ^ 32).tdiv sectorSize ≤ -1 := by
  obtain ⟨-, end_⟩ := alignedEnd_bounds positive offset
  have flipped : (alignedEnd sectorSize offset : Int) - 2 ^ 32 = -((2 ^ 32 - alignedEnd sectorSize offset : Nat) : Int) := by
    omega
  rw [flipped, Int.neg_tdiv, ← Int.ofNat_tdiv]
  have : 0 < (2 ^ 32 - alignedEnd sectorSize offset) / sectorSize := Nat.div_pos (by omega) positive
  generalize (2 ^ 32 - alignedEnd sectorSize offset) / sectorSize = magnitude at this
  omega

section Range

variable (memory : CacheMemory) (disk : Disk) (cache : Option DiskStreamCache) {pos total : Nat}
  (positive : 0 < disk.sectorSize) (sector : disk.sectorSize ≤ 2048) (bound : pos + total < 2 ^ 31)

include positive bound

/-- **The sectors of a read**: from that of the position to that of the aligned end, inclusively. -/
theorem diskstreamerRead_eq (fits : alignedEnd disk.sectorSize (pos + total) < 2 ^ 31) :
    diskstreamerRead memory (diskstreamerSeek (diskstreamerNewFromDisk disk) pos) cache total =
      diskstreamerReadLoop memory disk disk.sectorSize
        (alignedEnd disk.sectorSize (pos + total) / disk.sectorSize + 1 - pos / disk.sectorSize)
        (pos / disk.sectorSize) ⟨total, pos, cache, [], 0⟩ := by
  obtain ⟨end_, _⟩ := alignedEnd_bounds positive (pos + total)
  have down := Nat.div_mul_le_self pos disk.sectorSize
  have final := @toInt32_natCast_add pos total (by omega)
  unfold diskstreamerRead diskstreamerSeek diskstreamerNewFromDisk
  dsimp only
  rw [alignedDown_natCast (by omega), final, alignedUp_natCast positive bound fits, toInt32_of_bounds (by omega) (by omega),
    ← Nat.cast_sub (by omega), ← Int.ofNat_tdiv, ← Int.ofNat_tdiv, ← Int.ofNat_tdiv,
    if_neg (not_lt.mpr (Int.natCast_nonneg _)), Nat.mul_div_cancel _ positive,
    toUInt32_natCast (lt_of_le_of_lt (Nat.div_le_self _ _) (by omega))]
  have sectors : (((alignedEnd disk.sectorSize (pos + total) / disk.sectorSize : Nat) : Int) + 1 -
      (pos / disk.sectorSize : Nat)).toNat =
      alignedEnd disk.sectorSize (pos + total) / disk.sectorSize + 1 - pos / disk.sectorSize := by
    generalize alignedEnd disk.sectorSize (pos + total) / disk.sectorSize = last
    generalize pos / disk.sectorSize = first
    omega
  rw [sectors]

include sector

/-- A read whose aligned end overflows panics when it starts in the first sector, and else goes over no sector. -/
theorem diskstreamerRead_overflow (overflows : 2 ^ 31 ≤ alignedEnd disk.sectorSize (pos + total)) :
    diskstreamerRead memory (diskstreamerSeek (diskstreamerNewFromDisk disk) pos) cache total = none ∧
        pos < disk.sectorSize ∧ 0 < total ∨
      diskstreamerRead memory (diskstreamerSeek (diskstreamerNewFromDisk disk) pos) cache total =
        some ⟨total, pos, cache, [], 0⟩ ∧ disk.sectorSize ≤ pos := by
  obtain ⟨_, end_⟩ := alignedEnd_bounds positive (pos + total)
  have down := Nat.div_mul_le_self pos disk.sectorSize
  have parts := Nat.div_add_mod' pos disk.sectorSize
  have inside := Nat.mod_lt pos positive
  have final := @toInt32_natCast_add pos total (by omega)
  unfold diskstreamerRead diskstreamerSeek diskstreamerNewFromDisk
  dsimp only
  rw [alignedDown_natCast (by omega), final, alignedUp_overflow positive bound sector overflows]
  have negative := alignedEnd_wrapped positive sector bound
  by_cases first : pos < disk.sectorSize
  · refine Or.inl ⟨if_pos ?_, first, by omega⟩
    rw [Nat.div_eq_of_lt first, Nat.zero_mul, Nat.cast_zero, sub_zero, toInt32_of_bounds (by omega) (by omega)]
    exact negative.trans_lt (by decide)
  · have whole : disk.sectorSize ≤ pos / disk.sectorSize * disk.sectorSize :=
      Nat.le_mul_of_pos_left _ (Nat.div_pos (not_lt.mp first) positive)
    have range : toInt32 ((alignedEnd disk.sectorSize (pos + total) : Int) - 2 ^ 32 -
        (pos / disk.sectorSize * disk.sectorSize : Nat)) = (alignedEnd disk.sectorSize (pos + total) -
          pos / disk.sectorSize * disk.sectorSize : Nat) := by
      unfold toInt32
      split <;> omega
    refine Or.inr ⟨?_, not_lt.mp first⟩
    rw [range, ← Int.ofNat_tdiv, if_neg (not_lt.mpr (Int.natCast_nonneg _))]
    have none_ : (((alignedEnd disk.sectorSize (pos + total) : Int) - 2 ^ 32).tdiv disk.sectorSize + 1 -
        ((pos / disk.sectorSize * disk.sectorSize : Nat) : Int).tdiv disk.sectorSize).toNat = 0 := by
      rw [← Int.ofNat_tdiv, Nat.mul_div_cancel _ positive]
      generalize ((alignedEnd disk.sectorSize (pos + total) : Int) - 2 ^ 32).tdiv disk.sectorSize = last at negative
      generalize pos / disk.sectorSize = first
      omega
    rw [none_]
    rfl

end Range

/-- **Every read keeps the entries**: from the empty cache on, an entry holds a sector of its slot. -/
theorem diskstreamerRead_holds {memory : CacheMemory} {disk : Disk} {sectors : Nat} {contents : Nat → Byte}
    (allocates : ∀ slot, 0 ≤ memory.allocated slot) (serves : ServesSectors disk sectors contents)
    {cache : DiskStreamCache} (holds : CacheHolds disk sectors contents cache) {pos total : Nat}
    (positive : 0 < disk.sectorSize) (sector : disk.sectorSize ≤ 2048) (bound : pos + total < 2 ^ 31) {σ : ReadState}
    (result : diskstreamerRead memory (diskstreamerSeek (diskstreamerNewFromDisk disk) pos) (some cache) total = some σ) :
    ∃ after, σ.cache = some after ∧ CacheHolds disk sectors contents after := by
  by_cases fits : alignedEnd disk.sectorSize (pos + total) < 2 ^ 31
  · rw [diskstreamerRead_eq memory disk (some cache) positive bound fits] at result
    refine readLoop_holds allocates serves _ rfl holds (fun j _ before => ?_) result
    have last := Nat.mul_le_mul_right disk.sectorSize
      (show j ≤ alignedEnd disk.sectorSize (pos + total) / disk.sectorSize by omega)
    rw [alignedEnd_mul positive] at last
    omega
  · rcases diskstreamerRead_overflow memory disk (some cache) positive sector bound (not_lt.mp fits) with
      ⟨panics, _⟩ | ⟨noSector, _⟩
    · rw [panics] at result
      cases result
    · rw [noSector, Option.some.injEq] at result
      exact ⟨cache, by rw [← result], holds⟩

/-! ### Reads that are right -/

/-- **A read is right**: for every disk and cache, it delivers the bytes of the disk and leaves the position
behind them. -/
def ReadsExactly (sectorSize startingLba pos total : Nat) : Prop :=
  ∀ (memory : CacheMemory) (disk : Disk) (sectors : Nat) (contents : Nat → Byte) (cache : DiskStreamCache),
    disk.sectorSize = sectorSize → disk.startingLba = startingLba → (∀ slot, 0 ≤ memory.allocated slot) →
    ServesSectors disk sectors contents → CacheHolds disk sectors contents cache → pos + total ≤ sectors * sectorSize →
    ∃ σ, diskstreamerRead memory (diskstreamerSeek (diskstreamerNewFromDisk disk) pos) (some cache) total = some σ ∧
      σ.written = diskBytes contents pos total ∧ σ.pos = (pos + total : Nat)

/-- **When reads are right**: the aligned end is an `int`, a read shorter than a sector lies in one, the cache has
slots for all sectors, also for the one behind the read, and the sectors of the read have slots of their own. A
read of nothing is also right when it goes over no sector. -/
def ReadsCleanly (sectorSize startingLba pos total : Nat) : Prop :=
  (total = 0 ∧ 2 ^ 31 ≤ alignedEnd sectorSize (pos + total)) ∨
    (alignedEnd sectorSize (pos + total) < 2 ^ 31 ∧
      (sectorSize ≤ total ∨ pos % sectorSize + total ≤ sectorSize) ∧
      (∀ i, pos / sectorSize ≤ i → i ≤ alignedEnd sectorSize (pos + total) / sectorSize →
        (sectorSlot sectorSize startingLba i).isSome) ∧
      (0 < total → ∀ i, pos / sectorSize ≤ i → i * sectorSize < pos + total → OwnSlot sectorSize startingLba i))

theorem readsExactly_of_cleanly {sectorSize startingLba pos total : Nat} (positive : 0 < sectorSize)
    (sector : sectorSize ≤ 2048) (bound : pos + total < 2 ^ 31)
    (clean : ReadsCleanly sectorSize startingLba pos total) : ReadsExactly sectorSize startingLba pos total := by
  intro memory disk sectors contents cache sizeEq lbaEq allocates serves holds inside
  subst sizeEq lbaEq
  rcases clean with ⟨nothing, overflows⟩ | ⟨fits, oneSector, slots, own⟩
  · rcases diskstreamerRead_overflow memory disk (some cache) positive sector bound overflows with ⟨_, _, something⟩ |
      ⟨noSector, _⟩
    · omega
    · refine ⟨_, noSector, ?_, ?_⟩
      · rw [nothing]
        rfl
      · rw [nothing]
        rfl
  · rw [diskstreamerRead_eq memory disk (some cache) positive bound fits]
    have aligned := alignedEnd_mul positive (pos + total)
    obtain ⟨end_, _⟩ := alignedEnd_bounds positive (pos + total)
    have order : pos / disk.sectorSize ≤ alignedEnd disk.sectorSize (pos + total) / disk.sectorSize :=
      Nat.div_le_div_right (by omega)
    generalize alignedEnd disk.sectorSize (pos + total) / disk.sectorSize = last at aligned order slots ⊢
    have arrays : InArrays disk (pos / disk.sectorSize) (last + 1 - pos / disk.sectorSize) := by
      refine ⟨fun j _ before => ?_, fun j after before => slots j after (by omega)⟩
      have := Nat.mul_le_mul_right disk.sectorSize (show j ≤ last by omega)
      omega
    rcases Nat.eq_zero_or_pos total with nothing | something
    · obtain ⟨σ, result, same, position⟩ := readLoop_rest allocates serves positive _ [] 0 holds arrays
        (show pos < 2 ^ 31 by omega)
      rw [nothing]
      exact ⟨σ, result, same, position⟩
    · refine readLoop_exact allocates serves positive _ pos total [] 0 holds arrays bound inside something rfl oneSector
        (own something) ?_
      rw [Nat.add_sub_cancel' (by omega), Nat.add_mul]
      omega

/-! ### Reads that are not -/

section Runs

variable {memory : CacheMemory} {disk : Disk} {sectorSize : Nat}

/-- A read only appends. -/
theorem readLoop_appends (fuel : Nat) : ∀ {i : Nat} {σ after : ReadState},
    diskstreamerReadLoop memory disk sectorSize fuel i σ = some after → ∃ more, after.written = σ.written ++ more := by
  induction fuel with
  | zero =>
      intro i σ after result
      rw [diskstreamerReadLoop, Option.some.injEq] at result
      exact ⟨[], by rw [← result, List.append_nil]⟩
  | succ fuel hyp =>
      intro i σ after result
      have turn : ∀ {cache : DiskStreamCache} {res : Int} {buf : Nat → Byte},
          diskstreamerReadLoop memory disk sectorSize fuel (i + 1) (σ.turn sectorSize cache res buf) = some after →
          ∃ more, after.written = σ.written ++ more := by
        intro cache res buf goesOn
        obtain ⟨more, appended⟩ := hyp goesOn
        exact ⟨_, appended.trans (List.append_assoc _ _ _)⟩
      cases found : diskstreamerCacheFind memory disk.sectorSize σ.cache (toInt32 (diskRealOffset disk i)) with
      | none =>
          rw [readLoop_outside fuel i σ found] at result
          cases result
      | some entry =>
          rcases entry with res | ⟨isNew, slot, cache⟩
          · rw [diskstreamerReadLoop, found, Option.some.injEq] at result
            exact ⟨[], by rw [← result, List.append_nil]⟩
          · cases isNew with
            | false =>
                rw [readLoop_found fuel i σ found] at result
                exact turn result
            | true =>
                cases read : diskReadBlock disk i 1 with
                | error res =>
                    rw [readLoop_failed fuel i σ found read, Option.some.injEq] at result
                    exact ⟨[], by rw [← result, List.append_nil]⟩
                | ok bytes =>
                    rw [readLoop_new fuel i σ found read] at result
                    exact turn result

end Runs

/-- A disk that has every sector. -/
def wholeDisk (sectorSize startingLba : Nat) (contents : Nat → Byte) : Disk where
  sectorSize := sectorSize
  startingLba := startingLba
  endingLba := 0
  read := some fun lba _ => .ok fun offset =>
    contents ((lba + 2 ^ 32 - startingLba % 2 ^ 32) % 2 ^ 32 * sectorSize + offset)

theorem wholeDisk_read (sectorSize startingLba : Nat) (contents : Nat → Byte) (i : Nat) :
    ∃ sector, diskReadBlock (wholeDisk sectorSize startingLba contents) i 1 =
      .ok (fun offset => contents (sector * sectorSize + offset)) ∧ (i < 2 ^ 32 → sector = i) := by
  refine ⟨(toWord ((startingLba : Int) + i) % 2 ^ 32 + 2 ^ 32 - startingLba % 2 ^ 32) % 2 ^ 32, ?_, fun small => ?_⟩
  · unfold diskReadBlock wholeDisk
    dsimp only
    rw [if_neg (by simp)]
  · unfold toWord
    omega

theorem wholeDisk_serves {sectorSize : Nat} (startingLba : Nat) (contents : Nat → Byte) :
    ServesSectors (wholeDisk sectorSize startingLba contents) (2 ^ 31) contents := by
  intro i inside
  obtain ⟨sector, read, same⟩ := wholeDisk_read sectorSize startingLba contents i
  refine ⟨_, read, fun offset _ => ?_⟩
  rw [same (by omega)]
  rfl

/-- An allocator that always succeeds, with cleared bytes behind its buffers. -/
def clearMemory : CacheMemory := ⟨fun _ => 0, fun _ _ => 0x00#8⟩

theorem clearMemory_newBuffer (slot : CacheSlot) (offset : Nat) : clearMemory.newBuffer slot offset = 0x00#8 := by
  unfold CacheMemory.newBuffer clearMemory
  split <;> rfl

section Failures

variable {sectorSize startingLba : Nat} (contents : Nat → Byte)

/-- A turn of a disk that has every sector: it stops only at a sector without a slot. -/
theorem wholeDisk_turn (fuel i : Nat) (σ : ReadState) {cache : DiskStreamCache} (entries : σ.cache = some cache)
    {slot : CacheSlot} (inArrays : sectorSlot sectorSize startingLba i = some slot) :
    (∃ buf, cache slot = some buf ∧
      diskstreamerReadLoop clearMemory (wholeDisk sectorSize startingLba contents) sectorSize (fuel + 1) i σ =
        diskstreamerReadLoop clearMemory (wholeDisk sectorSize startingLba contents) sectorSize fuel (i + 1)
          (σ.turn sectorSize cache σ.res buf)) ∨
      (cache slot = none ∧ ∃ (sector : Nat) (cache' : DiskStreamCache), (i < 2 ^ 32 → sector = i) ∧
        (∀ other, cache' other = if other = slot then
          some (readBuffer clearMemory sectorSize slot fun offset => contents (sector * sectorSize + offset))
          else cache other) ∧
        diskstreamerReadLoop clearMemory (wholeDisk sectorSize startingLba contents) sectorSize (fuel + 1) i σ =
          diskstreamerReadLoop clearMemory (wholeDisk sectorSize startingLba contents) sectorSize fuel (i + 1)
            (σ.turn sectorSize cache' 0
              (readBuffer clearMemory sectorSize slot fun offset => contents (sector * sectorSize + offset)))) := by
  have slotEq := (sectorSlot_eq (wholeDisk sectorSize startingLba contents) i).trans inArrays
  cases entry : cache slot with
  | some buf =>
      have found := cacheFind_entry clearMemory slotEq entry
      rw [← entries] at found
      refine Or.inl ⟨buf, rfl, ?_⟩
      rw [readLoop_found fuel i σ found, entry, Option.getD_some]
  | none =>
      have found := cacheFind_new slotEq entry (show 0 ≤ clearMemory.allocated slot from le_rfl)
      rw [← entries] at found
      obtain ⟨sector, read, same⟩ := wholeDisk_read sectorSize startingLba contents i
      refine Or.inr ⟨rfl, sector, _, same, fillSector_new slot cache _, ?_⟩
      rw [readLoop_new fuel i σ found read, fillSector_new, if_pos rfl, Option.getD_some]
      rfl

variable {contents}

/-- A sector without a slot is reached. -/
theorem readLoop_none (fuel : Nat) : ∀ {i : Nat} {σ : ReadState} {cache : DiskStreamCache}, σ.cache = some cache →
    (∃ j, i ≤ j ∧ j < i + fuel ∧ sectorSlot sectorSize startingLba j = none) →
    diskstreamerReadLoop clearMemory (wholeDisk sectorSize startingLba contents) sectorSize fuel i σ = none := by
  induction fuel with
  | zero =>
      intro i σ cache _ ⟨j, after, before, _⟩
      omega
  | succ fuel hyp =>
      intro i σ cache entries ⟨j, after, before, outside⟩
      cases inArrays : sectorSlot sectorSize startingLba i with
      | none =>
          refine readLoop_outside fuel i σ ?_
          rw [entries]
          exact cacheFind_outside clearMemory ((sectorSlot_eq (wholeDisk sectorSize startingLba contents) i).trans inArrays) cache
      | some slot =>
          have later : i ≠ j := by
            rintro rfl
            rw [inArrays] at outside
            cases outside
          have rest : ∃ j, i + 1 ≤ j ∧ j < i + 1 + fuel ∧ sectorSlot sectorSize startingLba j = none :=
            ⟨j, by omega, by omega, outside⟩
          rcases wholeDisk_turn contents fuel i σ entries inArrays with
            ⟨buf, _, goesOn⟩ | ⟨_, sector, cache', _, _, goesOn⟩
          · rw [goesOn]
            exact hyp rfl rest
          · rw [goesOn]
            exact hyp rfl rest

/-- **A shared slot hides a sector**: with a cleared buffer in the slot of the only sector that is not cleared,
only zeros are read. -/
theorem readLoop_zeros {hidden : Nat} {shared : CacheSlot} (ofHidden : sectorSlot sectorSize startingLba hidden = some shared)
    (clear : ∀ sector, sector ≠ hidden → ∀ offset < sectorSize, contents (sector * sectorSize + offset) = 0x00#8)
    (fuel : Nat) : ∀ {i : Nat} {σ : ReadState} {cache : DiskStreamCache}, σ.cache = some cache → i + fuel < 2 ^ 32 →
    (cache shared).isSome → (∀ slot buf, cache slot = some buf → ∀ offset, buf offset = 0x00#8) →
    (∀ byte ∈ σ.written, byte = 0x00#8) → ∀ {after : ReadState},
    diskstreamerReadLoop clearMemory (wholeDisk sectorSize startingLba contents) sectorSize fuel i σ = some after →
    ∀ byte ∈ after.written, byte = 0x00#8 := by
  induction fuel with
  | zero =>
      intro i σ cache _ _ _ _ zeros after result
      rw [diskstreamerReadLoop, Option.some.injEq] at result
      rw [← result]
      exact zeros
  | succ fuel hyp =>
      intro i σ cache entries small isEntry cleared zeros after result
      have turnZeros : ∀ {cache' : DiskStreamCache} {res : Int} {buf : Nat → Byte}, (∀ offset, buf offset = 0x00#8) →
          ∀ byte ∈ (σ.turn sectorSize cache' res buf).written, byte = 0x00#8 := by
        intro cache' res buf zero byte isByte
        rcases List.mem_append.mp isByte with before | copied
        · exact zeros byte before
        · obtain ⟨k, _, rfl⟩ := List.mem_map.mp copied
          exact zero _
      cases inArrays : sectorSlot sectorSize startingLba i with
      | none =>
          rw [readLoop_none (fuel + 1) entries ⟨i, le_rfl, by omega, inArrays⟩] at result
          cases result
      | some slot =>
          rcases wholeDisk_turn contents fuel i σ entries inArrays with
            ⟨buf, entry, goesOn⟩ | ⟨noEntry, sector, cache', same, inserts, goesOn⟩
          · rw [goesOn] at result
            exact hyp rfl (by omega) isEntry cleared (turnZeros (cleared slot buf entry)) result
          · -- the sector that is read is not the hidden one, whose slot has an entry
            have other : slot ≠ shared := by
              rintro rfl
              rw [noEntry] at isEntry
              cases isEntry
            have visible : sector ≠ hidden := by
              rw [same (by omega)]
              rintro rfl
              rw [inArrays, Option.some.injEq] at ofHidden
              exact other ofHidden
            have zero : ∀ offset,
                readBuffer clearMemory sectorSize slot (fun offset => contents (sector * sectorSize + offset)) offset =
                  0x00#8 := by
              intro offset
              unfold readBuffer
              by_cases small : offset < sectorSize
              · rw [if_pos small]
                exact clear sector visible offset small
              · rw [if_neg small]
                exact clearMemory_newBuffer slot offset
            rw [goesOn] at result
            refine hyp rfl (by omega) ?_ ?_ (turnZeros zero) result
            · rw [inserts, if_neg other.symm]
              exact isEntry
            · intro slot' buf' isEntry' offset
              rw [inserts] at isEntry'
              by_cases here : slot' = slot
              · rw [if_pos here, Option.some.injEq] at isEntry'
                rw [← isEntry']
                exact zero offset
              · rw [if_neg here] at isEntry'
                exact cleared slot' buf' isEntry' offset

end Failures

/-! ### The exact condition -/

theorem filled_ne_zeros {contents : Nat → Byte} {pos total at_ : Nat} {written : List Byte}
    (zeros : ∀ byte ∈ written, byte = 0x00#8) (from_ : pos ≤ at_) (before : at_ < pos + total)
    (filled : contents at_ = 0xFF#8) : written ≠ diskBytes contents pos total := by
  intro same
  have isByte : contents at_ ∈ written := by
    rw [same]
    exact List.mem_map.mpr ⟨at_ - pos, List.mem_range.mpr (by omega), by rw [Nat.add_sub_cancel' from_]⟩
  have zero := zeros _ isByte
  rw [filled] at zero
  exact absurd zero (by decide)

section Exact

variable {sectorSize startingLba pos total : Nat} (positive : 0 < sectorSize)

include positive in
/-- What a right read does on a disk that has every sector. -/
theorem ReadsExactly.whole (exact_ : ReadsExactly sectorSize startingLba pos total) (bound : pos + total < 2 ^ 31)
    (contents : Nat → Byte) (cache : DiskStreamCache)
    (holds : CacheHolds (wholeDisk sectorSize startingLba contents) (2 ^ 31) contents cache) :
    ∃ σ, diskstreamerRead clearMemory
        (diskstreamerSeek (diskstreamerNewFromDisk (wholeDisk sectorSize startingLba contents)) pos) (some cache) total =
          some σ ∧ σ.written = diskBytes contents pos total ∧ σ.pos = (pos + total : Nat) := by
  refine exact_ clearMemory _ (2 ^ 31) contents cache rfl rfl (fun _ => le_rfl) (wholeDisk_serves startingLba contents)
    holds ?_
  exact le_trans bound.le (Nat.le_mul_of_pos_right _ positive)

theorem noEntries_hold (disk : Disk) (sectors : Nat) (contents : Nat → Byte) :
    CacheHolds disk sectors contents fun _ => none := by
  intro slot buf isEntry
  cases isEntry

include positive in
theorem exact_slots (exact_ : ReadsExactly sectorSize startingLba pos total) (bound : pos + total < 2 ^ 31)
    (fits : alignedEnd sectorSize (pos + total) < 2 ^ 31) {i : Nat} (from_ : pos / sectorSize ≤ i)
    (last : i ≤ alignedEnd sectorSize (pos + total) / sectorSize) : (sectorSlot sectorSize startingLba i).isSome := by
  by_contra outside
  rw [Option.not_isSome_iff_eq_none] at outside
  obtain ⟨σ, result, _⟩ := exact_.whole positive bound (fun _ => 0xFF#8) (fun _ => none) (noEntries_hold _ _ _)
  rw [diskstreamerRead_eq clearMemory _ _ positive bound fits] at result
  have stops : diskstreamerReadLoop clearMemory (wholeDisk sectorSize startingLba fun _ => 0xFF#8) sectorSize
      (alignedEnd sectorSize (pos + total) / sectorSize + 1 - pos / sectorSize) (pos / sectorSize)
      ⟨total, pos, some fun _ => none, [], 0⟩ = none :=
    readLoop_none _ rfl ⟨i, from_, by omega, outside⟩
  exact absurd (result.symm.trans stops) (by simp)

include positive in
/-- A read shorter than a sector that leaves it copies what is behind the sector in its buffer. -/
theorem exact_oneSector (exact_ : ReadsExactly sectorSize startingLba pos total) (bound : pos + total < 2 ^ 31)
    (fits : alignedEnd sectorSize (pos + total) < 2 ^ 31) : sectorSize ≤ total ∨ pos % sectorSize + total ≤ sectorSize := by
  by_contra straddles
  rw [not_or, not_le, not_le] at straddles
  obtain ⟨fewer, leaves⟩ := straddles
  obtain ⟨σ, result, written, _⟩ := exact_.whole positive bound (fun _ => 0xFF#8) (fun _ => none) (noEntries_hold _ _ _)
  rw [diskstreamerRead_eq clearMemory _ _ positive bound fits] at result
  have order : pos / sectorSize ≤ alignedEnd sectorSize (pos + total) / sectorSize :=
    Nat.div_le_div_right (by have := (alignedEnd_bounds positive (pos + total)).1; omega)
  have inside := Nat.mod_lt pos positive
  change diskstreamerReadLoop clearMemory (wholeDisk sectorSize startingLba fun _ => 0xFF#8) sectorSize
    (alignedEnd sectorSize (pos + total) / sectorSize + 1 - pos / sectorSize) (pos / sectorSize) _ = _ at result
  obtain ⟨fuel, turns⟩ : ∃ fuel, alignedEnd sectorSize (pos + total) / sectorSize + 1 - pos / sectorSize = fuel + 1 :=
    ⟨alignedEnd sectorSize (pos + total) / sectorSize - pos / sectorSize, by omega⟩
  rw [turns] at result
  obtain ⟨slot, inArrays⟩ := Option.isSome_iff_exists.mp (exact_slots positive exact_ bound fits le_rfl order)
  rcases wholeDisk_turn (fun _ => 0xFF#8) fuel (pos / sectorSize) ⟨total, pos, some fun _ => none, [], 0⟩ rfl inArrays with
    ⟨buf, entry, _⟩ | ⟨_, sector, cache', _, _, goesOn⟩
  · cases entry
  · rw [goesOn] at result
    obtain ⟨more, appended⟩ := readLoop_appends fuel result
    have amount : turnAmount sectorSize pos total = total := if_pos fewer
    rw [turn_eq positive bound turnAmount_le, amount, List.nil_append, written] at appended
    have bytes := congrArg (fun written => written[sectorSize - pos % sectorSize]?) appended
    dsimp only at bytes
    rw [List.getElem?_append_left (by rw [List.length_map, List.length_range]; omega), diskBytes,
      List.getElem?_map, List.getElem?_map, List.getElem?_range (by omega), Option.map_some, Option.map_some,
      Nat.add_sub_cancel' inside.le, readBuffer, if_neg (lt_irrefl _), clearMemory_newBuffer] at bytes
    exact absurd bytes (by decide)

include positive in
/-- A sector whose slot has the entry of another one is not read. -/
theorem exact_ownSlot (exact_ : ReadsExactly sectorSize startingLba pos total) (bound : pos + total < 2 ^ 31)
    (fits : alignedEnd sectorSize (pos + total) < 2 ^ 31) (something : 0 < total) {i : Nat}
    (from_ : pos / sectorSize ≤ i) (before : i * sectorSize < pos + total) : OwnSlot sectorSize startingLba i := by
  intro j low sameSlot
  by_contra other
  have aligned := alignedEnd_mul positive (pos + total)
  obtain ⟨end_, _⟩ := alignedEnd_bounds positive (pos + total)
  have last : i ≤ alignedEnd sectorSize (pos + total) / sectorSize :=
    Nat.le_of_mul_le_mul_right (by omega) positive
  obtain ⟨shared, slotEq⟩ := Option.isSome_iff_exists.mp (exact_slots positive exact_ bound fits from_ last)
  have sectorOf : ∀ sector offset, offset < sectorSize → (sector * sectorSize + offset) / sectorSize = sector := by
    intro sector offset small
    rw [Nat.add_comm, Nat.add_mul_div_right _ _ positive, Nat.div_eq_of_lt small, Nat.zero_add]
  have clear : ∀ sector, sector ≠ i → ∀ offset < sectorSize,
      (if (sector * sectorSize + offset) / sectorSize = i then 0xFF#8 else 0x00#8 : Byte) = 0x00#8 := by
    intro sector visible offset small
    rw [sectorOf sector offset small, if_neg visible]
  -- the entry of the other sector, which is cleared as this is
  obtain ⟨σ, result, written, _⟩ := exact_.whole positive bound (fun at_ => if at_ / sectorSize = i then 0xFF#8 else 0x00#8)
    (fun slot => if slot = shared then some fun _ => 0x00#8 else none) (by
      intro slot buf isEntry
      dsimp only at isEntry
      by_cases here : slot = shared
      · rw [if_pos here, Option.some.injEq] at isEntry
        rw [here, ← isEntry]
        exact ⟨j, low, sameSlot.trans slotEq, fun _ offset small => (clear j other offset small).symm⟩
      · rw [if_neg here] at isEntry
        cases isEntry)
  rw [diskstreamerRead_eq clearMemory _ _ positive bound fits] at result
  have zeros : ∀ byte ∈ σ.written, byte = 0x00#8 := by
    refine readLoop_zeros slotEq clear _ rfl ?_ ?_ ?_ ?_ result
    · have first : pos / sectorSize ≤ alignedEnd sectorSize (pos + total) / sectorSize := from_.trans last
      have small : alignedEnd sectorSize (pos + total) / sectorSize < 2 ^ 31 := lt_of_le_of_lt (Nat.div_le_self _ _) fits
      change pos / sectorSize + (alignedEnd sectorSize (pos + total) / sectorSize + 1 - pos / sectorSize) < _
      omega
    · rw [if_pos rfl]
      rfl
    · intro slot buf isEntry offset
      by_cases here : slot = shared
      · rw [if_pos here, Option.some.injEq] at isEntry
        rw [← isEntry]
      · rw [if_neg here] at isEntry
        cases isEntry
    · intro byte isByte
      cases isByte
  have parts := Nat.div_add_mod' pos sectorSize
  have inside := Nat.mod_lt pos positive
  have start : pos < (i + 1) * sectorSize := by
    have := Nat.mul_le_mul_right sectorSize from_
    rw [Nat.add_mul]
    omega
  refine filled_ne_zeros zeros (le_max_left pos (i * sectorSize)) (by omega) ?_ written
  rw [Nat.add_mul] at start
  obtain ⟨offset, small, at_⟩ : ∃ offset < sectorSize, max pos (i * sectorSize) = i * sectorSize + offset :=
    ⟨max pos (i * sectorSize) - i * sectorSize, by omega, by omega⟩
  rw [at_, sectorOf i offset small, if_pos rfl]

include positive in
theorem exact_nothing (sector : sectorSize ≤ 2048) (exact_ : ReadsExactly sectorSize startingLba pos total)
    (bound : pos + total < 2 ^ 31) (overflows : 2 ^ 31 ≤ alignedEnd sectorSize (pos + total)) : total = 0 := by
  obtain ⟨σ, result, _, position⟩ := exact_.whole positive bound (fun _ => 0x00#8) (fun _ => none) (noEntries_hold _ _ _)
  rcases diskstreamerRead_overflow clearMemory (wholeDisk sectorSize startingLba fun _ => 0x00#8)
    (some fun _ => none) positive sector bound overflows with ⟨panics, _⟩ | ⟨noSector, _⟩
  · rw [panics] at result
    cases result
  · rw [noSector, Option.some.injEq] at result
    rw [← result] at position
    dsimp only at position
    omega

end Exact

/-- **Exactly the clean reads are right**: for every sector size up to that of a buffer, every first sector of a
disk and every range of an `int`. -/
theorem diskstreamerRead_exact_iff {sectorSize : Nat} (positive : 0 < sectorSize) (sector : sectorSize ≤ 2048)
    (startingLba : Nat) {pos total : Nat} (bound : pos + total < 2 ^ 31) :
    ReadsExactly sectorSize startingLba pos total ↔ ReadsCleanly sectorSize startingLba pos total := by
  refine ⟨fun exact_ => ?_, readsExactly_of_cleanly positive sector bound⟩
  by_cases fits : alignedEnd sectorSize (pos + total) < 2 ^ 31
  · exact Or.inr ⟨fits, exact_oneSector positive exact_ bound fits,
      fun i from_ last => exact_slots positive exact_ bound fits from_ last,
      fun something i from_ before => exact_ownSlot positive exact_ bound fits something from_ before⟩
  · exact Or.inl ⟨exact_nothing positive sector exact_ bound (not_lt.mp fits), not_lt.mp fits⟩

/-! ### Disks that start at sector 0 -/

/-- The indexes of a sector of the hardware disk. -/
def hardwareSlot (sector : Nat) : CacheSlot :=
  ⟨sector / 64 / 1024 / 1024, sector / 64 / 1024 % 1024, sector / 64 % 1024, sector % 64⟩

theorem hardwareSlot_injective {first second : Nat} (same : hardwareSlot first = hardwareSlot second) : first = second := by
  unfold hardwareSlot at same
  rw [CacheSlot.mk.injEq] at same
  omega

theorem cacheSlot_hardware {sectorSize sector : Nat} (positive : 0 < sectorSize) (low : sector * sectorSize < 2 ^ 31) :
    cacheSlot sectorSize ((sector * sectorSize : Nat) : Int) = some (hardwareSlot sector) := by
  have size3 : diskStreamBucket3ByteSize sectorSize = 64 * sectorSize := rfl
  have size2 : diskStreamBucket2ByteSize sectorSize = 65536 * sectorSize := by
    rw [diskStreamBucket2ByteSize, size3]
    simp only [diskStreamBucketArraySize]
    omega
  have size1 : diskStreamBucket1ByteSize sectorSize = 67108864 * sectorSize := by
    rw [diskStreamBucket1ByteSize, size2]
    simp only [diskStreamBucketArraySize]
    omega
  have arraySize : 8 * diskStreamLevel3SectorsArraySize * sectorSize = 512 * sectorSize := rfl
  have small : sector % 67108864 % 65536 % 64 * sectorSize < 2 ^ 31 :=
    lt_of_le_of_lt (Nat.mul_le_mul_right _ (by omega)) low
  have inBucket : sector % 67108864 % 65536 % 64 % 512 = sector % 67108864 % 65536 % 64 := by omega
  unfold cacheSlot
  simp only [size3, size2, size1, arraySize]
  rw [← Int.ofNat_tdiv, ← Int.ofNat_tmod, Nat.mul_div_mul_right _ _ positive, Nat.mul_mod_mul_right,
    ← Int.ofNat_tdiv, ← Int.ofNat_tmod, Nat.mul_div_mul_right _ _ positive, Nat.mul_mod_mul_right,
    ← Int.ofNat_tdiv, ← Int.ofNat_tmod, Nat.mul_div_mul_right _ _ positive, Nat.mul_mod_mul_right,
    toWord_natCast (by omega), Nat.mul_mod_mul_right, inBucket, toInt32_of_bounds (by omega) (by omega),
    ← Int.ofNat_tdiv, Nat.mul_div_cancel _ positive]
  simp only [Int.toNat_natCast, diskStreamBucketArraySize, diskStreamLevel3SectorsArraySize]
  rw [if_pos (by omega), Option.some.injEq, hardwareSlot, CacheSlot.mk.injEq]
  omega

/-- The sectors of a disk that starts at sector 0 have slots of their own. -/
theorem sectorSlot_whole {sectorSize i : Nat} (positive : 0 < sectorSize) (low : i * sectorSize < 2 ^ 31) :
    sectorSlot sectorSize 0 i = some (hardwareSlot i) := by
  have small : i < 2 ^ 31 := lt_of_le_of_lt (Nat.le_mul_of_pos_right i positive) low
  have offset : toInt32 (toInt64 (toWord ((toWord (((0 : Nat) : Int) + i) : Int) * sectorSize))) = (i * sectorSize : Nat) := by
    rw [Nat.cast_zero, zero_add, toWord_natCast (by omega), ← Nat.cast_mul, toWord_natCast (by omega),
      toInt64_of_bounds (by omega) (by omega), toInt32_of_bounds (by omega) (by omega)]
  rw [sectorSlot, offset, cacheSlot_hardware positive low]

theorem ownSlot_whole {sectorSize i : Nat} (positive : 0 < sectorSize) (low : i * sectorSize < 2 ^ 31) :
    OwnSlot sectorSize 0 i := by
  intro j lowOther same
  rw [sectorSlot_whole positive low, sectorSlot_whole positive lowOther, Option.some.injEq] at same
  exact hardwareSlot_injective same

/-- **Disks that start at sector 0**: nothing but a short read over the end of its sector and the last bytes of an
`int` go wrong. -/
theorem readsCleanly_whole_iff {sectorSize pos total : Nat} (positive : 0 < sectorSize) (bound : pos + total < 2 ^ 31) :
    ReadsCleanly sectorSize 0 pos total ↔
      (total = 0 ∧ 2 ^ 31 ≤ alignedEnd sectorSize (pos + total)) ∨
        (alignedEnd sectorSize (pos + total) < 2 ^ 31 ∧ (sectorSize ≤ total ∨ pos % sectorSize + total ≤ sectorSize)) := by
  refine or_congr_right ⟨fun clean => ⟨clean.1, clean.2.1⟩, fun ⟨fits, oneSector⟩ => ⟨fits, oneSector, ?_, ?_⟩⟩
  · intro i _ last
    have := Nat.mul_le_mul_right sectorSize last
    rw [alignedEnd_mul positive] at this
    rw [sectorSlot_whole positive (by omega)]
    rfl
  · intro _ i _ before
    exact ownSlot_whole positive (by omega)

/-- 600 bytes over the end of a sector are read. -/
theorem diskstreamerRead_exact_long : 0 < 512 ∧ 512 ≤ 2048 ∧ 510 + 600 < 2 ^ 31 ∧ ReadsExactly 512 0 510 600 :=
  ⟨by decide, by decide, by decide, (diskstreamerRead_exact_iff (by decide) (by decide) 0 (by decide)).mpr
    ((readsCleanly_whole_iff (by decide) (by decide)).mpr (Or.inr ⟨by decide, Or.inl (by decide)⟩))⟩

/-- **Four bytes over the end of a sector are not read**: on a disk of `0xFF`, two zeros are delivered. -/
theorem straddlingRead :
    (diskstreamerRead clearMemory
        (diskstreamerSeek (diskstreamerNewFromDisk (wholeDisk 512 0 fun _ => 0xFF#8)) 510) (some fun _ => none) 4).map
          (fun σ => (σ.written, σ.pos, σ.res)) = some ([0xFF#8, 0xFF#8, 0x00#8, 0x00#8], 514, 0) ∧
      diskBytes (fun _ => 0xFF#8) 510 4 = [0xFF#8, 0xFF#8, 0xFF#8, 0xFF#8] ∧
      ServesSectors (wholeDisk 512 0 fun _ => 0xFF#8) (2 ^ 31) (fun _ => 0xFF#8) ∧ ¬ ReadsExactly 512 0 510 4 := by
  refine ⟨by decide +kernel, by decide, wholeDisk_serves 0 _, fun exact_ => ?_⟩
  have oneSector := exact_oneSector (by decide) exact_ (by decide) (by decide)
  exact absurd oneSector (by decide)

/-! ### Runs of reads -/

/-- What reads at some positions deliver, one after the other on the cache that the ones before have left. -/
def diskstreamerReads (memory : CacheMemory) (disk : Disk) :
    Option DiskStreamCache → List (Nat × Nat) → Option (List (List Byte))
  | _, [] => some []
  | cache, read :: reads =>
      (diskstreamerRead memory (diskstreamerSeek (diskstreamerNewFromDisk disk) read.1) cache read.2).bind fun σ =>
        (diskstreamerReads memory disk σ.cache reads).map (σ.written :: ·)

theorem diskstreamerReads_holds {memory : CacheMemory} {disk : Disk} {sectors : Nat} {contents : Nat → Byte}
    (positive : 0 < disk.sectorSize) (sector : disk.sectorSize ≤ 2048) (allocates : ∀ slot, 0 ≤ memory.allocated slot)
    (serves : ServesSectors disk sectors contents) {reads : List (Nat × Nat)}
    (bound : ∀ read ∈ reads, read.1 + read.2 < 2 ^ 31 ∧ read.1 + read.2 ≤ sectors * disk.sectorSize)
    {cache : DiskStreamCache} (holds : CacheHolds disk sectors contents cache) {delivered : List (List Byte)}
    (run : diskstreamerReads memory disk (some cache) reads = some delivered) :
    List.Forall₂ (fun read bytes => ReadsCleanly disk.sectorSize disk.startingLba read.1 read.2 →
      bytes = diskBytes contents read.1 read.2) reads delivered := by
  induction reads generalizing cache delivered with
  | nil =>
      obtain rfl := Option.some.inj run
      exact .nil
  | cons read reads ih =>
      obtain ⟨low, inside⟩ := bound read List.mem_cons_self
      obtain ⟨σ, result, run⟩ := Option.bind_eq_some_iff.mp run
      obtain ⟨after, entries, holds'⟩ := diskstreamerRead_holds allocates serves holds positive sector low result
      rw [entries, Option.map_eq_some_iff] at run
      obtain ⟨rest, ran, rfl⟩ := run
      refine .cons (fun clean => ?_) (ih (fun read member => bound read (List.mem_cons_of_mem _ member)) holds' ran)
      obtain ⟨σ', right, written, -⟩ := readsExactly_of_cleanly positive sector low clean memory disk sectors contents
        cache rfl rfl allocates serves holds inside
      rw [result, Option.some.injEq] at right
      rw [right, written]

end PeachOS
