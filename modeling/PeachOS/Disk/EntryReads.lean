/-
**What a read of the primary disk delivers, of any length and from any position.**

The primary disk starts at sector 0, so its sectors have cache entries of their own. A read that leaves its sector
and is shorter than one goes on in the cleared rest of the buffer; a read whose end is no `int` delivers nothing.

* `diskstreamerRead_bytes` — the bytes of a read whose aligned end is an `int`;
* `diskstreamerRead_unread` — the other reads, and those from before the start, deliver none.
-/

import PeachOS.Disk.Slots
import PeachOS.Disk.Failures

namespace PeachOS

/-! ### The primary disk -/

/-- The disk of a driver, with 512-byte sectors and no bounds: every block read succeeds. -/
structure IsPrimary (disk : Disk) (contents : Nat → Byte) : Prop where
  sectorSize : disk.sectorSize = 512
  startingLba : disk.startingLba = 0
  endingLba : disk.endingLba = 0
  serves : ServesSectors disk (2 ^ 32) contents

/-- **A coherent cache**: its buffers hold sectors, and are cleared behind them. -/
structure CacheCoherent (disk : Disk) (contents : Nat → Byte) (cache : DiskStreamCache) : Prop where
  holds : CacheHolds disk (2 ^ 32) contents cache
  clear : ∀ slot buf, cache slot = some buf → ∀ offset, 512 ≤ offset → offset < diskStreamerMaxCacheSectorSize →
    buf offset = 0x00#8

theorem cacheCoherent_empty (disk : Disk) (contents : Nat → Byte) : CacheCoherent disk contents fun _ => none where
  holds := noEntries_hold disk (2 ^ 32) contents
  clear := by
    intro slot buf isEntry
    cases isEntry

/-- The byte `k` of a read: behind the sector of a short read, the rest of the buffer is delivered. -/
def deliveredByte (contents : Nat → Byte) (pos total k : Nat) : Byte :=
  if total < 512 ∧ 512 ≤ pos % 512 + k then 0x00#8 else contents (pos + k)

section Turns

variable {memory : CacheMemory} {disk : Disk} {contents : Nat → Byte} (primary : IsPrimary disk contents)
  (allocates : ∀ slot, 0 ≤ memory.allocated slot)

include primary in
/-- Every sector of the primary disk that an `int` reaches has a slot of its own. -/
theorem IsPrimary.slot {i : Nat} (low : i * 512 < 2 ^ 31) :
    sectorSlot disk.sectorSize disk.startingLba i = some (hardwareSlot i) ∧ OwnSlot disk.sectorSize disk.startingLba i := by
  rw [primary.sectorSize, primary.startingLba]
  exact ⟨sectorSlot_whole (by decide) low, ownSlot_whole (by decide) low⟩

include primary allocates in
/-- **One turn of the loop on the primary disk**: bytes are copied from a buffer that holds the sector and is cleared
behind it. -/
theorem readLoop_primary {cache : DiskStreamCache} (coherent : CacheCoherent disk contents cache) {i : Nat}
    (low : i * 512 < 2 ^ 31) (fuel : Nat) (σ : ReadState) (entries : σ.cache = some cache) (success : σ.res = 0) :
    ∃ cache' buf, CacheCoherent disk contents cache' ∧ (∀ offset < 512, buf offset = contents (i * 512 + offset)) ∧
      (∀ offset, 512 ≤ offset → offset < diskStreamerMaxCacheSectorSize → buf offset = 0x00#8) ∧
      diskstreamerReadLoop memory disk disk.sectorSize (fuel + 1) i σ =
        diskstreamerReadLoop memory disk disk.sectorSize fuel (i + 1) (σ.turn disk.sectorSize cache' 0 buf) := by
  obtain ⟨inArrays, own⟩ := primary.slot low
  have slotEq := (sectorSlot_eq disk i).trans inArrays
  have onDisk : i < 2 ^ 32 := by omega
  have size := primary.sectorSize
  cases entry : cache (hardwareSlot i) with
  | some buf =>
      -- The entry is that of this sector, since its slot is the sector's own.
      obtain ⟨j, lowOther, slotOther, bytes⟩ := coherent.holds _ buf entry
      obtain rfl := own j lowOther (slotOther.trans inArrays.symm)
      have found := cacheFind_entry memory slotEq entry
      rw [← entries] at found
      rw [size] at bytes
      refine ⟨cache, buf, coherent, bytes onDisk, coherent.clear _ buf entry, ?_⟩
      rw [readLoop_found fuel j σ found, entry, Option.getD_some, success]
  | none =>
      have found := cacheFind_new slotEq entry (allocates (hardwareSlot i))
      rw [← entries] at found
      obtain ⟨bytes, read, equal⟩ := primary.serves i onDisk
      rw [size] at equal
      have isRead : ∀ offset < 512, readBuffer memory disk.sectorSize (hardwareSlot i) bytes offset =
          contents (i * 512 + offset) := by
        intro offset small
        rw [readBuffer, size, if_pos small, equal offset small]
      have isClear : ∀ offset, 512 ≤ offset → offset < diskStreamerMaxCacheSectorSize →
          readBuffer memory disk.sectorSize (hardwareSlot i) bytes offset = 0x00#8 := by
        intro offset behind small
        rw [readBuffer, size, if_neg (not_lt.mpr behind), CacheMemory.newBuffer, if_pos small]
      have inserts := @fillSector_new memory disk.sectorSize (hardwareSlot i) cache bytes
      have goesOn := @readLoop_new memory disk disk.sectorSize fuel i σ _ _ found _ read
      rw [inserts, if_pos rfl, Option.getD_some] at goesOn
      refine ⟨_, readBuffer memory disk.sectorSize (hardwareSlot i) bytes, ⟨?_, ?_⟩, isRead, isClear, goesOn⟩
      · refine coherent.holds.insert (by rw [size]; exact low) inArrays (fun _ offset small => ?_) inserts
        rw [size] at small
        rw [isRead offset small, size]
      · intro other buf isEntry
        rw [inserts] at isEntry
        by_cases here : other = hardwareSlot i
        · rw [if_pos here, Option.some.injEq] at isEntry
          rw [← isEntry]
          exact isClear
        · rw [if_neg here] at isEntry
          exact coherent.clear other buf isEntry

include primary allocates in
/-- The loop returns 0 and keeps the cache coherent. -/
theorem readLoop_keeps (fuel : Nat) : ∀ {i : Nat} {σ : ReadState} {cache : DiskStreamCache}, σ.cache = some cache →
    CacheCoherent disk contents cache → σ.res = 0 → (∀ j, i ≤ j → j < i + fuel → j * 512 < 2 ^ 31) →
    ∃ after cache', diskstreamerReadLoop memory disk disk.sectorSize fuel i σ = some after ∧ after.res = 0 ∧
      after.cache = some cache' ∧ CacheCoherent disk contents cache' := by
  induction fuel with
  | zero =>
      intro i σ cache entries coherent success _
      exact ⟨σ, cache, rfl, success, entries, coherent⟩
  | succ fuel ih =>
      intro i σ cache entries coherent success low
      obtain ⟨cache', buf, coherent', -, -, goesOn⟩ :=
        readLoop_primary primary allocates coherent (low i le_rfl (by omega)) fuel σ
        entries success
      rw [goesOn]
      exact ih rfl coherent' rfl fun j after before => low j (by omega) (by omega)

include primary allocates in
/-- **A short read over the end of its sector**: it is copied from one buffer. -/
theorem readLoop_short (fuel : Nat) {i pos total : Nat} {cache : DiskStreamCache} (coherent : CacheCoherent disk contents cache)
    (short : total < 512) (bound : pos + total < 2 ^ 31) (sector : pos / 512 = i)
    (low : ∀ j, i ≤ j → j < i + (fuel + 1) → j * 512 < 2 ^ 31) :
    ∃ σ, diskstreamerReadLoop memory disk disk.sectorSize (fuel + 1) i ⟨total, pos, some cache, [], 0⟩ = some σ ∧
      σ.written = (List.range total).map (deliveredByte contents pos total) ∧ σ.pos = (pos + total : Nat) := by
  obtain ⟨cache', buf, coherent', bytes, clear, goesOn⟩ :=
    readLoop_primary primary allocates coherent (low i le_rfl (by omega)) fuel
    ⟨total, pos, some cache, [], 0⟩ rfl rfl
  have amount : turnAmount disk.sectorSize pos total = total := by rw [primary.sectorSize, turnAmount, if_pos short]
  rw [turn_eq (by rw [primary.sectorSize]; decide) bound turnAmount_le, amount, Nat.sub_self, List.nil_append,
    primary.sectorSize] at goesOn
  have inArrays : InArrays disk (i + 1) fuel := by
    refine ⟨fun j after before => ?_, fun j after before => ?_⟩
    · rw [primary.sectorSize]
      exact low j (by omega) (by omega)
    · rw [(primary.slot (low j (by omega) (by omega))).1]
      rfl
  obtain ⟨σ, result, same, position⟩ := readLoop_rest allocates primary.serves (by rw [primary.sectorSize]; decide) fuel
    ((List.range total).map fun j => buf (pos % 512 + j)) 0 coherent'.holds inArrays bound
  refine ⟨σ, ?_, ?_, position⟩
  · rw [← result, primary.sectorSize]
    exact goesOn
  · rw [same]
    refine List.map_congr_left fun k isCopied => ?_
    have before := List.mem_range.mp isCopied
    unfold deliveredByte
    by_cases behind : 512 ≤ pos % 512 + k
    · rw [if_pos ⟨short, behind⟩]
      refine clear _ behind ?_
      simp only [diskStreamerMaxCacheSectorSize]
      omega
    · rw [if_neg fun ⟨_, outside⟩ => behind outside, bytes _ (not_le.mp behind), ← sector,
        show pos / 512 * 512 + (pos % 512 + k) = pos + k by omega]

include primary allocates in
/-- **The bytes of a read**, when its aligned end is an `int`. -/
theorem diskstreamerRead_bytes {pos total : Nat} {cache : DiskStreamCache} (coherent : CacheCoherent disk contents cache)
    (something : 0 < total) (fits : alignedEnd 512 (pos + total) < 2 ^ 31) (onDisk : pos + total < 2 ^ 31) :
    ∃ after cache', diskstreamerRead memory (diskstreamerSeek (diskstreamerNewFromDisk disk) pos) (some cache) total =
        some after ∧ after.res = 0 ∧ after.cache = some cache' ∧ CacheCoherent disk contents cache' ∧
      after.pos = (pos + total : Nat) ∧ after.written = (List.range total).map (deliveredByte contents pos total) := by
  have size := primary.sectorSize
  have positive : 0 < disk.sectorSize := by omega
  rw [diskstreamerRead_eq memory disk (some cache) positive onDisk (by rw [size]; exact fits), size]
  have aligned := @alignedEnd_mul 512 (by decide) (pos + total)
  obtain ⟨end_, _⟩ := @alignedEnd_bounds 512 (by decide) (pos + total)
  have low : ∀ j, pos / 512 ≤ j → j < pos / 512 + (alignedEnd 512 (pos + total) / 512 + 1 - pos / 512) → j * 512 < 2 ^ 31 := by
    intro j _ before
    omega
  have keeps := readLoop_keeps primary allocates (alignedEnd 512 (pos + total) / 512 + 1 - pos / 512)
    (σ := ⟨total, pos, some cache, [], 0⟩)
    rfl coherent rfl low
  obtain ⟨after, cache', result, success, entries, coherent'⟩ := keeps
  rw [size] at result
  refine ⟨after, cache', result, success, entries, coherent', ?_⟩
  by_cases short : total < 512
  · obtain ⟨fuel, turns⟩ : ∃ fuel, alignedEnd 512 (pos + total) / 512 + 1 - pos / 512 = fuel + 1 :=
      ⟨alignedEnd 512 (pos + total) / 512 - pos / 512, by omega⟩
    rw [turns] at result low
    obtain ⟨σ, same, written, position⟩ := readLoop_short primary allocates fuel coherent short onDisk rfl low
    rw [size, result, Option.some.injEq] at same
    subst same
    exact ⟨position, written⟩
  · have cleanly : ReadsCleanly 512 0 pos total :=
      (readsCleanly_whole_iff (by decide) onDisk).mpr (Or.inr ⟨fits, Or.inl (not_lt.mp short)⟩)
    obtain ⟨σ, same, written, position⟩ := readsExactly_of_cleanly (by decide) (by decide) onDisk cleanly memory disk (2 ^ 32)
      contents cache size primary.startingLba allocates primary.serves coherent.holds (by omega)
    rw [diskstreamerRead_eq memory disk (some cache) positive onDisk (by rw [size]; exact fits), size, result,
      Option.some.injEq] at same
    subst same
    refine ⟨position, written.trans (List.map_congr_left fun k _ => ?_)⟩
    rw [deliveredByte, if_neg fun ⟨fewer, _⟩ => short fewer]

end Turns

/-! ### Reads that deliver nothing -/

/-- Turns copy nothing when the length is no `int` and so is negative. -/
theorem LoopRuns.unread {memory : CacheMemory} {disk : Disk} (positive : 0 < disk.sectorSize) {fuel i : Nat} {σ after : ReadState}
    {turns : List ReadTurn} (runs : LoopRuns memory disk fuel i σ turns after) (nothing : σ.total ≤ 0) :
    after.written = σ.written := by
  have turn : ∀ {σ : ReadState} (cache : DiskStreamCache) (res : Int) (buf : Nat → Byte), σ.total ≤ 0 →
      (σ.turn disk.sectorSize cache res buf).total ≤ 0 ∧ (σ.turn disk.sectorSize cache res buf).written = σ.written := by
    intro σ cache res buf nothing
    unfold ReadState.turn ReadState.copy
    dsimp only
    rw [if_pos (by omega), sub_self, Int.toNat_of_nonpos nothing]
    exact ⟨le_rfl, List.append_nil _⟩
  induction runs with
  | ended => rfl
  | noEntry => rfl
  | failed _ _ => rfl
  | read _ _ _ _ _ ih =>
      obtain ⟨left, same⟩ := turn _ _ _ nothing
      exact (ih left).trans same
  | found _ _ _ _ ih =>
      obtain ⟨left, same⟩ := turn _ _ _ nothing
      exact (ih left).trans same

section Unread

variable {memory : CacheMemory} {disk : Disk} (sectors : disk.sectorSize = 512) {total : Nat}
  {cache : Option DiskStreamCache} {after : ReadState}

/-- The last sector of a read whose end is negative. -/
theorem alignedUp_negative {m : Nat} (low : m ≤ 2 ^ 31) :
    (alignedUp 512 (-(m : Int))).tdiv (512 : Nat) ≤ 1 - (m / 512 : Nat) := by
  have parts := Nat.div_add_mod m 512
  have inside := Nat.mod_lt m (show 0 < 512 by decide)
  have remainder : (-(m : Int)).tmod ((512 : Nat) : Int) = -(m % 512 : Nat) := by rw [Int.neg_tmod, ← Int.ofNat_tmod]
  unfold alignedUp
  rw [remainder]
  by_cases aligned : m % 512 = 0
  · rw [if_neg (by omega), Int.neg_tdiv, ← Int.ofNat_tdiv]
    omega
  · rw [if_pos (by omega), toInt32_of_bounds (by omega) (by omega)]
    have sectors : -(m : Int) + ((512 : Nat) - -(m % 512 : Nat)) = (1 - (m / 512 : Nat)) * (512 : Nat) := by omega
    rw [sectors, Int.mul_tdiv_cancel _ (by decide)]

include sectors in
/-- A read whose end is no `int` goes over no sector, or its loop copies nothing. -/
theorem diskstreamerRead_unread {p : Nat} (something : 0 < total) (isUInt : total < 2 ^ 32) (isInt : p < 2 ^ 31)
    (overflows : 2 ^ 31 ≤ alignedEnd 512 (p + total))
    (result : diskstreamerRead memory (diskstreamerSeek (diskstreamerNewFromDisk disk) p) cache (toInt32 total) = some after) :
    after.written = [] := by
  by_cases large : 2 ^ 31 ≤ total
  · have negative : toInt32 total ≤ 0 := by
      unfold toInt32
      split <;> omega
    unfold diskstreamerRead at result
    dsimp only [diskstreamerSeek, diskstreamerNewFromDisk] at result
    split at result
    · cases result
    · have runs := loopRuns_of_result _ result
      refine runs.unread (sectors ▸ Nat.succ_pos 511) ?_
      dsimp only
      exact negative
  · have isLength : toInt32 (total : Int) = total := by
      clear result overflows
      exact toInt32_of_bounds (by omega) (by omega)
    rw [isLength] at result
    by_cases bound : p + total < 2 ^ 31
    · rcases diskstreamerRead_overflow memory disk cache (sectors ▸ Nat.succ_pos 511) (sectors ▸ Nat.le_of_ble_eq_true rfl) bound
          (sectors.symm ▸ overflows) with
        ⟨panics, _⟩ | ⟨noSector, _⟩
      · rw [panics] at result
        cases result
      · rw [noSector, Option.some.injEq] at result
        rw [← result]
    · have wraps : toInt32 ((p : Int) + total) = -((2 ^ 32 - (p + total) : Nat) : Int) := by
        unfold toInt32
        split <;> omega
      have last := @alignedUp_negative (2 ^ 32 - (p + total)) (by omega)
      have first : (alignedDown 512 (p : Int)).tdiv (512 : Nat) = (p / 512 : Nat) := by
        rw [alignedDown_natCast isInt, ← Int.ofNat_tdiv, Nat.mul_div_cancel _ (by decide)]
      unfold diskstreamerRead at result
      dsimp only [diskstreamerSeek, diskstreamerNewFromDisk] at result
      rw [sectors, first, wraps] at result
      split at result
      · cases result
      · have noSector : ((alignedUp 512 (-((2 ^ 32 - (p + total) : Nat) : Int))).tdiv (512 : Nat) + 1 -
            (p / 512 : Nat)).toNat = 0 := by
          omega
        rw [noSector, diskstreamerReadLoop, Option.some.injEq] at result
        rw [← result]

include sectors in
/-- A read from before the start of the disk goes over no sector, or looks up one outside of the arrays. -/
theorem diskstreamerRead_before (starts : disk.startingLba = 0) {k : Nat} (before : 0 < k) (isInt : k ≤ 2 ^ 22) {length : Int}
    (result : diskstreamerRead memory (diskstreamerSeek (diskstreamerNewFromDisk disk) (-(k * 512 : Nat) : Int)) cache length =
      some after) : after.written = [] := by
  have first : (alignedDown 512 (-(k * 512 : Nat) : Int)).tdiv (512 : Nat) = -(k : Int) := by
    unfold alignedDown
    rw [Int.neg_tmod, ← Int.ofNat_tmod, Nat.mul_mod_left, if_neg (by decide), Int.neg_tdiv, ← Int.ofNat_tdiv,
      Nat.mul_div_cancel _ (by decide)]
  have lba : toUInt32 (-(k : Int)) = 2 ^ 32 - k := by
    unfold toUInt32
    omega
  have noSlot : sectorSlot disk.sectorSize disk.startingLba (2 ^ 32 - k) = none := by
    rw [sectors, starts, sectorSlot_512, if_neg (by omega)]
  unfold diskstreamerRead at result
  dsimp only [diskstreamerSeek, diskstreamerNewFromDisk] at result
  rw [sectors, first, lba] at result
  split at result
  · cases result
  · generalize (Int.toNat _) = fuel at result
    cases fuel with
    | zero =>
        rw [diskstreamerReadLoop, Option.some.injEq] at result
        rw [← result]
    | succ fuel =>
        cases cache with
        | none =>
            rw [diskstreamerReadLoop, diskstreamerCacheFind, Option.some.injEq] at result
            rw [← result]
        | some cache =>
            have outside := cacheFind_outside memory ((sectorSlot_eq disk (2 ^ 32 - k)).trans noSlot) cache
            have stops := @readLoop_outside memory disk 512 fuel (2 ^ 32 - k)
              ⟨length, (-(k * 512 : Nat) : Int), some cache, [], 0⟩ outside
            rw [stops] at result
            cases result

end Unread

end PeachOS
