/-
**What a disk stream reads.**

`diskstreamer_read` copies a sector at a time. A read that is shorter than a sector takes all its bytes from
the buffer of the first sector, also when they do not all lie in it; and the aligned end of the range is an
`int`.

* `readLoop_step` — one turn of the loop: the entry of a sector is found or made, and bytes are copied;
* `readLoop_holds` — the entries of the cache hold the sectors of their slots;
* `readLoop_exact` — the loop delivers the bytes of the disk when no turn leaves its sector.
-/

import PeachOS.Disk.Model
import Mathlib.Data.List.Basic
import Mathlib.Tactic.Ring

namespace PeachOS

/-! ### Disks and caches -/

/-- The slot of a sector. -/
def sectorSlot (sectorSize startingLba i : Nat) : Option CacheSlot :=
  cacheSlot sectorSize (toInt32 (toInt64 (toWord (toWord (startingLba + i) * sectorSize))))

theorem sectorSlot_eq (disk : Disk) (i : Nat) :
    cacheSlot disk.sectorSize (toInt32 (diskRealOffset disk i)) = sectorSlot disk.sectorSize disk.startingLba i := by
  rw [sectorSlot, diskRealOffset, diskRealSector]

/-- **Every block read succeeds**: the sectors of the disk are read as its contents. -/
def ServesSectors (disk : Disk) (sectors : Nat) (contents : Nat → Byte) : Prop :=
  ∀ i < sectors, ∃ bytes, diskReadBlock disk i 1 = .ok bytes ∧
    ∀ offset < disk.sectorSize, bytes offset = contents (i * disk.sectorSize + offset)

/-- **Entries hold sectors**: an entry has the bytes of a sector whose slot it is in. -/
def CacheHolds (disk : Disk) (sectors : Nat) (contents : Nat → Byte) (cache : DiskStreamCache) : Prop :=
  ∀ slot buf, cache slot = some buf → ∃ j, j * disk.sectorSize < 2 ^ 31 ∧
    sectorSlot disk.sectorSize disk.startingLba j = some slot ∧
    (j < sectors → ∀ offset < disk.sectorSize, buf offset = contents (j * disk.sectorSize + offset))

/-- The slot of a sector is that of no other sector that a stream can reach. -/
def OwnSlot (sectorSize startingLba i : Nat) : Prop :=
  ∀ j, j * sectorSize < 2 ^ 31 → sectorSlot sectorSize startingLba j = sectorSlot sectorSize startingLba i → j = i

/-- The bytes of a disk from a position on. -/
def diskBytes (contents : Nat → Byte) (pos count : Nat) : List Byte :=
  (List.range count).map fun k => contents (pos + k)

theorem diskBytes_append (contents : Nat → Byte) (pos first second : Nat) :
    diskBytes contents pos first ++ diskBytes contents (pos + first) second = diskBytes contents pos (first + second) := by
  unfold diskBytes
  rw [List.range_add, List.map_append, List.map_map]
  congr 1
  apply List.map_congr_left
  intro k _
  rw [Function.comp_apply, Nat.add_assoc]

/-- How many bytes a turn copies. -/
def turnAmount (sectorSize pos total : Nat) : Nat := if total < sectorSize then total else sectorSize - pos % sectorSize

theorem turnAmount_cast {sectorSize : Nat} (positive : 0 < sectorSize) (pos total : Nat) :
    (if (total : Int) < sectorSize then (total : Int) else sectorSize - (pos : Int).tmod sectorSize) =
      (turnAmount sectorSize pos total : Nat) := by
  have inside := Nat.mod_lt pos positive
  unfold turnAmount
  rw [← Int.ofNat_tmod]
  by_cases fewer : total < sectorSize
  · rw [if_pos fewer, if_pos (by omega)]
  · rw [if_neg fewer, if_neg (by omega)]
    omega

/-- The copy of a turn from the buffer of its sector. -/
def ReadState.turn (σ : ReadState) (sectorSize : Nat) (cache : DiskStreamCache) (res : Int) (buf : Nat → Byte) : ReadState :=
  { σ with cache := some cache, res := res }.copy buf (σ.pos.tmod sectorSize)
    (if σ.total < sectorSize then σ.total else sectorSize - σ.pos.tmod sectorSize)

/-- A turn whose amounts do not overflow an `int`. -/
theorem turn_eq {pos total sectorSize : Nat} (positive : 0 < sectorSize) (bound : pos + total < 2 ^ 31)
    (fits : turnAmount sectorSize pos total ≤ total) (entries : Option DiskStreamCache) (written : List Byte) (before : Int)
    (cache : DiskStreamCache) (res : Int) (buf : Nat → Byte) :
    (ReadState.mk total pos entries written before).turn sectorSize cache res buf =
      ⟨(total - turnAmount sectorSize pos total : Nat), (pos + turnAmount sectorSize pos total : Nat), some cache,
        written ++ (List.range (turnAmount sectorSize pos total)).map fun j => buf (pos % sectorSize + j), res⟩ := by
  unfold ReadState.turn ReadState.copy
  dsimp only
  rw [turnAmount_cast positive, ← Int.ofNat_tmod, toInt32_of_bounds (by omega) (by omega),
    toInt32_of_bounds (by omega) (by omega), Int.toNat_natCast, Int.toNat_natCast, Nat.cast_sub fits, Nat.cast_add]

/-! ### One turn of the loop -/

section Turns

variable {memory : CacheMemory} {disk : Disk} {sectorSize : Nat} (fuel i : Nat) (σ : ReadState) {slot : CacheSlot}
  {cache : DiskStreamCache}

theorem readLoop_found
    (found : diskstreamerCacheFind memory disk.sectorSize σ.cache (toInt32 (diskRealOffset disk i)) =
      some (.ok (false, slot, cache))) :
    diskstreamerReadLoop memory disk sectorSize (fuel + 1) i σ =
      diskstreamerReadLoop memory disk sectorSize fuel (i + 1)
        (σ.turn sectorSize cache σ.res ((cache slot).getD (memory.newBuffer slot))) := by
  rw [diskstreamerReadLoop, found]
  rfl

theorem readLoop_new
    (found : diskstreamerCacheFind memory disk.sectorSize σ.cache (toInt32 (diskRealOffset disk i)) =
      some (.ok (true, slot, cache)))
    {bytes : Nat → Byte} (read : diskReadBlock disk i 1 = .ok bytes) :
    diskstreamerReadLoop memory disk sectorSize (fuel + 1) i σ =
      diskstreamerReadLoop memory disk sectorSize fuel (i + 1)
        (σ.turn sectorSize (cache.fillSector disk.sectorSize slot bytes) 0
          (((cache.fillSector disk.sectorSize slot bytes) slot).getD (memory.newBuffer slot))) := by
  rw [diskstreamerReadLoop, found]
  simp only [if_true, read]
  rfl

theorem readLoop_failed
    (found : diskstreamerCacheFind memory disk.sectorSize σ.cache (toInt32 (diskRealOffset disk i)) =
      some (.ok (true, slot, cache)))
    {res : Int} (read : diskReadBlock disk i 1 = .error res) :
    diskstreamerReadLoop memory disk sectorSize (fuel + 1) i σ = some { σ with cache := some cache, res := res } := by
  rw [diskstreamerReadLoop, found]
  simp only [if_true, read]

theorem readLoop_outside
    (found : diskstreamerCacheFind memory disk.sectorSize σ.cache (toInt32 (diskRealOffset disk i)) = none) :
    diskstreamerReadLoop memory disk sectorSize (fuel + 1) i σ = none := by
  rw [diskstreamerReadLoop, found]

end Turns

/-! ### Looking up an entry -/

theorem cacheFind_outside (memory : CacheMemory) {sectorSize : Nat} {pos : Int} (outside : cacheSlot sectorSize pos = none)
    (cache : DiskStreamCache) : diskstreamerCacheFind memory sectorSize (some cache) pos = none := by
  rw [diskstreamerCacheFind, outside]

theorem cacheFind_entry (memory : CacheMemory) {sectorSize : Nat} {pos : Int} {slot : CacheSlot}
    (inArrays : cacheSlot sectorSize pos = some slot) {cache : DiskStreamCache} {buf : Nat → Byte}
    (entry : cache slot = some buf) :
    diskstreamerCacheFind memory sectorSize (some cache) pos = some (.ok (false, slot, cache)) := by
  rw [diskstreamerCacheFind, inArrays]
  simp only [entry]

theorem cacheFind_new {memory : CacheMemory} {sectorSize : Nat} {pos : Int} {slot : CacheSlot}
    (inArrays : cacheSlot sectorSize pos = some slot) {cache : DiskStreamCache} (empty : cache slot = none)
    (allocates : 0 ≤ memory.allocated slot) :
    diskstreamerCacheFind memory sectorSize (some cache) pos =
      some (.ok (true, slot, fun other => if other = slot then some (memory.newBuffer slot) else cache other)) := by
  rw [diskstreamerCacheFind, inArrays]
  simp only [empty, if_neg (not_lt.mpr allocates)]

section Step

variable {memory : CacheMemory} {disk : Disk} {sectors : Nat} {contents : Nat → Byte}
  (allocates : ∀ slot, 0 ≤ memory.allocated slot) (serves : ServesSectors disk sectors contents)

/-- The buffer of a sector that was read into a new entry. -/
def readBuffer (memory : CacheMemory) (sectorSize : Nat) (slot : CacheSlot) (bytes : Nat → Byte) (offset : Nat) : Byte :=
  if offset < sectorSize then bytes offset else memory.newBuffer slot offset

theorem fillSector_new {sectorSize : Nat} (slot : CacheSlot) (cache : DiskStreamCache) (bytes : Nat → Byte) (other : CacheSlot) :
    DiskStreamCache.fillSector (fun other => if other = slot then some (memory.newBuffer slot) else cache other)
        sectorSize slot bytes other =
      if other = slot then some (readBuffer memory sectorSize slot bytes) else cache other := by
  unfold DiskStreamCache.fillSector
  by_cases here : other = slot
  · rw [if_pos here, if_pos here]
    dsimp only
    rw [if_pos rfl]
    rfl
  · rw [if_neg here, if_neg here]
    dsimp only
    rw [if_neg here]

include serves in
/-- A block that is read of a sector of the disk is that sector. -/
theorem diskReadBlock_bytes {i : Nat} {bytes : Nat → Byte} (read : diskReadBlock disk i 1 = .ok bytes) (inside : i < sectors)
    {offset : Nat} (small : offset < disk.sectorSize) : bytes offset = contents (i * disk.sectorSize + offset) := by
  obtain ⟨bytes', ok, equal⟩ := serves i inside
  rw [ok, Except.ok.injEq] at read
  rw [← read]
  exact equal offset small

/-- An entry that gets the bytes of its sector. -/
theorem CacheHolds.insert {cache : DiskStreamCache} (holds : CacheHolds disk sectors contents cache) {i : Nat}
    (low : i * disk.sectorSize < 2 ^ 31) {slot : CacheSlot}
    (inArrays : sectorSlot disk.sectorSize disk.startingLba i = some slot) {buf : Nat → Byte}
    (bytes : i < sectors → ∀ offset < disk.sectorSize, buf offset = contents (i * disk.sectorSize + offset))
    {after : DiskStreamCache} (inserts : ∀ other, after other = if other = slot then some buf else cache other) :
    CacheHolds disk sectors contents after := by
  intro other buf' isEntry
  rw [inserts] at isEntry
  by_cases here : other = slot
  · rw [if_pos here, Option.some.injEq] at isEntry
    rw [here, ← isEntry]
    exact ⟨i, low, inArrays, bytes⟩
  · rw [if_neg here] at isEntry
    exact holds other buf' isEntry

include allocates serves in
/-- **One turn of the loop**: the entry of the sector is found or made. It holds the sector, if the slot is
the sector's own. Only a sector behind the end of the disk stops the loop. -/
theorem readLoop_step {cache : DiskStreamCache} (holds : CacheHolds disk sectors contents cache) {i : Nat}
    (low : i * disk.sectorSize < 2 ^ 31) {slot : CacheSlot}
    (inArrays : sectorSlot disk.sectorSize disk.startingLba i = some slot) (fuel : Nat) (σ : ReadState)
    (entries : σ.cache = some cache) :
    ∃ cache' res', CacheHolds disk sectors contents cache' ∧
      ((sectors ≤ i ∧ diskstreamerReadLoop memory disk disk.sectorSize (fuel + 1) i σ =
          some { σ with cache := some cache', res := res' }) ∨
        ∃ buf : Nat → Byte,
          (OwnSlot disk.sectorSize disk.startingLba i → i < sectors → ∀ offset < disk.sectorSize,
            buf offset = contents (i * disk.sectorSize + offset)) ∧
          diskstreamerReadLoop memory disk disk.sectorSize (fuel + 1) i σ =
            diskstreamerReadLoop memory disk disk.sectorSize fuel (i + 1) (σ.turn disk.sectorSize cache' res' buf)) := by
  have slotEq := (sectorSlot_eq disk i).trans inArrays
  cases entry : cache slot with
  | some buf =>
      -- the entry is found, and its sector is this one if the slot is its own
      have found := cacheFind_entry memory slotEq entry
      rw [← entries] at found
      refine ⟨cache, σ.res, holds, Or.inr ⟨buf, fun own inside offset small => ?_, ?_⟩⟩
      · obtain ⟨j, lowOther, slotOther, bytes⟩ := holds slot buf entry
        have same := own j lowOther (slotOther.trans inArrays.symm)
        rw [same] at bytes
        exact bytes inside offset small
      · rw [readLoop_found fuel i σ found, entry, Option.getD_some]
  | none =>
      have found := cacheFind_new slotEq entry (allocates slot)
      rw [← entries] at found
      cases read : diskReadBlock disk i 1 with
      | error res' =>
          -- only a sector behind the end of the disk is not read; its entry stays as it was made
          have outside : sectors ≤ i := by
            by_contra inside
            obtain ⟨bytes, ok, _⟩ := serves i (not_le.mp inside)
            rw [ok] at read
            cases read
          exact ⟨_, res', holds.insert low inArrays (fun inside => absurd inside (not_lt.mpr outside)) fun _ => rfl,
            Or.inl ⟨outside, readLoop_failed fuel i σ found read⟩⟩
      | ok bytes =>
          have holdsBytes : i < sectors → ∀ offset < disk.sectorSize,
              readBuffer memory disk.sectorSize slot bytes offset = contents (i * disk.sectorSize + offset) := by
            intro inside offset small
            rw [readBuffer, if_pos small]
            exact diskReadBlock_bytes serves read inside small
          refine ⟨_, 0, holds.insert low inArrays holdsBytes (fillSector_new slot cache bytes),
            Or.inr ⟨readBuffer memory disk.sectorSize slot bytes, fun _ => holdsBytes, ?_⟩⟩
          rw [readLoop_new fuel i σ found read, fillSector_new, if_pos rfl, Option.getD_some]

include allocates serves in
/-- The loop keeps the entries. -/
theorem readLoop_holds (fuel : Nat) : ∀ {i : Nat} {σ : ReadState} {cache : DiskStreamCache}, σ.cache = some cache →
    CacheHolds disk sectors contents cache → (∀ j, i ≤ j → j < i + fuel → j * disk.sectorSize < 2 ^ 31) →
    ∀ {after : ReadState}, diskstreamerReadLoop memory disk disk.sectorSize fuel i σ = some after →
    ∃ cache', after.cache = some cache' ∧ CacheHolds disk sectors contents cache' := by
  induction fuel with
  | zero =>
      intro i σ cache entries holds _ after result
      rw [diskstreamerReadLoop, Option.some.injEq] at result
      exact ⟨cache, by rw [← result, entries], holds⟩
  | succ fuel hyp =>
      intro i σ cache entries holds low after result
      cases inArrays : sectorSlot disk.sectorSize disk.startingLba i with
      | none =>
          have outside := cacheFind_outside memory ((sectorSlot_eq disk i).trans inArrays) cache
          rw [← entries] at outside
          rw [readLoop_outside fuel i σ outside] at result
          cases result
      | some slot =>
          obtain ⟨cache', res', holds', turn⟩ := readLoop_step allocates serves holds (low i le_rfl (by omega)) inArrays
            fuel σ entries
          rcases turn with ⟨_, stops⟩ | ⟨buf, _, goesOn⟩
          · rw [stops, Option.some.injEq] at result
            exact ⟨cache', by rw [← result], holds'⟩
          · rw [goesOn] at result
            exact hyp rfl holds' (fun j after before => low j (by omega) (by omega)) result

/-- What the sectors from `i` on must be for a read that goes over `count` of them. -/
structure InArrays (disk : Disk) (i count : Nat) : Prop where
  low : ∀ j, i ≤ j → j < i + count → j * disk.sectorSize < 2 ^ 31
  slots : ∀ j, i ≤ j → j < i + count → (sectorSlot disk.sectorSize disk.startingLba j).isSome

theorem InArrays.first {disk : Disk} {i count : Nat} (inArrays : InArrays disk i (count + 1)) :
    i * disk.sectorSize < 2 ^ 31 ∧ ∃ slot, sectorSlot disk.sectorSize disk.startingLba i = some slot :=
  ⟨inArrays.low i le_rfl (by omega), Option.isSome_iff_exists.mp (inArrays.slots i le_rfl (by omega))⟩

theorem InArrays.rest {disk : Disk} {i count : Nat} (inArrays : InArrays disk i (count + 1)) :
    InArrays disk (i + 1) count :=
  ⟨fun j after before => inArrays.low j (by omega) (by omega),
    fun j after before => inArrays.slots j (by omega) (by omega)⟩

theorem turnAmount_le {sectorSize pos total : Nat} : turnAmount sectorSize pos total ≤ total := by
  unfold turnAmount
  by_cases fewer : total < sectorSize
  · rw [if_pos fewer]
  · rw [if_neg fewer]
    omega

include allocates serves in
/-- Turns with nothing left to read only look up sectors. -/
theorem readLoop_rest (positive : 0 < disk.sectorSize) (fuel : Nat) : ∀ {i : Nat} {cache : DiskStreamCache} {pos : Nat}
    (written : List Byte) (res : Int), CacheHolds disk sectors contents cache → InArrays disk i fuel → pos < 2 ^ 31 →
    ∃ σ, diskstreamerReadLoop memory disk disk.sectorSize fuel i ⟨0, pos, some cache, written, res⟩ = some σ ∧
      σ.written = written ∧ σ.pos = pos := by
  induction fuel with
  | zero =>
      intro i cache pos written res _ _ _
      exact ⟨_, rfl, rfl, rfl⟩
  | succ fuel hyp =>
      intro i cache pos written res holds inArrays small
      obtain ⟨low, slot, slotEq⟩ := inArrays.first
      obtain ⟨cache', res', holds', turn⟩ := readLoop_step allocates serves holds low slotEq fuel
        ⟨(0 : Nat), pos, some cache, written, res⟩ rfl
      rcases turn with ⟨_, stops⟩ | ⟨buf, _, goesOn⟩
      · exact ⟨_, stops, rfl, rfl⟩
      · have nothing : turnAmount disk.sectorSize pos 0 = 0 := Nat.le_zero.mp turnAmount_le
        rw [turn_eq positive (by omega) turnAmount_le, nothing] at goesOn
        obtain ⟨σ, result, same, position⟩ := hyp (written ++ []) res' holds' inArrays.rest small
        refine ⟨σ, ?_, ?_, position⟩
        · rw [← result]
          exact goesOn
        · rw [same, List.append_nil]

include allocates serves in
/-- **The loop delivers the bytes of the disk**: no turn leaves its sector, since a read shorter than a sector
lies in one, and a longer one is aligned after its first turn. -/
theorem readLoop_exact (positive : 0 < disk.sectorSize) (fuel : Nat) : ∀ {i : Nat} {cache : DiskStreamCache} (pos total : Nat)
    (written : List Byte) (res : Int), CacheHolds disk sectors contents cache → InArrays disk i fuel →
    pos + total < 2 ^ 31 → pos + total ≤ sectors * disk.sectorSize → 0 < total → pos / disk.sectorSize = i →
    (disk.sectorSize ≤ total ∨ pos % disk.sectorSize + total ≤ disk.sectorSize) →
    (∀ j, i ≤ j → j * disk.sectorSize < pos + total → OwnSlot disk.sectorSize disk.startingLba j) →
    pos + total ≤ (i + fuel) * disk.sectorSize →
    ∃ σ, diskstreamerReadLoop memory disk disk.sectorSize fuel i ⟨total, pos, some cache, written, res⟩ = some σ ∧
      σ.written = written ++ diskBytes contents pos total ∧ σ.pos = (pos + total : Nat) := by
  induction fuel with
  | zero =>
      intro i cache pos total written res _ _ _ _ something sector _ _ enough
      have behind : pos < (pos / disk.sectorSize + 1) * disk.sectorSize := Nat.lt_mul_of_div_lt (Nat.lt_succ_self _) positive
      have from_ := Nat.div_mul_le_self pos disk.sectorSize
      rw [sector, Nat.add_zero] at *
      omega
  | succ fuel hyp =>
      intro i cache pos total written res holds inArrays bound inside something sector oneSector own enough
      obtain ⟨low, slot, slotEq⟩ := inArrays.first
      have from_ : i * disk.sectorSize + pos % disk.sectorSize = pos := by
        rw [← sector, Nat.mul_comm]
        exact Nat.div_add_mod pos disk.sectorSize
      have onDisk : i < sectors := Nat.lt_of_mul_lt_mul_right (a := disk.sectorSize) (by omega)
      have offset := Nat.mod_lt pos positive
      obtain ⟨cache', res', holds', turn⟩ := readLoop_step allocates serves holds low slotEq fuel
        ⟨total, pos, some cache, written, res⟩ rfl
      rcases turn with ⟨outside, _⟩ | ⟨buf, bytes, goesOn⟩
      · exact absurd outside (not_le.mpr onDisk)
      · have bytes := bytes (own i le_rfl (by omega)) onDisk
        rw [turn_eq positive bound turnAmount_le] at goesOn
        -- the bytes of the turn lie in the sector
        have fits : pos % disk.sectorSize + turnAmount disk.sectorSize pos total ≤ disk.sectorSize := by
          unfold turnAmount
          split <;> omega
        have copied : ((List.range (turnAmount disk.sectorSize pos total)).map fun j => buf (pos % disk.sectorSize + j)) =
            diskBytes contents pos (turnAmount disk.sectorSize pos total) := by
          apply List.map_congr_left
          intro k isCopied
          have small := List.mem_range.mp isCopied
          rw [bytes _ (by omega), ← Nat.add_assoc, from_]
        rw [copied] at goesOn
        by_cases done : total - turnAmount disk.sectorSize pos total = 0
        · -- the rest of the turns copy nothing
          have all : turnAmount disk.sectorSize pos total = total := Nat.le_antisymm turnAmount_le (by omega)
          rw [all, Nat.sub_self] at goesOn
          obtain ⟨σ, result, same, position⟩ := readLoop_rest allocates serves positive fuel
            (written ++ diskBytes contents pos total) res' holds' inArrays.rest bound
          exact ⟨σ, goesOn.trans result, same, position⟩
        · -- the read goes on at the start of the next sector
          have amount : turnAmount disk.sectorSize pos total = disk.sectorSize - pos % disk.sectorSize := by
            unfold turnAmount at done ⊢
            split at done
            · omega
            · rw [if_neg ‹_›]
          have next : pos + turnAmount disk.sectorSize pos total = (i + 1) * disk.sectorSize := by
            rw [amount, Nat.add_mul]
            omega
          have aligned : ((i + 1) * disk.sectorSize) % disk.sectorSize = 0 := Nat.mul_mod_left _ _
          have sum : (i + 1) * disk.sectorSize + (total - turnAmount disk.sectorSize pos total) = pos + total := by
            rw [← next]
            have := @turnAmount_le disk.sectorSize pos total
            omega
          obtain ⟨σ, result, same, position⟩ := hyp ((i + 1) * disk.sectorSize)
            (total - turnAmount disk.sectorSize pos total)
              (written ++ diskBytes contents pos (turnAmount disk.sectorSize pos total))
            res' holds' inArrays.rest (by omega) (by omega) (by omega) (Nat.mul_div_cancel _ positive) (by omega)
            (fun j later before => own j (by omega) (by omega))
            (by rw [sum, Nat.add_assoc, Nat.add_comm 1]; exact enough)
          rw [next] at goesOn
          refine ⟨σ, goesOn.trans result, ?_, ?_⟩
          · have whole : turnAmount disk.sectorSize pos total + (total - turnAmount disk.sectorSize pos total) = total :=
              Nat.add_sub_cancel' turnAmount_le
            rw [same, List.append_assoc, ← next, diskBytes_append, whole]
          · rw [position, sum]

end Step

end PeachOS
