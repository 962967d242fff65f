/-
**Disk streams over a driver that fails.**

`diskstreamer_cache_find` makes the entry of a sector before `disk_read_block` reads it, and the entry stays
when the read fails. `StreamSession` are the runs of `diskstreamer_read` with every block read that the driver
was asked for:

* `loopRuns_of_result` — `readTurns` are the turns of the loop: what a call delivers is copied in them;
* `copiesDelivered_of_reachable` — as long as no call comes back to the slot of a sector that was not read, every
  copy is of data that the driver delivered;
* `failedRead_isCopied` — after a failed read, a later call delivers zeros.
-/

import PeachOS.Disk.Reads
import PeachOS.Lib.StepRun

namespace PeachOS

open StepRun

/-! ### The turns of a call -/

/-- A block read of the driver, of a sector of the disk. -/
structure BlockRead where
  sector : Nat
  outcome : Except Int (Nat → Byte)

/-- A copy out of the buffer of a sector. -/
structure SectorCopy where
  buf : Nat → Byte
  offset : Int
  amount : Int

def SectorCopy.bytes (copy : SectorCopy) : List Byte :=
  (List.range copy.amount.toNat).map fun j => copy.buf (copy.offset.toNat + j)

/-- A turn of the loop of `diskstreamer_read`: `asked` is the block read for a new entry. -/
structure ReadTurn where
  sector : Nat
  asked : Option (Except Int (Nat → Byte))
  copied : Option SectorCopy

/-- The copy of a turn. -/
def ReadState.sectorCopy (σ : ReadState) (sectorSize : Nat) (buf : Nat → Byte) : SectorCopy where
  buf := buf
  offset := σ.pos.tmod sectorSize
  amount := if σ.total < sectorSize then σ.total else sectorSize - σ.pos.tmod sectorSize

theorem turn_written (σ : ReadState) (sectorSize : Nat) (cache : DiskStreamCache) (res : Int) (buf : Nat → Byte) :
    (σ.turn sectorSize cache res buf).written = σ.written ++ (σ.sectorCopy sectorSize buf).bytes := rfl

/-- **The turns of `diskstreamerReadLoop`**, in order. -/
def readTurns (memory : CacheMemory) (disk : Disk) : (fuel i : Nat) → ReadState → List ReadTurn
  | 0, _, _ => []
  | fuel + 1, i, σ =>
      match diskstreamerCacheFind memory disk.sectorSize σ.cache (toInt32 (diskRealOffset disk i)) with
      | none => []
      | some (.error _) => []
      | some (.ok (isNew, slot, cache)) =>
          if isNew then
            match diskReadBlock disk i 1 with
            | .error res => [⟨i, some (.error res), none⟩]
            | .ok bytes =>
                let cache := cache.fillSector disk.sectorSize slot bytes
                let buf := (cache slot).getD (memory.newBuffer slot)
                ⟨i, some (.ok bytes), some (σ.sectorCopy disk.sectorSize buf)⟩ ::
                  readTurns memory disk fuel (i + 1) (σ.turn disk.sectorSize cache 0 buf)
          else
            let buf := (cache slot).getD (memory.newBuffer slot)
            ⟨i, none, some (σ.sectorCopy disk.sectorSize buf)⟩ ::
              readTurns memory disk fuel (i + 1) (σ.turn disk.sectorSize cache σ.res buf)

/-- The block reads of some turns. -/
def blockReads (turns : List ReadTurn) : List BlockRead :=
  turns.filterMap fun turn => turn.asked.map fun outcome => ⟨turn.sector, outcome⟩

/-- **How a loop runs**: it ends, its allocations fail, a block read fails, or a turn copies from a new or an old
entry. -/
inductive LoopRuns (memory : CacheMemory) (disk : Disk) : (fuel i : Nat) → ReadState → List ReadTurn → ReadState → Prop
  | ended {i : Nat} {σ : ReadState} : LoopRuns memory disk 0 i σ [] σ
  | noEntry {fuel i : Nat} {σ : ReadState} {res : Int} : LoopRuns memory disk (fuel + 1) i σ [] { σ with res := res }
  | failed {fuel i : Nat} {σ : ReadState} {cache : DiskStreamCache} {slot : CacheSlot} {res : Int}
      (entries : σ.cache = some cache) (inArrays : sectorSlot disk.sectorSize disk.startingLba i = some slot) :
      LoopRuns memory disk (fuel + 1) i σ [⟨i, some (.error res), none⟩]
        { σ with
          cache := some fun other => if other = slot then some (memory.newBuffer slot) else cache other, res := res }
  | read {fuel i : Nat} {σ after : ReadState} {cache cache' : DiskStreamCache} {slot : CacheSlot} {bytes buf : Nat → Byte}
      {turns : List ReadTurn} (entries : σ.cache = some cache)
      (inArrays : sectorSlot disk.sectorSize disk.startingLba i = some slot)
      (inserts : ∀ other, cache' other = if other = slot then some buf else cache other)
      (holds : ∀ offset < disk.sectorSize, buf offset = bytes offset)
      (rest : LoopRuns memory disk fuel (i + 1) (σ.turn disk.sectorSize cache' 0 buf) turns after) :
      LoopRuns memory disk (fuel + 1) i σ (⟨i, some (.ok bytes), some (σ.sectorCopy disk.sectorSize buf)⟩ :: turns) after
  | found {fuel i : Nat} {σ after : ReadState} {cache : DiskStreamCache} {slot : CacheSlot} {buf : Nat → Byte}
      {turns : List ReadTurn} (entries : σ.cache = some cache)
      (inArrays : sectorSlot disk.sectorSize disk.startingLba i = some slot) (entry : cache slot = some buf)
      (rest : LoopRuns memory disk fuel (i + 1) (σ.turn disk.sectorSize cache σ.res buf) turns after) :
      LoopRuns memory disk (fuel + 1) i σ (⟨i, none, some (σ.sectorCopy disk.sectorSize buf)⟩ :: turns) after

/-- An entry that is found or made is that of the sector. -/
theorem cacheFind_ok {memory : CacheMemory} {disk : Disk} {entries : Option DiskStreamCache} {i : Nat} {isNew : Bool}
    {slot : CacheSlot} {after : DiskStreamCache}
    (find : diskstreamerCacheFind memory disk.sectorSize entries (toInt32 (diskRealOffset disk i)) =
      some (.ok (isNew, slot, after))) :
    ∃ cache, entries = some cache ∧ sectorSlot disk.sectorSize disk.startingLba i = some slot ∧
      ((isNew = false ∧ (∃ buf, cache slot = some buf) ∧ after = cache) ∨
        (isNew = true ∧ after = fun other => if other = slot then some (memory.newBuffer slot) else cache other)) := by
  cases entries with
  | none => cases find
  | some cache =>
      refine ⟨cache, rfl, ?_⟩
      rw [diskstreamerCacheFind, sectorSlot_eq] at find
      cases inArrays : sectorSlot disk.sectorSize disk.startingLba i with
      | none =>
          rw [inArrays] at find
          cases find
      | some own =>
          simp only [inArrays] at find
          cases entry : cache own with
          | some buf =>
              rw [entry] at find
              cases find
              exact ⟨rfl, Or.inl ⟨rfl, ⟨buf, entry⟩, rfl⟩⟩
          | none =>
              simp only [entry] at find
              by_cases allocates : memory.allocated own < 0
              · rw [if_pos allocates] at find
                cases find
              · rw [if_neg allocates] at find
                cases find
                exact ⟨rfl, Or.inr ⟨rfl, rfl⟩⟩

theorem loopRuns_of_result {memory : CacheMemory} {disk : Disk} (fuel : Nat) : ∀ {i : Nat} {σ after : ReadState},
    diskstreamerReadLoop memory disk disk.sectorSize fuel i σ = some after →
    LoopRuns memory disk fuel i σ (readTurns memory disk fuel i σ) after := by
  induction fuel with
  | zero =>
      intro i σ after result
      rw [diskstreamerReadLoop, Option.some.injEq] at result
      rw [← result]
      exact .ended
  | succ fuel hyp =>
      intro i σ after result
      cases find : diskstreamerCacheFind memory disk.sectorSize σ.cache (toInt32 (diskRealOffset disk i)) with
      | none =>
          rw [readLoop_outside fuel i σ find] at result
          cases result
      | some outcome =>
          rcases outcome with res | ⟨isNew, slot, made⟩
          · rw [diskstreamerReadLoop, find, Option.some.injEq] at result
            rw [readTurns, find, ← result]
            exact .noEntry
          · obtain ⟨cache, entries, inArrays, entry⟩ := cacheFind_ok find
            rw [readTurns, find]
            rcases entry with ⟨rfl, ⟨buf, isEntry⟩, rfl⟩ | ⟨rfl, rfl⟩
            · rw [readLoop_found fuel i σ find] at result
              simp only [Bool.false_eq_true, if_false, isEntry, Option.getD_some] at result ⊢
              exact .found entries inArrays isEntry (hyp result)
            · cases read : diskReadBlock disk i 1 with
              | error res =>
                  rw [readLoop_failed fuel i σ find read, Option.some.injEq] at result
                  simp only [if_true]
                  rw [← result]
                  exact .failed entries inArrays
              | ok bytes =>
                  rw [readLoop_new fuel i σ find read, fillSector_new, if_pos rfl, Option.getD_some] at result
                  simp only [if_true, fillSector_new, Option.getD_some]
                  refine .read entries inArrays (fillSector_new slot cache bytes) (fun offset small => ?_) (hyp result)
                  rw [readBuffer, if_pos small]

/-- **What a call delivers** is copied in its turns. -/
theorem LoopRuns.written {memory : CacheMemory} {disk : Disk} {fuel i : Nat} {σ after : ReadState}
    {turns : List ReadTurn} (runs : LoopRuns memory disk fuel i σ turns after) :
    after.written = σ.written ++ turns.flatMap fun turn => (turn.copied.map SectorCopy.bytes).getD [] := by
  induction runs with
  | ended => exact (List.append_nil _).symm
  | noEntry => exact (List.append_nil _).symm
  | failed _ _ => exact (List.append_nil _).symm
  | read _ _ _ _ _ ih =>
      rw [ih, turn_written, List.flatMap_cons, List.append_assoc]
      rfl
  | found _ _ _ _ ih =>
      rw [ih, turn_written, List.flatMap_cons, List.append_assoc]
      rfl

/-- The turns of a loop are at its sectors, in order. -/
theorem LoopRuns.sectors {memory : CacheMemory} {disk : Disk} {fuel i : Nat} {σ after : ReadState}
    {turns : List ReadTurn} (runs : LoopRuns memory disk fuel i σ turns after) :
    ∀ turn ∈ turns, i ≤ turn.sector ∧ turn.sector < i + fuel := by
  induction runs with
  | ended => exact fun _ isTurn => absurd isTurn List.not_mem_nil
  | noEntry => exact fun _ isTurn => absurd isTurn List.not_mem_nil
  | failed _ _ =>
      intro turn isTurn
      rw [List.mem_singleton.mp isTurn]
      exact ⟨le_rfl, Nat.lt_add_of_pos_right (Nat.succ_pos _)⟩
  | read _ _ _ _ _ ih =>
      intro turn isTurn
      rcases List.mem_cons.mp isTurn with rfl | later
      · exact ⟨le_rfl, Nat.lt_add_of_pos_right (Nat.succ_pos _)⟩
      · have := ih turn later
        omega
  | found _ _ _ _ ih =>
      intro turn isTurn
      rcases List.mem_cons.mp isTurn with rfl | later
      · exact ⟨le_rfl, Nat.lt_add_of_pos_right (Nat.succ_pos _)⟩
      · have := ih turn later
        omega

/-! ### What the entries of a cache are -/

/-- Two sectors with one slot. -/
def SameSlot (disk : Disk) (first second : Nat) : Prop :=
  ∃ slot, sectorSlot disk.sectorSize disk.startingLba first = some slot ∧
    sectorSlot disk.sectorSize disk.startingLba second = some slot

/-- **Entries come from block reads**: an entry was made for a read of its slot, and holds what that read
delivered. Where the read failed, nothing is known of it. -/
def Recorded (disk : Disk) (entries : Option DiskStreamCache) (reads : List BlockRead) : Prop :=
  ∀ cache, entries = some cache → ∀ slot buf, cache slot = some buf →
    ∃ read ∈ reads, sectorSlot disk.sectorSize disk.startingLba read.sector = some slot ∧
      ∀ bytes, read.outcome = .ok bytes → ∀ offset < disk.sectorSize, buf offset = bytes offset

/-- **The driver delivered a buffer**: it has the bytes of a read of the sector. -/
def Delivered (sectorSize : Nat) (reads : List BlockRead) (sector : Nat) (buf : Nat → Byte) : Prop :=
  ∃ bytes, ⟨sector, .ok bytes⟩ ∈ reads ∧ ∀ offset < sectorSize, buf offset = bytes offset

section Entries

variable {disk : Disk} {reads : List BlockRead}

/-- A new entry, with the read it is made for. -/
theorem Recorded.insert {cache cache' : DiskStreamCache} (recorded : Recorded disk (some cache) reads) {i : Nat}
    {slot : CacheSlot} (inArrays : sectorSlot disk.sectorSize disk.startingLba i = some slot) {buf : Nat → Byte}
    (inserts : ∀ other, cache' other = if other = slot then some buf else cache other)
    (outcome : Except Int (Nat → Byte))
    (holds : ∀ bytes, outcome = .ok bytes → ∀ offset < disk.sectorSize, buf offset = bytes offset) :
    Recorded disk (some cache') (reads ++ [⟨i, outcome⟩]) := by
  intro same isCache other buf' isEntry
  rw [← Option.some.inj isCache, inserts] at isEntry
  by_cases here : other = slot
  · rw [if_pos here, Option.some.injEq] at isEntry
    rw [← isEntry, here]
    exact ⟨⟨i, outcome⟩, List.mem_append_right _ (List.mem_singleton_self _), inArrays, holds⟩
  · rw [if_neg here] at isEntry
    obtain ⟨read, isRead, agrees⟩ := recorded cache rfl other buf' isEntry
    exact ⟨read, List.mem_append_left _ isRead, agrees⟩

/-- **A call keeps the entries recorded**, failed or not. -/
theorem LoopRuns.recorded {memory : CacheMemory} {fuel i : Nat} {σ after : ReadState} {turns : List ReadTurn}
    (runs : LoopRuns memory disk fuel i σ turns after) :
    ∀ {reads : List BlockRead}, Recorded disk σ.cache reads → Recorded disk after.cache (reads ++ blockReads turns) := by
  induction runs with
  | ended =>
      intro reads recorded
      rwa [show blockReads [] = [] from rfl, List.append_nil]
  | noEntry =>
      intro reads recorded
      rwa [show blockReads [] = [] from rfl, List.append_nil]
  | failed entries inArrays =>
      intro reads recorded
      rw [entries] at recorded
      exact recorded.insert inArrays (fun _ => rfl) (.error _) fun bytes isOk => by cases isOk
  | @read _ _ _ _ _ _ _ bytes _ _ entries inArrays inserts holds rest ih =>
      intro reads recorded
      rw [entries] at recorded
      have after := ih (recorded.insert inArrays inserts (.ok bytes) fun _ isOk => Except.ok.inj isOk ▸ holds)
      rwa [List.append_assoc] at after
  | found entries inArrays entry rest ih =>
      intro reads recorded
      rw [entries] at recorded
      exact ih recorded

/-- **The copies of a call are of delivered data**, as long as all earlier reads of the slots of its sectors were
delivered reads of the sectors themselves. A failed read ends the call, so none of its own reads is in the way. -/
theorem LoopRuns.copies {memory : CacheMemory} {fuel i : Nat} {σ after : ReadState} {turns : List ReadTurn}
    (runs : LoopRuns memory disk fuel i σ turns after) : ∀ {reads : List BlockRead}, Recorded disk σ.cache reads →
    (∀ k, i ≤ k → k < i + fuel → ∀ read ∈ reads, SameSlot disk read.sector k →
      read.sector = k ∧ ∃ bytes, read.outcome = .ok bytes) →
    (∀ j k, i ≤ j → j < i + fuel → i ≤ k → k < i + fuel → SameSlot disk j k → j = k) →
    ∀ turn ∈ turns, ∀ copy, turn.copied = some copy →
      Delivered disk.sectorSize (reads ++ blockReads turns) turn.sector copy.buf := by
  induction runs with
  | ended => exact fun _ _ _ _ isTurn => absurd isTurn List.not_mem_nil
  | noEntry => exact fun _ _ _ _ isTurn => absurd isTurn List.not_mem_nil
  | failed _ _ =>
      intro reads _ _ _ turn isTurn copy copied
      rw [List.mem_singleton.mp isTurn] at copied
      cases copied
  | @read fuel i σ after cache cache' slot bytes buf turns entries inArrays inserts holds rest ih =>
      intro reads recorded clear apart turn isTurn copy copied
      rw [entries] at recorded
      have assoc : reads ++ [⟨i, .ok bytes⟩] ++ blockReads turns = reads ++ (⟨i, .ok bytes⟩ :: blockReads turns) :=
        List.append_assoc _ _ _
      rcases List.mem_cons.mp isTurn with rfl | later
      · cases copied
        exact ⟨bytes, List.mem_append_right _ List.mem_cons_self, holds⟩
      · have rest := ih (recorded.insert inArrays inserts (.ok bytes) fun _ isOk => Except.ok.inj isOk ▸ holds)
          (fun k from_ before read isRead same => ?_)
          (fun j k fromJ beforeJ fromK beforeK => apart j k (by omega) (by omega) (by omega) (by omega)) turn later copy copied
        · rwa [assoc] at rest
        · rcases List.mem_append.mp isRead with earlier | own
          · exact clear k (by omega) (by omega) read earlier same
          · -- the sector that was just read has no slot in common with a later one
            rw [List.mem_singleton.mp own] at same
            have := apart i k le_rfl (by omega) (by omega) (by omega) same
            omega
  | @found fuel i σ after cache slot buf turns entries inArrays entry rest ih =>
      intro reads recorded clear apart turn isTurn copy copied
      rw [entries] at recorded
      rcases List.mem_cons.mp isTurn with rfl | later
      · cases copied
        obtain ⟨read, isRead, slotEq, agrees⟩ := recorded cache rfl slot buf entry
        obtain ⟨same, bytes, isOk⟩ := clear i le_rfl (by omega) read isRead ⟨slot, slotEq, inArrays⟩
        refine ⟨bytes, List.mem_append_left _ ?_, agrees bytes isOk⟩
        rw [← same, ← isOk]
        exact isRead
      · exact ih recorded (fun k from_ before => clear k (by omega) (by omega))
          (fun j k fromJ beforeJ fromK beforeK => apart j k (by omega) (by omega) (by omega) (by omega)) turn later copy copied

end Entries

/-! ### Calls and their runs -/

/-- A call of `diskstreamer_read` at a position of the stream, with what the allocator and the driver do
during the call. -/
structure StreamCall where
  memory : CacheMemory
  read : Option (Nat → Nat → Except Int (Nat → Byte))
  pos : Nat
  isInt : pos < 2 ^ 31
  total : Int

/-- The cache of a disk, and every block read of the driver up to now. -/
structure StreamSession where
  cache : Option DiskStreamCache
  reads : List BlockRead

namespace StreamCall

variable (disk : Disk) (call : StreamCall)

/-- The disk, with the driver as it does during the call. -/
def diskOf : Disk := { disk with read := call.read }

/-- `starting_sector`. -/
def startingSector : Int := (alignedDown disk.sectorSize call.pos).tdiv disk.sectorSize

/-- `ending_sector`: the sector behind the read is looked up, too. -/
def endingSector : Int := (alignedUp disk.sectorSize (toInt32 (call.pos + call.total))).tdiv disk.sectorSize

/-- **The sectors of a call.** -/
def GoesOver (i : Nat) : Prop := call.startingSector disk ≤ i ∧ i ≤ call.endingSector disk

def run (σ : StreamSession) : Option ReadState :=
  diskstreamerRead call.memory (diskstreamerSeek (diskstreamerNewFromDisk (call.diskOf disk)) call.pos) σ.cache call.total

def turns (σ : StreamSession) : List ReadTurn :=
  readTurns call.memory (call.diskOf disk) (call.endingSector disk + 1 - call.startingSector disk).toNat
    (call.startingSector disk).toNat ⟨call.total, call.pos, σ.cache, [], 0⟩

/-- What the driver delivers are the sectors of a read-only disk. -/
def ReadsOnly (contents : Nat → Nat → Byte) : Prop :=
  ∀ read, call.read = some read → ∀ lba bytes, read lba 1 = .ok bytes → ∀ offset < disk.sectorSize,
    bytes offset = contents lba offset

end StreamCall

namespace StreamSession

/-- **One call** that returns. -/
def step (disk : Disk) (contents : Nat → Nat → Byte) (σ : StreamSession) (call : StreamCall) (σ' : StreamSession) : Prop :=
  call.ReadsOnly disk contents ∧ ∃ after, call.run disk σ = some after ∧
    σ' = ⟨after.cache, σ.reads ++ blockReads (call.turns disk σ)⟩

/-- Runs start with an empty cache, or with none when it could not be allocated. -/
def Initial (σ : StreamSession) : Prop := (σ.cache = none ∨ σ.cache = some fun _ => none) ∧ σ.reads = []

/-- **Every copy is of delivered data**: a call that returns success copies only from buffers with the data that
the driver delivered for their sectors, and takes no entry of a failed read for valid. -/
def CopiesDelivered (disk : Disk) (σ : StreamSession) (call : StreamCall) : Prop :=
  ∀ after, call.run disk σ = some after →
    (0 ≤ after.res → ∀ turn ∈ call.turns disk σ, ∀ copy, turn.copied = some copy → 0 < copy.amount →
      Delivered disk.sectorSize (σ.reads ++ blockReads (call.turns disk σ)) turn.sector copy.buf) ∧
    ∀ turn ∈ call.turns disk σ, turn.asked = none → ∀ read ∈ σ.reads, SameSlot disk read.sector turn.sector →
      ∃ bytes, read.outcome = .ok bytes

/-- **A call over clear slots**: every block read of a slot of one of its sectors was a read of that sector, and
succeeded. -/
def clearSlots (disk : Disk) (σ : StreamSession) (call : StreamCall) : Prop :=
  ∀ i, call.GoesOver disk i →
    (∀ read ∈ σ.reads, SameSlot disk read.sector i → read.sector = i ∧ ∃ bytes, read.outcome = .ok bytes) ∧
      ∀ j, call.GoesOver disk j → SameSlot disk j i → j = i

end StreamSession

section Calls

variable {disk : Disk} {contents : Nat → Nat → Byte} {σ σ' : StreamSession} {call : StreamCall}

theorem startingSector_nonneg (disk : Disk) (call : StreamCall) : 0 ≤ call.startingSector disk := by
  unfold StreamCall.startingSector
  rw [alignedDown_natCast call.isInt, ← Int.ofNat_tdiv]
  exact Int.natCast_nonneg _

theorem startingSector_toUInt32 (disk : Disk) (call : StreamCall) :
    toUInt32 (call.startingSector disk) = (call.startingSector disk).toNat := by
  have small := call.isInt
  have isSector : call.pos / disk.sectorSize * disk.sectorSize / disk.sectorSize ≤ call.pos :=
    (Nat.div_le_self _ _).trans (Nat.div_mul_le_self _ _)
  unfold StreamCall.startingSector
  rw [alignedDown_natCast small, ← Int.ofNat_tdiv, toUInt32_natCast (by omega), Int.toNat_natCast]

/-- The turns of a call are its loop. -/
theorem run_turns {after : ReadState} (result : call.run disk σ = some after) :
    LoopRuns call.memory (call.diskOf disk) (call.endingSector disk + 1 - call.startingSector disk).toNat
      (call.startingSector disk).toNat ⟨call.total, call.pos, σ.cache, [], 0⟩ (call.turns disk σ) after := by
  unfold StreamCall.run diskstreamerRead at result
  dsimp only [diskstreamerSeek, diskstreamerNewFromDisk] at result
  split at result
  · cases result
  · have starts : toUInt32 ((alignedDown disk.sectorSize call.pos).tdiv disk.sectorSize) = _ := startingSector_toUInt32 disk call
    simp only [StreamCall.diskOf] at result
    rw [starts] at result
    exact loopRuns_of_result _ result

/-- The turns of a call are at its sectors. -/
theorem goesOver_turns (disk : Disk) (call : StreamCall) :
    ∀ k, (call.startingSector disk).toNat ≤ k →
      k < (call.startingSector disk).toNat + (call.endingSector disk + 1 - call.startingSector disk).toNat →
      call.GoesOver disk k := by
  intro k from_ before
  have := startingSector_nonneg disk call
  exact ⟨by omega, by omega⟩

/-- **One call keeps the entries recorded.** -/
theorem recorded_step (recorded : Recorded disk σ.cache σ.reads) (taken : σ.step disk contents call σ') :
    Recorded disk σ'.cache σ'.reads := by
  obtain ⟨_, after, result, rfl⟩ := taken
  exact (run_turns result).recorded recorded

theorem recorded_of_reachable (reached : Reachable (StreamSession.step disk contents) StreamSession.Initial σ) :
    Recorded disk σ.cache σ.reads := by
  refine reached.invariant (fun σ => Recorded disk σ.cache σ.reads) (fun σ begins => ?_)
    fun σ call σ' recorded taken => recorded_step recorded taken
  intro cache isCache slot buf isEntry
  rcases begins.1 with none_ | empty
  · rw [none_] at isCache
    cases isCache
  · rw [empty, Option.some.injEq] at isCache
    rw [← isCache] at isEntry
    cases isEntry

end Calls

/-- **Every copy of a call is of delivered data**, in every run whose calls go over clear slots. -/
theorem copiesDelivered_of_reachable (disk : Disk) (contents : Nat → Nat → Byte) (σ : StreamSession)
    (reached : Reachable (Guarded (StreamSession.clearSlots disk) (StreamSession.step disk contents))
      StreamSession.Initial σ) (call : StreamCall) (clear : σ.clearSlots disk call) : σ.CopiesDelivered disk call := by
  intro after result
  have runs := run_turns result
  have inCall := goesOver_turns disk call
  refine ⟨fun _ turn isTurn copy copied _ => ?_, fun turn isTurn _ read isRead same => ?_⟩
  · exact runs.copies (recorded_of_reachable reached.of_guarded) (fun k from_ before => (clear k (inCall k from_ before)).1)
      (fun j k fromJ beforeJ fromK beforeK => (clear k (inCall k fromK beforeK)).2 j (inCall j fromJ beforeJ))
      turn isTurn copy copied
  · obtain ⟨from_, before⟩ := runs.sectors turn isTurn
    exact ((clear turn.sector (inCall _ from_ before)).1 read isRead same).2

/-! ### A failed read and a later call -/

/-- A disk with 512-byte sectors. -/
def plainDisk : Disk := ⟨512, 0, 0, none⟩

/-- The sectors of a disk of `0xFF`. -/
def fullSectors (_lba _offset : Nat) : Byte := 0xFF#8

/-- A session that has just begun. -/
def newSession : StreamSession := ⟨some fun _ => none, []⟩

/-- A call for the first four bytes of the disk. -/
def firstBytes (read : Nat → Nat → Except Int (Nat → Byte)) : StreamCall where
  memory := clearMemory
  read := some read
  pos := 0
  isInt := by decide
  total := 4

/-- A driver whose block reads succeed, and one whose block reads fail. -/
def workingDriver (_lba _total : Nat) : Except Int (Nat → Byte) := .ok fun _ => 0xFF#8

def failingDriver (_lba _total : Nat) : Except Int (Nat → Byte) := .error eio

theorem newSession_initial : StreamSession.Initial newSession := ⟨Or.inr rfl, rfl⟩

/-- A first call goes over clear slots. -/
theorem newSession_clear (read : Nat → Nat → Except Int (Nat → Byte)) :
    newSession.clearSlots plainDisk (firstBytes read) := by
  have ending : (firstBytes read).endingSector plainDisk = 1 := by
    change (alignedUp 512 (toInt32 (((0 : Nat) : Int) + 4))).tdiv 512 = 1
    decide
  refine fun i inCall => ⟨fun _ isRead => absurd isRead List.not_mem_nil, fun j overOther same => ?_⟩
  obtain ⟨-, lastI⟩ := inCall
  obtain ⟨-, lastJ⟩ := overOther
  rw [ending] at lastI lastJ
  obtain ⟨slot, slotJ, slotI⟩ := same
  have size : plainDisk.sectorSize = 512 := rfl
  have start : plainDisk.startingLba = 0 := rfl
  rw [size, start] at slotJ slotI
  exact ownSlot_whole (by decide) (by omega) j (by omega) (slotJ.trans slotI.symm)

/-- The copies of a first call. -/
theorem newSession_copiesDelivered :
    Reachable (Guarded (StreamSession.clearSlots plainDisk) (StreamSession.step plainDisk fullSectors))
        StreamSession.Initial newSession ∧
      newSession.clearSlots plainDisk (firstBytes workingDriver) ∧
      newSession.CopiesDelivered plainDisk (firstBytes workingDriver) :=
  ⟨.start newSession_initial, newSession_clear _,
    copiesDelivered_of_reachable plainDisk fullSectors newSession (.start newSession_initial) (firstBytes workingDriver)
      (newSession_clear _)⟩

/-- The session after a block read that failed. -/
def afterFailure : StreamSession :=
  ⟨((firstBytes failingDriver).run plainDisk newSession).bind (·.cache),
    blockReads ((firstBytes failingDriver).turns plainDisk newSession)⟩

theorem afterFailure_reached : Reachable (StreamSession.step plainDisk fullSectors) StreamSession.Initial afterFailure := by
  refine .next (firstBytes failingDriver) (.start newSession_initial) ⟨?_, ?_⟩
  · intro read isRead lba bytes delivered
    cases isRead
    cases delivered
  · have returns : ((firstBytes failingDriver).run plainDisk newSession).isSome := by decide +kernel
    obtain ⟨after, result⟩ := Option.isSome_iff_exists.mp returns
    refine ⟨after, result, ?_⟩
    unfold afterFailure
    rw [result]
    rfl

/-- **Zeros are delivered after a failed read**: the second call returns success, and copies from a buffer that no
block read of its sector has filled. -/
theorem failedRead_isCopied :
    ¬ (∀ (disk : Disk) (contents : Nat → Nat → Byte) (σ : StreamSession),
        Reachable (StreamSession.step disk contents) StreamSession.Initial σ → ∀ call : StreamCall,
        call.ReadsOnly disk contents → σ.CopiesDelivered disk call) ∧
      ((firstBytes workingDriver).run plainDisk afterFailure).map (fun after => (after.written, after.res)) =
        some ([0x00#8, 0x00#8, 0x00#8, 0x00#8], 0) := by
  refine ⟨fun all => ?_, by decide +kernel⟩
  have copies := all plainDisk fullSectors afterFailure afterFailure_reached (firstBytes workingDriver)
    (fun read isRead lba bytes delivered offset _ => by cases isRead; cases delivered; rfl)
  have returns : ((firstBytes workingDriver).run plainDisk afterFailure).any (fun after => decide (0 ≤ after.res)) := by
    decide +kernel
  obtain ⟨after, result, success⟩ := (Option.any_eq_true _ _).mp returns
  have first : ((firstBytes workingDriver).turns plainDisk afterFailure).head?.any
      (fun turn => decide (turn.sector = 0) && turn.copied.any fun copy => decide (0 < copy.amount)) := by decide +kernel
  obtain ⟨turn, isFirst, copied⟩ := (Option.any_eq_true _ _).mp first
  obtain ⟨sector, copied⟩ := Bool.and_eq_true_iff.mp copied
  obtain ⟨copy, isCopy, something⟩ := (Option.any_eq_true _ _).mp copied
  obtain ⟨bytes, isRead, -⟩ := (copies after result).1 (of_decide_eq_true success) turn (List.mem_of_mem_head? isFirst) copy
    isCopy (of_decide_eq_true something)
  -- the only read of sector 0 is the one that failed
  have outcomes : (afterFailure.reads ++ blockReads ((firstBytes workingDriver).turns plainDisk afterFailure)).map
      (fun read => (read.sector, read.outcome.toOption.isSome)) = [(0, false), (1, true)] := by decide +kernel
  have ok := List.mem_map_of_mem (f := fun read : BlockRead => (read.sector, read.outcome.toOption.isSome)) isRead
  rw [outcomes, of_decide_eq_true sector] at ok
  exact absurd ok (by simp [Except.toOption])

end PeachOS
