/-
**The partitions of a disk: `gpt_mount_partitions` of `disk/gpt.c`.**

The entries of the partition table are read one after another through a stream, from the byte that the table starts at.
That byte is cast to `int` for the stream, and both LBAs of an entry are an `int` on their way to the new disk.

* `forall₂_filterMap_iff` — two filtered lists agree exactly when their entries do, if one filter is weaker;
* `gptMountPartitionsLoop_reads` — the loop over entries that the stream reaches;
* `not_mountsTable_of_turn` — a turn that mounts something else;
* `gptMountPartitions_iff` — **which tables are mounted, entry by entry**, on every disk that has them.
-/

import PeachOS.Disk.EntryReads
import PeachOS.Disk.Partitions
import PeachOS.Lib.ByteStore
import Mathlib.Data.List.Forall2

namespace PeachOS

open ByteStore

/-! ### The code -/

/-- `struct gpt_partition_table_header`, as far as the table is mounted by it. -/
structure GptPartitionTableHeader where
  guidArrayLbaStart : Nat
  totalArrayEntries : Nat
  arrayEntrySize : Nat
  isUInt64 : guidArrayLbaStart < 2 ^ 64
  isUInt32 : totalArrayEntries < 2 ^ 32 ∧ arrayEntrySize < 2 ^ 32

/-- The `memcmp` of the GUID with zeros. -/
def guidEmpty (entry : Nat → Byte) : Prop := ∀ k < 16, entry k = 0x00#8

instance (entry : Nat → Byte) : Decidable (guidEmpty entry) := inferInstanceAs (Decidable (∀ k < 16, entry k = 0x00#8))

/-- `starting_lba` and `ending_lba` of the entry in a buffer. -/
def gptPartitionEntry (buffer : Nat → Byte) : GptPartitionEntry where
  startingLba := readWord buffer 32 8
  endingLba := readWord buffer 40 8

/-- The stream on the primary disk, the cache of that disk, the disks made up to now and the result. -/
structure GptMount where
  stream : DiskStream
  cache : Option DiskStreamCache
  partitions : List Disk
  res : Int

/-- A turn of the loop of `gpt_mount_partitions`. The buffer has what was on the stack where nothing is read into it;
`disk_filesystem_mount` returns 0 and leaves the LBAs as they are. -/
def gptMountEntry (memory : CacheMemory) (gptPrimaryDisk : Disk) (entrySize : Nat) (stack : Nat → Byte) (σ : GptMount) :
    Option GptMount :=
  (diskstreamerRead memory σ.stream σ.cache (toInt32 entrySize)).map fun read =>
    let σ := { σ with stream := { σ.stream with pos := read.pos }, cache := read.cache, res := read.res }
    let buffer := fun k => read.written.getD k (stack k)
    if read.res < 0 then σ
    else if guidEmpty buffer then σ
    else { σ with partitions := σ.partitions ++ [gptMountPartition gptPrimaryDisk (gptPartitionEntry buffer)], res := 0 }

/-- The loop, from entry `i` on with `fuel` entries left. -/
def gptMountPartitionsLoop (memory : CacheMemory) (gptPrimaryDisk : Disk) (entrySize : Nat) (stack : Nat → Nat → Byte) :
    (fuel i : Nat) → GptMount → Option GptMount
  | 0, _, σ => some σ
  | fuel + 1, i, σ =>
      (gptMountEntry memory gptPrimaryDisk entrySize (stack i) σ).bind fun σ =>
        if σ.res < 0 then some σ else gptMountPartitionsLoop memory gptPrimaryDisk entrySize stack fuel (i + 1) σ

/-- `gpt_mount_partitions`. -/
def gptMountPartitions (memory : CacheMemory) (gptPrimaryDisk : Disk) (stack : Nat → Nat → Byte) (cache : Option DiskStreamCache)
    (partitionHeader : GptPartitionTableHeader) : Option GptMount :=
  let startingByte := toWord ((partitionHeader.guidArrayLbaStart * gptPrimaryDisk.sectorSize : Nat) : Int)
  gptMountPartitionsLoop memory gptPrimaryDisk partitionHeader.arrayEntrySize stack partitionHeader.totalArrayEntries 0
    ⟨diskstreamerSeek (diskstreamerNewFromDisk gptPrimaryDisk) (toInt32 startingByte), cache, [], 0⟩

/-! ### The statement -/

/-- The bytes of entry `i` of a table. -/
def tableEntry (header : GptPartitionTableHeader) (table : Nat → Byte) (i : Nat) (k : Nat) : Byte :=
  table (i * header.arrayEntrySize + k)

/-- **The used entries**, in order. -/
def usedEntries (header : GptPartitionTableHeader) (table : Nat → Byte) : List GptPartitionEntry :=
  (List.range header.totalArrayEntries).filterMap fun i =>
    if guidEmpty (tableEntry header table i) then none else some (gptPartitionEntry (tableEntry header table i))

/-- **The disk of an entry**: it has its LBAs, and a request for sectors of the entry that is not refused goes to the driver at
these sectors. Which ones are refused is what `readsOwnSectors_iff` is about. -/
structure PartitionOf (primary : Disk) (entry : GptPartitionEntry) (disk : Disk) : Prop where
  startingLba : disk.startingLba = entry.startingLba
  endingLba : disk.endingLba = entry.endingLba
  reads : ∀ lba total, lba < 2 ^ 32 → 1 ≤ total → total < 2 ^ 31 → entry.startingLba + lba + total ≤ entry.endingLba + 1 →
    ∀ read, primary.read = some read →
      diskReadBlock disk lba total = .error eio ∨ diskReadBlock disk lba total = read (entry.startingLba + lba) total

/-- **A table is mounted**: on every disk that has it, each used entry gets one disk, in order. -/
def MountsTable (header : GptPartitionTableHeader) (table : Nat → Byte) : Prop :=
  ∀ (memory : CacheMemory) (stack : Nat → Nat → Byte) (primary : Disk) (contents : Nat → Byte) (cache : DiskStreamCache),
    IsPrimary primary contents → (∀ slot, 0 ≤ memory.allocated slot) → CacheCoherent primary contents cache →
    (∀ k < header.totalArrayEntries * header.arrayEntrySize, contents (header.guidArrayLbaStart * 512 + k) = table k) →
    ∃ σ, gptMountPartitions memory primary stack (some cache) header = some σ ∧ 0 ≤ σ.res ∧
      List.Forall₂ (PartitionOf primary) (usedEntries header table) σ.partitions

/-- An LBA that is the same after it was an `int`. -/
def FitsInt (lba : Nat) : Prop := lba < 2 ^ 31 ∨ 2 ^ 64 - 2 ^ 31 ≤ lba

/-- **The LBAs of an entry fit**: both are the same after they were an `int`, and no request that is served gets beyond the
32 bits of a driver: the end is small, or the start is sector 0, or there is no sector before the last one. -/
structure LbasFit (entry : GptPartitionEntry) : Prop where
  startingLba : FitsInt entry.startingLba
  endingLba : FitsInt entry.endingLba
  low : entry.endingLba < 2 ^ 31 ∨ entry.startingLba = 0 ∨ entry.endingLba < entry.startingLba ∨
    (entry.startingLba = entry.endingLba ∧ entry.endingLba ≠ 2 ^ 64 - 1)

/-- **A short entry has nothing behind its sector**: if it is smaller than a sector and crosses the end of one, its GUID has a
byte before the end that is not zero, and the low four bytes of the LBAs behind the end are zero. -/
def EntryWhole (pos entrySize : Nat) (entry : Nat → Byte) : Prop :=
  entrySize < 512 → (∃ k < 16, pos % 512 + k < 512 ∧ entry k ≠ 0x00#8) ∧
    ∀ lba ∈ [32, 40], ∀ k < 4, 512 ≤ pos % 512 + (lba + k) → entry (lba + k) = 0x00#8

/-- **What is mounted**: tables that end before byte `2 ^ 31` of the disk, up to a sector, with LBAs that fit. -/
structure TableFits (header : GptPartitionTableHeader) (table : Nat → Byte) : Prop where
  inReach : header.totalArrayEntries = 0 ∨
    alignedEnd 512 (header.guidArrayLbaStart * 512 + header.totalArrayEntries * header.arrayEntrySize) < 2 ^ 31
  entries : ∀ i < header.totalArrayEntries, ¬ guidEmpty (tableEntry header table i) →
    EntryWhole (header.guidArrayLbaStart * 512 + i * header.arrayEntrySize) header.arrayEntrySize (tableEntry header table i) ∧
      LbasFit (gptPartitionEntry (tableEntry header table i))

/-! ### Filtered lists -/

/-- **Two filtered lists agree exactly when their entries do**, if the second filter keeps nothing that the first does not. -/
theorem forall₂_filterMap_iff {α β γ : Type*} {R : β → γ → Prop} {f : α → Option β} {g : α → Option γ} {l : List α}
    (only : ∀ a ∈ l, (g a).isSome → (f a).isSome) :
    List.Forall₂ R (l.filterMap f) (l.filterMap g) ↔ ∀ a ∈ l, ∀ b, f a = some b → ∃ c, g a = some c ∧ R b c := by
  induction l with
  | nil => exact iff_of_true .nil fun a isIn => absurd isIn List.not_mem_nil
  | cons a rest ih =>
      have onlyRest : ∀ a ∈ rest, (g a).isSome → (f a).isSome := fun a isIn => only a (List.mem_cons_of_mem _ isIn)
      have fewer : (rest.filterMap g).length ≤ (rest.filterMap f).length := by
        rw [List.length_filterMap_eq_countP, List.length_filterMap_eq_countP]
        exact List.countP_mono_left onlyRest
      rw [List.forall_mem_cons, List.filterMap_cons, List.filterMap_cons]
      cases first : f a with
      | none =>
          cases second : g a with
          | none =>
              rw [ih onlyRest]
              exact ⟨fun all => ⟨by simp, all⟩, fun ⟨_, all⟩ => all⟩
          | some c =>
              have kept := only a List.mem_cons_self (by rw [second]; rfl)
              rw [first] at kept
              cases kept
      | some b =>
          cases second : g a with
          | none =>
              -- the second list is shorter
              refine iff_of_false (fun same => ?_) fun ⟨all, _⟩ => ?_
              · have lengths := same.length_eq
                simp only [List.length_cons] at lengths
                omega
              · obtain ⟨c, isSome, _⟩ := all b rfl
                cases isSome
          | some c =>
              simp only [List.forall₂_cons, ih onlyRest, Option.some.injEq, forall_eq', exists_eq_left']

/-! ### The disk of an entry -/

theorem fitsInt_iff {lba read : Nat} (word : lba < 2 ^ 64) :
    toWord (toInt32 read) = lba ↔ FitsInt lba ∧ read % 2 ^ 32 = lba % 2 ^ 32 := by
  have low := (toWord_emod (toInt32 read)).trans (toInt32_emod read)
  obtain ⟨least, most⟩ := toInt32_bounds read
  unfold FitsInt
  generalize toInt32 read = value at *
  unfold toWord at *
  omega

theorem readLba_lt (buffer : Nat → Byte) (lba : Nat) : readWord buffer lba 8 < 2 ^ 64 :=
  lt_of_lt_of_eq readWord_lt (by norm_num)

theorem readLba_low (buffer : Nat → Byte) (lba : Nat) : readWord buffer lba 8 % 2 ^ 32 = readWord buffer lba 4 := by
  rw [← readWord_mod buffer lba 4 4]
  norm_num

/-- The disk of an entry has the LBAs of another one exactly when these fit, and the low four bytes of both are equal. -/
theorem gptMountPartition_lbas {primary : Disk} {read entry : Nat → Byte} :
    ((gptMountPartition primary (gptPartitionEntry read)).startingLba = (gptPartitionEntry entry).startingLba ∧
        (gptMountPartition primary (gptPartitionEntry read)).endingLba = (gptPartitionEntry entry).endingLba) ↔
      FitsInt (gptPartitionEntry entry).startingLba ∧ FitsInt (gptPartitionEntry entry).endingLba ∧
        ∀ lba ∈ [32, 40], ∀ k < 4, read (lba + k) = entry (lba + k) := by
  have low : ∀ lba, readWord read lba 8 % 2 ^ 32 = readWord entry lba 8 % 2 ^ 32 ↔ ∀ k < 4, read (lba + k) = entry (lba + k) := by
    intro lba
    rw [readLba_low, readLba_low]
    exact ⟨readWord_injective, readWord_congr⟩
  rw [gptMountPartition_startingLba, gptMountPartition_endingLba]
  simp only [gptPartitionEntry, fitsInt_iff (readLba_lt entry _), low, List.forall_mem_cons, List.not_mem_nil,
    false_imp_iff, implies_true, and_true]
  exact ⟨fun ⟨⟨first, low⟩, second, low'⟩ => ⟨first, second, low, low'⟩,
    fun ⟨first, second, low, low'⟩ => ⟨⟨first, low⟩, second, low'⟩⟩

section Requests

variable {primary disk : Disk} {entry : GptPartitionEntry}

/-- **Requests to the disk of an entry that fits** go to the sectors of the entry. -/
theorem LbasFit.partitionOf (fit : LbasFit entry) (starts : disk.startingLba = entry.startingLba)
    (ends : disk.endingLba = entry.endingLba) (driver : disk.read = primary.read) (word : entry.endingLba < 2 ^ 64) :
    PartitionOf primary entry disk := by
  refine ⟨starts, ends, fun lba total someLba something someTotal inside read isRead => ?_⟩
  rw [diskReadBlock_read lba total (driver.trans isRead), starts, ends]
  have same : entry.endingLba < 2 ^ 31 ∨ entry.startingLba = 0 →
      toWord ((entry.startingLba : Int) + lba) % 2 ^ 32 = entry.startingLba + lba := by
    unfold toWord
    omega
  rcases fit.low with small | zero | empty | ⟨single, notLast⟩
  · rw [same (Or.inl small)]
    split
    · exact Or.inl rfl
    · exact Or.inr rfl
  · rw [same (Or.inr zero)]
    split
    · exact Or.inl rfl
    · exact Or.inr rfl
  · omega
  · by_cases isZero : entry.startingLba = 0
    · rw [same (Or.inr isZero)]
      split
      · exact Or.inl rfl
      · exact Or.inr rfl
    · -- The only sector is the last one, which is refused.
      refine Or.inl (if_pos ⟨?_, isZero, by omega⟩)
      unfold toWord
      omega

/-- A disk that has every sector, and fails for those that a driver cannot name. -/
def namedDisk (contents : Nat → Byte) : Disk where
  sectorSize := 512
  startingLba := 0
  endingLba := 0
  read := some fun lba _ => if lba < 2 ^ 32 then .ok fun offset => contents (lba * 512 + offset) else .error (-1)

theorem namedDisk_primary (contents : Nat → Byte) : IsPrimary (namedDisk contents) contents where
  sectorSize := rfl
  startingLba := rfl
  endingLba := rfl
  serves := by
    intro i inside
    have lba : toWord (((namedDisk contents).startingLba : Int) + i) % 2 ^ 32 = i := by
      unfold toWord namedDisk
      dsimp only
      omega
    refine ⟨fun offset => contents (i * 512 + offset), ?_, fun _ _ => rfl⟩
    rw [diskReadBlock_read i 1 rfl, lba, if_neg (fun ⟨_, nonzero, _⟩ => nonzero rfl), if_pos inside]

/-- **Requests to the other disks** get to a sector that is none of the entry. -/
theorem lbasFit_of_partitionOf {contents : Nat → Byte} (isPartition : PartitionOf (namedDisk contents) entry disk)
    (driver : disk.read = (namedDisk contents).read) (starting : FitsInt entry.startingLba) (ending : FitsInt entry.endingLba)
    (words : entry.startingLba < 2 ^ 64 ∧ entry.endingLba < 2 ^ 64) : LbasFit entry := by
  refine ⟨starting, ending, ?_⟩
  by_contra high
  simp only [not_or, not_lt, not_and, ne_eq, not_not] at high
  obtain ⟨large, nonzero, order, single⟩ := high
  have served : ∀ lba, lba < 2 ^ 32 → entry.startingLba + lba + 1 ≤ entry.endingLba + 1 → 2 ^ 32 ≤ entry.startingLba + lba →
      ¬ toWord ((toWord ((entry.startingLba : Int) + lba) : Int) + (1 : Nat)) > entry.endingLba → False := by
    intro lba someLba inside beyond notRefused
    rcases isPartition.reads lba 1 someLba le_rfl (by decide) inside _ rfl with refused | read
    · rw [diskReadBlock_read lba 1 driver, isPartition.startingLba, isPartition.endingLba,
        if_neg (fun ⟨refuses, _⟩ => notRefused refuses), if_pos (Nat.mod_lt _ (by decide))] at refused
      cases refused
    · rw [diskReadBlock_read lba 1 driver, isPartition.startingLba, isPartition.endingLba,
        if_neg (fun ⟨refuses, _⟩ => notRefused refuses), if_pos (Nat.mod_lt _ (by decide)), if_neg (not_lt.mpr beyond)] at read
      cases read
  unfold FitsInt at starting ending
  by_cases small : entry.startingLba < 2 ^ 31
  · -- a request over the start of sector 2 ^ 32
    refine served (2 ^ 32 - entry.startingLba) (by omega) (by omega) (by omega) ?_
    unfold toWord
    omega
  · refine served 0 (by decide) (by omega) (by omega) ?_
    unfold toWord
    by_cases last : entry.startingLba = entry.endingLba
    · have := single last
      omega
    · omega

end Requests

/-! ### Turns of the loop -/

/-- The disk that is made for an entry, if it is used. -/
def mountedPartition (primary : Disk) (entry : Nat → Byte) : Option Disk :=
  if guidEmpty entry then none else some (gptMountPartition primary (gptPartitionEntry entry))

theorem guidEmpty_congr {first second : Nat → Byte} (same : ∀ k < 16, first k = second k) :
    guidEmpty first ↔ guidEmpty second :=
  forall₂_congr fun k small => by rw [same k small]

/-- Only the GUID and the LBAs of an entry matter. -/
theorem mountedPartition_congr (primary : Disk) {first second : Nat → Byte} (same : ∀ k < 48, first k = second k) :
    mountedPartition primary first = mountedPartition primary second := by
  have lbas : gptPartitionEntry first = gptPartitionEntry second := by
    unfold gptPartitionEntry
    rw [readWord_congr fun offset inside => same (32 + offset) (by omega),
      readWord_congr fun offset inside => same (40 + offset) (by omega)]
  unfold mountedPartition
  rw [lbas]
  exact if_congr (guidEmpty_congr fun k small => same k (by omega)) rfl rfl

section Turns

variable {memory : CacheMemory} {primary : Disk} {entrySize : Nat} {stack : Nat → Byte} {σ σ' : GptMount} {read : ReadState}

/-- A turn whose read succeeds. -/
theorem gptMountEntry_read (isRead : diskstreamerRead memory σ.stream σ.cache (toInt32 entrySize) = some read)
    (success : read.res = 0) {entry : Nat → Byte} (bytes : ∀ k < 48, read.written.getD k (stack k) = entry k) :
    gptMountEntry memory primary entrySize stack σ =
      some ⟨{ σ.stream with pos := read.pos }, read.cache, σ.partitions ++ (mountedPartition primary entry).toList, 0⟩ := by
  rw [← mountedPartition_congr primary bytes, gptMountEntry, isRead, Option.map_some, if_neg (by omega), mountedPartition]
  split
  · rw [success, Option.toList_none, List.append_nil]
  · rw [Option.toList_some]

/-- **What a turn does**: it fails, or the disk of its buffer is the next one. -/
theorem gptMountEntry_cases (result : gptMountEntry memory primary entrySize stack σ = some σ') :
    ∃ read, diskstreamerRead memory σ.stream σ.cache (toInt32 entrySize) = some read ∧
      (σ'.res < 0 ∨ σ'.partitions = σ.partitions ++
        (mountedPartition primary fun k => read.written.getD k (stack k)).toList) := by
  rw [gptMountEntry, Option.map_eq_some_iff] at result
  obtain ⟨read, isRead, turn⟩ := result
  refine ⟨read, isRead, ?_⟩
  rw [← turn, mountedPartition]
  by_cases fails : read.res < 0
  · rw [if_pos fails]
    exact Or.inl fails
  · rw [if_neg fails]
    refine Or.inr ?_
    split
    · rw [Option.toList_none, List.append_nil]
    · rw [Option.toList_some]

/-- Disks are only added. -/
theorem gptMountPartitionsLoop_appends {stack : Nat → Nat → Byte} (fuel : Nat) : ∀ {i : Nat} {σ after : GptMount},
    gptMountPartitionsLoop memory primary entrySize stack fuel i σ = some after → 0 ≤ after.res →
    ∃ more, after.partitions = σ.partitions ++ more := by
  induction fuel with
  | zero =>
      intro i σ after result _
      rw [gptMountPartitionsLoop, Option.some.injEq] at result
      exact ⟨[], by rw [← result, List.append_nil]⟩
  | succ fuel ih =>
      intro i σ after result success
      rw [gptMountPartitionsLoop, Option.bind_eq_some_iff] at result
      obtain ⟨next, turn, result⟩ := result
      by_cases fails : next.res < 0
      · rw [if_pos fails, Option.some.injEq] at result
        rw [← result] at success
        omega
      · rw [if_neg fails] at result
        obtain ⟨more, rest⟩ := ih result success
        obtain ⟨read, -, failed | added⟩ := gptMountEntry_cases turn
        · exact absurd failed fails
        · exact ⟨_, by rw [rest, added, List.append_assoc]⟩

end Turns

/-! ### The entries that the stream reaches -/

section Runs

variable {memory : CacheMemory} {primary : Disk} {contents : Nat → Byte} {header : GptPartitionTableHeader}
  (isPrimary : IsPrimary primary contents) (allocates : ∀ slot, 0 ≤ memory.allocated slot)
  (entrySize : 128 ≤ header.arrayEntrySize) (stack : Nat → Nat → Byte)

/-- The byte of the disk that entry `i` starts at. -/
def entryPos (header : GptPartitionTableHeader) (i : Nat) : Nat := header.guidArrayLbaStart * 512 + i * header.arrayEntrySize

/-- Entry `i` as the stream delivers it. -/
def entryRead (header : GptPartitionTableHeader) (contents : Nat → Byte) (i : Nat) : Nat → Byte :=
  deliveredByte contents (entryPos header i) header.arrayEntrySize

theorem entryPos_succ (header : GptPartitionTableHeader) (i : Nat) :
    entryPos header (i + 1) = entryPos header i + header.arrayEntrySize := by
  rw [entryPos, entryPos, Nat.succ_mul, Nat.add_assoc]

include isPrimary allocates entrySize in
/-- **The loop over entries that the stream reaches**: each one that is used as it is read gets a disk. -/
theorem gptMountPartitionsLoop_reads (fuel : Nat) : ∀ (i : Nat) {cache : DiskStreamCache} (rest : Nat) (partitions : List Disk),
    CacheCoherent primary contents cache → (∀ j, i ≤ j → j < i + fuel → alignedEnd 512 (entryPos header (j + 1)) < 2 ^ 31) →
    ∃ cache', CacheCoherent primary contents cache' ∧
      gptMountPartitionsLoop memory primary header.arrayEntrySize stack (fuel + rest) i
          ⟨diskstreamerSeek (diskstreamerNewFromDisk primary) (entryPos header i), some cache, partitions, 0⟩ =
        gptMountPartitionsLoop memory primary header.arrayEntrySize stack rest (i + fuel)
          ⟨diskstreamerSeek (diskstreamerNewFromDisk primary) (entryPos header (i + fuel)), some cache',
            partitions ++ (List.range' i fuel).filterMap fun j => mountedPartition primary (entryRead header contents j), 0⟩ := by
  induction fuel with
  | zero =>
      intro i cache rest partitions coherent _
      refine ⟨cache, coherent, ?_⟩
      rw [List.range'_zero, List.filterMap_nil, List.append_nil, Nat.zero_add, Nat.add_zero]
  | succ fuel ih =>
      intro i cache rest partitions coherent inReach
      have fits := inReach i le_rfl (by omega)
      rw [entryPos_succ] at fits
      obtain ⟨end_, -⟩ := @alignedEnd_bounds 512 (by decide) (entryPos header i + header.arrayEntrySize)
      obtain ⟨read, cache', isRead, success, entries, coherent', position, written⟩ :=
        diskstreamerRead_bytes isPrimary allocates coherent (by omega) fits (by omega)
      have isLength : toInt32 (header.arrayEntrySize : Int) = header.arrayEntrySize := toInt32_of_bounds (by omega) (by omega)
      have turn := @gptMountEntry_read memory primary header.arrayEntrySize (stack i)
        ⟨diskstreamerSeek (diskstreamerNewFromDisk primary) (entryPos header i), some cache, partitions, 0⟩ read
        (by rw [isLength]; exact isRead) success (entryRead header contents i) (fun k small => by
          rw [written, List.getD_eq_getElem?_getD, List.getElem?_map, List.getElem?_range (by omega)]
          rfl)
      obtain ⟨cache'', coherent'', goesOn⟩ := ih (i + 1) rest
        (partitions ++ (mountedPartition primary (entryRead header contents i)).toList) coherent'
        fun j after before => inReach j (by omega) (by omega)
      refine ⟨cache'', coherent'', ?_⟩
      rw [Nat.succ_add, gptMountPartitionsLoop, turn, Option.bind_some]
      dsimp only
      rw [if_neg (by decide), entries, position, ← entryPos_succ]
      refine goesOn.trans ?_
      rw [List.range'_succ, List.filterMap_cons, Nat.add_right_comm i 1 fuel, List.append_assoc]
      cases mountedPartition primary (entryRead header contents i) <;> rfl

end Runs

/-! ### The entries as they are read -/

section Entries

variable {contents table : Nat → Byte} {header : GptPartitionTableHeader}

/-- **What is read of an entry**: its bytes, but zeros behind the sector of a short one. -/
theorem entryRead_eq
    (isTable : ∀ k < header.totalArrayEntries * header.arrayEntrySize, contents (header.guidArrayLbaStart * 512 + k) = table k)
    {i k : Nat} (isEntry : i < header.totalArrayEntries) (inside : k < header.arrayEntrySize) :
    entryRead header contents i k =
      if header.arrayEntrySize < 512 ∧ 512 ≤ entryPos header i % 512 + k then 0x00#8 else tableEntry header table i k := by
  have inTable : i * header.arrayEntrySize + k < header.totalArrayEntries * header.arrayEntrySize := by
    have next := Nat.mul_le_mul_right header.arrayEntrySize (Nat.succ_le_of_lt isEntry)
    rw [Nat.succ_mul] at next
    omega
  rw [entryRead, deliveredByte, entryPos, Nat.add_assoc (header.guidArrayLbaStart * 512), isTable _ inTable, tableEntry]

/-- **A short entry has nothing behind its sector** exactly when it is used as it is read, with the same LBAs. -/
theorem entryWhole_iff {pos entrySize : Nat} {read entry : Nat → Byte} (used : ¬ guidEmpty entry)
    (isRead : ∀ k < 48, read k = if entrySize < 512 ∧ 512 ≤ pos % 512 + k then 0x00#8 else entry k) :
    EntryWhole pos entrySize entry ↔ ¬ guidEmpty read ∧ ∀ lba ∈ [32, 40], ∀ k < 4, read (lba + k) = entry (lba + k) := by
  have lbaLow : ∀ lba ∈ [32, 40], ∀ k < 4, lba + k < 48 := by
    intro lba isLba k small
    simp only [List.mem_cons, List.not_mem_nil, or_false] at isLba
    omega
  by_cases short : entrySize < 512
  · simp only [short, true_and] at isRead
    constructor
    · intro whole
      obtain ⟨⟨k, small, before, nonzero⟩, zeros⟩ := whole short
      refine ⟨fun empty => nonzero ?_, fun lba isLba k small => ?_⟩
      · have byte := isRead k (by omega)
        rw [if_neg (by omega), empty k small] at byte
        exact byte.symm
      · rw [isRead _ (lbaLow lba isLba k small)]
        by_cases behind : 512 ≤ pos % 512 + (lba + k)
        · rw [if_pos behind, zeros lba isLba k small behind]
        · rw [if_neg behind]
    · rintro ⟨usedRead, same⟩ _
      refine ⟨?_, fun lba isLba k small behind => ?_⟩
      · unfold guidEmpty at usedRead
        push Not at usedRead
        obtain ⟨k, small, nonzero⟩ := usedRead
        rw [isRead k (by omega)] at nonzero
        by_cases behind : 512 ≤ pos % 512 + k
        · rw [if_pos behind] at nonzero
          exact absurd rfl nonzero
        · rw [if_neg behind] at nonzero
          exact ⟨k, small, by omega, nonzero⟩
      · rw [← same lba isLba k small, isRead _ (lbaLow lba isLba k small), if_pos behind]
  · simp only [short, false_and, if_false] at isRead
    refine iff_of_true (fun isShort => absurd isShort short) ⟨fun empty => used ?_, fun lba isLba k small => ?_⟩
    · exact (guidEmpty_congr fun k small => isRead k (by omega)).mp empty
    · exact isRead _ (lbaLow lba isLba k small)

/-- An entry that is not used is not used as it is read either. -/
theorem guidEmpty_read {pos entrySize : Nat} {read entry : Nat → Byte}
    (isRead : ∀ k < 48, read k = if entrySize < 512 ∧ 512 ≤ pos % 512 + k then 0x00#8 else entry k) (empty : guidEmpty entry) :
    guidEmpty read := by
  intro k small
  rw [isRead k (by omega), empty k small, ite_self]

theorem mountedPartition_isSome {primary : Disk} {entry : Nat → Byte} :
    (mountedPartition primary entry).isSome ↔ ¬ guidEmpty entry := by
  unfold mountedPartition
  split
  · exact iff_of_false (by simp) (not_not.mpr ‹_›)
  · exact iff_of_true rfl ‹_›

end Entries

/-! ### Tables that are mounted -/

section Tables

variable {header : GptPartitionTableHeader} {table : Nat → Byte} (entrySize : 128 ≤ header.arrayEntrySize)

/-- The disk is where the entries of the table are read from. -/
theorem gptMountPartitions_start {memory : CacheMemory} {primary : Disk} {contents : Nat → Byte} {stack : Nat → Nat → Byte}
    (isPrimary : IsPrimary primary contents) (cache : Option DiskStreamCache) (low : header.guidArrayLbaStart * 512 < 2 ^ 31) :
    gptMountPartitions memory primary stack cache header =
      gptMountPartitionsLoop memory primary header.arrayEntrySize stack header.totalArrayEntries 0
        ⟨diskstreamerSeek (diskstreamerNewFromDisk primary) (entryPos header 0), cache, [], 0⟩ := by
  unfold gptMountPartitions
  dsimp only
  rw [isPrimary.sectorSize, toWord_natCast (by omega), toInt32_of_bounds (by omega) (by omega), entryPos, Nat.zero_mul,
    Nat.add_zero]

include entrySize in
/-- **The disks of a table** that the stream reaches. -/
theorem gptMountPartitions_reads {memory : CacheMemory} {primary : Disk} {contents : Nat → Byte} (stack : Nat → Nat → Byte)
    {cache : DiskStreamCache} (isPrimary : IsPrimary primary contents) (allocates : ∀ slot, 0 ≤ memory.allocated slot)
    (coherent : CacheCoherent primary contents cache)
    (inReach : header.totalArrayEntries = 0 ∨ alignedEnd 512 (entryPos header header.totalArrayEntries) < 2 ^ 31) :
    ∃ σ, gptMountPartitions memory primary stack (some cache) header = some σ ∧ σ.res = 0 ∧
      σ.partitions = (List.range header.totalArrayEntries).filterMap fun i =>
        mountedPartition primary (entryRead header contents i) := by
  rcases inReach with none_ | inReach
  · refine ⟨⟨diskstreamerSeek (diskstreamerNewFromDisk primary)
      (toInt32 (toWord ((header.guidArrayLbaStart * primary.sectorSize : Nat) : Int))), some cache, [], 0⟩, ?_, rfl, ?_⟩
    · unfold gptMountPartitions
      rw [none_]
      rfl
    · rw [none_]
      rfl
  · obtain ⟨end_, -⟩ := @alignedEnd_bounds 512 (by decide) (entryPos header header.totalArrayEntries)
    have grows : ∀ j ≤ header.totalArrayEntries, entryPos header j ≤ entryPos header header.totalArrayEntries := by
      intro j upTo
      exact Nat.add_le_add_left (Nat.mul_le_mul_right _ upTo) _
    have first := grows 0 (Nat.zero_le _)
    rw [entryPos, Nat.zero_mul, Nat.add_zero] at first
    obtain ⟨cache', -, goesOn⟩ := gptMountPartitionsLoop_reads isPrimary allocates entrySize stack
      header.totalArrayEntries 0 0 [] coherent (by
        intro j _ before
        have upTo := grows (j + 1) (by omega)
        unfold alignedEnd at inReach ⊢
        split at inReach <;> split <;> omega)
    rw [gptMountPartitions_start isPrimary (some cache) (by omega)]
    refine ⟨_, goesOn.trans (by rw [gptMountPartitionsLoop]), rfl, ?_⟩
    rw [List.range_eq_range']
    rfl

include entrySize in
/-- **Tables that fit are mounted**, on every disk that has them. -/
theorem mountsTable_of_fits (fits : TableFits header table) : MountsTable header table := by
  intro memory stack primary contents cache isPrimary allocates coherent isTable
  obtain ⟨σ, result, success, partitions⟩ := gptMountPartitions_reads entrySize stack isPrimary allocates coherent
    fits.inReach
  refine ⟨σ, result, success.symm.le, ?_⟩
  rw [partitions]
  have isRead : ∀ i < header.totalArrayEntries, ∀ k < 48, entryRead header contents i k =
      if header.arrayEntrySize < 512 ∧ 512 ≤ entryPos header i % 512 + k then 0x00#8 else tableEntry header table i k :=
    fun i isEntry k small => entryRead_eq isTable isEntry (by omega)
  refine (forall₂_filterMap_iff ?_).mpr ?_
  · intro i isEntry kept
    have usedRead := mountedPartition_isSome.mp kept
    rw [if_neg fun empty => usedRead (guidEmpty_read (isRead i (List.mem_range.mp isEntry)) empty)]
    rfl
  · intro i isEntry entry isUsed
    have isEntry := List.mem_range.mp isEntry
    by_cases used : guidEmpty (tableEntry header table i)
    · rw [if_pos used] at isUsed
      cases isUsed
    · rw [if_neg used, Option.some.injEq] at isUsed
      subst isUsed
      obtain ⟨whole, fit⟩ := fits.entries i isEntry used
      obtain ⟨usedRead, same⟩ := (entryWhole_iff used (isRead i isEntry)).mp whole
      obtain ⟨starts, ends⟩ := (@gptMountPartition_lbas primary _ _).mpr ⟨fit.startingLba, fit.endingLba, same⟩
      exact ⟨_, if_neg usedRead, fit.partitionOf starts ends (gptMountPartition_read _ _) (readLba_lt _ _)⟩

/-! ### Tables that are not -/

/-- An entry that is in no table: a used one that starts at sector `w`. -/
def fakeEntry (w : Byte) (k : Nat) : Byte := if k = 0 then 0xFF#8 else if k = 32 then w else 0x00#8

theorem fakeEntry_mounted (primary : Disk) {w : Byte} (low : w.toNat < 3) :
    ∃ disk, mountedPartition primary (fakeEntry w) = some disk ∧ disk.startingLba = w.toNat := by
  have used : ¬ guidEmpty (fakeEntry w) := by
    intro empty
    have first := empty 0 (by decide)
    rw [fakeEntry, if_pos rfl] at first
    cases first
  have lba : (gptPartitionEntry (fakeEntry w)).startingLba = w.toNat := by
    simp [gptPartitionEntry, readWord, window, decodeWord, fakeEntry]
  refine ⟨_, if_neg used, ?_⟩
  rw [gptMountPartition_startingLba, lba, toInt32_of_bounds (by omega) (by omega), toWord_natCast (by omega)]

/-- One of two start sectors is not the next one in a list. -/
theorem exists_different (lbas : List Nat) (k : Nat) : ∃ w : Byte, w.toNat < 3 ∧ lbas[k]? ≠ some w.toNat := by
  by_cases one : lbas[k]? = some 1
  · refine ⟨2#8, by decide, ?_⟩
    rw [one]
    decide
  · exact ⟨1#8, by decide, one⟩

/-- The disks of some entries start where these do. -/
theorem startingLbas_of_partitions {primary : Disk} {entries : List GptPartitionEntry} {disks : List Disk}
    (partitions : List.Forall₂ (PartitionOf primary) entries disks) :
    disks.map Disk.startingLba = entries.map GptPartitionEntry.startingLba := by
  induction partitions with
  | nil => rfl
  | cons isPartition _ ih => rw [List.map_cons, List.map_cons, isPartition.startingLba, ih]

/-- **A turn that mounts something else**: a table is not mounted if for one disk that has it, a turn reads an entry that is
not the next one in use. -/
theorem not_mountsTable_of_turn (stack : Nat → Nat → Byte) (contents : Nat → Byte) {cache : DiskStreamCache} {stream : DiskStream}
    {partitions : List Disk} {rest i : Nat} {w : Byte} (low : w.toNat < 3)
    (isTable : ∀ k < header.totalArrayEntries * header.arrayEntrySize, contents (header.guidArrayLbaStart * 512 + k) = table k)
    (runs : gptMountPartitions clearMemory (namedDisk contents) stack (some fun _ => none) header =
      gptMountPartitionsLoop clearMemory (namedDisk contents) header.arrayEntrySize stack (rest + 1) i
        ⟨stream, some cache, partitions, 0⟩)
    (turn : ∀ read, diskstreamerRead clearMemory stream (some cache) (toInt32 header.arrayEntrySize) = some read →
      ∀ k < 48, read.written.getD k (stack i k) = fakeEntry w k)
    (different : ((usedEntries header table).map GptPartitionEntry.startingLba)[partitions.length]? ≠ some w.toNat) :
    ¬ MountsTable header table := by
  intro mounts
  obtain ⟨σ, result, success, disks⟩ := mounts clearMemory stack (namedDisk contents) contents (fun _ => none)
    (namedDisk_primary contents) (fun _ => le_rfl) (cacheCoherent_empty _ _) isTable
  rw [runs, gptMountPartitionsLoop, Option.bind_eq_some_iff] at result
  obtain ⟨next, isTurn, result⟩ := result
  by_cases fails : next.res < 0
  · rw [if_pos fails, Option.some.injEq] at result
    rw [← result] at success
    omega
  · rw [if_neg fails] at result
    obtain ⟨read, isRead, failed | added⟩ := gptMountEntry_cases isTurn
    · exact fails failed
    · obtain ⟨disk, isDisk, starts⟩ := fakeEntry_mounted (namedDisk contents) low
      rw [mountedPartition_congr _ (turn read isRead), isDisk, Option.toList_some] at added
      obtain ⟨more, all⟩ := gptMountPartitionsLoop_appends _ result success
      -- the disks have the start sectors of the entries in use, so this one would be the next of them
      rw [← startingLbas_of_partitions disks, all, added, List.map_append, List.map_append, List.append_assoc,
        List.getElem?_append_right (by simp),
        List.length_map, Nat.sub_self, List.map_singleton, List.singleton_append, List.getElem?_cons_zero, starts] at different
      exact different rfl

/-- A read that delivers nothing leaves what was on the stack. -/
theorem getD_of_unread {written : List Byte} (unread : written = []) (entry : Nat → Byte) :
    ∀ k < 48, written.getD k (entry k) = entry k := by
  intro k _
  rw [unread, List.getD_nil]

include entrySize in
/-- **Tables behind byte `2 ^ 31`**: the `int` of their first byte is that of other bytes. -/
theorem inReach_of_mounts (mounts : MountsTable header table) :
    header.totalArrayEntries = 0 ∨ alignedEnd 512 (entryPos header header.totalArrayEntries) < 2 ^ 31 := by
  by_contra beyond
  rw [not_or, not_lt] at beyond
  obtain ⟨something, beyond⟩ := beyond
  have isUInt := header.isUInt32.2
  obtain ⟨rest, isTotal⟩ := Nat.exists_eq_succ_of_ne_zero something
  by_cases low : header.guidArrayLbaStart * 512 < 2 ^ 31
  · -- the first entry that ends behind: its buffer is as it was
    have exceeds : ∃ i, 2 ^ 31 ≤ alignedEnd 512 (entryPos header (i + 1)) :=
      ⟨rest, by rw [← Nat.succ_eq_add_one, ← isTotal]; exact beyond⟩
    classical
    obtain ⟨i, overflows, before⟩ : ∃ i, 2 ^ 31 ≤ alignedEnd 512 (entryPos header (i + 1)) ∧
        ∀ j < i, alignedEnd 512 (entryPos header (j + 1)) < 2 ^ 31 :=
      ⟨Nat.find exceeds, Nat.find_spec exceeds, fun j earlier => not_le.mp (Nat.find_min exceeds earlier)⟩
    have inTable : i ≤ rest := by
      by_contra behind
      have := before rest (by omega)
      rw [← Nat.succ_eq_add_one, ← isTotal] at this
      omega
    have isInt : entryPos header i < 2 ^ 31 := by
      rcases Nat.eq_zero_or_pos i with rfl | later
      · rw [entryPos, Nat.zero_mul, Nat.add_zero]
        exact low
      · have previous := before (i - 1) (by omega)
        rw [Nat.sub_add_cancel later] at previous
        exact lt_of_le_of_lt (alignedEnd_bounds (by decide) _).1 previous
    let contents := fun a => table (a - header.guidArrayLbaStart * 512)
    let mounted := (List.range' 0 i).filterMap fun j => mountedPartition (namedDisk contents) (entryRead header contents j)
    obtain ⟨w, small, different⟩ := exists_different ((usedEntries header table).map GptPartitionEntry.startingLba) mounted.length
    obtain ⟨cache, -, runs⟩ := gptMountPartitionsLoop_reads (namedDisk_primary contents)
      (show ∀ slot, 0 ≤ clearMemory.allocated slot from fun _ => le_rfl) entrySize (fun _ => fakeEntry w) i 0 (rest - i + 1) []
      (cacheCoherent_empty _ _) fun j _ inside => before j (by omega)
    rw [show i + (rest - i + 1) = header.totalArrayEntries by omega, Nat.zero_add, List.nil_append,
      ← gptMountPartitions_start (namedDisk_primary contents) _ low] at runs
    refine not_mountsTable_of_turn (fun _ => fakeEntry w) contents small (fun k _ => ?_) runs (fun read isRead => ?_) different
      mounts
    · dsimp only [contents]
      rw [Nat.add_sub_cancel_left]
    · rw [entryPos_succ] at overflows
      exact getD_of_unread (diskstreamerRead_unread rfl (by omega) isUInt isInt overflows isRead) (fakeEntry w)
  · -- the table is not where it is read from, so there may be anything
    obtain ⟨pos, isPos⟩ : ∃ pos, toInt32 (toWord ((header.guidArrayLbaStart * 512 : Nat) : Int)) = pos := ⟨_, rfl⟩
    have aligned : pos % 512 = 0 ∧ -2 ^ 31 ≤ pos ∧ pos < 2 ^ 31 := by
      rw [← isPos]
      unfold toInt32 toWord
      split <;> omega
    obtain ⟨w, small, different⟩ := exists_different ((usedEntries header table).map GptPartitionEntry.startingLba) 0
    let contents := fun a => if header.guidArrayLbaStart * 512 ≤ a then table (a - header.guidArrayLbaStart * 512)
      else fakeEntry w (a - pos.toNat)
    have onDisk := namedDisk_primary contents
    have runs : gptMountPartitions clearMemory (namedDisk contents) (fun _ => fakeEntry w) (some fun _ => none) header =
        gptMountPartitionsLoop clearMemory (namedDisk contents) header.arrayEntrySize (fun _ => fakeEntry w) (rest + 1) 0
          ⟨diskstreamerSeek (diskstreamerNewFromDisk (namedDisk contents)) pos, some fun _ => none, [], 0⟩ := by
      unfold gptMountPartitions
      rw [← isPos, isTotal]
      rfl
    refine not_mountsTable_of_turn (fun _ => fakeEntry w) contents small (fun k _ => ?_) runs (fun read isRead => ?_) different
      mounts
    · dsimp only [contents]
      rw [if_pos (Nat.le_add_right _ _), Nat.add_sub_cancel_left]
    · by_cases negative : pos < 0
      · obtain ⟨k, isBefore⟩ : ∃ k : Nat, pos = -(k * 512 : Nat) := ⟨(-pos).toNat / 512, by omega⟩
        rw [isBefore] at isRead
        exact getD_of_unread (diskstreamerRead_before rfl rfl (by omega) (by omega) isRead) (fakeEntry w)
      · obtain ⟨start, rfl⟩ := Int.eq_ofNat_of_zero_le (not_lt.mp negative)
        by_cases overflows : 2 ^ 31 ≤ alignedEnd 512 (start + header.arrayEntrySize)
        · exact getD_of_unread (diskstreamerRead_unread rfl (by omega) isUInt (by omega) overflows isRead) (fakeEntry w)
        · obtain ⟨end_, -⟩ := @alignedEnd_bounds 512 (by decide) (start + header.arrayEntrySize)
          obtain ⟨after, -, isAfter, -, -, -, -, written⟩ := diskstreamerRead_bytes onDisk
            (show ∀ slot, 0 ≤ clearMemory.allocated slot from fun _ => le_rfl) (cacheCoherent_empty _ _) (by omega)
              (not_le.mp overflows) (by omega)
          rw [toInt32_of_bounds (by omega) (by omega), isAfter, Option.some.injEq] at isRead
          subst isRead
          intro k inside
          have byte : deliveredByte contents start header.arrayEntrySize k = contents (start + k) := if_neg (by omega)
          rw [written, List.getD_eq_getElem?_getD, List.getElem?_map, List.getElem?_range (by omega), Option.map_some,
            Option.getD_some, byte]
          dsimp only [contents]
          rw [if_neg (by omega), Int.toNat_natCast, Nat.add_sub_cancel_left]

include entrySize in
/-- **Tables that are mounted fit.** -/
theorem fits_of_mountsTable (mounts : MountsTable header table) : TableFits header table := by
  have inReach := inReach_of_mounts entrySize mounts
  refine ⟨inReach, ?_⟩
  let contents := fun a => table (a - header.guidArrayLbaStart * 512)
  have isTable : ∀ k < header.totalArrayEntries * header.arrayEntrySize, contents (header.guidArrayLbaStart * 512 + k) =
      table k := by
    intro k _
    dsimp only [contents]
    rw [Nat.add_sub_cancel_left]
  have isRead : ∀ i < header.totalArrayEntries, ∀ k < 48, entryRead header contents i k =
      if header.arrayEntrySize < 512 ∧ 512 ≤ entryPos header i % 512 + k then 0x00#8 else tableEntry header table i k :=
    fun i isEntry k small => entryRead_eq isTable isEntry (by omega)
  have onDisk := namedDisk_primary contents
  obtain ⟨σ, result, -, disks⟩ := mounts clearMemory (fun _ _ => 0x00#8) (namedDisk contents) contents (fun _ => none)
    onDisk (fun _ => le_rfl) (cacheCoherent_empty _ _) isTable
  obtain ⟨σ', result', -, partitions⟩ := gptMountPartitions_reads entrySize (fun _ _ => 0x00#8) onDisk
    (show ∀ slot, 0 ≤ clearMemory.allocated slot from fun _ => le_rfl) (cacheCoherent_empty _ _) inReach
  rw [result, Option.some.injEq] at result'
  subst result'
  rw [partitions] at disks
  have entries := (forall₂_filterMap_iff (by
    intro i isEntry kept
    have usedRead := mountedPartition_isSome.mp kept
    rw [if_neg fun empty => usedRead (guidEmpty_read (isRead i (List.mem_range.mp isEntry)) empty)]
    rfl)).mp disks
  intro i isEntry used
  obtain ⟨disk, isDisk, isPartition⟩ := entries i (List.mem_range.mpr isEntry) _ (if_neg used)
  have usedRead := mountedPartition_isSome.mp (Option.isSome_of_eq_some isDisk)
  rw [mountedPartition, if_neg usedRead, Option.some.injEq] at isDisk
  subst isDisk
  obtain ⟨starting, ending, same⟩ := gptMountPartition_lbas.mp ⟨isPartition.startingLba, isPartition.endingLba⟩
  exact ⟨(entryWhole_iff used (isRead i isEntry)).mpr ⟨usedRead, same⟩,
    lbasFit_of_partitionOf isPartition (gptMountPartition_read _ _) starting ending ⟨readLba_lt _ _, readLba_lt _ _⟩⟩

end Tables

/-- **Which partition tables are mounted, entry by entry**, for every table with entries of at least 128 bytes: those that end
before byte `2 ^ 31` of the disk, in which no used entry crosses the end of a sector with its GUID or LBAs, and has LBAs
that an `int` keeps. -/
theorem gptMountPartitions_iff (header : GptPartitionTableHeader) (table : Nat → Byte) (entrySize : 128 ≤ header.arrayEntrySize) :
    MountsTable header table ↔ TableFits header table :=
  ⟨fits_of_mountsTable entrySize, mountsTable_of_fits entrySize⟩

/-- A table of one entry, at sector 2 as usual. -/
def oneEntryHeader : GptPartitionTableHeader := ⟨2, 1, 128, by decide, by decide⟩

/-- An entry with the low four bytes of its LBAs. -/
def oneEntryTable (startingLba endingLba : Nat) (k : Nat) : Byte :=
  if k = 0 then 0xA2#8
  else if 32 ≤ k ∧ k < 36 then BitVec.ofNat 8 (startingLba / 256 ^ (k - 32))
  else if 40 ≤ k ∧ k < 44 then BitVec.ofNat 8 (endingLba / 256 ^ (k - 40))
  else 0x00#8

/-- The partition of sectors 2048 to 4095 is mounted. -/
theorem mountsTable_first : 128 ≤ oneEntryHeader.arrayEntrySize ∧ MountsTable oneEntryHeader (oneEntryTable 2048 4095) := by
  refine ⟨by decide, (gptMountPartitions_iff _ _ (by decide)).mpr ⟨Or.inr (by decide), fun i isEntry _ => ?_⟩⟩
  obtain rfl : i = 0 := Nat.lt_one_iff.mp isEntry
  refine ⟨fun _ => ⟨⟨0, by decide, by decide, by decide⟩, by decide⟩, ⟨Or.inl ?_, Or.inl ?_, Or.inl ?_⟩⟩
  · decide +kernel
  · decide +kernel
  · decide +kernel

/-- **A partition at sector `2 ^ 31`** gets a disk that starts elsewhere. -/
theorem largePartition_mounted :
    (usedEntries oneEntryHeader (oneEntryTable (2 ^ 31) (2 ^ 31 + 2047))).map GptPartitionEntry.startingLba = [2 ^ 31] ∧
      (gptMountPartitions clearMemory (namedDisk fun a => oneEntryTable (2 ^ 31) (2 ^ 31 + 2047) (a - 1024)) (fun _ _ => 0x00#8)
          (some fun _ => none) oneEntryHeader).map (fun σ => σ.partitions.map Disk.startingLba) = some [2 ^ 64 - 2 ^ 31] ∧
      ¬ MountsTable oneEntryHeader (oneEntryTable (2 ^ 31) (2 ^ 31 + 2047)) := by
  have entries : (usedEntries oneEntryHeader (oneEntryTable (2 ^ 31) (2 ^ 31 + 2047))).map GptPartitionEntry.startingLba =
      [2 ^ 31] := by decide +kernel
  have starts : (gptMountPartitions clearMemory (namedDisk fun a => oneEntryTable (2 ^ 31) (2 ^ 31 + 2047) (a - 1024))
      (fun _ _ => 0x00#8) (some fun _ => none) oneEntryHeader).map (fun σ => σ.partitions.map Disk.startingLba) =
        some [2 ^ 64 - 2 ^ 31] := by decide +kernel
  refine ⟨entries, starts, fun mounts => ?_⟩
  obtain ⟨σ, result, -, disks⟩ := mounts clearMemory (fun _ _ => 0x00#8)
    (namedDisk fun a => oneEntryTable (2 ^ 31) (2 ^ 31 + 2047) (a - 1024)) _ (fun _ => none) (namedDisk_primary _)
    (fun _ => le_rfl) (cacheCoherent_empty _ _) (fun k _ => by
      rw [show oneEntryHeader.guidArrayLbaStart * 512 + k - 1024 = k from Nat.add_sub_cancel_left 1024 k])
  rw [result, Option.map_some, Option.some.injEq, startingLbas_of_partitions disks, entries] at starts
  exact absurd starts (by decide)

end PeachOS
