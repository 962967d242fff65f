/-
**Disks and disk streams: `disk/disk.c` and `disk/streamer.c`.**

A disk numbers its sectors from `starting_lba` on; its driver reads sectors. A stream reads bytes at a
position, sector by sector through the cache of the disk. The cache is a tree of buckets of three levels,
indexed by the byte offset of the sector on the hardware disk; here it is one map from the indexes
(`CacheSlot`) to the buffers of its entries.

* a buffer is a function from offsets, since a copy may leave its 2048 bytes: behind them is what
  `CacheMemory` says;
* `cacheSlot` is `none` where an index leaves its array, and so is every function that would go on;
* the queue that frees old buckets is left out, since `kfree` does nothing.
-/

import PeachOS.Machine

namespace PeachOS

/-- `-ENOENT`. -/
def enoent : Int := -14

/-! ### Disks -/

/-- `struct disk`, as far as reading goes: `read` is the function of its driver, from a sector of the
hardware disk and a number of sectors to their bytes. -/
structure Disk where
  sectorSize : Nat
  startingLba : Nat
  endingLba : Nat
  read : Option (Nat → Nat → Except Int (Nat → Byte))

def diskRealSector (disk : Disk) (lba : Nat) : Nat := toWord (disk.startingLba + lba)

def diskRealOffset (disk : Disk) (lba : Nat) : Int := toInt64 (toWord (diskRealSector disk lba * disk.sectorSize))

/-- `disk_read_block`: the driver takes the sector as an `unsigned int`. -/
def diskReadBlock (disk : Disk) (lba total : Nat) : Except Int (Nat → Byte) :=
  let absoluteLba := toWord (disk.startingLba + lba)
  let absoluteEndingLba := toWord (absoluteLba + total)
  if absoluteEndingLba > disk.endingLba ∧ disk.startingLba ≠ 0 ∧ disk.endingLba ≠ 0 then .error eio
  else
    match disk.read with
    | none => .error eio
    | some read => read (absoluteLba % 2 ^ 32) total

/-! ### The cache -/

/-- `DISK_STREAMER_MAX_CACHE_SECTOR_SIZE`. -/
abbrev diskStreamerMaxCacheSectorSize : Nat := 2048

/-- `DISK_STREAM_LEVEL3_SECTORS_ARRAY_SIZE`. -/
abbrev diskStreamLevel3SectorsArraySize : Nat := 64

/-- `DISK_STREAM_BUCKET_ARRAY_SIZE`. -/
abbrev diskStreamBucketArraySize : Nat := 1024

/-- `DISK_STREAM_BUCKET3_BYTE_SIZE`. -/
def diskStreamBucket3ByteSize (sectorSize : Nat) : Nat := diskStreamLevel3SectorsArraySize * sectorSize

/-- `DISK_STREAM_BUCKET2_BYTE_SIZE`. -/
def diskStreamBucket2ByteSize (sectorSize : Nat) : Nat :=
  diskStreamBucket3ByteSize sectorSize * diskStreamBucketArraySize

/-- `DISK_STREAM_BUCKET1_BYTE_SIZE`. -/
def diskStreamBucket1ByteSize (sectorSize : Nat) : Nat :=
  diskStreamBucket2ByteSize sectorSize * diskStreamBucketArraySize

/-- The indexes of an entry in the buckets of the three levels. -/
structure CacheSlot where
  level1 : Nat
  level2 : Nat
  level3 : Nat
  sector : Nat
deriving DecidableEq

/-- The entries of a cache: the buffer in each slot that has one. -/
abbrev DiskStreamCache := CacheSlot → Option (Nat → Byte)

/-- What the allocator does for the cache: the result of the allocations for a new entry, zero or negative,
and the bytes behind the buffer it returns. -/
structure CacheMemory where
  allocated : CacheSlot → Int
  behind : CacheSlot → Nat → Byte

/-- The cleared buffer of a new entry. -/
def CacheMemory.newBuffer (memory : CacheMemory) (slot : CacheSlot) (offset : Nat) : Byte :=
  if offset < diskStreamerMaxCacheSectorSize then 0x00#8 else memory.behind slot offset

/-- The indexes that `diskstreamer_cache_find` computes, `none` when one of them leaves its array. The
remainder at the third level is taken in `size_t`, by the size of an array of 64 pointers. -/
def cacheSlot (sectorSize : Nat) (pos : Int) : Option CacheSlot :=
  let level1Bucket := pos.tdiv (diskStreamBucket1ByteSize sectorSize)
  let posInLevel1 := pos.tmod (diskStreamBucket1ByteSize sectorSize)
  let level2Bucket := posInLevel1.tdiv (diskStreamBucket2ByteSize sectorSize)
  let posInLevel2 := posInLevel1.tmod (diskStreamBucket2ByteSize sectorSize)
  let level3Bucket := posInLevel2.tdiv (diskStreamBucket3ByteSize sectorSize)
  let posInLevel3 := posInLevel2.tmod (diskStreamBucket3ByteSize sectorSize)
  let byteOffset := toInt32 (toWord posInLevel3 % (8 * diskStreamLevel3SectorsArraySize * sectorSize) : Nat)
  let sectorIndex := byteOffset.tdiv sectorSize
  if 0 ≤ level1Bucket ∧ 0 ≤ level2Bucket ∧ level2Bucket < diskStreamBucketArraySize ∧ 0 ≤ level3Bucket ∧
      level3Bucket < diskStreamBucketArraySize ∧ 0 ≤ sectorIndex ∧ sectorIndex < diskStreamLevel3SectorsArraySize then
    some ⟨level1Bucket.toNat, level2Bucket.toNat, level3Bucket.toNat, sectorIndex.toNat⟩
  else none

/-- `diskstreamer_cache_find`: an error, or whether the entry is new and where it is. -/
def diskstreamerCacheFind (memory : CacheMemory) (sectorSize : Nat) (cache : Option DiskStreamCache) (pos : Int) :
    Option (Except Int (Bool × CacheSlot × DiskStreamCache)) :=
  match cache with
  | none => some (.error enoent)
  | some cache =>
      match cacheSlot sectorSize pos with
      | none => none
      | some slot =>
          match cache slot with
          | some _ => some (.ok (false, slot, cache))
          | none =>
              if memory.allocated slot < 0 then some (.error (memory.allocated slot))
              else
                some (.ok (true, slot, fun other => if other = slot then some (memory.newBuffer slot) else cache other))

/-- The cache after a sector has been read into the buffer of an entry. -/
def DiskStreamCache.fillSector (cache : DiskStreamCache) (sectorSize : Nat) (slot : CacheSlot) (bytes : Nat → Byte) :
    DiskStreamCache := fun other =>
  if other = slot then
    (cache slot).map fun buf => fun offset => if offset < sectorSize then bytes offset else buf offset
  else cache other

/-! ### Streams -/

/-- `struct disk_stream`. -/
structure DiskStream where
  pos : Int
  sectorSize : Nat
  disk : Disk

/-- `diskstreamer_new_from_disk`. -/
def diskstreamerNewFromDisk (disk : Disk) : DiskStream where
  pos := 0
  sectorSize := disk.sectorSize
  disk := disk

def diskstreamerSeek (stream : DiskStream) (pos : Int) : DiskStream := { stream with pos := pos }

/-- The state of a read: what is left to read, the position of the stream, the bytes written to `out` and
the result. -/
structure ReadState where
  total : Int
  pos : Int
  cache : Option DiskStreamCache
  written : List Byte
  res : Int

/-- Copy from a buffer: `amount_read` bytes from `offset_in_sector` on. -/
def ReadState.copy (σ : ReadState) (buf : Nat → Byte) (offsetInSector amountRead : Int) : ReadState :=
  { σ with
    written := σ.written ++ (List.range amountRead.toNat).map fun j => buf (offsetInSector.toNat + j)
    pos := toInt32 (σ.pos + amountRead)
    total := toInt32 (σ.total - amountRead) }

/-- The loop of `diskstreamer_read` from sector `i` on, with `fuel` sectors left. -/
def diskstreamerReadLoop (memory : CacheMemory) (disk : Disk) (sectorSize : Nat) :
    (fuel i : Nat) → ReadState → Option ReadState
  | 0, _, σ => some σ
  | fuel + 1, i, σ =>
      let offsetInSector := σ.pos.tmod sectorSize
      let amountRead := if σ.total < sectorSize then σ.total else sectorSize - σ.pos.tmod sectorSize
      match diskstreamerCacheFind memory disk.sectorSize σ.cache (toInt32 (diskRealOffset disk i)) with
      | none => none
      | some (.error res) => some { σ with res := res }
      | some (.ok (isNew, slot, cache)) =>
          if isNew then
            match diskReadBlock disk i 1 with
            | .error res => some { σ with cache := some cache, res := res }
            | .ok bytes =>
                let cache := cache.fillSector disk.sectorSize slot bytes
                diskstreamerReadLoop memory disk sectorSize fuel (i + 1)
                  ({ σ with cache := some cache, res := 0 }.copy ((cache slot).getD (memory.newBuffer slot))
                    offsetInSector amountRead)
          else
            diskstreamerReadLoop memory disk sectorSize fuel (i + 1)
              ({ σ with cache := some cache }.copy ((cache slot).getD (memory.newBuffer slot)) offsetInSector amountRead)

/-- An `int` aligned down to a sector. -/
def alignedDown (sectorSize : Nat) (offset : Int) : Int :=
  if offset.tmod sectorSize ≠ 0 then toInt32 (offset - offset.tmod sectorSize) else offset

/-- An `int` aligned up to a sector, which can overflow. -/
def alignedUp (sectorSize : Nat) (offset : Int) : Int :=
  if offset.tmod sectorSize ≠ 0 then toInt32 (offset + (sectorSize - offset.tmod sectorSize)) else offset

/-- `diskstreamer_read`, `none` for its panic and for accesses outside of an array. A sector before the first is an
`unsigned int` for `disk_real_offset`. -/
def diskstreamerRead (memory : CacheMemory) (stream : DiskStream) (cache : Option DiskStreamCache) (total : Int) :
    Option ReadState :=
  let offset := stream.pos
  let offsetAlignedDown := alignedDown stream.sectorSize offset
  let startingSector := offsetAlignedDown.tdiv stream.sectorSize
  let finalOffset := toInt32 (offset + total)
  let finalOffsetAlignedUp := alignedUp stream.sectorSize finalOffset
  let endingSector := finalOffsetAlignedUp.tdiv stream.sectorSize
  let totalBytesAligned := toInt32 (finalOffsetAlignedUp - offsetAlignedDown)
  let totalSectorsToRead := totalBytesAligned.tdiv stream.sectorSize
  if totalSectorsToRead < 0 then none
  else
    diskstreamerReadLoop memory stream.disk stream.sectorSize (endingSector + 1 - startingSector).toNat
      (toUInt32 startingSector) { total := total, pos := offset, cache := cache, written := [], res := 0 }

end PeachOS
