/-
**The FAT16 filesystem: `fs/fat/fat16.c`.**

A volume is a disk with what `fat16_resolve` leaves in `struct fat_private`. The streams of a volume are the
parameter `FatVolume.read`: every function seeks before it reads, so a stream is a function from positions and
lengths to results and bytes.

* `fat16GetFatEntry`, `fat16GetClusterForOffset`, `fat16ReadInternalFromStream`, `fat16Read` read data;
* `fat16GetTotalItemsForDirectory`, `fat16GetRootDirectory`, `fat16LoadFatDirectory` make directories;
* `fat16FindItemInDirectory`, `fat16GetDirectoryEntry` find their items.

`none` is for a call that does not return: a null pointer is followed, or a loop does not end. The bytes per sector
of the header are never read, all sectors are those of the disk.
-/

import PeachOS.Machine

namespace PeachOS

/-! ### Strings -/

/-- A C string, without its terminator. -/
structure CString where
  bytes : List Byte
  noZero : 0x00#8 ∉ bytes

/-- `tolower`. Bytes from `0x80` on are negative. -/
def tolower (s1 : Byte) : Byte := if 65 ≤ s1.toNat ∧ s1.toNat ≤ 90 then s1 + 32 else s1

/-- `istrncmp`, on bytes that are followed by zeros. -/
def istrncmp : (s1 s2 : List Byte) → (n : Nat) → Int
  | _, _, 0 => 0
  | s1, s2, n + 1 =>
      let u1 := s1.headD 0x00#8
      let u2 := s2.headD 0x00#8
      if u1 ≠ u2 ∧ tolower u1 ≠ tolower u2 then u1.toNat - u2.toNat
      else if u1 = 0x00#8 then 0
      else istrncmp s1.tail s2.tail n

/-- `PEACHOS_MAX_PATH`. -/
abbrev peachosMaxPath : Nat := 108

/-! ### Directory items -/

/-- `FAT_FILE_SUBDIRECTORY`. -/
def fatFileSubdirectory : Byte := 0x10#8

/-- `struct fat_directory_item`, without the fields that nothing reads. -/
structure FatDirectoryItem where
  filename : List Byte
  ext : List Byte
  fileAttribute : Byte
  high16BitsFirstCluster : Nat
  low16BitsFirstCluster : Nat
  filesize : Nat
deriving DecidableEq

/-- `sizeof(struct fat_directory_item)`. -/
abbrev sizeofFatDirectoryItem : Nat := 32

/-- A little-endian number of `count` bytes. -/
def littleEndian (bytes : Nat → Byte) (offset : Nat) : (count : Nat) → Nat
  | 0 => 0
  | count + 1 => (bytes offset).toNat + 2 ^ 8 * littleEndian bytes (offset + 1) count

/-- The item that some bytes are. -/
def fatDirectoryItem (bytes : Nat → Byte) : FatDirectoryItem where
  filename := (List.range 8).map bytes
  ext := (List.range 3).map fun i => bytes (8 + i)
  fileAttribute := bytes 11
  high16BitsFirstCluster := littleEndian bytes 20 2
  low16BitsFirstCluster := littleEndian bytes 26 2
  filesize := littleEndian bytes 28 4

/-- `filename[0]`. -/
def FatDirectoryItem.firstByte (item : FatDirectoryItem) : Byte := item.filename.headD 0x00#8

def FatDirectoryItem.isSubdirectory (item : FatDirectoryItem) : Bool := item.fileAttribute &&& fatFileSubdirectory ≠ 0

/-- `fat16_to_proper_string`, which stops at the end of its buffer. -/
def fat16ToProperString (bytes : List Byte) : List Byte := bytes.takeWhile fun byte => byte ≠ 0x00#8 ∧ byte ≠ 0x20#8

/-- `fat16_get_full_relative_filename`. -/
def fat16GetFullRelativeFilename (item : FatDirectoryItem) : List Byte :=
  fat16ToProperString item.filename ++
    if item.ext.headD 0x00#8 ≠ 0x00#8 ∧ item.ext.headD 0x00#8 ≠ 0x20#8 then
      0x2E#8 :: fat16ToProperString item.ext
    else []

/-- `fat16_get_first_cluster`. -/
def fat16GetFirstCluster (item : FatDirectoryItem) : Nat :=
  item.high16BitsFirstCluster * 2 ^ 16 + item.low16BitsFirstCluster

/-! ### Volumes -/

/-- `struct fat_header`, as far as it is read. -/
structure FatHeader where
  sectorsPerCluster : Nat
  reservedSectors : Nat
  fatCopies : Nat
  rootDirEntries : Nat
  sectorsPerFat : Nat

/-- `struct fat_directory`. `freed` tells whether `fat16_free_directory` was called for it. -/
structure FatDirectory where
  item : Option (Nat → FatDirectoryItem)
  total : Int
  sectorPos : Int
  endingSectorPos : Int
  freed : Bool

/-- The result of `diskstreamer_read`, and what is in its buffer then. -/
structure StreamRead where
  res : Int
  bytes : Nat → Byte

/-- A disk with its `struct fat_private`: `read` is `diskstreamer_seek` and then `diskstreamer_read`. -/
structure FatVolume where
  sectorSize : Nat
  header : FatHeader
  rootDirectory : FatDirectory
  read : (pos total : Int) → StreamRead

/-- Which allocations succeed while the item at an index of a directory is made. -/
structure FatMemory where
  fItem : Nat → Bool
  clone : Nat → Bool
  directory : Nat → Bool
  items : Nat → Bool

namespace FatVolume

variable (v : FatVolume)

/-- `size_of_cluster_bytes`. -/
def clusterBytes : Nat := v.header.sectorsPerCluster * v.sectorSize

end FatVolume

/-! ### Clusters -/

/-- `fat16_cluster_to_sector`. -/
def fat16ClusterToSector (v : FatVolume) (cluster : Int) : Int :=
  toInt32 (v.rootDirectory.endingSectorPos + (cluster - 2) * v.header.sectorsPerCluster)

/-- `fat16_get_fat_entry`. -/
def fat16GetFatEntry (v : FatVolume) (cluster : Int) : Int :=
  let entry := v.read (toInt32 (v.header.reservedSectors * v.sectorSize + cluster * 2)) 2
  if entry.res < 0 then entry.res else littleEndian entry.bytes 0 2

/-- `PEACHOS_FAT16_BAD_SECTOR`. -/
abbrev peachosFat16BadSector : Nat := 0xFF7

/-- The links of `fat16_get_cluster_for_offset`, with `i` of them left. -/
def fat16GetClusterLoop (v : FatVolume) : (i : Nat) → (clusterToUse : Nat) → Int
  | 0, clusterToUse => clusterToUse
  | i + 1, clusterToUse =>
      let entry := toUInt16 (fat16GetFatEntry v clusterToUse)
      if entry ≥ 0xFFF8 then eoutofrange
      else if entry = peachosFat16BadSector ∨ (entry ≥ 0xFFF0 ∧ entry ≤ 0xFFF6) ∨ entry = 0x0000 then eio
      else fat16GetClusterLoop v i entry

/-- `fat16_get_cluster_for_offset`. -/
def fat16GetClusterForOffset (v : FatVolume) (startingCluster : Nat) (offset : Int) : Int :=
  fat16GetClusterLoop v (offset.tdiv v.clusterBytes).toNat startingCluster

/-- The state of the loop of `fat16_read_internal_from_stream`. -/
structure ClusterRead where
  startingOffset : Int
  total : Int
  bytesRead : Int
  written : List Byte
  res : Int

/-- The loop of `fat16_read_internal_from_stream`. Every turn reads a byte at least, so `total` turns are
enough. -/
def fat16ReadLoop (v : FatVolume) (cluster : Nat) : (fuel : Nat) → ClusterRead → ClusterRead
  | 0, σ => σ
  | fuel + 1, σ =>
      if σ.total ≤ 0 then σ
      else
        let res := fat16GetClusterForOffset v cluster σ.startingOffset
        if res < 0 then { σ with res := res }
        else
          let clusterToUse := toUInt16 res
          let offsetFromCluster := σ.startingOffset.tmod v.clusterBytes
          let startingSector := fat16ClusterToSector v clusterToUse
          let startingPos := toInt32 (startingSector * v.sectorSize + offsetFromCluster)
          let totalToRead := if v.clusterBytes - offsetFromCluster > σ.total then σ.total else v.clusterBytes - offsetFromCluster
          let block := v.read startingPos totalToRead
          if block.res ≠ 0 then { σ with res := block.res }
          else
            fat16ReadLoop v cluster fuel
              { startingOffset := toInt32 (σ.startingOffset + totalToRead)
                total := σ.total - totalToRead
                bytesRead := σ.bytesRead + totalToRead
                written := σ.written ++ (List.range totalToRead.toNat).map block.bytes
                res := 0 }

/-- `fat16_read_internal_from_stream`: its result, and the bytes that it has copied. -/
def fat16ReadInternalFromStream (v : FatVolume) (cluster : Nat) (offset total : Int) : Int × List Byte :=
  let σ := fat16ReadLoop v cluster total.toNat ⟨offset, total, 0, [], 0⟩
  (if σ.res < 0 then σ.res else σ.bytesRead, σ.written)

/-- `fat16_read_internal`. -/
def fat16ReadInternal (v : FatVolume) (startingCluster offset total : Int) : Int × List Byte :=
  fat16ReadInternalFromStream v (toUInt16 startingCluster) offset total

/-! ### Directories -/

/-- The loop of `fat16_get_total_items_for_directory`, from a position of the stream on. -/
def fat16GetTotalItemsLoop (v : FatVolume) : (fuel : Nat) → (pos : Int) → (i : Nat) → Option Int
  | 0, _, _ => none
  | fuel + 1, pos, i =>
      let block := v.read pos sizeofFatDirectoryItem
      if block.res ≠ 0 then some eio
      else
        let item := fatDirectoryItem block.bytes
        if item.firstByte = 0x00#8 then some i
        else if item.firstByte = 0xE5#8 then fat16GetTotalItemsLoop v fuel (toInt32 (pos + sizeofFatDirectoryItem)) i
        else fat16GetTotalItemsLoop v fuel (toInt32 (pos + sizeofFatDirectoryItem)) (i + 1)

/-- `fat16_get_total_items_for_directory`. Positions are an `int`, so a loop that has not ended after all of them
does not end. -/
def fat16GetTotalItemsForDirectory (v : FatVolume) (directoryStartSector : Int) : Option Int :=
  fat16GetTotalItemsLoop v (2 ^ 27) (toInt32 (directoryStartSector * v.sectorSize)) 0

/-- The items of a cleared buffer with some bytes at its start. -/
def directoryItems (written : List Byte) (i : Nat) : FatDirectoryItem :=
  fatDirectoryItem fun offset => written.getD (i * sizeofFatDirectoryItem + offset) 0x00#8

/-- `fat16_sector_to_absolute`. -/
def fat16SectorToAbsolute (v : FatVolume) (sector : Int) : Int := toInt32 (sector * v.sectorSize)

/-- `root_dir_sector_pos`. -/
def rootDirSectorPos (v : FatVolume) : Int := v.header.fatCopies * v.header.sectorsPerFat + v.header.reservedSectors

/-- `fat16_get_root_directory`, when its allocation succeeds: an error, or the root directory. The number of the
items is stored as it is, an error as well. -/
def fat16GetRootDirectory (v : FatVolume) : Option (Except Int FatDirectory) := do
  let rootDirSize : Nat := v.header.rootDirEntries * sizeofFatDirectoryItem
  let totalSectors := rootDirSize / v.sectorSize + if rootDirSize % v.sectorSize ≠ 0 then 1 else 0
  let totalItems ← fat16GetTotalItemsForDirectory v (rootDirSectorPos v)
  let block := v.read (fat16SectorToAbsolute v (rootDirSectorPos v)) rootDirSize
  if block.res ≠ 0 then return .error eio
  return .ok
    { item := some (directoryItems ((List.range rootDirSize).map block.bytes))
      total := totalItems
      sectorPos := rootDirSectorPos v
      endingSectorPos := rootDirSectorPos v + totalSectors
      freed := false }

/-- `fat16_load_fat_directory`: `NULL`, or the directory. The number of bytes that were read is not zero as a rule,
and then the directory is freed before it is returned. -/
def fat16LoadFatDirectory (v : FatVolume) (memory : FatMemory) (index : Nat) (item : FatDirectoryItem) :
    Option (Option FatDirectory) :=
  if !item.isSubdirectory then some none
  else if !memory.directory index then some none
  else do
    let cluster := toInt32 (fat16GetFirstCluster item)
    let totalItems ← fat16GetTotalItemsForDirectory v (toUInt32 (fat16ClusterToSector v cluster))
    let directorySize := toInt32 (totalItems * sizeofFatDirectoryItem)
    if !memory.items index then
      return some { item := none, total := totalItems, sectorPos := 0, endingSectorPos := 0, freed := true }
    let (res, written) := fat16ReadInternal v cluster 0 directorySize
    return some
      { item := some (directoryItems written)
        total := totalItems
        sectorPos := 0
        endingSectorPos := 0
        freed := res ≠ 0 }

/-! ### Items -/

/-- `struct fat_item`: `NULL` stands for a directory that could not be loaded, or a clone that could not be made. -/
inductive FatItem where
  | directory (directory : Option FatDirectory)
  | file (item : Option FatDirectoryItem)

/-- `fat16_new_fat_item_for_directory_item`, for the item at an index of its directory. -/
def fat16NewFatItemForDirectoryItem (v : FatVolume) (memory : FatMemory) (index : Nat) (item : FatDirectoryItem) :
    Option (Option FatItem) :=
  if !memory.fItem index then some none
  else if item.isSubdirectory then do
    let directory ← fat16LoadFatDirectory v memory index item
    return some (.directory directory)
  else some (some (.file (if memory.clone index then some item else none)))

/-- Whether `fat16_find_item_in_directory` takes an item for the one with a name. -/
def isNamed (item : FatDirectoryItem) (name : CString) : Prop :=
  istrncmp (fat16GetFullRelativeFilename item) name.bytes peachosMaxPath = 0

instance (item : FatDirectoryItem) (name : CString) : Decidable (isNamed item name) :=
  inferInstanceAs (Decidable (_ = _))

/-- The loop of `fat16_find_item_in_directory` over the items below an index. It goes on behind an item that it has
found. -/
def fat16FindItemLoop (v : FatVolume) (memory : FatMemory) (items : Nat → FatDirectoryItem) (name : CString) :
    (total : Nat) → Option (Option FatItem)
  | 0 => some none
  | i + 1 => do
      let fItem ← fat16FindItemLoop v memory items name i
      if isNamed (items i) name then fat16NewFatItemForDirectoryItem v memory i (items i) else return fItem

/-- `fat16_find_item_in_directory`. -/
def fat16FindItemInDirectory (v : FatVolume) (memory : FatMemory) (directory : FatDirectory) (name : CString) :
    Option (Option FatItem) :=
  match directory.item with
  | some items => fat16FindItemLoop v memory items name directory.total.toNat
  | none => if 0 < directory.total then none else some none

/-! ### Paths -/

/-- An object of the heap that belongs to the item of a part of a path: the item, or its directory. -/
inductive FatObject where
  | item (part : Nat)
  | directory (part : Nat)
deriving DecidableEq

/-- What is done to the objects: the pointer to one is followed, or one is freed. `none` is the null pointer. -/
inductive FatEvent where
  | follow (object : Option FatObject)
  | free (object : FatObject)
deriving DecidableEq

/-- `fat16_load_fat_directory`, for the item of a part. -/
def loadEvents (part : Nat) : Option FatItem → List FatEvent
  | some (.directory (some directory)) => if directory.freed then [.free (.directory part)] else []
  | _ => []

/-- `fat16_fat_item_free`. -/
def fat16FatItemFree (part : Nat) : FatItem → List FatEvent
  | .directory (some _) =>
      [.follow (some (.item part)), .follow (some (.directory part)), .free (.directory part), .free (.item part)]
  | _ => [.follow (some (.item part)), .free (.item part)]

/-- The loop of `fat16_get_directory_entry`, at the item of a part: what it does, and what it returns. A directory is
searched as it was loaded, whether it was freed or not. -/
def fat16GetDirectoryEntryLoop (v : FatVolume) (memory : Nat → FatMemory) :
    (part : Nat) → (currentItem : Option FatItem) → (nextParts : List CString) → List FatEvent × Option (Option FatItem)
  | _, currentItem, [] => ([], some currentItem)
  | _, none, _ :: _ => ([.follow none], none)
  | part, some (.file _), _ :: _ => ([.follow (some (.item part))], some none)
  | part, some (.directory none), _ :: _ => ([.follow (some (.item part)), .follow none], none)
  | part, some (.directory (some directory)), nextPart :: nextParts =>
      match fat16FindItemInDirectory v (memory (part + 1)) directory nextPart with
      | none => ([.follow (some (.item part)), .follow (some (.directory part))], none)
      | some tmpItem =>
          let rest := fat16GetDirectoryEntryLoop v memory (part + 1) tmpItem nextParts
          (.follow (some (.item part)) :: .follow (some (.directory part)) :: loadEvents (part + 1) tmpItem ++
            fat16FatItemFree part (.directory (some directory)) ++ rest.1, rest.2)

/-- `fat16_get_directory_entry`, for a path with its first part. -/
def fat16GetDirectoryEntry (v : FatVolume) (memory : Nat → FatMemory) (path : CString) (nextParts : List CString) :
    List FatEvent × Option (Option FatItem) :=
  match fat16FindItemInDirectory v (memory 0) v.rootDirectory path with
  | none => ([], none)
  | some none => ([], some none)
  | some (some rootItem) =>
      let rest := fat16GetDirectoryEntryLoop v memory 0 (some rootItem) nextParts
      (loadEvents 0 (some rootItem) ++ rest.1, rest.2)

/-! ### Files -/

/-- The loop of `fat16_read` with `i` items left: the result, the offset behind the last item, and the bytes that were
copied to the buffer of the caller. -/
def fat16ReadItems (v : FatVolume) (item : FatDirectoryItem) (size : Nat) : (i : Nat) → (offset : Int) → Int × Int × List Byte
  | 0, offset => (0, offset, [])
  | i + 1, offset =>
      let block := fat16ReadInternal v (toInt32 (fat16GetFirstCluster item)) offset (toInt32 size)
      if block.1 < 0 then (block.1, offset, block.2)
      else
        let rest := fat16ReadItems v item size i (toInt32 (offset + size))
        (rest.1, rest.2.1, block.2 ++ rest.2.2)

/-- `fat16_read` for a file of which the descriptor is at `pos`: the result, the position then, and the bytes that were
copied. -/
def fat16Read (v : FatVolume) (item : FatDirectoryItem) (pos size nmemb : Nat) : Int × Nat × List Byte :=
  let items := fat16ReadItems v item size nmemb (toInt32 pos)
  if items.1 < 0 then (items.1, pos, items.2.2) else (toInt32 nmemb, toUInt32 items.2.1, items.2.2)

end PeachOS
