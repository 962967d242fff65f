/-
**What the header of a volume must be for its arithmetic.**

`fat16_resolve` looks at the signature of a header only. The size of a cluster is a divisor, and the positions of the root
directory and of all clusters are computed from the header in an `int`.

* `loadSteps_safe`, `steps_safe` — the steps of a call are safe if those of all clusters are;
* `windowed_iff` — an interval of positions is not negative in 32 bits exactly if it is in a window;
* `headerSafe_iff` — the headers of which no volume divides by zero or seeks a negative position.
-/

import PeachOS.Fat16.Directory

namespace PeachOS

/-! ### Steps -/

/-- A step of the arithmetic: a division or remainder, or a position that is sought. -/
inductive DiskStep where
  | divide (divisor : Int)
  | seek (pos : Int)

/-- The divisor is not zero, or the position is not negative. -/
def DiskStep.Fine : DiskStep → Prop
  | .divide divisor => divisor ≠ 0
  | .seek pos => 0 ≤ pos

/-- **No step divides by zero or seeks a negative position.** -/
def SafeSteps (steps : List DiskStep) : Prop := ∀ step ∈ steps, step.Fine

section Steps

variable (v : FatVolume)

/-- `fat16_resolve`, in `fat16_get_root_directory`: its two divisions, and the two positions of the root directory. -/
def resolveSteps : List DiskStep :=
  [.divide v.sectorSize, .divide v.sectorSize, .seek (toInt32 (rootDirSectorPos v * v.sectorSize)),
    .seek (fat16SectorToAbsolute v (rootDirSectorPos v))]

/-- The loop of `fat16_get_cluster_for_offset`, with the position of each `fat16_get_fat_entry`. -/
def getClusterSteps : (i : Nat) → (clusterToUse : Nat) → List DiskStep
  | 0, _ => []
  | i + 1, clusterToUse =>
      let entry := toUInt16 (fat16GetFatEntry v clusterToUse)
      .seek (toInt32 (v.header.reservedSectors * v.sectorSize + (clusterToUse : Int) * 2)) ::
        if entry ≥ 0xFFF8 ∨ entry = peachosFat16BadSector ∨ (entry ≥ 0xFFF0 ∧ entry ≤ 0xFFF6) ∨ entry = 0x0000 then []
        else getClusterSteps i entry

/-- The position of a turn of the loop of `fat16_read_internal_from_stream`. -/
def turnPos (cluster : Nat) (σ : ClusterRead) : Int :=
  toInt32 (fat16ClusterToSector v (toUInt16 (fat16GetClusterForOffset v cluster σ.startingOffset)) * v.sectorSize +
    σ.startingOffset.tmod v.clusterBytes)

/-- How many bytes it reads. -/
def turnLength (σ : ClusterRead) : Int :=
  if v.clusterBytes - σ.startingOffset.tmod v.clusterBytes > σ.total then σ.total
  else v.clusterBytes - σ.startingOffset.tmod v.clusterBytes

/-- The state behind it. -/
def readTurn (cluster : Nat) (σ : ClusterRead) : ClusterRead where
  startingOffset := toInt32 (σ.startingOffset + turnLength v σ)
  total := σ.total - turnLength v σ
  bytesRead := σ.bytesRead + turnLength v σ
  written := σ.written ++ (List.range (turnLength v σ).toNat).map (v.read (turnPos v cluster σ) (turnLength v σ)).bytes
  res := 0

/-- The loop of `fat16_read_internal_from_stream`. A division by zero is its last step. -/
def readLoopSteps (cluster : Nat) : (fuel : Nat) → ClusterRead → List DiskStep
  | 0, _ => []
  | fuel + 1, σ =>
      if σ.total ≤ 0 then []
      else if v.clusterBytes = 0 then [.divide 0]
      else
        .divide v.clusterBytes :: getClusterSteps v (σ.startingOffset.tdiv v.clusterBytes).toNat cluster ++
          if fat16GetClusterForOffset v cluster σ.startingOffset < 0 then []
          else
            .divide v.clusterBytes :: .seek (turnPos v cluster σ) ::
              if (v.read (turnPos v cluster σ) (turnLength v σ)).res ≠ 0 then []
              else readLoopSteps cluster fuel (readTurn v cluster σ)

/-- `fat16_read_internal`. -/
def readInternalSteps (startingCluster offset total : Int) : List DiskStep :=
  readLoopSteps v (toUInt16 startingCluster) total.toNat ⟨offset, total, 0, [], 0⟩

/-- The loop of `fat16_read` with `i` items left. -/
def readItemsSteps (item : FatDirectoryItem) (size : Nat) : (i : Nat) → (offset : Int) → List DiskStep
  | 0, _ => []
  | i + 1, offset =>
      readInternalSteps v (toInt32 (fat16GetFirstCluster item)) offset (toInt32 size) ++
        if (fat16ReadInternal v (toInt32 (fat16GetFirstCluster item)) offset (toInt32 size)).1 < 0 then []
        else readItemsSteps item size i (toInt32 (offset + size))

/-- `fat16_load_fat_directory`, for the item at an index of its directory. -/
def loadSteps (memory : FatMemory) (index : Nat) (item : FatDirectoryItem) : List DiskStep :=
  let cluster := toInt32 (fat16GetFirstCluster item)
  let clusterSector := toUInt32 (fat16ClusterToSector v cluster)
  .seek (toInt32 (clusterSector * v.sectorSize)) ::
    match fat16GetTotalItemsForDirectory v clusterSector with
    | none => []
    | some totalItems =>
        if memory.items index then readInternalSteps v cluster 0 (toInt32 (totalItems * sizeofFatDirectoryItem)) else []

/-! ### Calls -/

/-- An item of which `fat16_load_fat_directory` loads the directory, its index, and the memory then. -/
structure LoadedItem where
  memory : FatMemory
  index : Nat
  item : FatDirectoryItem

/-- The items that `fat16_find_item_in_directory` loads: all subdirectories of the name. -/
def itemsLoaded (memory : FatMemory) (items : Nat → FatDirectoryItem) (name : CString) (total : Nat) : List LoadedItem :=
  ((List.range total).filter fun i =>
    isNamed (items i) name ∧ memory.fItem i = true ∧ (items i).isSubdirectory = true ∧ memory.directory i = true).map fun i =>
      ⟨memory, i, items i⟩

/-- Those of a directory. -/
def loadedInDirectory (memory : FatMemory) (directory : FatDirectory) (name : CString) : List LoadedItem :=
  match directory.item with
  | some items => itemsLoaded memory items name directory.total.toNat
  | none => []

/-- The items that the loop of `fat16_get_directory_entry` loads, behind the item of a part. -/
def loadedByParts (memory : Nat → FatMemory) : (part : Nat) → (currentItem : Option FatItem) → (nextParts : List CString) →
    List LoadedItem
  | part, some (.directory (some directory)), nextPart :: nextParts =>
      loadedInDirectory (memory (part + 1)) directory nextPart ++
        match fat16FindItemInDirectory v (memory (part + 1)) directory nextPart with
        | none => []
        | some tmpItem => loadedByParts memory (part + 1) tmpItem nextParts
  | _, _, _ => []

/-- The items that `fat16_open` loads. -/
def loadedByOpen (memory : Nat → FatMemory) (path : CString) (nextParts : List CString) : List LoadedItem :=
  loadedInDirectory (memory 0) v.rootDirectory path ++
    match fat16FindItemInDirectory v (memory 0) v.rootDirectory path with
    | none => []
    | some rootItem => loadedByParts v memory 0 rootItem nextParts

/-- A call on a volume. A file is open with its item, at its position. -/
inductive VolumeCall where
  | fopen (memory : Nat → FatMemory) (path : CString) (nextParts : List CString)
  | fread (item : FatDirectoryItem) (pos size nmemb : Nat)
  | fseek (offset seekMode : Nat)
  | fstat

/-- Its steps. `fat16_seek` and `fat16_stat` only look at the item that is open. -/
def VolumeCall.steps : VolumeCall → List DiskStep
  | .fopen memory path nextParts =>
      (loadedByOpen v memory path nextParts).flatMap fun loaded => loadSteps v loaded.memory loaded.index loaded.item
  | .fread item pos size nmemb => readItemsSteps v item size nmemb (toInt32 pos)
  | .fseek _ _ => []
  | .fstat => []

/-- The subdirectories that a call loads begin at clusters of 16 bits, and the file that it reads was opened. -/
def VolumeCall.IsRegular : VolumeCall → Prop
  | .fopen memory path nextParts => ∀ loaded ∈ loadedByOpen v memory path nextParts, fat16GetFirstCluster loaded.item < 2 ^ 16
  | .fread item _ _ _ => ∃ memory path nextParts, (fat16GetDirectoryEntry v memory path nextParts).2 =
    some (some (.file (some item)))
  | _ => True

end Steps

/-! ### Headers -/

/-- The fields of a BIOS parameter block. -/
structure FatHeader.IsBlock (header : FatHeader) : Prop where
  sectorsPerCluster : header.sectorsPerCluster < 2 ^ 8
  reservedSectors : header.reservedSectors < 2 ^ 16
  fatCopies : header.fatCopies < 2 ^ 8
  rootDirEntries : header.rootDirEntries < 2 ^ 16
  sectorsPerFat : header.sectorsPerFat < 2 ^ 16

/-- **A volume that `fat16_resolve` accepts** with a header, whatever is on the disk behind it. -/
structure IsResolved (header : FatHeader) (v : FatVolume) : Prop where
  header : v.header = header
  sector : v.sectorSize = 512
  root : fat16GetRootDirectory v = some (.ok v.rootDirectory)

/-- **A header is safe**: on a volume with it, neither resolving nor any calls afterwards divide by zero or seek a negative
position, if the subdirectories begin at clusters of 16 bits. -/
def HeaderSafe (header : FatHeader) : Prop :=
  ∀ v, IsResolved header v → ∀ calls : List VolumeCall, (∀ call ∈ calls, call.IsRegular v) →
    SafeSteps (resolveSteps v ++ calls.flatMap fun call => call.steps v)

/-- The sector of the root directory. -/
def FatHeader.rootSector (header : FatHeader) : Nat := header.fatCopies * header.sectorsPerFat + header.reservedSectors

/-- The first sector behind it. -/
def FatHeader.dataSector (header : FatHeader) : Nat := header.rootSector + (header.rootDirEntries * 32 + 511) / 512

/-- **When a header is safe**: its clusters have sectors, its root directory begins in the first half of the 32-bit positions, and
all clusters, with the one in front of the first of them, lie in one such half. -/
structure FatHeader.Fits (header : FatHeader) : Prop where
  sectors : header.sectorsPerCluster ≠ 0
  root : header.rootSector * 512 % 2 ^ 32 < 2 ^ 31
  clusters : ∃ window : Nat, window * 2 ^ 32 + 3 * (header.sectorsPerCluster * 512) ≤ header.dataSector * 512 + 1 ∧
    header.dataSector * 512 + 65534 * (header.sectorsPerCluster * 512) ≤ window * 2 ^ 32 + 2 ^ 31

/-! ### Positions in 32 bits -/

/-- A position in 32 bits is not negative in the first half. -/
theorem toInt32_nonneg (value : Int) : 0 ≤ toInt32 value ↔ value % 2 ^ 32 < 2 ^ 31 := by
  unfold toInt32
  split <;> omega

/-- The sector of a position may be reduced before. -/
theorem toInt32_mul_add (sector behind : Int) : toInt32 (toInt32 sector * 512 + behind) = toInt32 (sector * 512 + behind) :=
  toInt32_congr (by rw [Int.add_emod, Int.mul_emod, toInt32_emod, ← Int.mul_emod, ← Int.add_emod])

theorem toInt32_toUInt32_mul (sector : Int) : toInt32 (toUInt32 sector * 512) = toInt32 (sector * 512) := by
  refine toInt32_congr ?_
  unfold toUInt32
  omega

/-- **An interval lies in one half**, exactly if all of it does modulo `2 ^ 32`. -/
theorem windowed_iff {low high : Int} (order : low ≤ high) (near : -2 ^ 31 ≤ low) :
    (∀ pos, low ≤ pos → pos ≤ high → pos % 2 ^ 32 < 2 ^ 31) ↔
      ∃ window : Nat, (window : Int) * 2 ^ 32 ≤ low ∧ high < (window : Int) * 2 ^ 32 + 2 ^ 31 := by
  constructor
  · intro all
    have first := all low le_rfl order
    refine ⟨(low / 2 ^ 32).toNat, by omega, ?_⟩
    by_contra beyond
    -- the interval would hold the first position of a second half
    have crossed := all (low / 2 ^ 32 * 2 ^ 32 + 2 ^ 31) (by omega) (by omega)
    omega
  · rintro ⟨window, begins, ends⟩ pos above below
    omega

/-! ### The steps of a call -/

@[simp]
theorem safeSteps_nil : SafeSteps [] := fun _ isStep => absurd isStep List.not_mem_nil

@[simp]
theorem safeSteps_cons (step : DiskStep) (steps : List DiskStep) : SafeSteps (step :: steps) ↔ step.Fine ∧ SafeSteps steps :=
  List.forall_mem_cons

@[simp]
theorem safeSteps_append (first second : List DiskStep) : SafeSteps (first ++ second) ↔ SafeSteps first ∧ SafeSteps second :=
  List.forall_mem_append

/-- **The positions around the starts of all clusters are not negative.** -/
def SeeksClusters (v : FatVolume) : Prop :=
  ∀ cluster < 2 ^ 16, ∀ behind : Int, -v.clusterBytes < behind → behind < v.clusterBytes →
    0 ≤ toInt32 (fat16ClusterToSector v (cluster : Nat) * v.sectorSize + behind)

theorem toUInt16_lt (value : Int) : toUInt16 value < 2 ^ 16 := by
  unfold toUInt16
  omega

section Calls

variable {v : FatVolume} (table : v.header.reservedSectors * v.sectorSize + 2 ^ 17 ≤ 2 ^ 31) (nonzero : v.clusterBytes ≠ 0)
  (seeks : SeeksClusters v)

include table in
theorem getClusterSteps_safe (links : Nat) :
    ∀ {cluster : Nat}, cluster < 2 ^ 16 → SafeSteps (getClusterSteps v links cluster) := by
  induction links with
  | zero => exact fun _ => safeSteps_nil
  | succ links ih =>
      intro cluster small
      rw [getClusterSteps]
      refine (safeSteps_cons _ _).mpr ⟨?_, ?_⟩
      · show 0 ≤ toInt32 _
        rw [toInt32_of_bounds (by omega) (by omega)]
        omega
      · split
        · exact safeSteps_nil
        · exact ih (toUInt16_lt _)

include table nonzero seeks in
/-- **One read**, from any state. -/
theorem readLoopSteps_safe {cluster : Nat} (small : cluster < 2 ^ 16) (fuel : Nat) :
    ∀ σ, SafeSteps (readLoopSteps v cluster fuel σ) := by
  induction fuel with
  | zero => exact fun _ => safeSteps_nil
  | succ fuel ih =>
      intro σ
      have divides : (DiskStep.divide v.clusterBytes).Fine := Int.natCast_ne_zero.mpr nonzero
      have positive : (0 : Int) < v.clusterBytes := Int.natCast_pos.mpr (Nat.pos_of_ne_zero nonzero)
      have isPos : (DiskStep.seek (turnPos v cluster σ)).Fine :=
        seeks _ (toUInt16_lt _) _ (Int.lt_tmod_of_pos _ positive) (Int.tmod_lt_of_pos _ positive)
      rw [readLoopSteps]
      by_cases done : σ.total ≤ 0
      · rw [if_pos done]
        exact safeSteps_nil
      · rw [if_neg done, if_neg nonzero, List.cons_append, safeSteps_cons, safeSteps_append]
        refine ⟨divides, getClusterSteps_safe table _ small, ?_⟩
        split
        · exact safeSteps_nil
        · rw [safeSteps_cons, safeSteps_cons]
          refine ⟨divides, isPos, ?_⟩
          split
          · exact safeSteps_nil
          · exact ih _

include table nonzero seeks in
theorem readInternalSteps_safe (startingCluster offset total : Int) :
    SafeSteps (readInternalSteps v startingCluster offset total) :=
  readLoopSteps_safe table nonzero seeks (toUInt16_lt _) _ _

include table nonzero seeks in
/-- **Reading a file.** -/
theorem readItemsSteps_safe (item : FatDirectoryItem) (size nmemb : Nat) :
    ∀ offset, SafeSteps (readItemsSteps v item size nmemb offset) := by
  induction nmemb with
  | zero => exact fun _ => safeSteps_nil
  | succ nmemb ih =>
      intro offset
      rw [readItemsSteps, safeSteps_append]
      refine ⟨readInternalSteps_safe table nonzero seeks _ _ _, ?_⟩
      split
      · exact safeSteps_nil
      · exact ih _

include table nonzero seeks in
/-- **Loading a directory** that begins at a cluster of 16 bits. -/
theorem loadSteps_safe (sector : v.sectorSize = 512) (memory : FatMemory) (index : Nat) {item : FatDirectoryItem}
    (small : fat16GetFirstCluster item < 2 ^ 16) : SafeSteps (loadSteps v memory index item) := by
  have isCluster : toInt32 (fat16GetFirstCluster item) = fat16GetFirstCluster item := toInt32_of_bounds (by omega) (by omega)
  have positive : (0 : Int) < v.clusterBytes := Int.natCast_pos.mpr (Nat.pos_of_ne_zero nonzero)
  have isPos := seeks _ small 0 (by omega) positive
  rw [add_zero, sector] at isPos
  unfold loadSteps
  dsimp only
  rw [safeSteps_cons, isCluster, sector]
  refine ⟨?_, ?_⟩
  · show 0 ≤ toInt32 _
    rw [show ((512 : Nat) : Int) = 512 from rfl, toInt32_toUInt32_mul]
    exact isPos
  · split
    · exact safeSteps_nil
    · split
      · exact readInternalSteps_safe table nonzero seeks _ _ _
      · exact safeSteps_nil

include table nonzero seeks in
/-- **Any call.** -/
theorem VolumeCall.steps_safe (sector : v.sectorSize = 512) (call : VolumeCall) (regular : call.IsRegular v) :
    SafeSteps (call.steps v) := by
  cases call with
  | fopen memory path nextParts =>
      intro step isStep
      obtain ⟨loaded, isLoaded, isIn⟩ := List.mem_flatMap.mp isStep
      exact loadSteps_safe table nonzero seeks sector _ _ (regular loaded isLoaded) step isIn
  | fread item pos size nmemb => exact readItemsSteps_safe table nonzero seeks item size nmemb _
  | fseek offset seekMode => exact safeSteps_nil
  | fstat => exact safeSteps_nil

end Calls

/-! ### The positions of a header -/

/-- Where the data clusters of a root directory begin. -/
theorem rootDirectory_ending {v : FatVolume} {directory : FatDirectory}
    (isLoaded : fat16GetRootDirectory v = some (.ok directory)) :
    directory.endingSectorPos = rootDirSectorPos v + ((v.header.rootDirEntries * sizeofFatDirectoryItem / v.sectorSize +
      if v.header.rootDirEntries * sizeofFatDirectoryItem % v.sectorSize ≠ 0 then 1 else 0 : Nat) : Int) := by
  unfold fat16GetRootDirectory at isLoaded
  cases total : fat16GetTotalItemsForDirectory v (rootDirSectorPos v) with
  | none =>
      rw [total] at isLoaded
      cases isLoaded
  | some totalItems =>
      rw [total, Option.bind_eq_bind, Option.bind_some] at isLoaded
      dsimp only at isLoaded
      split at isLoaded
      · cases isLoaded
      · cases isLoaded
        rfl

/-- A position has a cluster, the first one if it is in front of all of them. -/
theorem exists_cluster {base pos : Int} {size : Nat} (positive : 0 < size) (above : base + 1 - 3 * size ≤ pos)
    (below : pos ≤ base + 65534 * size - 1) :
    ∃ cluster < 2 ^ 16, ∃ behind : Int, -size < behind ∧ behind < size ∧ pos =
      base + ((cluster : Nat) - 2 : Int) * size + behind := by
  by_cases early : pos < base - 2 * size
  · refine ⟨0, by decide, pos - base + 2 * size, by omega, by omega, ?_⟩
    rw [Nat.cast_zero]
    ring
  · have split := Int.ediv_mul_add_emod (pos - base + 2 * size) size
    have begins : 0 ≤ (pos - base + 2 * size) / size := Int.ediv_nonneg (by omega) (by omega)
    have isLow := Int.emod_nonneg (pos - base + 2 * size) (show (size : Int) ≠ 0 by omega)
    have isHigh := Int.emod_lt_of_pos (pos - base + 2 * size) (show (0 : Int) < size by omega)
    have few : (pos - base + 2 * size) / size < 2 ^ 16 := Int.ediv_lt_of_lt_mul (by omega) (by omega)
    refine ⟨((pos - base + 2 * size) / size).toNat, by omega, (pos - base + 2 * size) % size, by omega, isHigh, ?_⟩
    rw [Int.toNat_of_nonneg begins, sub_mul]
    omega

section Header

variable {header : FatHeader} {v : FatVolume}

theorem IsResolved.clusterBytes (resolved : IsResolved header v) : v.clusterBytes = header.sectorsPerCluster * 512 := by
  rw [FatVolume.clusterBytes, resolved.header, resolved.sector]

theorem IsResolved.rootSector (resolved : IsResolved header v) : rootDirSectorPos v = header.rootSector := by
  rw [rootDirSectorPos, resolved.header, FatHeader.rootSector, Nat.cast_add, Nat.cast_mul]

theorem IsResolved.dataSector (resolved : IsResolved header v) : v.rootDirectory.endingSectorPos = header.dataSector := by
  rw [rootDirectory_ending resolved.root, resolved.rootSector, resolved.header, resolved.sector, ← Nat.cast_add,
    FatHeader.dataSector]
  unfold sizeofFatDirectoryItem
  split <;> omega

/-- The position of a cluster. -/
theorem IsResolved.position (resolved : IsResolved header v) (cluster : Nat) (behind : Int) :
    toInt32 (fat16ClusterToSector v (cluster : Nat) * v.sectorSize + behind) =
      toInt32 (header.dataSector * 512 + ((cluster : Int) - 2) * v.clusterBytes + behind) := by
  rw [fat16ClusterToSector, resolved.dataSector, resolved.sector, show ((512 : Nat) : Int) = 512 from rfl, toInt32_mul_add,
    resolved.clusterBytes, resolved.header]
  push_cast
  congr 1
  ring

/-- **The positions of all clusters**, of which the size is not zero. -/
theorem IsResolved.seeks_iff (resolved : IsResolved header v) (block : header.IsBlock) (nonzero : header.sectorsPerCluster ≠ 0) :
    SeeksClusters v ↔ ∃ window : Nat, window * 2 ^ 32 + 3 * (header.sectorsPerCluster * 512) ≤ header.dataSector * 512 + 1 ∧
      header.dataSector * 512 + 65534 * (header.sectorsPerCluster * 512) ≤ window * 2 ^ 32 + 2 ^ 31 := by
  have few := block.sectorsPerCluster
  have size := resolved.clusterBytes
  have intervals : SeeksClusters v ↔ ∀ pos : Int, (header.dataSector : Int) * 512 + 1 - 3 * v.clusterBytes ≤ pos →
      pos ≤ (header.dataSector : Int) * 512 + 65534 * v.clusterBytes - 1 → pos % 2 ^ 32 < 2 ^ 31 := by
    constructor
    · intro seeks pos above below
      obtain ⟨cluster, small, behind, low, high, isPos⟩ := exists_cluster (by omega) above below
      rw [isPos, ← toInt32_nonneg, ← resolved.position]
      exact seeks cluster small behind low high
    · intro all cluster small behind low high
      rw [resolved.position, toInt32_nonneg]
      have least : (-2 : Int) * v.clusterBytes ≤ ((cluster : Int) - 2) * v.clusterBytes :=
        Int.mul_le_mul_of_nonneg_right (by omega) (Int.natCast_nonneg _)
      have most : ((cluster : Int) - 2) * v.clusterBytes ≤ 65533 * v.clusterBytes :=
        Int.mul_le_mul_of_nonneg_right (by omega) (Int.natCast_nonneg _)
      exact all _ (by omega) (by omega)
  rw [intervals, windowed_iff (by omega) (by omega)]
  refine exists_congr fun window => ?_
  omega

theorem IsResolved.clusterBytes_lt (resolved : IsResolved header v) (block : header.IsBlock) : v.clusterBytes < 2 ^ 31 := by
  have few := block.sectorsPerCluster
  rw [resolved.clusterBytes]
  omega

/-- The positions of the table are below `2 ^ 26`. -/
theorem IsResolved.table (resolved : IsResolved header v) (block : header.IsBlock) :
    v.header.reservedSectors * v.sectorSize + 2 ^ 17 ≤ 2 ^ 31 := by
  have few := block.reservedSectors
  rw [resolved.header, resolved.sector]
  omega

/-- **Where a header fits, all steps are safe.** -/
theorem FatHeader.Fits.safe (fits : header.Fits) (block : header.IsBlock) : HeaderSafe header := by
  intro v resolved calls regular
  have nonzero : v.clusterBytes ≠ 0 := by
    have := fits.sectors
    rw [resolved.clusterBytes]
    omega
  have seeks := (resolved.seeks_iff block fits.sectors).mpr fits.clusters
  have divides : (DiskStep.divide v.sectorSize).Fine := by
    rw [resolved.sector]
    exact (by decide : ((512 : Nat) : Int) ≠ 0)
  have root : (DiskStep.seek (toInt32 (rootDirSectorPos v * v.sectorSize))).Fine := by
    have := fits.root
    refine (toInt32_nonneg _).mpr ?_
    rw [resolved.rootSector, resolved.sector]
    omega
  rw [safeSteps_append]
  refine ⟨by simp only [resolveSteps, fat16SectorToAbsolute, safeSteps_cons, safeSteps_nil, divides, root, and_self], ?_⟩
  intro step isStep
  obtain ⟨call, isCall, isIn⟩ := List.mem_flatMap.mp isStep
  exact call.steps_safe (resolved.table block) nonzero seeks resolved.sector (regular call isCall) step isIn

end Header

/-! ### A volume with one file -/

/-- The entry of a file `A` that begins at a cluster. -/
def fileEntry (cluster k : Nat) : Byte :=
  if k = 0 then 0x41#8 else if k = 26 then BitVec.ofNat 8 cluster else if k = 27 then BitVec.ofNat 8 (cluster / 256) else 0x00#8

/-- The position of the root directory. -/
def FatHeader.rootPos (header : FatHeader) : Int := toInt32 (header.rootSector * 512)

/-- A disk with this entry at the start of the root directory. -/
def oneFile (header : FatHeader) (cluster : Nat) (pos : Int) : Byte :=
  if header.rootPos ≤ pos ∧ pos < header.rootPos + 32 then fileEntry cluster (pos - header.rootPos).toNat else 0x00#8

/-- The volume on it, with the root directory as it is loaded. -/
def oneFileVolume (header : FatHeader) (cluster : Nat) : FatVolume where
  sectorSize := 512
  header := header
  rootDirectory :=
    { item := some (directoryItems ((List.range (header.rootDirEntries * 32)).map
        fun (k : Nat) => oneFile header cluster (header.rootPos + k)))
      total := 1
      sectorPos := header.rootSector
      endingSectorPos := header.rootSector +
        ((header.rootDirEntries * 32 / 512 + if header.rootDirEntries * 32 % 512 ≠ 0 then 1 else 0 : Nat) : Int)
      freed := false }
  read := fun pos _ => ⟨0, fun k => oneFile header cluster (pos + k)⟩

section OneFile

variable (header : FatHeader) (cluster : Nat)

theorem firstByte_eq (bytes : Nat → Byte) : (fatDirectoryItem bytes).firstByte = bytes 0 := rfl

theorem oneFile_entry {k : Nat} (inside : k < 32) : oneFile header cluster (header.rootPos + k) = fileEntry cluster k := by
  rw [oneFile, if_pos ⟨by omega, by omega⟩, add_sub_cancel_left, Int.toNat_natCast]

/-- One item is counted. -/
theorem oneFile_total (fuel : Nat) :
    fat16GetTotalItemsLoop (oneFileVolume header cluster) (fuel + 1 + 1) header.rootPos 0 = some 1 := by
  have outside : ¬ (header.rootPos ≤ toInt32 (header.rootPos + (32 : Nat)) ∧
      toInt32 (header.rootPos + (32 : Nat)) < header.rootPos + 32) := by
    unfold FatHeader.rootPos toInt32
    split <;> split <;> omega
  have first : oneFile header cluster (header.rootPos + (0 : Nat)) = 0x41#8 := oneFile_entry header cluster (by decide)
  have second : oneFile header cluster (toInt32 (header.rootPos + (32 : Nat)) + (0 : Nat)) = 0x00#8 := by
    rw [Nat.cast_zero, add_zero, oneFile, if_neg outside]
  rw [fat16GetTotalItemsLoop]
  unfold oneFileVolume at *
  dsimp only
  rw [if_neg (not_not.mpr rfl), firstByte_eq, first, if_neg (by decide), if_neg (by decide), fat16GetTotalItemsLoop]
  dsimp only
  rw [if_neg (not_not.mpr rfl), firstByte_eq, second, if_pos rfl]
  rfl

theorem oneFile_resolved : IsResolved header (oneFileVolume header cluster) := by
  refine ⟨rfl, rfl, ?_⟩
  have sector : rootDirSectorPos (oneFileVolume header cluster) = header.rootSector := by
    rw [FatHeader.rootSector, Nat.cast_add, Nat.cast_mul]
    rfl
  have counted := oneFile_total header cluster (2 ^ 27 - 2)
  have turns : 2 ^ 27 - 2 + 1 + 1 = 2 ^ 27 := by decide
  rw [turns] at counted
  have total : fat16GetTotalItemsForDirectory (oneFileVolume header cluster) header.rootSector = some 1 := counted
  have absolute : fat16SectorToAbsolute (oneFileVolume header cluster) header.rootSector = header.rootPos := rfl
  have ok : ∀ total, ((oneFileVolume header cluster).read header.rootPos total).res = 0 := fun _ => rfl
  unfold fat16GetRootDirectory
  dsimp only
  rw [sector, total, absolute, Option.bind_eq_bind, Option.bind_some, if_neg (by rw [ok]; exact fun differs => differs rfl)]
  dsimp only [oneFileVolume]
  rfl

/-- The file is opened. -/
theorem oneFile_opened (entries : 0 < header.rootDirEntries) :
    (fat16GetDirectoryEntry (oneFileVolume header cluster) (fun _ => plenty) nameA []).2 =
      some (some (.file (some (fatDirectoryItem (fileEntry cluster))))) := by
  have isItem : directoryItems ((List.range (header.rootDirEntries * 32)).map fun (k : Nat) => oneFile header cluster
    (header.rootPos + k)) 0 =
      fatDirectoryItem (fileEntry cluster) := by
    refine fatDirectoryItem_congr fun k inside => ?_
    unfold sizeofFatDirectoryItem at *
    rw [Nat.zero_mul, Nat.zero_add, List.getD_eq_getElem?_getD, List.getElem?_map, List.getElem?_range (by omega),
      Option.map_some,
      Option.getD_some, oneFile_entry header cluster inside]
  have found : fat16FindItemInDirectory (oneFileVolume header cluster) plenty (oneFileVolume header cluster).rootDirectory nameA =
      some (some (.file (some (fatDirectoryItem (fileEntry cluster))))) := by
    have name : fat16GetFullRelativeFilename (fatDirectoryItem (fileEntry cluster)) = [0x41#8] := rfl
    have named : isNamed (fatDirectoryItem (fileEntry cluster)) nameA := by
      unfold isNamed
      rw [name]
      decide
    have noAttribute : (fatDirectoryItem (fileEntry cluster)).fileAttribute = 0x00#8 := rfl
    have isFile : (fatDirectoryItem (fileEntry cluster)).isSubdirectory = false := by
      rw [FatDirectoryItem.isSubdirectory, noAttribute]
      decide
    have noneBefore : ∀ items, fat16FindItemLoop (oneFileVolume header cluster) plenty items nameA 0 = some none := fun _ => rfl
    show fat16FindItemLoop (oneFileVolume header cluster) plenty _ nameA 1 = _
    rw [fat16FindItemLoop, isItem, noneBefore, Option.bind_eq_bind, Option.bind_some, if_pos named,
      fat16NewFatItemForDirectoryItem, isFile]
    rfl
  rw [fat16GetDirectoryEntry, found]
  rfl

theorem oneFile_cluster (small : cluster < 2 ^ 16) : fat16GetFirstCluster (fatDirectoryItem (fileEntry cluster)) = cluster := by
  have high : (fatDirectoryItem (fileEntry cluster)).high16BitsFirstCluster = 0 := rfl
  have low : (fatDirectoryItem (fileEntry cluster)).low16BitsFirstCluster =
      (BitVec.ofNat 8 cluster).toNat + 2 ^ 8 * ((BitVec.ofNat 8 (cluster / 256)).toNat + 2 ^ 8 * 0) := rfl
  rw [fat16GetFirstCluster, high, low, BitVec.toNat_ofNat, BitVec.toNat_ofNat]
  omega

end OneFile

/-! ### The first turn of a read -/

section FirstTurn

variable {v : FatVolume} {item : FatDirectoryItem} {cluster : Nat}

/-- A read of one byte begins with a turn at its cluster. -/
theorem readOne_steps (small : cluster < 2 ^ 16) (isFirst : fat16GetFirstCluster item = cluster) {behind : Int}
    (low : -2 ^ 31 ≤ behind) (high : behind < 2 ^ 31) :
    ∃ later, (VolumeCall.fread item (toUInt32 behind) 1 1).steps v =
      readLoopSteps v cluster 1 ⟨behind, 1, 0, [], 0⟩ ++ later := by
  have offset : toInt32 (toUInt32 behind) = behind := by
    unfold toInt32 toUInt32
    split <;> omega
  have unsigned : toUInt16 (toInt32 cluster) = cluster := by
    rw [toInt32_of_bounds (by omega) (by omega)]
    exact toUInt16_natCast small
  have one : toInt32 ((1 : Nat) : Int) = 1 := rfl
  rw [VolumeCall.steps, readItemsSteps, offset, readInternalSteps, isFirst, unsigned, one]
  exact ⟨_, rfl⟩

/-- Where clusters have no size, it divides by zero. -/
theorem readOne_divides (small : cluster < 2 ^ 16) (isFirst : fat16GetFirstCluster item = cluster) (zero : v.clusterBytes = 0) :
    DiskStep.divide 0 ∈ (VolumeCall.fread item (toUInt32 0) 1 1).steps v := by
  obtain ⟨later, isSteps⟩ := @readOne_steps v item cluster small isFirst 0 (by decide) (by decide)
  rw [isSteps, readLoopSteps]
  dsimp only
  rw [if_neg (by decide), if_pos zero]
  exact List.mem_append_left _ (List.mem_singleton.mpr rfl)

/-- Near zero, there is no quotient. -/
theorem tdiv_near {size behind : Int} (low : -size < behind) (high : behind < size) :
    (behind.tdiv size).toNat = 0 ∧ behind.tmod size = behind := by
  by_cases early : behind < 0
  · obtain ⟨before, rfl⟩ : ∃ before : Int, behind = -before := ⟨-behind, (neg_neg behind).symm⟩
    rw [Int.neg_tdiv, Int.neg_tmod, Int.tdiv_eq_zero_of_lt (by omega) (by omega), Int.tmod_eq_of_lt (by omega) (by omega)]
    exact ⟨rfl, rfl⟩
  · rw [Int.tdiv_eq_zero_of_lt (by omega) high, Int.tmod_eq_of_lt (by omega) high]
    exact ⟨rfl, rfl⟩

/-- It seeks the position of its offset in the first cluster, in front of which negative ones lie. -/
theorem readOne_seeks (small : cluster < 2 ^ 16) (isFirst : fat16GetFirstCluster item = cluster) {behind : Int}
    (few : v.clusterBytes < 2 ^ 31) (low : -v.clusterBytes < behind) (high : behind < v.clusterBytes) :
    DiskStep.seek (toInt32 (fat16ClusterToSector v (cluster : Nat) * v.sectorSize + behind)) ∈
      (VolumeCall.fread item (toUInt32 behind) 1 1).steps v := by
  obtain ⟨later, isSteps⟩ := @readOne_steps v item cluster small isFirst behind (by omega) (by omega)
  obtain ⟨quotient, remainder⟩ := tdiv_near low high
  have isCluster : fat16GetClusterForOffset v cluster behind = cluster := by
    rw [fat16GetClusterForOffset, quotient, fat16GetClusterLoop]
  have isPos : turnPos v cluster ⟨behind, 1, 0, [], 0⟩ =
      toInt32 (fat16ClusterToSector v (cluster : Nat) * v.sectorSize + behind) := by
    unfold turnPos
    rw [isCluster, remainder, toUInt16_natCast small]
  rw [isSteps, readLoopSteps]
  dsimp only
  rw [if_neg (by decide), if_neg (by omega), isCluster, if_neg (by omega), isPos]
  refine List.mem_append_left _ (List.mem_append_right _ ?_)
  exact List.mem_cons_of_mem _ List.mem_cons_self

end FirstTurn

/-! ### The result -/

/-- **When a header is safe**, for every BIOS parameter block: it is if it fits, and if its root directory has entries it fits
if it is. -/
theorem headerSafe_iff {header : FatHeader} (block : header.IsBlock) :
    (header.Fits → HeaderSafe header) ∧ (0 < header.rootDirEntries → (HeaderSafe header ↔ header.Fits)) := by
  refine ⟨fun fits => fits.safe block, fun entries => ⟨fun safe => ?_, fun fits => fits.safe block⟩⟩
  have readSafe : ∀ cluster < 2 ^ 16, ∀ pos, SafeSteps
      ((VolumeCall.fread (fatDirectoryItem (fileEntry cluster)) pos 1 1).steps (oneFileVolume header cluster)) := by
    intro cluster small pos
    have opened := oneFile_opened header cluster entries
    have steps := safe _ (oneFile_resolved header cluster) [.fread (fatDirectoryItem (fileEntry cluster)) pos 1 1]
        fun call isCall => by
      rw [List.mem_singleton.mp isCall]
      exact ⟨_, _, _, opened⟩
    rw [safeSteps_append, List.flatMap_singleton] at steps
    exact steps.2
  have sectors : header.sectorsPerCluster ≠ 0 := by
    intro zero
    have size : (oneFileVolume header 2).clusterBytes = 0 := by
      rw [(oneFile_resolved header 2).clusterBytes, zero]
    exact readSafe 2 (by decide) _ _ (readOne_divides (by decide) (oneFile_cluster 2 (by decide)) size) rfl
  have seeks : SeeksClusters (oneFileVolume header 0) := by
    intro cluster small behind low high
    have size : (oneFileVolume header 0).clusterBytes = (oneFileVolume header cluster).clusterBytes := by
      rw [(oneFile_resolved header 0).clusterBytes, (oneFile_resolved header cluster).clusterBytes]
    rw [size] at low high
    have isSeek := @readOne_seeks (oneFileVolume header cluster) (fatDirectoryItem (fileEntry cluster)) cluster small
      (oneFile_cluster cluster small) behind ((oneFile_resolved header cluster).clusterBytes_lt block) low high
    have isPos := readSafe cluster small (toUInt32 behind) _ isSeek
    rw [(oneFile_resolved header 0).position, size, ← (oneFile_resolved header cluster).position]
    exact isPos
  refine ⟨sectors, ?_, ((oneFile_resolved header 0).seeks_iff block sectors).mp seeks⟩
  have resolves := safe _ (oneFile_resolved header 0) [] fun call isCall => absurd isCall List.not_mem_nil
  have isPos : 0 ≤ toInt32 (rootDirSectorPos (oneFileVolume header 0) * (oneFileVolume header 0).sectorSize) :=
    resolves (.seek _) (by simp [resolveSteps])
  rw [toInt32_nonneg, (oneFile_resolved header 0).rootSector, (oneFile_resolved header 0).sector] at isPos
  omega

/-- A header of clusters of one sector, as of a small volume. -/
theorem headerSafe_plain : HeaderSafe ⟨1, 1, 1, 496, 1⟩ :=
  (headerSafe_iff ⟨by decide, by decide, by decide, by decide, by decide⟩).1 ⟨by decide, by decide, 0, by decide, by decide⟩

/-- **A header without sectors in a cluster is accepted**, and a read of a file divides by zero. -/
theorem noSectors_divides :
    ¬ (∀ header : FatHeader, header.IsBlock → HeaderSafe header) ∧
      DiskStep.divide 0 ∈ (VolumeCall.fread (fatDirectoryItem (fileEntry 2)) 0 1 1).steps
        (oneFileVolume ⟨0, 1, 1, 496, 1⟩ 2) := by
  have divides : DiskStep.divide 0 ∈
      (VolumeCall.fread (fatDirectoryItem (fileEntry 2)) 0 1 1).steps (oneFileVolume ⟨0, 1, 1, 496, 1⟩ 2) :=
    readOne_divides (by decide) (oneFile_cluster 2 (by decide)) rfl
  refine ⟨fun all => ?_, divides⟩
  have safe := all ⟨0, 1, 1, 496, 1⟩ ⟨by decide, by decide, by decide, by decide, by decide⟩ _ (oneFile_resolved _ 2)
    [.fread (fatDirectoryItem (fileEntry 2)) 0 1 1] fun call isCall => by
      rw [List.mem_singleton.mp isCall]
      exact ⟨_, _, _, oneFile_opened _ 2 (by decide)⟩
  rw [safeSteps_append, List.flatMap_singleton] at safe
  exact safe.2 _ divides rfl

end PeachOS
