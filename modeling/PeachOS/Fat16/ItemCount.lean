/-
**Counting and loading directories.**

`fat16_get_total_items_for_directory` reads consecutive entries up to a zero byte, whatever they belong to. The root directory is
loaded by its size, a subdirectory by its cluster chain.

* `totalItemsTrace_spec`, `terminated_of_positions` — which entries are read and which are counted;
* `rootCounted_iff` — when the root directory is loaded as it is counted;
* `subdirectoryCounted_iff` — when a subdirectory is;
* `directoryCounted_iff` — both, for every volume.
-/

import PeachOS.Fat16.Directory

namespace PeachOS

open LinkChain

/-! ### The loop -/

/-- The loop of `fat16_get_total_items_for_directory`: the positions that it reads, and the items that it counts. -/
def totalItemsTrace (v : FatVolume) : (fuel : Nat) → (pos : Int) → List Int × List FatDirectoryItem
  | 0, _ => ([], [])
  | fuel + 1, pos =>
      let block := v.read pos sizeofFatDirectoryItem
      let item := fatDirectoryItem block.bytes
      if block.res ≠ 0 ∨ item.firstByte = 0x00#8 then ([pos], [])
      else
        let rest := totalItemsTrace v fuel (toInt32 (pos + sizeofFatDirectoryItem))
        (pos :: rest.1, if item.firstByte = 0xE5#8 then rest.2 else item :: rest.2)

/-- The positions that `fat16_get_total_items_for_directory` reads. -/
def entryPositions (v : FatVolume) (directoryStartSector : Int) : List Int :=
  (totalItemsTrace v (2 ^ 27) (toInt32 (directoryStartSector * v.sectorSize))).1

/-- The items that it counts. -/
def countedItems (v : FatVolume) (directoryStartSector : Int) : List FatDirectoryItem :=
  (totalItemsTrace v (2 ^ 27) (toInt32 (directoryStartSector * v.sectorSize))).2

/-- The count is the number of these items, or an error. -/
theorem totalItemsLoop_trace (v : FatVolume) (fuel : Nat) : ∀ {pos : Int} {i : Nat} {total : Int},
    fat16GetTotalItemsLoop v fuel pos i = some total → total = eio ∨ total =
      i + ((totalItemsTrace v fuel pos).2.length : Nat) := by
  induction fuel with
  | zero =>
      intro pos i total isTotal
      cases isTotal
  | succ fuel ih =>
      intro pos i total isTotal
      rw [fat16GetTotalItemsLoop] at isTotal
      rw [totalItemsTrace]
      dsimp only at isTotal ⊢
      by_cases fails : (v.read pos sizeofFatDirectoryItem).res ≠ 0
      · rw [if_pos fails] at isTotal
        exact Or.inl (Option.some.inj isTotal).symm
      · rw [if_neg fails] at isTotal
        by_cases ends : (fatDirectoryItem (v.read pos sizeofFatDirectoryItem).bytes).firstByte = 0x00#8
        · rw [if_pos ends] at isTotal
          rw [if_pos (Or.inr ends)]
          exact Or.inr (Option.some.inj isTotal).symm
        · rw [if_neg ends] at isTotal
          rw [if_neg (not_or.mpr ⟨fails, ends⟩)]
          dsimp only
          by_cases deleted : (fatDirectoryItem (v.read pos sizeofFatDirectoryItem).bytes).firstByte = 0xE5#8
          · rw [if_pos deleted] at isTotal ⊢
            exact ih isTotal
          · rw [if_neg deleted] at isTotal ⊢
            refine (ih isTotal).imp_right fun isSum => ?_
            rw [isSum, List.length_cons]
            push_cast
            ring

/-! ### Directories -/

/-- **A directory is loaded as it is counted**: the count is that of the directory, only entries of the directory are read for it,
and the items that are counted are the items that are loaded. -/
structure CountedAsLoaded (v : FatVolume) (directoryStartSector : Int) (own : Int → Prop) (directory : FatDirectory) : Prop where
  ends : fat16GetTotalItemsForDirectory v directoryStartSector = some directory.total
  inside : ∀ pos ∈ entryPositions v directoryStartSector, own pos
  loaded : ∃ items, directory.item = some items ∧ (List.range directory.total.toNat).map items =
    countedItems v directoryStartSector

/-- A position of an entry of the root directory. -/
def InRoot (v : FatVolume) (pos : Int) : Prop :=
  rootDirSectorPos v * v.sectorSize ≤ pos ∧
    pos + sizeofFatDirectoryItem ≤ rootDirSectorPos v * v.sectorSize + v.header.rootDirEntries * sizeofFatDirectoryItem

/-- **The root directory is loaded as it is counted.** -/
def RootCounted (v : FatVolume) : Prop :=
  ∃ directory, fat16GetRootDirectory v = some (.ok directory) ∧ CountedAsLoaded v (rootDirSectorPos v) (InRoot v) directory

/-- A position of an entry in the clusters of a chain. -/
def InClusters (v : FatVolume) (contents : Int → Byte) (cluster : Nat) (pos : Int) : Prop :=
  0 ≤ pos ∧ ∃ links data, dataChain v contents cluster links = some data ∧ clusterPos v data ≤ pos ∧
    pos + sizeofFatDirectoryItem ≤ clusterPos v data + v.clusterBytes

/-- **A subdirectory is loaded as it is counted**, when the allocations succeed. -/
def SubdirectoryCounted (v : FatVolume) (contents : Int → Byte) (item : FatDirectoryItem) : Prop :=
  ∀ (memory : FatMemory) index, memory.directory index = true → memory.items index = true →
    ∃ directory, fat16LoadFatDirectory v memory index item = some (some directory) ∧
      CountedAsLoaded v (toUInt32 (fat16ClusterToSector v (toInt32 (fat16GetFirstCluster item))))
        (InClusters v contents item.low16BitsFirstCluster) directory

/-- **No live item is behind a deleted one.** -/
def LiveFirst (bytes : Nat → Byte) (len : Nat) : Prop := ∀ i j, i < j → j < len → IsLive bytes j → IsLive bytes i

/-- **When the root directory is loaded as it is counted**: it has a terminator, at a position that is an `int`, and no live item
behind a deleted one. -/
def RootTerminated (v : FatVolume) (contents : Int → Byte) : Prop :=
  ∃ len < v.header.rootDirEntries, TerminatedAt (rootBytes v contents) len ∧
    rootDirSectorPos v * v.sectorSize + (len * sizeofFatDirectoryItem : Nat) < 2 ^ 31 ∧ LiveFirst (rootBytes v contents) len

/-- **When a subdirectory is loaded as it is counted**: behind its first cluster there is a terminator, only clusters of the
directory are in front of it, and every live item there is the item of the chain that has as many in front of it as live ones are
counted. -/
def StoredInOrder (v : FatVolume) (contents : Int → Byte) (cluster : Nat) : Prop :=
  ∃ len, TerminatedAt (followingBytes v contents cluster) len ∧
    (∀ i ≤ len, InClusters v contents cluster (clusterPos v cluster + (i * sizeofFatDirectoryItem : Nat))) ∧
    ∀ i < len, IsLive (followingBytes v contents cluster) i →
      itemAt (chainBytes v contents cluster) (Nat.count (IsLive (followingBytes v contents cluster)) i) =
        itemAt (followingBytes v contents cluster) i

/-! ### Which entries are read -/

section Entries

variable {v : FatVolume} {contents : Int → Byte} (delivers : v.Delivers contents) {base : Nat} {bytes : Nat → Byte}
  (onDisk : ∀ k : Nat, contents ((base : Int) + k) = bytes k)

/-- The position behind an entry. -/
theorem next_position {base i : Nat} (fits : base + (i + 1) * sizeofFatDirectoryItem < 2 ^ 31) :
    toInt32 ((base : Int) + (i * sizeofFatDirectoryItem : Nat) + sizeofFatDirectoryItem) =
      base + ((i + 1) * sizeofFatDirectoryItem : Nat) := by
  unfold sizeofFatDirectoryItem at *
  rw [toInt32_of_bounds (by omega) (by omega)]
  push_cast
  ring

include delivers onDisk in
/-- **Up to a terminator**: all entries are read, and the live ones counted. -/
theorem totalItemsTrace_spec {len : Nat} (ends : TerminatedAt bytes len) (fits : base + len * sizeofFatDirectoryItem < 2 ^ 31)
    (fuel : Nat) : ∀ i count, i + count = len → count < fuel →
      totalItemsTrace v fuel (base + (i * sizeofFatDirectoryItem : Nat)) =
        ((List.range' i (count + 1)).map fun j => (base : Int) + (j * sizeofFatDirectoryItem : Nat),
          ((List.range' i count).filter fun j => IsLive bytes j).map (itemAt bytes)) := by
  induction fuel with
  | zero => exact fun _ _ _ enough => absurd enough (Nat.not_lt_zero _)
  | succ fuel ih =>
      intro i count isLen enough
      obtain ⟨ok, isItem⟩ := readSlot_eq delivers onDisk i
      rw [totalItemsTrace]
      dsimp only
      rw [ok, isItem]
      cases count with
      | zero =>
          obtain rfl : i = len := isLen
          rw [if_pos (Or.inr ends.terminator)]
          rfl
      | succ count =>
          have before : i < len := by omega
          have next := @next_position base i (by unfold sizeofFatDirectoryItem at *; omega)
          rw [if_neg (not_or.mpr ⟨not_not.mpr rfl, ends.before i before⟩), next, ih (i + 1) count (by omega) (by omega),
            @List.range'_succ i (count + 1), List.map_cons, @List.range'_succ i count]
          by_cases deleted : (itemAt bytes i).firstByte = 0xE5#8
          · have notLive : ¬ IsLive bytes i := fun live => live deleted
            rw [if_pos deleted, List.filter_cons_of_neg (p := fun j => decide (IsLive bytes j)) (mt of_decide_eq_true notLive)]
          · have live : IsLive bytes i := deleted
            rw [if_neg deleted, List.filter_cons_of_pos (p := fun j => decide (IsLive bytes j)) (decide_eq_true live),
              List.map_cons]

/-- The loop reads at its position. -/
theorem first_mem (v : FatVolume) (fuel : Nat) (pos : Int) : pos ∈ (totalItemsTrace v (fuel + 1) pos).1 := by
  rw [totalItemsTrace]
  dsimp only
  split
  · exact List.mem_singleton.mpr rfl
  · exact List.mem_cons_self

include delivers onDisk in
/-- **Where no position is negative, there is a terminator.** -/
theorem terminated_of_positions (fuel : Nat) : ∀ i, (∀ j < i, (itemAt bytes j).firstByte ≠ 0x00#8) →
    base + i * sizeofFatDirectoryItem < 2 ^ 31 → 2 ^ 31 + sizeofFatDirectoryItem ≤ base + (i + fuel) * sizeofFatDirectoryItem →
    (∀ pos ∈ (totalItemsTrace v fuel (base + (i * sizeofFatDirectoryItem : Nat))).1, 0 ≤ pos) →
    ∃ len, TerminatedAt bytes len ∧ base + len * sizeofFatDirectoryItem < 2 ^ 31 := by
  induction fuel with
  | zero =>
      intro i _ fits far _
      rw [Nat.add_zero] at far
      omega
  | succ fuel ih =>
      intro i before fits far positions
      obtain ⟨ok, isItem⟩ := readSlot_eq delivers onDisk i
      rw [totalItemsTrace] at positions
      dsimp only at positions
      rw [ok, isItem] at positions
      by_cases ends : (itemAt bytes i).firstByte = 0x00#8
      · exact ⟨i, ⟨ends, before⟩, fits⟩
      · rw [if_neg (not_or.mpr ⟨not_not.mpr rfl, ends⟩)] at positions
        have others := fun pos isIn => positions pos (List.mem_cons_of_mem _ isIn)
        have later : ∀ j < i + 1, (itemAt bytes j).firstByte ≠ 0x00#8 := by
          intro j inside
          rcases Nat.eq_or_lt_of_le (Nat.le_of_lt_succ inside) with isLast | earlier
          · rw [isLast]
            exact ends
          · exact before j earlier
        by_cases near : base + (i + 1) * sizeofFatDirectoryItem < 2 ^ 31
        · rw [next_position near] at others
          exact ih (i + 1) later near (by rw [Nat.add_right_comm, Nat.add_assoc]; exact far) others
        · -- the next position is negative
          unfold sizeofFatDirectoryItem at *
          obtain ⟨fuel, rfl⟩ := Nat.exists_eq_succ_of_ne_zero (show fuel ≠ 0 by omega)
          have negative := others _ (first_mem v fuel _)
          unfold toInt32 at negative
          split at negative <;> omega

end Entries

/-! ### Which items are loaded -/

/-- Some items are the ones that pass a test if each of these has its number among them. -/
theorem map_count_iff {p : Nat → Prop} [DecidablePred p] {Item : Type} (loaded item : Nat → Item) (len : Nat) :
    (List.range (Nat.count p len)).map loaded = ((List.range len).filter fun i => p i).map item ↔
      ∀ i < len, p i → loaded (Nat.count p i) = item i := by
  induction len with
  | zero => exact ⟨fun _ i inside => absurd inside (Nat.not_lt_zero i), fun _ => rfl⟩
  | succ len ih =>
      rw [List.range_succ, List.filter_append, List.map_append]
      by_cases passes : p len
      · rw [Nat.count_succ_eq_succ_count_iff.mpr passes, List.range_succ, List.map_append,
          List.filter_cons_of_pos (p := fun i => decide (p i)) (decide_eq_true passes), List.filter_nil]
        constructor
        · intro same i inside isItem
          obtain ⟨before, last⟩ := List.append_inj' same rfl
          rcases Nat.eq_or_lt_of_le (Nat.le_of_lt_succ inside) with isLast | earlier
          · subst isLast
            exact List.head_eq_of_cons_eq last
          · exact ih.mp before i earlier isItem
        · intro all
          rw [ih.mpr fun i inside => all i (Nat.lt_succ_of_lt inside), List.map_singleton, List.map_singleton,
            all len (Nat.lt_succ_self len) passes]
      · rw [Nat.count_succ_eq_count_iff.mpr passes,
          List.filter_cons_of_neg (p := fun i => decide (p i)) (mt of_decide_eq_true passes),
          List.filter_nil, List.map_nil, List.append_nil, ih]
        constructor
        · intro all i inside isItem
          rcases Nat.eq_or_lt_of_le (Nat.le_of_lt_succ inside) with isLast | earlier
          · exact absurd (isLast ▸ isItem) passes
          · exact all i earlier isItem
        · exact fun all i inside => all i (Nat.lt_succ_of_lt inside)

section Loaded

variable {v : FatVolume} {contents : Int → Byte} (delivers : v.Delivers contents) {base : Nat} {bytes shown : Nat → Byte}
  (onDisk : ∀ k : Nat, contents ((base : Int) + k) = bytes k) {sector : Int} {own : Int → Prop} {directory : FatDirectory}

include delivers onDisk in
/-- **What is read and counted**, up to a terminator. -/
theorem counted_spec {len : Nat} (ends : TerminatedAt bytes len) (fits : base + len * sizeofFatDirectoryItem < 2 ^ 31)
    (isBase : toInt32 (sector * v.sectorSize) = base) :
    entryPositions v sector = ((List.range (len + 1)).map fun i => (base : Int) + (i * sizeofFatDirectoryItem : Nat)) ∧
      countedItems v sector = ((List.range len).filter fun i => IsLive bytes i).map (itemAt bytes) := by
  have trace := totalItemsTrace_spec delivers onDisk ends fits (2 ^ 27) 0 len (Nat.zero_add len)
    (by unfold sizeofFatDirectoryItem at fits; omega)
  rw [Nat.zero_mul, Nat.cast_zero, add_zero, ← List.range_eq_range', ← List.range_eq_range', ← isBase] at trace
  rw [entryPositions, countedItems, trace, isBase]
  exact ⟨rfl, rfl⟩

include delivers onDisk in
/-- **A directory with a terminator.** -/
theorem countedAsLoaded_iff {len : Nat} (ends : TerminatedAt bytes len) (fits : base + len * sizeofFatDirectoryItem < 2 ^ 31)
    (isBase : toInt32 (sector * v.sectorSize) = base) (isShown : ShowsItems directory shown (Nat.count (IsLive bytes) len)) :
    CountedAsLoaded v sector own directory ↔ (∀ i ≤ len, own (base + (i * sizeofFatDirectoryItem : Nat))) ∧
      ∀ i < len, IsLive bytes i → itemAt shown (Nat.count (IsLive bytes) i) = itemAt bytes i := by
  obtain ⟨positions, counted⟩ := counted_spec delivers onDisk ends fits isBase
  obtain ⟨items, isItems, same⟩ := isShown.items
  have loaded : (List.range (Nat.count (IsLive bytes) len)).map items =
      (List.range (Nat.count (IsLive bytes) len)).map (itemAt shown) :=
    List.map_congr_left fun i isIn => same i (List.mem_range.mp isIn)
  rw [← map_count_iff]
  constructor
  · intro asLoaded
    refine ⟨fun i inside => asLoaded.inside _ ?_, ?_⟩
    · rw [positions]
      exact List.mem_map_of_mem (List.mem_range.mpr (Nat.lt_succ_of_le inside))
    · obtain ⟨items', isItems', areCounted⟩ := asLoaded.loaded
      rw [isItems, Option.some.injEq] at isItems'
      rw [← isItems', isShown.count, Int.toNat_natCast, loaded, counted] at areCounted
      exact areCounted
  · rintro ⟨inside, areCounted⟩
    refine ⟨?_, fun pos isIn => ?_, items, isItems, ?_⟩
    · rw [isShown.count]
      exact totalItems_eq delivers onDisk ends fits isBase
    · rw [positions] at isIn
      obtain ⟨i, isEntry, rfl⟩ := List.mem_map.mp isIn
      exact inside i (Nat.le_of_lt_succ (List.mem_range.mp isEntry))
    · rw [isShown.count, Int.toNat_natCast, loaded, counted]
      exact areCounted

include delivers onDisk in
/-- A directory that is loaded as it is counted has a terminator. -/
theorem CountedAsLoaded.terminated (isBase : toInt32 (sector * v.sectorSize) = base) (onInt : base < 2 ^ 31)
    (asLoaded : CountedAsLoaded v sector own directory) (onlyOwn : ∀ pos, own pos → 0 ≤ pos) :
    ∃ len, TerminatedAt bytes len ∧ base + len * sizeofFatDirectoryItem < 2 ^ 31 ∧
      own (base + (len * sizeofFatDirectoryItem : Nat)) := by
  obtain ⟨len, ends, fits⟩ := terminated_of_positions delivers onDisk (2 ^ 27) 0
    (fun j before => absurd before (Nat.not_lt_zero j))
    (by omega) (by unfold sizeofFatDirectoryItem; omega) fun pos isIn => by
      rw [Nat.zero_mul, Nat.cast_zero, add_zero, ← isBase] at isIn
      exact onlyOwn pos (asLoaded.inside pos isIn)
  refine ⟨len, ends, fits, asLoaded.inside _ ?_⟩
  rw [(counted_spec delivers onDisk ends fits isBase).1]
  exact List.mem_map_of_mem (List.mem_range.mpr (Nat.lt_succ_self len))

end Loaded

/-! ### The root directory -/

/-- The first items are the live ones exactly if no live item is behind a deleted one. -/
theorem liveFirst_iff (bytes : Nat → Byte) (len : Nat) :
    (∀ i < len, IsLive bytes i → itemAt bytes (Nat.count (IsLive bytes) i) = itemAt bytes i) ↔ LiveFirst bytes len := by
  constructor
  · intro all i j before inside live
    have firstLive : ∀ m < Nat.count (IsLive bytes) len, IsLive bytes m := by
      intro m isCounted
      have isIn : itemAt bytes m ∈ (List.range (Nat.count (IsLive bytes) len)).map (itemAt bytes) :=
        List.mem_map_of_mem (List.mem_range.mpr isCounted)
      rw [(map_count_iff _ _ len).mpr all] at isIn
      obtain ⟨k, isLive, same⟩ := List.mem_map.mp isIn
      have kLive := of_decide_eq_true (List.mem_filter.mp isLive).2
      unfold IsLive at kLive ⊢
      rwa [← same]
    have more : Nat.count (IsLive bytes) (j + 1) = Nat.count (IsLive bytes) j + 1 := Nat.count_succ_eq_succ_count_iff.mpr live
    have fewer : Nat.count (IsLive bytes) (j + 1) ≤ Nat.count (IsLive bytes) len := Nat.count_monotone _ inside
    refine firstLive i ?_
    by_contra behind
    -- all that are counted are in front of the deleted item
    have early : Nat.count (IsLive bytes) (Nat.count (IsLive bytes) len) ≤ Nat.count (IsLive bytes) j :=
      Nat.count_monotone _ (by omega)
    rw [Nat.count_of_forall firstLive] at early
    omega
  · intro liveFirst i inside live
    rw [Nat.count_of_forall fun j before => liveFirst j i before inside live]

section Directories

variable {v : FatVolume} {contents : Int → Byte} (delivers : v.Delivers contents)

include delivers in
/-- **The root directory.** -/
theorem rootCounted_iff : RootCounted v ↔ RootTerminated v contents := by
  obtain ⟨base, position⟩ : ∃ base : Nat, rootDirSectorPos v * v.sectorSize = base := by
    refine ⟨(v.header.fatCopies * v.header.sectorsPerFat + v.header.reservedSectors) * v.sectorSize, ?_⟩
    unfold rootDirSectorPos
    push_cast
    rfl
  have onDisk : ∀ k : Nat, contents ((base : Int) + k) = rootBytes v contents k := by
    intro k
    rw [rootBytes, position]
  have own : ∀ {i : Nat}, InRoot v ((base : Int) + (i * sizeofFatDirectoryItem : Nat)) ↔ i < v.header.rootDirEntries := by
    intro i
    unfold InRoot sizeofFatDirectoryItem
    rw [position]
    omega
  constructor
  · rintro ⟨directory, isLoaded, asLoaded⟩
    have first := (asLoaded.inside _ (first_mem v (2 ^ 27 - 1) _)).1
    rw [position] at first
    have onInt : base < 2 ^ 31 := by
      unfold toInt32 at first
      split at first <;> omega
    have isBase : toInt32 (rootDirSectorPos v * v.sectorSize) = base := by
      rw [position]
      exact toInt32_of_bounds (by omega) (by omega)
    obtain ⟨len, ends, fits, isOwn⟩ := asLoaded.terminated delivers onDisk isBase onInt fun pos isIn => by
      unfold InRoot at isIn
      omega
    have inside := own.mp isOwn
    obtain ⟨directory', isLoaded', isShown, _⟩ := rootDirectory_loads delivers ends inside.le (by rw [position]; omega)
    rw [isLoaded, Option.some.injEq, Except.ok.injEq] at isLoaded'
    subst isLoaded'
    obtain ⟨_, inOrder⟩ := (countedAsLoaded_iff delivers onDisk ends fits isBase isShown).mp asLoaded
    exact ⟨len, inside, ends, by rw [position]; omega, (liveFirst_iff _ len).mp inOrder⟩
  · rintro ⟨len, inside, ends, fits, liveFirst⟩
    obtain ⟨directory, isLoaded, isShown, _⟩ := rootDirectory_loads delivers ends inside.le fits
    rw [position] at fits
    have isBase : toInt32 (rootDirSectorPos v * v.sectorSize) = base := by
      rw [position]
      exact toInt32_of_bounds (by omega) (by omega)
    refine ⟨directory, isLoaded, (countedAsLoaded_iff delivers onDisk ends (by omega) isBase isShown).mpr
      ⟨fun i before => ?_, ?_⟩⟩
    · exact own.mpr (lt_of_le_of_lt before inside)
    · exact (liveFirst_iff _ len).mpr liveFirst

/-! ### Subdirectories -/

include delivers in
/-- **A subdirectory.** -/
theorem subdirectoryCounted_iff (table : v.header.reservedSectors * v.sectorSize + 2 ^ 17 ≤ 2 ^ 31)
    (positive : 0 < v.clusterBytes)
    {item : FatDirectoryItem} (sub : IsSubdirectory v contents item) :
    SubdirectoryCounted v contents item ↔ StoredInOrder v contents item.low16BitsFirstCluster := by
  have position : clusterPos v item.low16BitsFirstCluster = ((clusterPos v item.low16BitsFirstCluster).toNat : Int) :=
    (Int.toNat_of_nonneg sub.onDisk).symm
  have small := sub.small
  have firstFits := (sub.fits 0 _ sub.first).2
  have isBase := sub.position positive
  have first : toInt32 (fat16GetFirstCluster item) = item.low16BitsFirstCluster := by
    rw [fat16GetFirstCluster, sub.high, Nat.zero_mul, Nat.zero_add]
    exact toInt32_of_bounds (by omega) (by omega)
  unfold SubdirectoryCounted StoredInOrder
  rw [first]
  have onDisk : ∀ k : Nat, contents (((clusterPos v item.low16BitsFirstCluster).toNat : Int) + k) =
      followingBytes v contents item.low16BitsFirstCluster k := by
    intro k
    rw [followingBytes, ← position]
  constructor
  · intro counted
    obtain ⟨directory, isLoaded, asLoaded⟩ := counted plenty 0 rfl rfl
    obtain ⟨len, ends, fits, _⟩ := asLoaded.terminated delivers onDisk isBase (by omega) fun pos isIn => isIn.1
    obtain ⟨directory', isLoaded', isShown, _⟩ :=
      @loadDirectory_spec v contents delivers table positive item sub plenty 0 len rfl rfl
      ends (by omega)
    rw [isLoaded, Option.some.injEq, Option.some.injEq] at isLoaded'
    subst isLoaded'
    have spec := (countedAsLoaded_iff delivers onDisk ends fits isBase isShown).mp asLoaded
    rw [← position] at spec
    exact ⟨len, ends, spec⟩
  · rintro ⟨len, ends, inside, inOrder⟩ memory index hasDirectory hasItems
    obtain ⟨_, links, data, isData, _, before⟩ := inside len le_rfl
    have dataFits := (sub.fits links data isData).2
    have fits : clusterPos v item.low16BitsFirstCluster + (len * sizeofFatDirectoryItem : Nat) < 2 ^ 31 := by
      unfold sizeofFatDirectoryItem at *
      omega
    obtain ⟨directory, isLoaded, isShown, _⟩ := loadDirectory_spec delivers table positive sub hasDirectory hasItems ends fits
    refine ⟨directory, isLoaded, (countedAsLoaded_iff delivers onDisk ends (by omega) isBase isShown).mpr ⟨?_, inOrder⟩⟩
    rw [← position]
    exact inside

end Directories

/-! ### The result -/

/-- **When directories are loaded as they are counted**: the root directory, and the subdirectories. -/
theorem directoryCounted_iff {v : FatVolume} {contents : Int → Byte} (delivers : v.Delivers contents)
    (table : v.header.reservedSectors * v.sectorSize + 2 ^ 17 ≤ 2 ^ 31) (positive : 0 < v.clusterBytes) :
    (RootCounted v ↔ RootTerminated v contents) ∧ ∀ item, IsSubdirectory v contents item →
      (SubdirectoryCounted v contents item ↔ StoredInOrder v contents item.low16BitsFirstCluster) :=
  ⟨rootCounted_iff delivers, fun _ sub => subdirectoryCounted_iff delivers table positive sub⟩

/-- A root directory with two items. -/
theorem rootCounted_two : RootCounted (plainVolume (twoItems 0x41#8)) := by
  refine (directoryCounted_iff (plainVolume_delivers (twoItems 0x41#8)) (by decide) (by decide)).1.mpr
    ⟨2, by decide, ⟨by decide, by decide⟩, by decide, fun i j before inside _ => ?_⟩
  have areLive : ∀ i < 2, IsLive (twoSlots 0x41#8) i := by decide
  exact areLive i (before.trans inside)

/-! ### A full root directory -/

/-- The bytes of a full root directory of one sector, and of a file behind it that begins as an item does. -/
def fullRoot (pos : Int) : Byte := if 1024 ≤ pos ∧ pos < 1568 then 0x41#8 else 0x00#8

/-- A volume with a root directory of 16 items. -/
def sixteenItems : FatVolume := { plainVolume fullRoot with header := ⟨1, 1, 1, 16, 1⟩ }

/-- **A full root directory is counted behind its end**: 16 items are loaded, but a file is counted, too. -/
theorem fullRoot_overruns :
    ¬ (∀ (v : FatVolume) (contents : Int → Byte), v.Delivers contents → 0 < v.clusterBytes → RootCounted v) ∧
      fat16GetTotalItemsForDirectory sixteenItems (rootDirSectorPos sixteenItems) = some 17 := by
  have delivers : sixteenItems.Delivers fullRoot := plainVolume_delivers fullRoot
  have noTerminator : ∀ len < 16, (itemAt (rootBytes sixteenItems fullRoot) len).firstByte ≠ 0x00#8 := by decide
  have ends : TerminatedAt (rootBytes sixteenItems fullRoot) 17 := ⟨by decide, by decide⟩
  refine ⟨fun all => ?_, ?_⟩
  · obtain ⟨len, inside, isEnd, _⟩ := (rootCounted_iff delivers).mp (all sixteenItems fullRoot delivers (by decide))
    exact noTerminator len inside isEnd.terminator
  · rw [@totalItems_eq sixteenItems fullRoot delivers 1024 (rootBytes sixteenItems fullRoot) (fun _ => rfl) 17 ends
      (by decide) _ (by decide)]
    have count : Nat.count (IsLive (rootBytes sixteenItems fullRoot)) 17 = 17 := by decide
    rw [count]
    rfl

end PeachOS
