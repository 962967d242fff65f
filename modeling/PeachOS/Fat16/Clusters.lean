/-
**Reading cluster chains.**

`fat16_get_cluster_for_offset` follows the entries of the table from the first cluster on, for every chunk again, and
stops at some of the entries that are no links. `followLink` are the entries that it follows; `dataLink` are those that
link to a data cluster.

* `clusterForOffset_spec` — the cluster of an offset is that of the followed chain, or an error behind its end;
* `readLoop_spec` — a read delivers the bytes of the followed chain up to its end;
* `readsDataChain_iff` — when these are the bytes of the data clusters.
-/

import PeachOS.Fat16.Model
import PeachOS.Lib.LinkChain
import Mathlib.Tactic.Linarith
import Mathlib.Tactic.Ring

namespace PeachOS

open LinkChain

/-! ### The table -/

/-- **The streams of a volume deliver the bytes of the disk.** -/
def FatVolume.Delivers (v : FatVolume) (contents : Int → Byte) : Prop :=
  ∀ pos total, (v.read pos total).res = 0 ∧ ∀ k : Nat, (k : Int) < total → (v.read pos total).bytes k = contents (pos + k)

section Table

variable (v : FatVolume) (contents : Int → Byte)

/-- The entry of a cluster in the file allocation table. -/
def fatEntry (cluster : Nat) : Nat :=
  littleEndian (fun k => contents (v.header.reservedSectors * v.sectorSize + cluster * 2 + k)) 0 2

/-- An entry that `fat16_get_cluster_for_offset` follows. -/
def Followed (entry : Nat) : Prop :=
  ¬ entry ≥ 0xFFF8 ∧ ¬ (entry = peachosFat16BadSector ∨ (entry ≥ 0xFFF0 ∧ entry ≤ 0xFFF6) ∨ entry = 0x0000)

instance (entry : Nat) : Decidable (Followed entry) := inferInstanceAs (Decidable (_ ∧ _))

def followLink (cluster : Nat) : Option Nat :=
  if Followed (fatEntry v contents cluster) then some (fatEntry v contents cluster) else none

/-- **The numbers of data clusters.** The others are free, reserved, bad or the end of a chain. -/
def DataCluster (cluster : Nat) : Prop := 2 ≤ cluster ∧ cluster ≤ 0xFFEF

instance (cluster : Nat) : Decidable (DataCluster cluster) := inferInstanceAs (Decidable (_ ∧ _))

def dataLink (cluster : Nat) : Option Nat :=
  if DataCluster (fatEntry v contents cluster) then some (fatEntry v contents cluster) else none

/-- The position of a cluster on the disk. -/
def clusterPos (cluster : Nat) : Int :=
  (v.rootDirectory.endingSectorPos + ((cluster : Int) - 2) * v.header.sectorsPerCluster) * v.sectorSize

def clusterData (cluster k : Nat) : Byte := contents (clusterPos v cluster + k)

/-- **The data clusters that are linked from a cluster**: the one behind some links. -/
def dataChain (cluster links : Nat) : Option Nat :=
  if DataCluster cluster then walk (dataLink v contents) cluster links else none

/-- The byte at an offset of the concatenated data clusters. -/
def dataByte (cluster offset : Nat) : Option Byte :=
  if DataCluster cluster then valueAt (dataLink v contents) v.clusterBytes (clusterData v contents) cluster offset
  else none

end Table

section Chains

variable {v : FatVolume} {contents : Int → Byte} (delivers : v.Delivers contents)
  (table : v.header.reservedSectors * v.sectorSize + 2 ^ 17 ≤ 2 ^ 31)

theorem littleEndian_lt (bytes : Nat → Byte) (count : Nat) : ∀ offset, littleEndian bytes offset count < 2 ^ (8 * count) := by
  induction count with
  | zero => exact fun _ => Nat.one_pos
  | succ count hyp =>
      intro offset
      have rest := hyp (offset + 1)
      have byte := (bytes offset).isLt
      have power : 2 ^ (8 * (count + 1)) = 2 ^ 8 * 2 ^ (8 * count) := by
        rw [← pow_add]
        congr 1
        ring
      rw [littleEndian, power]
      omega

theorem littleEndian_congr {bytes bytes' : Nat → Byte} (count : Nat) : ∀ {offset},
    (∀ k, offset ≤ k → k < offset + count → bytes k = bytes' k) →
    littleEndian bytes offset count = littleEndian bytes' offset count := by
  induction count with
  | zero => exact fun _ => rfl
  | succ count hyp =>
      intro offset same
      rw [littleEndian, littleEndian, same offset le_rfl (by omega), hyp fun k from_ before => same k (by omega) (by omega)]

theorem fatEntry_lt (cluster : Nat) : fatEntry v contents cluster < 2 ^ 16 := littleEndian_lt _ 2 0

include delivers table in
/-- The entry that is read is that of the table. -/
theorem getFatEntry_eq {cluster : Nat} (small : cluster < 2 ^ 16) :
    fat16GetFatEntry v cluster = fatEntry v contents cluster := by
  obtain ⟨ok, bytes⟩ := delivers (v.header.reservedSectors * v.sectorSize + (cluster : Int) * 2) 2
  have position : toInt32 ((v.header.reservedSectors : Int) * v.sectorSize + (cluster : Int) * 2) =
      (v.header.reservedSectors : Int) * v.sectorSize + (cluster : Int) * 2 := by
    rw [← Nat.cast_mul]
    generalize v.header.reservedSectors * v.sectorSize = base at table
    exact toInt32_of_bounds (by omega) (by omega)
  have same : littleEndian (v.read (v.header.reservedSectors * v.sectorSize + (cluster : Int) * 2) 2).bytes 0 2 =
      fatEntry v contents cluster := littleEndian_congr 2 fun k _ before => bytes k (by omega)
  unfold fat16GetFatEntry
  dsimp only
  rw [position, ok, if_neg (lt_irrefl 0), same]

include delivers table in
/-- **The links of an offset**: the cluster at their end, or an error. -/
theorem getClusterLoop_spec (links : Nat) : ∀ {cluster : Nat}, cluster < 2 ^ 16 →
    (∃ reached < 2 ^ 16, walk (followLink v contents) cluster links = some reached ∧
        fat16GetClusterLoop v links cluster = reached) ∨
      (walk (followLink v contents) cluster links = none ∧ fat16GetClusterLoop v links cluster < 0) := by
  induction links with
  | zero => exact fun {cluster} small => Or.inl ⟨cluster, small, walk_zero _ _, rfl⟩
  | succ links hyp =>
      intro cluster small
      have entry : toUInt16 (fat16GetFatEntry v cluster) = fatEntry v contents cluster := by
        have := @fatEntry_lt v contents cluster
        rw [getFatEntry_eq delivers table small, toUInt16]
        omega
      rw [fat16GetClusterLoop, walk, entry, followLink]
      by_cases ended : fatEntry v contents cluster ≥ 0xFFF8
      · rw [if_pos ended, if_neg fun followed => followed.1 ended]
        exact Or.inr ⟨rfl, by decide⟩
      · rw [if_neg ended]
        by_cases refused : fatEntry v contents cluster = peachosFat16BadSector ∨
            (fatEntry v contents cluster ≥ 0xFFF0 ∧ fatEntry v contents cluster ≤ 0xFFF6) ∨ fatEntry v contents cluster = 0x0000
        · rw [if_pos refused, if_neg fun followed => followed.2 refused]
          exact Or.inr ⟨rfl, by decide⟩
        · rw [if_neg refused, if_pos ⟨ended, refused⟩]
          exact hyp (fatEntry_lt cluster)

include delivers table in
/-- **The cluster of an offset.** -/
theorem clusterForOffset_spec {cluster : Nat} (small : cluster < 2 ^ 16) (offset : Nat) :
    (∃ reached < 2 ^ 16, walk (followLink v contents) cluster (offset / v.clusterBytes) = some reached ∧
        fat16GetClusterForOffset v cluster offset = reached) ∨
      (walk (followLink v contents) cluster (offset / v.clusterBytes) = none ∧
        fat16GetClusterForOffset v cluster offset < 0) := by
  unfold fat16GetClusterForOffset
  rw [← Int.ofNat_tdiv, Int.toNat_natCast]
  exact getClusterLoop_spec delivers table _ small

/-! ### Reading a chain -/

/-- The byte positions of a cluster are an `int`. -/
def PositionsFit (v : FatVolume) (cluster : Nat) : Prop :=
  -2 ^ 31 ≤ clusterPos v cluster ∧ clusterPos v cluster + v.clusterBytes ≤ 2 ^ 31

instance (v : FatVolume) (cluster : Nat) : Decidable (PositionsFit v cluster) := inferInstanceAs (Decidable (_ ∧ _))

/-- **Some bytes are those of the followed chain**, from an offset on: each lies in a cluster of the chain, and is read
from it if its position can be computed. -/
structure ReadsChain (v : FatVolume) (contents : Int → Byte) (cluster offset count : Nat) (bytes : List Byte) : Prop where
  length : bytes.length = count
  byte : ∀ k < count, ∃ reached, walk (followLink v contents) cluster ((offset + k) / v.clusterBytes) = some reached ∧
    (PositionsFit v reached → bytes[k]? = some (clusterData v contents reached ((offset + k) % v.clusterBytes)))

theorem readsChain_nil (v : FatVolume) (contents : Int → Byte) (cluster offset : Nat) :
    ReadsChain v contents cluster offset 0 [] :=
  ⟨rfl, fun _ inside => absurd inside (Nat.not_lt_zero _)⟩

theorem ReadsChain.append {cluster offset first second : Nat} {bytes bytes' : List Byte}
    (reads : ReadsChain v contents cluster offset first bytes)
    (reads' : ReadsChain v contents cluster (offset + first) second bytes') :
    ReadsChain v contents cluster offset (first + second) (bytes ++ bytes') := by
  refine ⟨by rw [List.length_append, reads.length, reads'.length], fun k inside => ?_⟩
  by_cases early : k < first
  · obtain ⟨reached, isReached, isByte⟩ := reads.byte k early
    refine ⟨reached, isReached, fun fits => ?_⟩
    rw [List.getElem?_append_left (by rw [reads.length]; exact early), isByte fits]
  · have position : offset + first + (k - first) = offset + k := by omega
    have later := reads'.byte (k - first) (by omega)
    rw [position] at later
    obtain ⟨reached, isReached, isByte⟩ := later
    refine ⟨reached, isReached, fun fits => ?_⟩
    rw [List.getElem?_append_right (by rw [reads.length]; omega), reads.length, isByte fits]

theorem clusterToSector_eq (positive : 0 < v.clusterBytes) {cluster : Nat} (fits : PositionsFit v cluster) :
    fat16ClusterToSector v cluster * v.sectorSize = clusterPos v cluster := by
  have sector : 0 < v.sectorSize := Nat.pos_of_mul_pos_left positive
  obtain ⟨low, high⟩ := fits
  unfold fat16ClusterToSector
  unfold clusterPos at *
  generalize v.rootDirectory.endingSectorPos + ((cluster : Int) - 2) * v.header.sectorsPerCluster = sectors at *
  have magnitude : -2 ^ 31 ≤ sectors ∧ sectors < 2 ^ 31 := by
    constructor
    · by_contra outside
      nlinarith
    · by_contra outside
      nlinarith
  rw [toInt32_of_bounds magnitude.1 magnitude.2]

/-- The position of which a chunk is read. -/
def chunkPos (v : FatVolume) (cluster offset : Nat) : Int :=
  toInt32 (fat16ClusterToSector v cluster * v.sectorSize + (offset % v.clusterBytes : Nat))

theorem chunkPos_eq (positive : 0 < v.clusterBytes) {cluster : Nat} (fits : PositionsFit v cluster) (offset : Nat) :
    chunkPos v cluster offset = clusterPos v cluster + (offset % v.clusterBytes : Nat) := by
  have inside := Nat.mod_lt offset positive
  rw [chunkPos, clusterToSector_eq positive fits]
  obtain ⟨low, high⟩ := fits
  exact toInt32_of_bounds (by omega) (by omega)

include delivers in
/-- The bytes of one chunk, up to the end of its cluster. -/
theorem chunk_reads (positive : 0 < v.clusterBytes) {cluster reached offset count : Nat}
    (isReached : walk (followLink v contents) cluster (offset / v.clusterBytes) = some reached)
    (inside : offset % v.clusterBytes + count ≤ v.clusterBytes) :
    ReadsChain v contents cluster offset count ((List.range count).map (v.read (chunkPos v reached offset) count).bytes) := by
  refine ⟨by rw [List.length_map, List.length_range], fun k before => ⟨reached, ?_, fun fits => ?_⟩⟩
  · rw [(offset_near (by omega)).1]
    exact isReached
  · rw [List.getElem?_map, List.getElem?_range before, Option.map_some, (delivers _ _).2 k (by omega),
      chunkPos_eq positive fits, (offset_near (by omega)).2, clusterData]
    push_cast
    rw [Int.add_assoc]

/-- How many bytes a turn reads: to the end of its cluster, or all that are left. -/
def chunkLength (clusterBytes offset total : Nat) : Nat :=
  if total < clusterBytes - offset % clusterBytes then total else clusterBytes - offset % clusterBytes

theorem chunkLength_bounds {clusterBytes offset total : Nat} (positive : 0 < clusterBytes) (something : 0 < total) :
    0 < chunkLength clusterBytes offset total ∧ chunkLength clusterBytes offset total ≤ total ∧
      offset % clusterBytes + chunkLength clusterBytes offset total ≤ clusterBytes := by
  have inside := Nat.mod_lt offset positive
  unfold chunkLength
  split <;> omega

include delivers in
/-- **One turn of the loop**, at a cluster of the chain. -/
theorem readLoop_turn (positive : 0 < v.clusterBytes) {cluster reached offset total : Nat} (small : reached < 2 ^ 16)
    (isCluster : fat16GetClusterForOffset v cluster offset = reached) (something : 0 < total) (fuel : Nat) (bytesRead : Int)
    (written : List Byte) :
    fat16ReadLoop v cluster (fuel + 1) ⟨offset, total, bytesRead, written, 0⟩ =
      fat16ReadLoop v cluster fuel
        ⟨toInt32 (offset + chunkLength v.clusterBytes offset total : Nat),
          (total - chunkLength v.clusterBytes offset total : Nat), bytesRead + chunkLength v.clusterBytes offset total,
          written ++ (List.range (chunkLength v.clusterBytes offset total)).map
            (v.read (chunkPos v reached offset) (chunkLength v.clusterBytes offset total)).bytes, 0⟩ := by
  obtain ⟨_, fewer, _⟩ := @chunkLength_bounds v.clusterBytes offset total positive something
  have inside := Nat.mod_lt offset positive
  have unsigned : toUInt16 (reached : Int) = reached := by
    unfold toUInt16
    omega
  have amount : (if (v.clusterBytes : Int) - (offset % v.clusterBytes : Nat) > (total : Int) then (total : Int)
      else (v.clusterBytes : Int) - (offset % v.clusterBytes : Nat)) = (chunkLength v.clusterBytes offset total : Nat) := by
    unfold chunkLength
    split <;> split <;> omega
  rw [fat16ReadLoop]
  dsimp only
  rw [if_neg (by omega), isCluster, if_neg (by omega), unsigned, ← Int.ofNat_tmod, ← chunkPos, amount, (delivers _ _).1,
    if_neg (by decide), ← Nat.cast_add, ← Nat.cast_sub fewer, Int.toNat_natCast]

/-- The loop appends to what was written before. -/
theorem readLoop_written (v : FatVolume) (cluster fuel : Nat) : ∀ σ : ClusterRead,
    ∃ more, (fat16ReadLoop v cluster fuel σ).written = σ.written ++ more := by
  induction fuel with
  | zero => exact fun σ => ⟨[], (List.append_nil _).symm⟩
  | succ fuel hyp =>
      intro σ
      rw [fat16ReadLoop]
      dsimp only
      generalize (if (v.clusterBytes : Int) - σ.startingOffset.tmod v.clusterBytes > σ.total then σ.total
        else (v.clusterBytes : Int) - σ.startingOffset.tmod v.clusterBytes) = totalToRead
      split
      · exact ⟨[], (List.append_nil _).symm⟩
      · split
        · exact ⟨[], (List.append_nil _).symm⟩
        · split
          · exact ⟨[], (List.append_nil _).symm⟩
          · obtain ⟨more, appended⟩ := hyp _
            rw [appended, List.append_assoc]
            exact ⟨_, rfl⟩

/-- **How a read ends**: it has read everything, the chain has ended, or the offset is no `int` any more. -/
inductive ReadEnds (v : FatVolume) (contents : Int → Byte) (cluster offset total : Nat) : (count : Nat) → (res bytesRead : Int) →
    (more : List Byte) → Prop
  | all : ReadEnds v contents cluster offset total total 0 total []
  | ended {count : Nat} {res bytesRead : Int} (stops : count < total) (failed : res < 0)
      (isEnd : walk (followLink v contents) cluster ((offset + count) / v.clusterBytes) = none) :
      ReadEnds v contents cluster offset total count res bytesRead []
  | wraps {count : Nat} {res bytesRead : Int} {more : List Byte} (far : 2 ^ 31 ≤ offset + count) :
      ReadEnds v contents cluster offset total count res bytesRead more

/-- The turns before: some bytes were read already. -/
theorem ReadEnds.later {cluster offset total count first : Nat} {res bytesRead bytesRead' : Int} {more : List Byte}
    (ends : ReadEnds v contents cluster (offset + first) (total - first) count res bytesRead more) (fewer : first ≤ total)
    (sum : bytesRead' = bytesRead + first) :
    ReadEnds v contents cluster offset total (first + count) res bytesRead' more := by
  cases ends with
  | all =>
      have whole : first + (total - first) = total := by omega
      rw [whole, sum, ← Nat.cast_add, Nat.add_comm, whole]
      exact .all
  | ended stops failed isEnd => exact .ended (by omega) failed (by rw [← Nat.add_assoc]; exact isEnd)
  | wraps far => exact .wraps (by omega)

include delivers table in
/-- **What the loop delivers**: the bytes of the followed chain, up to one of these ends. -/
theorem readLoop_spec (positive : 0 < v.clusterBytes) {cluster : Nat} (small : cluster < 2 ^ 16) (fuel : Nat) :
    ∀ {offset total : Nat} (bytesRead : Int) (written : List Byte), total ≤ fuel → offset < 2 ^ 31 →
    ∃ count ≤ total, ∃ bytes more, ReadsChain v contents cluster offset count bytes ∧
      (fat16ReadLoop v cluster fuel ⟨offset, total, bytesRead, written, 0⟩).written = written ++ bytes ++ more ∧
      ReadEnds v contents cluster offset total count
        (fat16ReadLoop v cluster fuel ⟨offset, total, bytesRead, written, 0⟩).res
        ((fat16ReadLoop v cluster fuel ⟨offset, total, bytesRead, written, 0⟩).bytesRead - bytesRead) more := by
  induction fuel with
  | zero =>
      intro offset total bytesRead written enough _
      have nothing : total = 0 := Nat.le_zero.mp enough
      subst nothing
      refine ⟨0, le_rfl, [], [], readsChain_nil v contents cluster offset, ?_, ?_⟩
      · rw [fat16ReadLoop, List.append_nil, List.append_nil]
      · rw [fat16ReadLoop, sub_self]
        exact .all
  | succ fuel hyp =>
      intro offset total bytesRead written enough bound
      rcases Nat.eq_zero_or_pos total with nothing | something
      · subst nothing
        rw [fat16ReadLoop]
        dsimp only
        rw [if_pos (by omega)]
        refine ⟨0, le_rfl, [], [], readsChain_nil v contents cluster offset, ?_, ?_⟩
        · rw [List.append_nil, List.append_nil]
        · rw [sub_self]
          exact .all
      · rcases clusterForOffset_spec delivers table small offset with
          ⟨reached, smallReached, isReached, isCluster⟩ | ⟨ended, fails⟩
        · -- a chunk of the cluster, and the rest
          obtain ⟨progress, fewer, inside⟩ := @chunkLength_bounds v.clusterBytes offset total positive something
          have chunk := chunk_reads delivers positive isReached inside
          rw [readLoop_turn delivers positive smallReached isCluster something]
          generalize chunkLength v.clusterBytes offset total = count at *
          generalize (List.range count).map (v.read (chunkPos v reached offset) count).bytes = bytes at *
          by_cases near : offset + count < 2 ^ 31
          · rw [toInt32_of_bounds (by omega) (by omega)]
            obtain ⟨rest, restFewer, bytes', more, reads', written', ends⟩ :=
              hyp (bytesRead + count) (written ++ bytes) (show total - count ≤ fuel by omega) near
            refine ⟨count + rest, by omega, bytes ++ bytes', more, chunk.append reads', ?_, ends.later fewer ?_⟩
            · rw [written', List.append_assoc written]
            · omega
          · obtain ⟨more, appended⟩ := readLoop_written v cluster fuel
              ⟨toInt32 (offset + count : Nat), (total - count : Nat), bytesRead + count, written ++ bytes, 0⟩
            exact ⟨count, fewer, bytes, more, chunk, appended, .wraps (by omega)⟩
        · -- the chain ends before the offset
          rw [fat16ReadLoop]
          dsimp only
          rw [if_neg (by omega), if_pos fails]
          refine ⟨0, Nat.zero_le _, [], [], readsChain_nil v contents cluster offset, ?_, .ended something fails ended⟩
          rw [List.append_nil, List.append_nil]

include delivers table in
/-- **One read**: all its bytes and their number, or an error behind the end of the chain. -/
theorem readInternal_spec (positive : 0 < v.clusterBytes) {cluster : Nat} (small : cluster < 2 ^ 16) {offset : Nat}
    (bound : offset < 2 ^ 31) (total : Nat) :
    ∃ count ≤ total, ∃ bytes more, ReadsChain v contents cluster offset count bytes ∧
      (fat16ReadInternalFromStream v cluster offset total).2 = bytes ++ more ∧
      ((count = total ∧ more = [] ∧ (fat16ReadInternalFromStream v cluster offset total).1 = total) ∨
        (count < total ∧ more = [] ∧ (fat16ReadInternalFromStream v cluster offset total).1 < 0 ∧
          walk (followLink v contents) cluster ((offset + count) / v.clusterBytes) = none) ∨
        2 ^ 31 ≤ offset + count) := by
  obtain ⟨count, fewer, bytes, more, reads, written, ends⟩ :=
    @readLoop_spec v contents delivers table positive cluster small total offset total 0 [] le_rfl bound
  unfold fat16ReadInternalFromStream
  dsimp only
  rw [Int.toNat_natCast, written, List.nil_append]
  refine ⟨count, fewer, bytes, more, reads, rfl, ?_⟩
  rw [sub_zero] at ends
  generalize (fat16ReadLoop v cluster total ⟨offset, total, 0, [], 0⟩).res = res at *
  generalize (fat16ReadLoop v cluster total ⟨offset, total, 0, [], 0⟩).bytesRead = bytesRead at *
  cases ends with
  | all => exact Or.inl ⟨rfl, rfl, if_neg (lt_irrefl 0)⟩
  | ended stops failed isEnd => exact Or.inr (Or.inl ⟨stops, rfl, by rwa [if_pos failed], isEnd⟩)
  | wraps far => exact Or.inr (Or.inr far)

/-! ### The data clusters -/

/-- Both chains have the same clusters. -/
theorem dataChain_followed {cluster links reached data : Nat}
    (isReached : walk (followLink v contents) cluster links = some reached)
    (isData : dataChain v contents cluster links = some data) : reached = data := by
  unfold dataChain at isData
  by_cases start : DataCluster cluster
  · rw [if_pos start] at isData
    refine walk_same (fun block second second' link link' => ?_) links isReached isData
    unfold followLink at link
    unfold dataLink at link'
    split at link
    · split at link'
      · rw [← Option.some.inj link, ← Option.some.inj link']
      · cases link'
    · cases link
  · rw [if_neg start] at isData
    cases isData

/-- The data clusters up to a later one. -/
theorem dataChain_before {cluster links before data : Nat} (isData : dataChain v contents cluster links = some data)
    (order : before ≤ links) : ∃ data', dataChain v contents cluster before = some data' := by
  unfold dataChain at *
  by_cases start : DataCluster cluster
  · rw [if_pos start] at *
    exact walk_before isData order
  · rw [if_neg start] at isData
    cases isData

theorem dataChain_isData {cluster links data : Nat} (isReached : dataChain v contents cluster links = some data) :
    DataCluster data := by
  unfold dataChain at isReached
  by_cases start : DataCluster cluster
  · rw [if_pos start] at isReached
    cases links with
    | zero =>
        rw [walk_zero, Option.some.injEq] at isReached
        exact isReached ▸ start
    | succ links =>
        rw [walk_succ, Option.bind_eq_some_iff] at isReached
        obtain ⟨before, _, link⟩ := isReached
        unfold dataLink at link
        split at link
        · rename_i isLinked
          exact Option.some.inj link ▸ isLinked
        · cases link
  · rw [if_neg start] at isReached
    cases isReached

theorem dataByte_eq (v : FatVolume) (contents : Int → Byte) (cluster offset : Nat) :
    dataByte v contents cluster offset =
      (dataChain v contents cluster (offset / v.clusterBytes)).map fun data =>
        clusterData v contents data (offset % v.clusterBytes) := by
  unfold dataByte dataChain valueAt
  split <;> rfl

/-- **The bytes of data clusters are read**, where there are data clusters up to the last byte. -/
theorem ReadsChain.data {cluster offset count last : Nat} {bytes : List Byte}
    (reads : ReadsChain v contents cluster offset count bytes)
    (fits : ∀ links data, links * v.clusterBytes < offset + count → dataChain v contents cluster links = some data →
      PositionsFit v data)
    (isLast : dataChain v contents cluster ((offset + count - 1) / v.clusterBytes) = some last) :
    bytes.map some = (List.range count).map fun k => dataByte v contents cluster (offset + k) := by
  have lengths := reads.length
  apply List.ext_getElem?
  intro k
  rw [List.getElem?_map, List.getElem?_map]
  by_cases inside : k < count
  · obtain ⟨reached, isReached, isByte⟩ := reads.byte k inside
    obtain ⟨data, isData⟩ := dataChain_before isLast
      (show (offset + k) / v.clusterBytes ≤ _ from Nat.div_le_div_right (by omega))
    have same := dataChain_followed isReached isData
    subst same
    have below : (offset + k) / v.clusterBytes * v.clusterBytes < offset + count :=
      lt_of_le_of_lt (Nat.div_mul_le_self _ _) (by omega)
    rw [isByte (fits _ _ below isData), List.getElem?_range inside, Option.map_some, Option.map_some, dataByte_eq, isData,
      Option.map_some]
  · rw [List.getElem?_eq_none (by omega), List.getElem?_eq_none (by rw [List.length_range]; omega)]
    rfl

end Chains

/-- **A read is sound**: when it does not fail, it returns its length, and has copied the bytes of the concatenated
data clusters. -/
def ReadsDataChain (v : FatVolume) (contents : Int → Byte) (cluster offset total : Nat) : Prop :=
  0 ≤ (fat16ReadInternalFromStream v cluster offset total).1 →
    (fat16ReadInternalFromStream v cluster offset total).1 = total ∧
      (fat16ReadInternalFromStream v cluster offset total).2.map some =
        (List.range total).map fun k => dataByte v contents cluster (offset + k)

/-- **When a read is sound**: it reads nothing, one of the entries up to its last cluster is not followed, or all of
them link to data clusters. -/
def LinksToData (v : FatVolume) (contents : Int → Byte) (cluster offset total : Nat) : Prop :=
  total = 0 ∨ walk (followLink v contents) cluster ((offset + total - 1) / v.clusterBytes) = none ∨
    (dataChain v contents cluster ((offset + total - 1) / v.clusterBytes)).isSome

/-- The last byte of a sound read is one of a data cluster. -/
theorem dataChain_last {v : FatVolume} {contents : Int → Byte} {cluster offset total : Nat} {bytes : List Byte}
    (copied : bytes.map some = (List.range total).map fun k => dataByte v contents cluster (offset + k)) (something : 0 < total) :
    (dataChain v contents cluster ((offset + total - 1) / v.clusterBytes)).isSome := by
  have lengths := congrArg List.length copied
  rw [List.length_map, List.length_map, List.length_range] at lengths
  have lastEntry := congrArg (fun list => list[total - 1]?) copied
  have position : offset + (total - 1) = offset + total - 1 := by omega
  rw [List.getElem?_map, List.getElem?_map, List.getElem?_range (by omega), List.getElem?_eq_getElem (by omega),
    Option.map_some, Option.map_some, position, dataByte_eq, Option.some.injEq] at lastEntry
  have isByte := (Option.map_eq_some_iff.mp lastEntry.symm)
  obtain ⟨data, isData, _⟩ := isByte
  rw [isData]
  rfl

/-- **Reading a cluster chain**, for every volume, first cluster, offset and length. -/
theorem readsDataChain_iff {v : FatVolume} {contents : Int → Byte} (delivers : v.Delivers contents)
    (positive : 0 < v.clusterBytes) (table : v.header.reservedSectors * v.sectorSize + 2 ^ 17 ≤ 2 ^ 31) {cluster : Nat}
    (small : cluster < 2 ^ 16) {offset total : Nat} (bound : offset + total < 2 ^ 31)
    (fits : ∀ links data, links * v.clusterBytes < offset + total → dataChain v contents cluster links = some data →
      PositionsFit v data) :
    ReadsDataChain v contents cluster offset total ↔ LinksToData v contents cluster offset total := by
  obtain ⟨count, fewer, bytes, more, reads, written, ends⟩ :=
    readInternal_spec delivers table positive small (show offset < 2 ^ 31 by omega) total
  unfold ReadsDataChain LinksToData
  rw [written]
  constructor
  · intro sound
    rcases Nat.eq_zero_or_pos total with nothing | something
    · exact Or.inl nothing
    · refine Or.inr ?_
      rcases ends with ⟨_, _, amount⟩ | ⟨stops, _, _, ended⟩ | far
      · obtain ⟨_, copied⟩ := sound (by rw [amount]; exact Int.natCast_nonneg total)
        exact Or.inr (dataChain_last copied something)
      · exact Or.inl (walk_ended ended (Nat.div_le_div_right (by omega)))
      · omega
  · intro links succeeds
    rcases ends with ⟨whole, isAll, amount⟩ | ⟨_, _, failed, _⟩ | far
    · subst whole isAll
      rw [List.append_nil]
      refine ⟨amount, ?_⟩
      rcases links with nothing | ended | isData
      · subst nothing
        rw [List.length_eq_zero_iff.mp reads.length]
        rfl
      · rcases Nat.eq_zero_or_pos count with nothing | something
        · subst nothing
          rw [List.length_eq_zero_iff.mp reads.length]
          rfl
        · obtain ⟨reached, isReached, _⟩ := reads.byte (count - 1) (by omega)
          have position : offset + (count - 1) = offset + count - 1 := by omega
          rw [position, ended] at isReached
          cases isReached
      · obtain ⟨last, isLast⟩ := Option.isSome_iff_exists.mp isData
        exact reads.data fits isLast
    · omega
    · omega

/-! ### A bad cluster -/

/-- A volume with clusters of one sector, over the bytes of its disk. Its table is in sector 1, its root directory ends
with sector 32. -/
def plainVolume (contents : Int → Byte) : FatVolume where
  sectorSize := 512
  header := ⟨1, 1, 1, 496, 1⟩
  rootDirectory := ⟨some fun _ => fatDirectoryItem fun _ => 0x00#8, 0, 2, 33, false⟩
  read := fun pos _ => ⟨0, fun k => contents (pos + k)⟩

theorem plainVolume_delivers (contents : Int → Byte) : (plainVolume contents).Delivers contents :=
  fun _ _ => ⟨rfl, fun _ _ => rfl⟩

/-- A disk of which cluster 2 is marked as bad. -/
def badCluster (pos : Int) : Byte := if pos = 516 then 0xF7#8 else if pos = 517 then 0xFF#8 else 0x00#8

/-- All data clusters lie on the disk. -/
theorem plainVolume_fits {contents : Int → Byte} {cluster links data : Nat}
    (isReached : dataChain (plainVolume contents) contents cluster links = some data) :
    PositionsFit (plainVolume contents) data := by
  obtain ⟨low, high⟩ := dataChain_isData isReached
  show -2 ^ 31 ≤ (33 + ((data : Int) - 2) * (1 : Nat)) * (512 : Nat) ∧
    (33 + ((data : Int) - 2) * (1 : Nat)) * (512 : Nat) + (1 * 512 : Nat) ≤ 2 ^ 31
  omega

/-- The first byte of a cluster. -/
theorem readsDataChain_first : ReadsDataChain (plainVolume badCluster) badCluster 2 0 1 :=
  (readsDataChain_iff (plainVolume_delivers badCluster) (by decide) (by decide) (by decide) (by decide)
    (fun _ _ _ => plainVolume_fits)).mpr (Or.inr (Or.inr (by decide)))

/-- **The mark of a bad cluster is followed**: behind a cluster that is marked as bad, a byte is read from cluster
`0xFFF7`. -/
theorem badCluster_followed :
    ¬ (∀ (v : FatVolume) (contents : Int → Byte), v.Delivers contents → 0 < v.clusterBytes →
        v.header.reservedSectors * v.sectorSize + 2 ^ 17 ≤ 2 ^ 31 → ∀ cluster < 2 ^ 16, ∀ offset total : Nat,
        offset + total < 2 ^ 31 →
        (∀ links data, links * v.clusterBytes < offset + total → dataChain v contents cluster links = some data →
          PositionsFit v data) →
        ReadsDataChain v contents cluster offset total) ∧
      fat16ReadInternalFromStream (plainVolume badCluster) 2 512 1 = (1, [0x00#8]) := by
  have result : fat16ReadInternalFromStream (plainVolume badCluster) 2 512 1 = (1, [0x00#8]) := by decide +kernel
  refine ⟨fun all => ?_, result⟩
  obtain ⟨_, copied⟩ := all (plainVolume badCluster) badCluster (plainVolume_delivers badCluster) (by decide) (by decide) 2
    (by decide) 512 1 (by decide) (fun _ _ _ => plainVolume_fits)
    (by rw [show ((512 : Nat) : Int) = 512 from rfl, show ((1 : Nat) : Int) = 1 from rfl, result]; decide)
  have isData := dataChain_last copied Nat.one_pos
  have noData : dataChain (plainVolume badCluster) badCluster 2 1 = none := by decide +kernel
  rw [show (512 + 1 - 1) / (plainVolume badCluster).clusterBytes = 1 from rfl, noData] at isData
  cases isData

end PeachOS
