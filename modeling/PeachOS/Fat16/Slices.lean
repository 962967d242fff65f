/-
**Reading a file in slices: `fat16_read` once, or several times.**

Every item of a read follows the chain again from the first cluster, and is cut at the ends of the clusters. A byte of a file
depends on its offset only, as long as its position on the disk is an `int`; so do the bytes of a read.

* `readLoop_slice` — a read delivers the bytes at its offsets, or one of these has no cluster;
* `fat16Read_slice` — so does a call, which moves the position behind them;
* `reads_compose` — a read that succeeds is that of its slices.
-/

import PeachOS.Fat16.EndOfFile
import PeachOS.Fat16.Seek
import Mathlib.Algebra.Order.BigOperators.Group.List

namespace PeachOS

open LinkChain

/-- Reads one after the other, each with its size and its number of items: their results, the position then, and what they
copied. -/
def fat16Reads (v : FatVolume) (item : FatDirectoryItem) : (calls : List (Nat × Nat)) → (pos : Nat) → List Int × Nat × List Byte
  | [], pos => ([], pos, [])
  | call :: calls, pos =>
      let read := fat16Read v item pos call.1 call.2
      let rest := fat16Reads v item calls read.2.1
      (read.1 :: rest.1, rest.2.1, read.2.2 ++ rest.2.2)

/-- The cluster at which the reads of a file begin. -/
def readCluster (item : FatDirectoryItem) : Nat := toUInt16 (toInt32 (fat16GetFirstCluster item))

/-- How many bytes some calls ask for. -/
def totalBytes (calls : List (Nat × Nat)) : Nat := (calls.map fun call => call.1 * call.2).sum

section Slices

variable (v : FatVolume) (contents : Int → Byte) (cluster : Nat)

/-- The position on the disk of an offset behind the start of a cluster. -/
def filePos (offset : Nat) : Int :=
  toInt32 (fat16ClusterToSector v (toUInt16 (fat16GetClusterForOffset v cluster offset)) * v.sectorSize) +
    (offset % v.clusterBytes : Nat)

/-- Some bytes behind the start of a cluster. -/
def fileBytes (offset count : Nat) : List Byte := (List.range count).map fun k => contents (filePos v cluster (offset + k))

/-- **The positions of some offsets are below `2 ^ 31`.** -/
def PositionsBelow (offset count : Nat) : Prop := ∀ k < count, filePos v cluster (offset + k) < 2 ^ 31

/-- **Some offsets have clusters.** -/
def HaveClusters (offset count : Nat) : Prop := ∀ k < count, 0 ≤ fat16GetClusterForOffset v cluster (offset + k : Nat)

end Slices

section Reads

variable {v : FatVolume} {contents : Int → Byte} {cluster : Nat}

/-! ### Slices -/

theorem fileBytes_append (v : FatVolume) (contents : Int → Byte) (cluster offset first second : Nat) :
    fileBytes v contents cluster offset first ++ fileBytes v contents cluster (offset + first) second =
      fileBytes v contents cluster offset (first + second) := by
  unfold fileBytes
  rw [List.range_add, List.map_append, List.map_map]
  congr 1
  refine List.map_congr_left fun k _ => ?_
  rw [Function.comp_apply, Nat.add_assoc]

/-- A property of the offsets of a slice is that of the offsets of its parts. -/
theorem slice_split {P : Nat → Prop} (offset first second : Nat) :
    (∀ k < first + second, P (offset + k)) ↔ (∀ k < first, P (offset + k)) ∧ ∀ k < second, P (offset + first + k) := by
  constructor
  · intro all
    refine ⟨fun k inside => all k (by omega), fun k inside => ?_⟩
    rw [Nat.add_assoc]
    exact all (first + k) (by omega)
  · rintro ⟨before, behind⟩ k inside
    by_cases isFirst : k < first
    · exact before k isFirst
    · obtain ⟨j, rfl⟩ := Nat.exists_eq_add_of_le (not_lt.mp isFirst)
      rw [← Nat.add_assoc]
      exact behind j (by omega)

theorem haveClusters_split (v : FatVolume) (cluster offset first second : Nat) :
    HaveClusters v cluster offset (first + second) ↔ HaveClusters v cluster offset first ∧
      HaveClusters v cluster (offset + first) second :=
  @slice_split (fun (offset : Nat) => 0 ≤ fat16GetClusterForOffset v cluster offset) offset first second

theorem positionsBelow_split (v : FatVolume) (cluster offset first second : Nat) :
    PositionsBelow v cluster offset (first + second) ↔
      PositionsBelow v cluster offset first ∧ PositionsBelow v cluster (offset + first) second :=
  @slice_split (fun offset => filePos v cluster offset < 2 ^ 31) offset first second

/-! ### One read -/

/-- A cluster is 16 bits, or an error. -/
theorem getClusterLoop_result (v : FatVolume) (links : Nat) : ∀ {cluster : Nat}, cluster < 2 ^ 16 →
    fat16GetClusterLoop v links cluster < 0 ∨ ∃ reached < 2 ^ 16, fat16GetClusterLoop v links cluster = (reached : Nat) := by
  induction links with
  | zero => exact fun {cluster} small => Or.inr ⟨cluster, small, rfl⟩
  | succ links ih =>
      intro cluster small
      have entrySmall : toUInt16 (fat16GetFatEntry v cluster) < 2 ^ 16 := by
        unfold toUInt16
        omega
      rw [fat16GetClusterLoop]
      split
      · exact Or.inl (by decide)
      · split
        · exact Or.inl (by decide)
        · exact ih entrySmall

theorem clusterForOffset_result (v : FatVolume) {cluster : Nat} (small : cluster < 2 ^ 16) (offset : Int) :
    fat16GetClusterForOffset v cluster offset < 0 ∨ ∃ reached < 2 ^ 16, fat16GetClusterForOffset v cluster offset =
      (reached : Nat) :=
  getClusterLoop_result v _ small

/-- The offsets of one cluster. -/
theorem clusterForOffset_same {offset offset' : Nat} (same : offset / v.clusterBytes = offset' / v.clusterBytes) :
    fat16GetClusterForOffset v cluster offset = fat16GetClusterForOffset v cluster offset' := by
  unfold fat16GetClusterForOffset
  rw [← Int.ofNat_tdiv, ← Int.ofNat_tdiv, same]

/-- A chunk of a cluster, which begins at a position that is an `int`. -/
theorem chunk_bytes (delivers : v.Delivers contents) {reached offset count : Nat} (small : reached < 2 ^ 16)
    (isReached : fat16GetClusterForOffset v cluster offset = reached) (below : filePos v cluster offset < 2 ^ 31)
    (inside : offset % v.clusterBytes + count ≤ v.clusterBytes) :
    (List.range count).map (v.read (chunkPos v reached offset) count).bytes = fileBytes v contents cluster offset count := by
  have unsigned : toUInt16 (reached : Int) = reached := by
    unfold toUInt16
    omega
  have start : chunkPos v reached offset = filePos v cluster offset := by
    unfold filePos at below ⊢
    rw [isReached, unsigned] at below ⊢
    unfold chunkPos
    generalize fat16ClusterToSector v reached * v.sectorSize = start at below ⊢
    generalize offset % v.clusterBytes = behind at below ⊢
    unfold toInt32 at below ⊢
    split at below <;> split <;> omega
  refine List.map_congr_left fun k isIn => ?_
  have before := List.mem_range.mp isIn
  obtain ⟨sameCluster, behind⟩ := offset_near (show offset % v.clusterBytes + k < v.clusterBytes by omega)
  rw [(delivers _ _).2 k (by omega), start, filePos, filePos, clusterForOffset_same sameCluster, behind, Int.add_assoc,
    Nat.cast_add]

/-- **The loop of a read**: all its bytes, or an offset without a cluster. -/
theorem readLoop_slice (delivers : v.Delivers contents) (positive : 0 < v.clusterBytes) (smallStart : cluster < 2 ^ 16)
    (fuel : Nat) :
    ∀ {offset total : Nat} (bytesRead : Int) (written : List Byte), total ≤ fuel → offset + total < 2 ^ 31 →
      PositionsBelow v cluster offset total →
      (HaveClusters v cluster offset total ∧
          fat16ReadLoop v cluster fuel ⟨offset, total, bytesRead, written, 0⟩ =
            ⟨(offset + total : Nat), 0, bytesRead + total, written ++ fileBytes v contents cluster offset total, 0⟩) ∨
        (¬ HaveClusters v cluster offset total ∧
          (fat16ReadLoop v cluster fuel ⟨offset, total, bytesRead, written, 0⟩).res < 0) := by
  induction fuel with
  | zero =>
      intro offset total bytesRead written enough _ _
      obtain rfl : total = 0 := Nat.le_zero.mp enough
      refine Or.inl ⟨fun k inside => absurd inside (Nat.not_lt_zero k), ?_⟩
      rw [fat16ReadLoop, Nat.add_zero, Nat.cast_zero, add_zero]
      show _ = ClusterRead.mk _ _ _ (written ++ []) _
      rw [List.append_nil]
  | succ fuel ih =>
      intro offset total bytesRead written enough far below
      rcases Nat.eq_zero_or_pos total with nothing | something
      · subst nothing
        refine Or.inl ⟨fun k inside => absurd inside (Nat.not_lt_zero k), ?_⟩
        rw [fat16ReadLoop, Nat.add_zero, Nat.cast_zero, add_zero, if_pos (le_refl _)]
        show _ = ClusterRead.mk _ _ _ (written ++ []) _
        rw [List.append_nil]
      · rcases clusterForOffset_result v smallStart offset with failed | ⟨reached, small, isReached⟩
        · -- the chain ends in front of this offset
          refine Or.inr ⟨fun all => ?_, ?_⟩
          · have := all 0 something
            rw [Nat.add_zero] at this
            omega
          · rw [fat16ReadLoop]
            dsimp only
            rw [if_neg (by omega), if_pos failed]
            exact failed
        · -- a chunk of the cluster, and the rest
          obtain ⟨progress, fewer, inside⟩ := @chunkLength_bounds v.clusterBytes offset total positive something
          have chunk := chunk_bytes delivers small isReached (by have := below 0 something; rwa [Nat.add_zero] at this) inside
          rw [readLoop_turn delivers positive small isReached something, chunk]
          generalize chunkLength v.clusterBytes offset total = count at *
          obtain ⟨rest, rfl⟩ := Nat.exists_eq_add_of_le fewer
          have firstIn : HaveClusters v cluster offset count := by
            intro k before
            rw [clusterForOffset_same (offset_near (show offset % v.clusterBytes + k < v.clusterBytes by omega)).1, isReached]
            exact Int.natCast_nonneg _
          rw [haveClusters_split, toInt32_of_bounds (by omega) (by omega), Nat.add_sub_cancel_left]
          have sum : bytesRead + ((count + rest : Nat) : Int) = bytesRead + count + rest := by
            rw [Nat.cast_add, Int.add_assoc]
          rcases @ih (offset + count) rest (bytesRead + count) (written ++ fileBytes v contents cluster offset count) (by omega)
              (by omega) ((positionsBelow_split v cluster offset count rest).mp below).2 with ⟨restIn, isRest⟩ | ⟨ends, failed⟩
          · refine Or.inl ⟨⟨firstIn, restIn⟩, ?_⟩
            rw [isRest, List.append_assoc, fileBytes_append, sum, Nat.add_assoc]
          · exact Or.inr ⟨fun both => ends both.2, failed⟩

theorem readCluster_lt (item : FatDirectoryItem) : readCluster item < 2 ^ 16 := by
  unfold readCluster toUInt16
  omega

section Items

variable {item : FatDirectoryItem}

/-- **One read**, where its positions are an `int`. -/
theorem readInternal_slice (delivers : v.Delivers contents) (positive : 0 < v.clusterBytes) {offset total : Nat}
    (far : offset + total < 2 ^ 31) (below : PositionsBelow v (readCluster item) offset total) :
    (HaveClusters v (readCluster item) offset total →
        fat16ReadInternal v (toInt32 (fat16GetFirstCluster item)) offset total =
          ((total : Int), fileBytes v contents (readCluster item) offset total)) ∧
      (¬ HaveClusters v (readCluster item) offset total →
        (fat16ReadInternal v (toInt32 (fat16GetFirstCluster item)) offset total).1 < 0) := by
  unfold fat16ReadInternal fat16ReadInternalFromStream
  rw [Int.toNat_natCast]
  dsimp only
  rw [← readCluster]
  rcases @readLoop_slice v contents (readCluster item) delivers positive (readCluster_lt item) total offset total 0 []
    le_rfl far below with
    ⟨allIn, isAll⟩ | ⟨ends, failed⟩
  · refine ⟨fun _ => ?_, fun ends => absurd allIn ends⟩
    rw [isAll, if_neg (lt_irrefl 0), zero_add, List.nil_append]
  · refine ⟨fun allIn => absurd allIn ends, fun _ => ?_⟩
    rw [if_pos failed]
    exact failed

/-! ### One call -/

/-- The items of a call, all of which have clusters. -/
theorem readItems_slice (delivers : v.Delivers contents) (positive : 0 < v.clusterBytes) (size nmemb : Nat) :
    ∀ {offset : Nat}, offset + nmemb * size < 2 ^ 31 → PositionsBelow v (readCluster item) offset (nmemb * size) →
      HaveClusters v (readCluster item) offset (nmemb * size) → fat16ReadItems v item size nmemb offset =
        (0, ((offset + nmemb * size : Nat) : Int), fileBytes v contents (readCluster item) offset (nmemb * size)) := by
  induction nmemb with
  | zero =>
      intro offset _ _ _
      rw [fat16ReadItems, Nat.zero_mul, Nat.add_zero]
      rfl
  | succ nmemb ih =>
      intro offset far below allIn
      have total : (nmemb + 1) * size = size + nmemb * size := by rw [Nat.succ_mul, Nat.add_comm]
      rw [total] at far below allIn ⊢
      obtain ⟨firstBelow, restBelow⟩ := (positionsBelow_split v (readCluster item) offset size _).mp below
      obtain ⟨firstIn, restIn⟩ := (haveClusters_split v (readCluster item) offset size _).mp allIn
      have isFirst := (readInternal_slice delivers positive (show offset + size < 2 ^ 31 by omega) firstBelow).1 firstIn
      have next : toInt32 ((offset : Int) + (size : Nat)) = (offset + size : Nat) := by
        rw [← Nat.cast_add]
        exact toInt32_of_bounds (by omega) (by omega)
      have sizeInt : toInt32 (size : Int) = size := toInt32_of_bounds (by omega) (by omega)
      rw [fat16ReadItems, sizeInt, isFirst]
      dsimp only
      rw [if_neg (by omega), next, ih (by omega) restBelow restIn, fileBytes_append, Nat.add_assoc]

/-- **A call**: all the items, the position behind them, and the bytes at their offsets. -/
theorem fat16Read_slice (delivers : v.Delivers contents) (positive : 0 < v.clusterBytes) {pos size nmemb : Nat}
    (isInt : nmemb < 2 ^ 31) (far : pos + nmemb * size < 2 ^ 31) (below : PositionsBelow v (readCluster item) pos (nmemb * size))
    (allIn : HaveClusters v (readCluster item) pos (nmemb * size)) :
    fat16Read v item pos size nmemb =
      ((nmemb : Int), pos + nmemb * size, fileBytes v contents (readCluster item) pos (nmemb * size)) := by
  have position : toUInt32 ((pos + nmemb * size : Nat) : Int) = pos + nmemb * size := by
    rw [toUInt32_mod, Nat.mod_eq_of_lt (by omega)]
  unfold fat16Read
  rw [toInt32_of_bounds (by omega) (by omega), readItems_slice delivers positive size nmemb far below allIn]
  dsimp only
  rw [if_neg (lt_irrefl 0), toInt32_of_bounds (by omega) (by omega), position]

/-- A call for one item that succeeds: all its offsets have clusters. -/
theorem haveClusters_of_read (delivers : v.Delivers contents) (positive : 0 < v.clusterBytes) {pos size : Nat}
    (far : pos + size < 2 ^ 31) (below : PositionsBelow v (readCluster item) pos size)
    (succeeds : 0 ≤ (fat16Read v item pos size 1).1) :
    HaveClusters v (readCluster item) pos size := by
  by_contra ends
  have fails := (readInternal_slice delivers positive far below).2 ends
  have sizeInt : toInt32 (size : Int) = size := toInt32_of_bounds (by omega) (by omega)
  have posInt : toInt32 (pos : Int) = pos := toInt32_of_bounds (by omega) (by omega)
  have result := ((readItems_succ v item size 0 pos rfl).1 (by rwa [sizeInt])).1
  have code := (fat16Read_eq v item pos size 1).1
  rw [posInt, result, sizeInt, if_pos fails] at code
  omega

/-! ### Calls one after the other -/

theorem totalBytes_cons (call : Nat × Nat) (calls : List (Nat × Nat)) :
    totalBytes (call :: calls) = call.2 * call.1 + totalBytes calls := by
  rw [totalBytes, List.map_cons, List.sum_cons, Nat.mul_comm, totalBytes]

/-- The calls of some slices deliver the bytes of all of them. -/
theorem fat16Reads_slices (delivers : v.Delivers contents) (positive : 0 < v.clusterBytes) (calls : List (Nat × Nat)) :
    ∀ {pos : Nat}, (∀ call ∈ calls, call.2 < 2 ^ 31) → pos + totalBytes calls < 2 ^ 31 →
      PositionsBelow v (readCluster item) pos (totalBytes calls) → HaveClusters v (readCluster item) pos (totalBytes calls) →
      fat16Reads v item calls pos =
        (calls.map fun call => (call.2 : Int), pos + totalBytes calls,
          fileBytes v contents (readCluster item) pos (totalBytes calls)) := by
  induction calls with
  | nil => exact fun {pos} _ _ _ _ => rfl
  | cons call calls ih =>
      intro pos areInts far below allIn
      rw [totalBytes_cons] at far below allIn ⊢
      obtain ⟨firstBelow, restBelow⟩ := (positionsBelow_split v (readCluster item) pos _ _).mp below
      obtain ⟨firstIn, restIn⟩ := (haveClusters_split v (readCluster item) pos _ _).mp allIn
      obtain ⟨isInt, restInts⟩ := List.forall_mem_cons.mp areInts
      rw [fat16Reads, fat16Read_slice delivers positive isInt (by omega) firstBelow firstIn]
      dsimp only
      rw [ih restInts (by omega) restBelow restIn, fileBytes_append, Nat.add_assoc, List.map_cons]

/-- A slice has no more items than bytes. -/
theorem items_le {calls : List (Nat × Nat)} {call : Nat × Nat} (isIn : call ∈ calls) (something : 0 < call.1) :
    call.2 ≤ totalBytes calls :=
  (Nat.le_mul_of_pos_left call.2 something).trans (List.le_sum_of_mem (List.mem_map_of_mem isIn))

/-! ### Failures -/

/-- **A call that fails stays where it is**: an item cannot be read, or the result is negative and the position behind the items
would be an `int`. -/
theorem fat16Read_failed (v : FatVolume) (item : FatDirectoryItem) (pos size nmemb : Nat)
    (failed : (∃ i < nmemb, (itemRead v item pos size i).1 < 0) ∨
      ((fat16Read v item pos size nmemb).1 < 0 ∧ pos + nmemb * size < 2 ^ 31)) :
    (fat16Read v item pos size nmemb).2.1 = pos := by
  rcases fat16Read_pos v item pos size nmemb with ⟨_, stays⟩ | ⟨allOk, moved⟩
  · exact stays
  · rcases failed with ⟨i, inside, fails⟩ | ⟨negative, far⟩
    · exact absurd fails (allOk i inside)
    · -- the number of items is no `int`, so they are empty
      rcases readItems_offset v item size nmemb pos with ⟨_, i, inside, fails⟩ | ⟨ok, -, -⟩
      · exact absurd fails (allOk i inside)
      · rw [(fat16Read_eq v item pos size nmemb).1, ok, if_neg (lt_irrefl 0)] at negative
        have many : 2 ^ 31 ≤ nmemb := by
          by_contra few
          rw [toInt32_of_bounds (by omega) (by omega)] at negative
          omega
        have empty : size = 0 := by
          by_contra something
          have := Nat.le_mul_of_pos_right nmemb (Nat.pos_of_ne_zero something)
          omega
        subst empty
        rw [moved, Nat.mul_zero, Nat.add_zero, Nat.mod_eq_of_lt (by omega)]

end Items

end Reads

/-! ### The result -/

/-- **Reads compose**: a read that succeeds, of which the positions in the file and on the disk are below `2 ^ 31`, is that of its
slices, however it is cut; and a call that fails stays where it is. -/
theorem reads_compose {v : FatVolume} {contents : Int → Byte} (delivers : v.Delivers contents) (positive : 0 < v.clusterBytes)
    (item : FatDirectoryItem) (p N : Nat) (far : p + N < 2 ^ 31) (below : PositionsBelow v (readCluster item) p N)
    (succeeds : 0 ≤ (fat16Read v item p N 1).1) :
    (fat16Read v item p N 1).2.1 = p + N ∧
      (∀ calls : List (Nat × Nat), totalBytes calls = N → (∀ call ∈ calls, call.1 = 0 → call.2 < 2 ^ 31) →
        fat16Reads v item calls p = (calls.map fun call => (call.2 : Int), p + N, (fat16Read v item p N 1).2.2)) ∧
      ∀ (failing : FatVolume) (pos size nmemb : Nat),
        ((∃ i < nmemb, (itemRead failing item pos size i).1 < 0) ∨
          ((fat16Read failing item pos size nmemb).1 < 0 ∧ pos + nmemb * size < 2 ^ 31)) →
        (fat16Read failing item pos size nmemb).2.1 = pos := by
  have allIn := haveClusters_of_read delivers positive far below succeeds
  have single := @fat16Read_slice v contents item delivers positive p N 1 (by decide) (by rwa [Nat.one_mul])
    (by rwa [Nat.one_mul]) (by rwa [Nat.one_mul])
  rw [Nat.one_mul] at single
  rw [single]
  refine ⟨rfl, fun calls total empty => ?_, fun failing => fat16Read_failed failing item⟩
  subst total
  refine fat16Reads_slices delivers positive calls (fun call isIn => ?_) far below allIn
  rcases Nat.eq_zero_or_pos call.1 with isEmpty | nonEmpty
  · exact empty call isIn isEmpty
  · exact lt_of_le_of_lt (items_le isIn nonEmpty) (by omega)

/-- Two bytes of a file, at once and one by one. -/
theorem reads_compose_two : fat16Reads (plainVolume badCluster) tenBytes [(1, 1), (1, 1)] 0 =
    ([1, 1], 2, (fat16Read (plainVolume badCluster) tenBytes 0 2 1).2.2) :=
  (reads_compose (plainVolume_delivers badCluster) (by decide) tenBytes 0 2 (by decide)
    (by unfold PositionsBelow; decide +kernel) (by decide +kernel)).2.1 [(1, 1), (1, 1)] rfl
      fun call isIn empty => by
        rcases List.mem_cons.mp isIn with rfl | isIn
        · exact absurd empty (by decide)
        · rw [List.mem_singleton.mp isIn]
          decide

end PeachOS
