/-
**Which entries of the table are taken for links.**

`fat16_get_cluster_for_offset` refuses the end of a chain, free and reserved entries and the mark of a bad cluster. That mark
is `0xFFF7`; the constant in the source is `0xFF7`, which is a data cluster. And `0x0001` is not refused.

* `fatEntryAt` — the entries that are met from a first cluster, one after the other;
* `clusterForOffset_followed`, `clusterForOffset_refused` — what is returned, by the entries met;
* `followed_iff` — the entries for which the source is wrong;
* `classifiesLinks_iff` — for which chains the cluster of the offset is returned, or an error;
* `legalCluster_refused` — a chain through cluster `0xFF7`.
-/

import PeachOS.Fat16.Clusters

namespace PeachOS

open LinkChain

section Entries

variable (v : FatVolume) (contents : Int → Byte)

/-- The clusters that are met when the entries of the table are followed, whatever they are. -/
def fatEntryAt (cluster i : Nat) : Nat := (fatEntry v contents)^[i] cluster

/-- **A chain of different data clusters goes up to an offset.** -/
structure ChainTo (cluster offset : Nat) : Prop where
  data : ∀ i < offset / v.clusterBytes, DataCluster (fatEntryAt v contents cluster (i + 1))
  distinct : ∀ i j, i ≤ offset / v.clusterBytes → j ≤ offset / v.clusterBytes →
    fatEntryAt v contents cluster i = fatEntryAt v contents cluster j → i = j

/-- **The links of an offset are classified**: the cluster that holds the offset, where a chain goes up to it, and an error
where a link on the way is not to a data cluster. -/
def ClassifiesLinks (cluster offset : Nat) : Prop :=
  (ChainTo v contents cluster offset →
      fat16GetClusterForOffset v cluster offset = fatEntryAt v contents cluster (offset / v.clusterBytes)) ∧
    ((∃ i < offset / v.clusterBytes, ¬ DataCluster (fatEntryAt v contents cluster (i + 1))) →
      fat16GetClusterForOffset v cluster offset < 0)

/-- An entry with a property is met on the way to an offset. -/
def Meets (p : Nat → Prop) (cluster offset : Nat) : Prop :=
  ∃ i < offset / v.clusterBytes, p (fatEntryAt v contents cluster (i + 1))

/-- **When links are classified**: an entry is met that is refused as it should be; or `0x0FF7` is not met on a chain to the
offset, and `0x0001` and `0xFFF7` are not met unless `0x0FF7` is. -/
def EntriesToldApart (cluster offset : Nat) : Prop :=
  Meets v contents (fun entry => entry = 0x0000 ∨ (0xFFF0 ≤ entry ∧ entry ≠ 0xFFF7)) cluster offset ∨
    ((Meets v contents (fun entry => entry = 0x0001 ∨ entry = 0xFFF7) cluster offset →
        Meets v contents (fun entry => entry = 0x0FF7) cluster offset) ∧
      (Meets v contents (fun entry => entry = 0x0FF7) cluster offset → ¬ ChainTo v contents cluster offset))

end Entries

section Chains

variable {v : FatVolume} {contents : Int → Byte} (delivers : v.Delivers contents)
  (table : v.header.reservedSectors * v.sectorSize + 2 ^ 17 ≤ 2 ^ 31)

theorem fatEntryAt_succ_lt (cluster i : Nat) : fatEntryAt v contents cluster (i + 1) < 2 ^ 16 := by
  unfold fatEntryAt
  rw [Function.iterate_succ_apply']
  exact fatEntry_lt _

include delivers table

/-- **What is returned**: the last entry met, if all are followed. -/
theorem clusterForOffset_followed {cluster : Nat} (small : cluster < 2 ^ 16) {offset : Nat}
    (followed : ∀ i < offset / v.clusterBytes, Followed (fatEntryAt v contents cluster (i + 1))) :
    fat16GetClusterForOffset v cluster offset = fatEntryAt v contents cluster (offset / v.clusterBytes) := by
  have isReached : walk (followLink v contents) cluster (offset / v.clusterBytes) = some _ :=
    (walk_guarded_iff (fatEntry v contents) Followed (offset / v.clusterBytes)).mpr ⟨followed, rfl⟩
  rcases clusterForOffset_spec delivers table small offset with ⟨reached, -, same, isCluster⟩ | ⟨ended, -⟩
  · rw [isReached, Option.some.injEq] at same
    rw [isCluster, ← same]
    rfl
  · rw [isReached] at ended
    cases ended

/-- An error, if one is not. -/
theorem clusterForOffset_refused {cluster : Nat} (small : cluster < 2 ^ 16) {offset : Nat}
    (refused : ∃ i < offset / v.clusterBytes, ¬ Followed (fatEntryAt v contents cluster (i + 1))) :
    fat16GetClusterForOffset v cluster offset < 0 := by
  obtain ⟨i, inside, isRefused⟩ := refused
  rcases clusterForOffset_spec delivers table small offset with ⟨reached, -, isReached, -⟩ | ⟨-, fails⟩
  · have followed := (walk_guarded_iff (fatEntry v contents) Followed (offset / v.clusterBytes)).mp isReached
    exact absurd (followed.1 i inside) isRefused
  · exact fails

end Chains

/-- **Data clusters that are refused**, and entries that are followed and are no data clusters. -/
theorem followed_iff {entry : Nat} (small : entry < 2 ^ 16) :
    (DataCluster entry ∧ ¬ Followed entry ↔ entry = 0x0FF7) ∧
      (Followed entry ∧ ¬ DataCluster entry ↔ entry = 0x0001 ∨ entry = 0xFFF7) ∧
      (¬ Followed entry ∧ ¬ DataCluster entry ↔ entry = 0x0000 ∨ (0xFFF0 ≤ entry ∧ entry ≠ 0xFFF7)) := by
  unfold DataCluster Followed peachosFat16BadSector
  omega

/-- **Links are classified exactly where the entries that are met are told apart.** -/
theorem classifiesLinks_iff {v : FatVolume} {contents : Int → Byte} (delivers : v.Delivers contents)
    (table : v.header.reservedSectors * v.sectorSize + 2 ^ 17 ≤ 2 ^ 31) {cluster : Nat} (small : cluster < 2 ^ 16)
    (offset : Nat) : ClassifiesLinks v contents cluster offset ↔ EntriesToldApart v contents cluster offset := by
  have kinds := fun i => @followed_iff (fatEntryAt v contents cluster (i + 1)) (fatEntryAt_succ_lt cluster i)
  constructor
  · intro ⟨reaches, fails⟩
    by_cases refused : Meets v contents (fun entry => entry = 0x0000 ∨ (0xFFF0 ≤ entry ∧ entry ≠ 0xFFF7)) cluster offset
    · exact Or.inl refused
    · refine Or.inr ⟨fun ⟨i, inside, isWrong⟩ => ?_, fun ⟨i, inside, isLegal⟩ chain => ?_⟩
      · -- An error is returned, and so some entry is not followed.
        have noLink := ((kinds i).2.1.mpr isWrong).2
        have negative := fails ⟨i, inside, noLink⟩
        by_contra noLegal
        refine absurd negative (not_lt.mpr ?_)
        rw [clusterForOffset_followed delivers table small fun j before => ?_]
        · exact Int.natCast_nonneg _
        · by_contra notFollowed
          by_cases isData : DataCluster (fatEntryAt v contents cluster (j + 1))
          · exact noLegal ⟨j, before, (kinds j).1.mp ⟨isData, notFollowed⟩⟩
          · exact refused ⟨j, before, (kinds j).2.2.mp ⟨notFollowed, isData⟩⟩
      · have negative := clusterForOffset_refused delivers table small ⟨i, inside, ((kinds i).1.mpr isLegal).2⟩
        rw [reaches chain] at negative
        exact absurd negative (not_lt.mpr (Int.natCast_nonneg _))
  · intro apart
    refine ⟨fun chain => clusterForOffset_followed delivers table small fun i inside => ?_,
      fun ⟨i, inside, noLink⟩ => clusterForOffset_refused delivers table small ?_⟩
    · by_contra notFollowed
      rcases apart with ⟨j, before, isRefused⟩ | ⟨-, noLegal⟩
      · exact ((kinds j).2.2.mpr isRefused).2 (chain.data j before)
      · exact noLegal ⟨i, inside, (kinds i).1.mp ⟨chain.data i inside, notFollowed⟩⟩ chain
    · rcases apart with ⟨j, before, isRefused⟩ | ⟨wrong, -⟩
      · exact ⟨j, before, ((kinds j).2.2.mpr isRefused).1⟩
      · by_cases isFollowed : Followed (fatEntryAt v contents cluster (i + 1))
        · obtain ⟨j, before, isLegal⟩ := wrong ⟨i, inside, (kinds i).2.1.mp ⟨isFollowed, noLink⟩⟩
          exact ⟨j, before, ((kinds j).1.mpr isLegal).2⟩
        · exact ⟨i, inside, isFollowed⟩

/-! ### The two constants -/

/-- A disk on which cluster 2 links to cluster `0xFF7`. -/
def legalCluster (pos : Int) : Byte := if pos = 516 then 0xF7#8 else if pos = 517 then 0x0F#8 else 0x00#8

/-- **A data cluster is refused, and the mark of a bad one is followed**: the second cluster of a chain through `0xFF7` is not
found, and behind a cluster that is marked as bad, cluster `0xFFF7` is. -/
theorem legalCluster_refused :
    fat16GetClusterForOffset (plainVolume legalCluster) 2 512 = eio ∧
      ¬ ClassifiesLinks (plainVolume legalCluster) legalCluster 2 512 ∧
      fat16GetClusterForOffset (plainVolume badCluster) 2 512 = 0xFFF7 ∧
      ¬ ClassifiesLinks (plainVolume badCluster) badCluster 2 512 := by
  have legal : fat16GetClusterForOffset (plainVolume legalCluster) 2 512 = eio := by decide +kernel
  have bad : fat16GetClusterForOffset (plainVolume badCluster) 2 512 = 0xFFF7 := by decide +kernel
  have turns : 512 / (plainVolume legalCluster).clusterBytes = 1 := by decide
  have turns' : 512 / (plainVolume badCluster).clusterBytes = 1 := by decide
  have next : fatEntryAt (plainVolume legalCluster) legalCluster 2 1 = 0xFF7 := by decide +kernel
  have next' : fatEntryAt (plainVolume badCluster) badCluster 2 1 = 0xFFF7 := by decide +kernel
  refine ⟨legal, fun ⟨reaches, _⟩ => ?_, bad, fun ⟨_, fails⟩ => ?_⟩
  · have chain : ChainTo (plainVolume legalCluster) legalCluster 2 512 := by
      refine ⟨fun i inside => ?_, fun i j first second same => ?_⟩
      · obtain rfl : i = 0 := by omega
        rw [next]
        decide
      · rw [turns] at first second
        have start : fatEntryAt (plainVolume legalCluster) legalCluster 2 0 = 2 := rfl
        rcases Nat.le_one_iff_eq_zero_or_eq_one.mp first with rfl | rfl <;>
          rcases Nat.le_one_iff_eq_zero_or_eq_one.mp second with rfl | rfl
        · rfl
        · rw [start, next] at same
          exact absurd same (by decide)
        · rw [start, next] at same
          exact absurd same (by decide)
        · rfl
    have reached := reaches chain
    rw [turns, next] at reached
    exact absurd (legal.symm.trans reached) (by decide)
  · have negative := fails ⟨0, by omega, by rw [next']; decide⟩
    exact absurd (bad ▸ negative) (by decide)

/-- A disk on which cluster 2 links to cluster 3. -/
def twoClusters (pos : Int) : Byte := if pos = 516 then 0x03#8 else 0x00#8

/-- The second cluster of a chain. -/
theorem classifiesLinks_second : ClassifiesLinks (plainVolume twoClusters) twoClusters 2 512 := by
  have turns : 512 / (plainVolume twoClusters).clusterBytes = 1 := by decide
  have next : fatEntryAt (plainVolume twoClusters) twoClusters 2 1 = 3 := by decide +kernel
  refine (classifiesLinks_iff (plainVolume_delivers twoClusters) (by decide) (by decide) 512).mpr (Or.inr ⟨?_, ?_⟩)
  · rintro ⟨i, inside, isWrong⟩
    obtain rfl : i = 0 := by omega
    rw [next] at isWrong
    exact absurd isWrong (by decide)
  · rintro ⟨i, inside, isLegal⟩
    obtain rfl : i = 0 := by omega
    rw [next] at isLegal
    exact absurd isLegal (by decide)

end PeachOS
