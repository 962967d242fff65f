/-
**Reads up to the end of a file.**

`fat16_read` never looks at the size of its file: it reads as long as the cluster chain goes on. A read ends with the
file when it stays in it, when the followed chain ends with it, or when its sizes are no `int`.

* `readItems_spec` — the items of a read are the bytes of the followed chain, up to its end;
* `endsWithFile_iff` — when no byte behind the end of the file is read.
-/

import PeachOS.Fat16.Clusters

namespace PeachOS

open LinkChain

/-! ### Files -/

/-- **A file of a volume**: its clusters hold its bytes, and their positions are an `int`. -/
structure IsFile (v : FatVolume) (contents : Int → Byte) (item : FatDirectoryItem) : Prop where
  cluster : item.low16BitsFirstCluster < 2 ^ 16
  size : item.filesize < 2 ^ 31
  data : 0 < item.filesize →
    ∃ last, dataChain v contents item.low16BitsFirstCluster ((item.filesize - 1) / v.clusterBytes) = some last
  fits : ∀ links data, links * v.clusterBytes < item.filesize →
    dataChain v contents item.low16BitsFirstCluster links = some data → PositionsFit v data

/-- **A read ends with its file**: it returns no more items than are left, and copies bytes of the file only. -/
def EndsWithFile (v : FatVolume) (contents : Int → Byte) (item : FatDirectoryItem) (pos size nmemb : Nat) : Prop :=
  (fat16Read v item pos size nmemb).1 ≤ ((item.filesize - pos) / size : Nat) ∧
    ∃ count ≤ item.filesize - pos, (fat16Read v item pos size nmemb).2.2.map some =
      (List.range count).map fun k => dataByte v contents item.low16BitsFirstCluster (pos + k)

/-- **When a read ends with its file.** -/
def StaysInFile (v : FatVolume) (contents : Int → Byte) (item : FatDirectoryItem) (pos size nmemb : Nat) : Prop :=
  nmemb = 0 ∨ pos + nmemb * size ≤ item.filesize ∨
    (pos < 2 ^ 31 ∧ size < 2 ^ 31 ∧
      walk (followLink v contents) item.low16BitsFirstCluster (max item.filesize pos / v.clusterBytes) = none) ∨
    (2 ^ 31 ≤ size ∧ 2 ^ 31 ≤ nmemb)

theorem firstCluster_eq {item : FatDirectoryItem} (small : item.low16BitsFirstCluster < 2 ^ 16) :
    toUInt16 (toInt32 (fat16GetFirstCluster item)) = item.low16BitsFirstCluster := by
  unfold fat16GetFirstCluster toUInt16 toInt32
  split <;> omega

/-! ### The items of a read -/

theorem fat16Read_eq (v : FatVolume) (item : FatDirectoryItem) (pos size nmemb : Nat) :
    (fat16Read v item pos size nmemb).1 =
        (if (fat16ReadItems v item size nmemb (toInt32 pos)).1 < 0 then (fat16ReadItems v item size nmemb (toInt32 pos)).1
        else toInt32 nmemb) ∧
      (fat16Read v item pos size nmemb).2.2 = (fat16ReadItems v item size nmemb (toInt32 pos)).2.2 := by
  unfold fat16Read
  generalize fat16ReadItems v item size nmemb (toInt32 pos) = items
  generalize toInt32 (nmemb : Int) = whole
  generalize toUInt32 items.2.1 = pos'
  dsimp only
  by_cases failed : items.1 < 0
  · rw [if_pos failed, if_pos failed]
    exact ⟨rfl, rfl⟩
  · rw [if_neg failed, if_neg failed]
    exact ⟨rfl, rfl⟩

/-- One item, and the others behind it. -/
theorem readItems_succ (v : FatVolume) (item : FatDirectoryItem) (size nmemb : Nat) (offset : Int) {first : Int × List Byte}
    (isItem : fat16ReadInternal v (toInt32 (fat16GetFirstCluster item)) offset (toInt32 size) = first) :
    (first.1 < 0 → (fat16ReadItems v item size (nmemb + 1) offset).1 = first.1 ∧
        (fat16ReadItems v item size (nmemb + 1) offset).2.2 = first.2) ∧
      (¬ first.1 < 0 → (fat16ReadItems v item size (nmemb + 1) offset).1 =
          (fat16ReadItems v item size nmemb (toInt32 (offset + size))).1 ∧
        (fat16ReadItems v item size (nmemb + 1) offset).2.2 =
          first.2 ++ (fat16ReadItems v item size nmemb (toInt32 (offset + size))).2.2) := by
  rw [fat16ReadItems]
  dsimp only
  rw [isItem]
  generalize fat16ReadItems v item size nmemb (toInt32 (offset + size)) = items
  constructor
  · intro failed
    rw [if_pos failed]
    exact ⟨rfl, rfl⟩
  · intro ok
    rw [if_neg ok]
    exact ⟨rfl, rfl⟩

/-- Whether its read fails or not, the bytes of an item come first. -/
theorem readItems_written (v : FatVolume) (item : FatDirectoryItem) (size nmemb : Nat) (offset : Int) :
    ∃ more, (fat16ReadItems v item size (nmemb + 1) offset).2.2 =
      (fat16ReadInternal v (toInt32 (fat16GetFirstCluster item)) offset (toInt32 size)).2 ++ more := by
  obtain ⟨failed, ok⟩ := readItems_succ v item size nmemb offset rfl
  by_cases fails : (fat16ReadInternal v (toInt32 (fat16GetFirstCluster item)) offset (toInt32 size)).1 < 0
  · exact ⟨[], by rw [(failed fails).2, List.append_nil]⟩
  · exact ⟨_, (ok fails).2⟩

section Items

variable {v : FatVolume} {contents : Int → Byte} (delivers : v.Delivers contents)
  (table : v.header.reservedSectors * v.sectorSize + 2 ^ 17 ≤ 2 ^ 31) (positive : 0 < v.clusterBytes) {item : FatDirectoryItem}
  {size : Nat}

include delivers table positive in
/-- **What the items deliver**: the bytes of the followed chain, all of them, those up to its end, or those up to the
last offset that is an `int`. -/
theorem readItems_spec (small : item.low16BitsFirstCluster < 2 ^ 16) (isInt : size < 2 ^ 31) (nmemb : Nat) :
    ∀ {offset : Nat}, offset < 2 ^ 31 → ∃ count ≤ nmemb * size, ∃ bytes more,
      ReadsChain v contents item.low16BitsFirstCluster offset count bytes ∧
      (fat16ReadItems v item size nmemb offset).2.2 = bytes ++ more ∧
      ((count = nmemb * size ∧ more = [] ∧ (fat16ReadItems v item size nmemb offset).1 = 0) ∨
        (count < nmemb * size ∧ more = [] ∧ (fat16ReadItems v item size nmemb offset).1 < 0 ∧
          walk (followLink v contents) item.low16BitsFirstCluster ((offset + count) / v.clusterBytes) = none) ∨
        2 ^ 31 ≤ offset + count) := by
  induction nmemb with
  | zero =>
      intro offset _
      exact ⟨0, Nat.zero_le _, [], [], readsChain_nil _ _ _ _, rfl, Or.inl ⟨(Nat.zero_mul size).symm, rfl, rfl⟩⟩
  | succ nmemb hyp =>
      intro offset bound
      obtain ⟨count, fewer, bytes, more, reads, written, ends⟩ :=
        readInternal_spec delivers table positive small bound size
      have isItem : fat16ReadInternal v (toInt32 (fat16GetFirstCluster item)) offset (toInt32 size) =
          fat16ReadInternalFromStream v item.low16BitsFirstCluster offset size := by
        rw [fat16ReadInternal, firstCluster_eq small, toInt32_of_bounds (by omega) (by omega)]
      obtain ⟨fails, goes⟩ := readItems_succ v item size nmemb offset isItem
      obtain ⟨rest, appended⟩ := readItems_written v item size nmemb offset
      rw [isItem, written, List.append_assoc] at appended
      have total : (nmemb + 1) * size = size + nmemb * size := by rw [Nat.add_mul, Nat.one_mul, Nat.add_comm]
      rw [total]
      rcases ends with ⟨whole, isAll, amount⟩ | ⟨stops, isAll, failed, ended⟩ | far
      · by_cases near : offset + size < 2 ^ 31
        · -- the other items begin behind this one
          obtain ⟨sameResult, sameBytes⟩ := goes (by omega)
          obtain ⟨others, othersFewer, bytes', more', reads', written', ends'⟩ := hyp near
          have next : toInt32 ((offset : Int) + (size : Nat)) = (offset + size : Nat) := by
            rw [← Nat.cast_add]
            exact toInt32_of_bounds (by omega) (by omega)
          subst whole isAll
          rw [sameResult, sameBytes, next, written, written', List.append_nil]
          refine ⟨count + others, by omega, bytes ++ bytes', more', reads.append reads', (List.append_assoc _ _ _).symm, ?_⟩
          rcases ends' with ⟨whole, isAll, ok⟩ | ⟨stops, isAll, failed, ended⟩ | far
          · exact Or.inl ⟨by omega, isAll, ok⟩
          · exact Or.inr (Or.inl ⟨by omega, isAll, failed, by rw [← Nat.add_assoc]; exact ended⟩)
          · exact Or.inr (Or.inr (le_of_le_of_eq far (Nat.add_assoc _ _ _)))
        · exact ⟨count, by omega, bytes, more ++ rest, reads, appended, Or.inr (Or.inr (by omega))⟩
      · obtain ⟨sameResult, sameBytes⟩ := fails failed
        subst isAll
        rw [sameResult, sameBytes, written]
        exact ⟨count, by omega, bytes, [], reads, rfl, Or.inr (Or.inl ⟨by omega, rfl, failed, ended⟩)⟩
      · exact ⟨count, by omega, bytes, more ++ rest, reads, appended, Or.inr (Or.inr far)⟩

include delivers positive in
/-- At a negative offset the first cluster is read, and bytes in front of it. -/
theorem readItems_negative {offset : Int} (negative : offset < 0) (something : 0 < size) (isInt : size < 2 ^ 31) (nmemb : Nat) :
    0 < (fat16ReadItems v item size (nmemb + 1) offset).2.2.length := by
  obtain ⟨rest, appended⟩ := readItems_written v item size nmemb offset
  rw [appended, List.length_append, fat16ReadInternal]
  obtain ⟨before, rfl⟩ : ∃ before : Nat, offset = -(before : Int) := ⟨offset.natAbs, by omega⟩
  have noLinks : ((-(before : Int)).tdiv v.clusterBytes).toNat = 0 := by
    rw [Int.neg_tdiv, ← Int.ofNat_tdiv]
    exact Int.toNat_of_nonpos (neg_nonpos.mpr (Int.natCast_nonneg _))
  have remainder : (-(before : Int)).tmod v.clusterBytes ≤ 0 := by
    rw [Int.neg_tmod, ← Int.ofNat_tmod]
    omega
  generalize toUInt16 (toInt32 (fat16GetFirstCluster item)) = cluster
  have isFirst : fat16GetClusterForOffset v cluster (-(before : Int)) = cluster := by
    rw [fat16GetClusterForOffset, noLinks, fat16GetClusterLoop]
  obtain ⟨less, rfl⟩ := Nat.exists_eq_add_of_lt something
  rw [toInt32_of_bounds (by omega) (by omega), fat16ReadInternalFromStream]
  dsimp only
  rw [Int.toNat_natCast, fat16ReadLoop]
  dsimp only
  rw [if_neg (by omega), isFirst, if_neg (by omega), (delivers _ _).1, if_neg (by decide)]
  generalize (-(before : Int)).tmod v.clusterBytes = offsetFromCluster at remainder ⊢
  have chunk : 0 < (if (v.clusterBytes : Int) - offsetFromCluster > (0 + less + 1 : Nat) then ((0 + less + 1 : Nat) : Int)
      else (v.clusterBytes : Int) - offsetFromCluster) := by
    split <;> omega
  generalize (if (v.clusterBytes : Int) - offsetFromCluster > (0 + less + 1 : Nat) then ((0 + less + 1 : Nat) : Int)
      else (v.clusterBytes : Int) - offsetFromCluster) = totalToRead at chunk ⊢
  obtain ⟨more, written⟩ := readLoop_written v cluster (0 + less) ⟨_, _, _, _, 0⟩
  rw [written, List.length_append, List.nil_append, List.length_map, List.length_range]
  omega

/-- A size that is no `int` reads nothing. -/
theorem readItems_noInt (v : FatVolume) (item : FatDirectoryItem) (noInt : 2 ^ 31 ≤ size) (isUInt : size < 2 ^ 32) (nmemb : Nat) :
    ∀ offset : Int, (fat16ReadItems v item size nmemb offset).1 = 0 ∧ (fat16ReadItems v item size nmemb offset).2.2 = [] := by
  have negative : (toInt32 size).toNat = 0 := by
    unfold toInt32
    split <;> omega
  have nothing : ∀ cluster offset, fat16ReadInternal v cluster offset (toInt32 size) = (0, []) := by
    intro cluster offset
    rw [fat16ReadInternal, fat16ReadInternalFromStream, negative, fat16ReadLoop]
    rfl
  induction nmemb with
  | zero => exact fun offset => ⟨rfl, rfl⟩
  | succ nmemb hyp =>
      intro offset
      obtain ⟨sameResult, sameBytes⟩ := (readItems_succ v item size nmemb offset (nothing _ _)).2 (lt_irrefl 0)
      obtain ⟨ok, noBytes⟩ := hyp (toInt32 (offset + size))
      exact ⟨sameResult.trans ok, by rw [sameBytes, noBytes, List.append_nil]⟩

/-! ### The end of the file -/

/-- The bytes that were copied are bytes of the file, if they are not more than are left. -/
theorem IsFile.copied (file : IsFile v contents item) {pos count : Nat} {bytes : List Byte}
    (reads : ReadsChain v contents item.low16BitsFirstCluster pos count bytes) (inside : count ≤ item.filesize - pos) :
    bytes.map some = (List.range count).map fun k => dataByte v contents item.low16BitsFirstCluster (pos + k) := by
  rcases Nat.eq_zero_or_pos count with nothing | something
  · subst nothing
    rw [List.length_eq_zero_iff.mp reads.length]
    rfl
  · obtain ⟨last, isLast⟩ := file.data (by omega)
    obtain ⟨data, isData⟩ := dataChain_before isLast
      (show (pos + count - 1) / v.clusterBytes ≤ _ from Nat.div_le_div_right (by omega))
    exact reads.data (fun links data below => file.fits links data (by omega)) isData

include delivers table positive in
/-- **A read copies no more than is left, exactly when it ends with its file**, at a position and with a size that are
an `int`. -/
theorem endsWithFile_int (file : IsFile v contents item) (something : 0 < size) (isInt : size < 2 ^ 31) {pos nmemb : Nat}
    (isPos : pos < 2 ^ 31) :
    EndsWithFile v contents item pos size nmemb ↔ nmemb = 0 ∨ pos + nmemb * size ≤ item.filesize ∨
      walk (followLink v contents) item.low16BitsFirstCluster (max item.filesize pos / v.clusterBytes) = none := by
  obtain ⟨count, fewer, bytes, more, reads, written, ends⟩ :=
    readItems_spec delivers table positive file.cluster isInt nmemb isPos
  have position : toInt32 (pos : Int) = pos := toInt32_of_bounds (by omega) (by omega)
  obtain ⟨result, copied⟩ := fat16Read_eq v item pos size nmemb
  rw [position] at result copied
  have sizeFits := file.size
  unfold EndsWithFile
  rw [result, copied, written]
  constructor
  · rintro ⟨_, length, inside, same⟩
    have lengths := congrArg List.length same
    rw [List.length_map, List.length_append, reads.length, List.length_map, List.length_range] at lengths
    rcases ends with ⟨whole, _, _⟩ | ⟨_, _, _, ended⟩ | far
    · rcases Nat.eq_zero_or_pos nmemb with nothing | items
      · exact Or.inl nothing
      · have := Nat.mul_pos items something
        exact Or.inr (Or.inl (by omega))
    · exact Or.inr (Or.inr (walk_ended ended (Nat.div_le_div_right (by omega))))
    · omega
  · intro stays
    -- no byte behind the end of the file is read
    have inside : count ≤ item.filesize - pos := by
      rcases stays with nothing | stays | ended
      · rw [nothing, Nat.zero_mul] at fewer
        omega
      · omega
      · rcases Nat.eq_zero_or_pos count with nothing | progress
        · omega
        · by_contra beyond
          obtain ⟨reached, isReached, _⟩ := reads.byte (count - 1) (by omega)
          rw [walk_ended ended (Nat.div_le_div_right (by omega))] at isReached
          cases isReached
    rcases ends with ⟨whole, isAll, ok⟩ | ⟨stops, isAll, failed, _⟩ | far
    · subst isAll
      rw [List.append_nil, ok, if_neg (lt_irrefl 0)]
      refine ⟨?_, count, inside, file.copied reads inside⟩
      have items : nmemb ≤ (item.filesize - pos) / size := (Nat.le_div_iff_mul_le something).mpr (by omega)
      have fewItems : nmemb ≤ nmemb * size := Nat.le_mul_of_pos_right _ something
      rw [toInt32_of_bounds (by omega) (by omega)]
      exact Int.ofNat_le.mpr items
    · subst isAll
      rw [List.append_nil, if_pos failed]
      exact ⟨failed.le.trans (Int.natCast_nonneg _), count, inside, file.copied reads inside⟩
    · omega

include delivers table positive in
/-- **The end of a file**, for every position, size and number of items. -/
theorem endsWithFile_iff (file : IsFile v contents item) {pos nmemb : Nat} (something : 0 < size) (isPos : pos < 2 ^ 32)
    (isSize : size < 2 ^ 32) (isCount : nmemb < 2 ^ 32) :
    EndsWithFile v contents item pos size nmemb ↔ StaysInFile v contents item pos size nmemb := by
  have sizeFits := file.size
  unfold StaysInFile
  by_cases isInt : size < 2 ^ 31
  · by_cases near : pos < 2 ^ 31
    · rw [endsWithFile_int delivers table positive file something isInt near]
      have noItems : ¬ (2 ^ 31 ≤ size ∧ 2 ^ 31 ≤ nmemb) := fun isLarge => Nat.not_lt.mpr isLarge.1 isInt
      simp only [isInt, near, noItems, true_and, or_false]
    · -- the offset is negative, and something is copied
      constructor
      · rintro ⟨_, count, inside, same⟩
        cases nmemb with
        | zero => exact Or.inl rfl
        | succ nmemb =>
            have negative : toInt32 (pos : Int) < 0 := by
              unfold toInt32
              split <;> omega
            have progress := @readItems_negative v contents delivers positive item size _ negative something isInt nmemb
            have lengths := congrArg List.length same
            rw [(fat16Read_eq v item pos size (nmemb + 1)).2, List.length_map, List.length_map, List.length_range] at lengths
            omega
      · rintro (nothing | stays | ⟨isNear, _⟩ | ⟨isLarge, _⟩)
        · subst nothing
          exact ⟨Int.natCast_nonneg _, 0, Nat.zero_le _, rfl⟩
        · omega
        · exact absurd isNear near
        · omega
  · obtain ⟨ok, nothing⟩ := readItems_noInt v item (by omega) isSize nmemb (toInt32 pos)
    obtain ⟨result, copied⟩ := fat16Read_eq v item pos size nmemb
    unfold EndsWithFile
    rw [result, copied, ok, nothing, if_neg (lt_irrefl 0), Nat.div_eq_of_lt (show item.filesize - pos < size by omega)]
    have noItems : toInt32 (nmemb : Int) ≤ (0 : Nat) ↔ nmemb = 0 ∨ 2 ^ 31 ≤ nmemb := by
      unfold toInt32
      split <;> omega
    rw [noItems]
    constructor
    · rintro ⟨none | many, _⟩
      · exact Or.inl none
      · exact Or.inr (Or.inr (Or.inr ⟨by omega, many⟩))
    · intro stays
      refine ⟨?_, 0, Nat.zero_le _, rfl⟩
      rcases stays with none | stays | ⟨_, isInt', _⟩ | ⟨_, many⟩
      · exact Or.inl none
      · rcases Nat.eq_zero_or_pos nmemb with none | items
        · exact Or.inl none
        · have := Nat.le_mul_of_pos_left size items
          omega
      · exact absurd isInt' isInt
      · exact Or.inr many

end Items

/-! ### A short file -/

/-- A file of 10 bytes in the cluster 2. -/
def shortFile : FatDirectoryItem := ⟨[], [], 0x00#8, 0, 2, 10⟩

theorem shortFile_isFile : IsFile (plainVolume fun _ => 0x00#8) (fun _ => 0x00#8) shortFile where
  cluster := by decide
  size := by decide
  data := fun _ => ⟨2, by decide⟩
  fits := fun _ _ _ => plainVolume_fits

/-- Its 10 bytes, one after the other. -/
theorem endsWithFile_short : EndsWithFile (plainVolume fun _ => 0x00#8) (fun _ => 0x00#8) shortFile 0 1 10 :=
  (endsWithFile_iff (plainVolume_delivers _) (by decide) (by decide) shortFile_isFile (by decide) (by decide) (by decide)
    (by decide)).mpr (Or.inr (Or.inl (by decide)))

/-- **More than the file is read**: an item of 11 bytes, and what follows it in the cluster. -/
theorem shortFile_exceeded :
    ¬ (∀ (v : FatVolume) (contents : Int → Byte), v.Delivers contents →
        v.header.reservedSectors * v.sectorSize + 2 ^ 17 ≤ 2 ^ 31 → 0 < v.clusterBytes →
        ∀ item, IsFile v contents item → ∀ pos < 2 ^ 32, ∀ size < 2 ^ 32, 0 < size → ∀ nmemb < 2 ^ 32,
        EndsWithFile v contents item pos size nmemb) ∧
      fat16Read (plainVolume fun _ => 0x00#8) shortFile 0 11 1 = (1, 11, List.replicate 11 0x00#8) := by
  have result : fat16Read (plainVolume fun _ => 0x00#8) shortFile 0 11 1 = (1, 11, List.replicate 11 0x00#8) := by
    decide +kernel
  refine ⟨fun all => ?_, result⟩
  obtain ⟨items, _⟩ := all _ _ (plainVolume_delivers _) (by decide) (by decide) shortFile shortFile_isFile 0 (by decide) 11
    (by decide) (by decide) 1 (by decide)
  rw [result] at items
  exact absurd items (by decide)

end PeachOS
