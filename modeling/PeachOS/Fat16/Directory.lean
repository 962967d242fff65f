/-
**Items of directories.**

`fat16_get_total_items_for_directory` counts the live items of a directory and leaves out the deleted ones;
`fat16_find_item_in_directory` looks at as many items, the deleted ones among them. What lies behind is not found.

* `totalItems_eq` — what is counted;
* `findItemLoop_spec` — what is found: the item that is made of the last one with the name;
* `rootDirectory_spec`, `loadDirectory_spec` — what is loaded; a directory that is not empty was freed before it is
  returned;
* `findsLive_iff` — when the live items of a directory are found.
-/

import PeachOS.Fat16.Clusters
import PeachOS.Fat16.Names
import Mathlib.Data.Nat.Count

namespace PeachOS

open LinkChain

/-! ### The items of a directory -/

/-- The item at an index of the bytes of a directory. -/
def itemAt (bytes : Nat → Byte) (i : Nat) : FatDirectoryItem :=
  fatDirectoryItem fun k => bytes (i * sizeofFatDirectoryItem + k)

/-- An item that was not deleted. -/
def IsLive (bytes : Nat → Byte) (i : Nat) : Prop := (itemAt bytes i).firstByte ≠ 0xE5#8

instance (bytes : Nat → Byte) : DecidablePred (IsLive bytes) := fun _ => inferInstanceAs (Decidable (_ ≠ _))

/-- The items end with a terminator. -/
structure TerminatedAt (bytes : Nat → Byte) (len : Nat) : Prop where
  terminator : (itemAt bytes len).firstByte = 0x00#8
  before : ∀ i < len, (itemAt bytes i).firstByte ≠ 0x00#8

/-- The item has a name, ignoring case. -/
def HasName (bytes : Nat → Byte) (i : Nat) (name : CString) : Prop :=
  SameName (fat16GetFullRelativeFilename (itemAt bytes i)) name.bytes

instance (bytes : Nat → Byte) (i : Nat) (name : CString) : Decidable (HasName bytes i name) :=
  inferInstanceAs (Decidable (SameName _ _))

/-- **A live item of a name.** -/
def LiveNamed (bytes : Nat → Byte) (len : Nat) (name : CString) (i : Nat) : Prop :=
  i < len ∧ IsLive bytes i ∧ HasName bytes i name

instance (bytes : Nat → Byte) (len : Nat) (name : CString) : DecidablePred (LiveNamed bytes len name) :=
  fun _ => inferInstanceAs (Decidable (_ ∧ _ ∧ _))

/-- The last one of some items that has a name. -/
structure LastNamed (bytes : Nat → Byte) (total : Nat) (name : CString) (i : Nat) : Prop where
  inside : i < total
  named : HasName bytes i name
  last : ∀ later, i < later → later < total → ¬ HasName bytes later name

/-- What `fat16_find_item_in_directory` makes of an item. -/
def madeItem (v : FatVolume) (memory : FatMemory) (bytes : Nat → Byte) (i : Nat) : Option (Option FatItem) :=
  fat16NewFatItemForDirectoryItem v memory i (itemAt bytes i)

/-! ### Counting -/

section Counting

variable {v : FatVolume} {contents : Int → Byte} (delivers : v.Delivers contents) {base : Nat} {bytes : Nat → Byte}
  (onDisk : ∀ k : Nat, contents ((base : Int) + k) = bytes k)

theorem fatDirectoryItem_congr {bytes bytes' : Nat → Byte} (same : ∀ k < sizeofFatDirectoryItem, bytes k = bytes' k) :
    fatDirectoryItem bytes = fatDirectoryItem bytes' := by
  have filename : (List.range 8).map bytes = (List.range 8).map bytes' :=
    List.map_congr_left fun k isField => same k (lt_trans (List.mem_range.mp isField) (by decide))
  have ext : ((List.range 3).map fun i => bytes (8 + i)) = (List.range 3).map fun i => bytes' (8 + i) :=
    List.map_congr_left fun k isField => same (8 + k) (lt_trans (Nat.add_lt_add_left (List.mem_range.mp isField) 8) (by decide))
  have numbers : ∀ offset count, offset + count ≤ sizeofFatDirectoryItem →
      littleEndian bytes offset count = littleEndian bytes' offset count := fun offset count inside =>
    littleEndian_congr count fun k _ below => same k (by omega)
  unfold fatDirectoryItem
  rw [filename, ext, same 11 (by decide), numbers 20 2 (by decide), numbers 26 2 (by decide), numbers 28 4 (by decide)]

include delivers onDisk in
/-- The item that is read at the position of a slot. -/
theorem readSlot_eq (i : Nat) :
    (v.read (base + (i * sizeofFatDirectoryItem : Nat)) sizeofFatDirectoryItem).res = 0 ∧
      fatDirectoryItem (v.read (base + (i * sizeofFatDirectoryItem : Nat)) sizeofFatDirectoryItem).bytes = itemAt bytes i := by
  obtain ⟨ok, isRead⟩ := delivers (base + (i * sizeofFatDirectoryItem : Nat)) sizeofFatDirectoryItem
  refine ⟨ok, fatDirectoryItem_congr fun k inside => ?_⟩
  rw [isRead k (by omega), ← onDisk]
  push_cast
  rw [Int.add_assoc]

include delivers onDisk in
/-- From an item on, the live ones are counted. -/
theorem totalItemsLoop_spec {len : Nat} (ends : TerminatedAt bytes len)
    (fits : base + len * sizeofFatDirectoryItem < 2 ^ 31) (fuel : Nat) : ∀ i ≤ len, len - i < fuel →
    fat16GetTotalItemsLoop v fuel (base + (i * sizeofFatDirectoryItem : Nat)) (Nat.count (IsLive bytes) i) =
      some ((Nat.count (IsLive bytes) len : Nat) : Int) := by
  unfold sizeofFatDirectoryItem at *
  induction fuel with
  | zero => exact fun _ _ enough => absurd enough (Nat.not_lt_zero _)
  | succ fuel hyp =>
      intro i inside enough
      obtain ⟨ok, isItem⟩ := readSlot_eq delivers onDisk i
      rw [fat16GetTotalItemsLoop]
      dsimp only
      rw [ok, if_neg (by decide), isItem]
      rcases Nat.eq_or_lt_of_le inside with atEnd | before
      · subst atEnd
        rw [if_pos ends.terminator]
      · have next : toInt32 ((base : Int) + (i * 32 : Nat) + (32 : Nat)) =
            base + ((i + 1) * 32 : Nat) := by
          rw [toInt32_of_bounds (by omega) (by omega)]
          push_cast
          ring
        rw [if_neg (ends.before i before), next]
        by_cases deleted : (itemAt bytes i).firstByte = 0xE5#8
        · have count : Nat.count (IsLive bytes) (i + 1) = Nat.count (IsLive bytes) i :=
            Nat.count_succ_eq_count_iff.mpr fun live => live deleted
          rw [if_pos deleted, ← count]
          exact hyp (i + 1) before (by omega)
        · have count : Nat.count (IsLive bytes) (i + 1) = Nat.count (IsLive bytes) i + 1 :=
            Nat.count_succ_eq_succ_count_iff.mpr deleted
          rw [if_neg deleted, ← count]
          exact hyp (i + 1) before (by omega)

include delivers onDisk in
/-- **What is counted**: the live items in front of the terminator. -/
theorem totalItems_eq {len : Nat} (ends : TerminatedAt bytes len) (fits : base + len * sizeofFatDirectoryItem < 2 ^ 31)
    {sector : Int} (isBase : toInt32 (sector * v.sectorSize) = base) :
    fat16GetTotalItemsForDirectory v sector = some ((Nat.count (IsLive bytes) len : Nat) : Int) := by
  have counted := totalItemsLoop_spec delivers onDisk ends fits (2 ^ 27) 0 (Nat.zero_le _)
    (by unfold sizeofFatDirectoryItem at fits; omega)
  rw [Nat.zero_mul, Nat.cast_zero, add_zero, Nat.count_zero] at counted
  unfold fat16GetTotalItemsForDirectory
  rw [isBase]
  exact counted

end Counting

/-! ### Finding an item -/

section Finding

variable {v : FatVolume} {memory : FatMemory} {bytes : Nat → Byte} {items : Nat → FatDirectoryItem} {name : CString}

theorem hasName_iff (bytes : Nat → Byte) (i : Nat) (name : CString) : HasName bytes i name ↔ isNamed (itemAt bytes i) name :=
  (isNamed_iff _ name).symm

theorem findItemLoop_succ (total : Nat) (same : items total = itemAt bytes total) :
    fat16FindItemLoop v memory items name (total + 1) =
      (fat16FindItemLoop v memory items name total).bind fun fItem =>
        if HasName bytes total name then madeItem v memory bytes total else some fItem := by
  rw [fat16FindItemLoop, same]
  cases fat16FindItemLoop v memory items name total with
  | none => rfl
  | some fItem =>
      show (if isNamed (itemAt bytes total) name then _ else _) = (if HasName bytes total name then _ else _)
      by_cases named : HasName bytes total name
      · rw [if_pos named, if_pos ((hasName_iff bytes total name).mp named)]
        rfl
      · rw [if_neg named, if_neg fun isNamed => named ((hasName_iff bytes total name).mpr isNamed)]
        rfl

/-- The search returns when all items with the name can be loaded. -/
theorem findItemLoop_returns (total : Nat) (same : ∀ i < total, items i = itemAt bytes i) :
    fat16FindItemLoop v memory items name total ≠ none ↔ ∀ i < total, HasName bytes i name →
      madeItem v memory bytes i ≠ none := by
  induction total with
  | zero => exact ⟨fun _ i inside => absurd inside (Nat.not_lt_zero i), fun _ => Option.some_ne_none _⟩
  | succ total hyp =>
      have before := hyp fun i inside => same i (Nat.lt_succ_of_lt inside)
      rw [findItemLoop_succ total (same total (Nat.lt_succ_self total))]
      constructor
      · intro returns i inside named
        rcases Nat.lt_succ_iff_lt_or_eq.mp inside with early | rfl
        · refine before.mp (fun ended => returns ?_) i early named
          rw [ended, Option.bind_none]
        · intro ended
          apply returns
          cases fat16FindItemLoop v memory items name i with
          | none => rfl
          | some fItem => rw [Option.bind_some, if_pos named, ended]
      · intro loads
        have returns := before.mpr fun i inside => loads i (Nat.lt_succ_of_lt inside)
        cases found : fat16FindItemLoop v memory items name total with
        | none => exact absurd found returns
        | some fItem =>
            rw [Option.bind_some]
            by_cases named : HasName bytes total name
            · rw [if_pos named]
              exact loads total (Nat.lt_succ_self total) named
            · rw [if_neg named]
              exact Option.some_ne_none fItem

/-- **What is found**: the item that is made of the last one with the name. -/
theorem findItemLoop_spec (total : Nat) (same : ∀ i < total, items i = itemAt bytes i)
    (loads : ∀ i < total, HasName bytes i name → madeItem v memory bytes i ≠ none) :
    ((∀ i < total, ¬ HasName bytes i name) ∧ fat16FindItemLoop v memory items name total = some none) ∨
      ∃ i, LastNamed bytes total name i ∧ fat16FindItemLoop v memory items name total = madeItem v memory bytes i := by
  induction total with
  | zero => exact Or.inl ⟨fun i inside => absurd inside (Nat.not_lt_zero i), rfl⟩
  | succ total hyp =>
      have before := hyp (fun i inside => same i (Nat.lt_succ_of_lt inside)) fun i inside => loads i (Nat.lt_succ_of_lt inside)
      have returns : fat16FindItemLoop v memory items name total ≠ none :=
        (findItemLoop_returns total fun i inside => same i (Nat.lt_succ_of_lt inside)).mpr fun i inside =>
          loads i (Nat.lt_succ_of_lt inside)
      obtain ⟨fItem, found⟩ := Option.ne_none_iff_exists'.mp returns
      rw [findItemLoop_succ total (same total (Nat.lt_succ_self total))]
      by_cases named : HasName bytes total name
      · refine Or.inr ⟨total, ⟨Nat.lt_succ_self total, named, fun later above below => by omega⟩, ?_⟩
        rw [found, Option.bind_some, if_pos named]
      · rw [found, Option.bind_some, if_neg named, ← found]
        rcases before with ⟨noneNamed, isNone⟩ | ⟨i, isLast, isMade⟩
        · refine Or.inl ⟨fun i inside => ?_, isNone⟩
          rcases Nat.lt_succ_iff_lt_or_eq.mp inside with early | rfl
          · exact noneNamed i early
          · exact named
        · refine Or.inr ⟨i, ⟨Nat.lt_succ_of_lt isLast.inside, isLast.named, fun later above below => ?_⟩, isMade⟩
          rcases Nat.lt_succ_iff_lt_or_eq.mp below with early | rfl
          · exact isLast.last later above early
          · exact named

theorem LastNamed.unique {total i i' : Nat} (isLast : LastNamed bytes total name i) (isLast' : LastNamed bytes total name i') :
    i = i' := by
  rcases Nat.lt_trichotomy i i' with before | same | after
  · exact absurd isLast'.named (isLast.last i' before isLast'.inside)
  · exact same
  · exact absurd isLast.named (isLast'.last i after isLast.inside)

end Finding

/-- **The live items are found**: the directory is still there, and the search returns an item that is made of a live
one of the name, or `NULL` when there is none. -/
def FindsLive (v : FatVolume) (memory : FatMemory) (directory : FatDirectory) (bytes : Nat → Byte) (len : Nat)
    (name : CString) : Prop :=
  directory.freed = false ∧
    ((fat16FindItemInDirectory v memory directory name = some none ∧ ∀ i, ¬ LiveNamed bytes len name i) ∨
      ∃ i item, LiveNamed bytes len name i ∧ madeItem v memory bytes i = some (some item) ∧
        fat16FindItemInDirectory v memory directory name = some (some item))

/-- **When they are found**, of a number of items: all with the name can be loaded, and the last of them makes the item
of a live one, or none has the name. -/
def FoundAmong (v : FatVolume) (memory : FatMemory) (bytes : Nat → Byte) (len total : Nat) (name : CString) : Prop :=
  (∀ i < total, HasName bytes i name → madeItem v memory bytes i ≠ none) ∧
    (((∀ last, LastNamed bytes total name last → madeItem v memory bytes last = some none) ∧ ∀ i, ¬ LiveNamed bytes len name i) ∨
      ∃ last i item, LastNamed bytes total name last ∧ LiveNamed bytes len name i ∧ madeItem v memory bytes i = some (some item) ∧
        madeItem v memory bytes last = some (some item))

/-- A directory holds some items of its bytes. -/
structure ShowsItems (directory : FatDirectory) (bytes : Nat → Byte) (total : Nat) : Prop where
  items : ∃ items, directory.item = some items ∧ ∀ i < total, items i = itemAt bytes i
  count : directory.total = total

/-- **Finding an item**, in a directory that was not freed. -/
theorem findsLive_of_shows {v : FatVolume} {memory : FatMemory} {directory : FatDirectory} {bytes : Nat → Byte}
    {len total : Nat} {name : CString} (isShown : ShowsItems directory bytes total) (kept : directory.freed = false) :
    FindsLive v memory directory bytes len name ↔ FoundAmong v memory bytes len total name := by
  obtain ⟨items, isItems, same⟩ := isShown.items
  have search : fat16FindItemInDirectory v memory directory name = fat16FindItemLoop v memory items name total := by
    unfold fat16FindItemInDirectory
    rw [isItems, isShown.count, Int.toNat_natCast]
  unfold FindsLive FoundAmong
  rw [search]
  constructor
  · rintro ⟨_, finds⟩
    have loads : ∀ i < total, HasName bytes i name → madeItem v memory bytes i ≠ none := by
      refine (findItemLoop_returns total same).mp ?_
      rcases finds with ⟨isNone, _⟩ | ⟨_, item, _, _, found⟩
      · rw [isNone]
        exact Option.some_ne_none _
      · rw [found]
        exact Option.some_ne_none _
    refine ⟨loads, ?_⟩
    rcases findItemLoop_spec total same loads with ⟨noneNamed, isNone⟩ | ⟨last, isLast, isMade⟩
    · rcases finds with ⟨_, noLive⟩ | ⟨_, item, _, _, found⟩
      · exact Or.inl ⟨fun last isLast => absurd isLast.named (noneNamed last isLast.inside), noLive⟩
      · rw [isNone] at found
        cases found
    · rw [isMade] at finds
      rcases finds with ⟨isNone, noLive⟩ | ⟨i, item, live, isItem, found⟩
      · exact Or.inl ⟨fun last' isLast' => isLast'.unique isLast ▸ isNone, noLive⟩
      · exact Or.inr ⟨last, i, item, isLast, live, isItem, found⟩
  · rintro ⟨loads, found⟩
    refine ⟨kept, ?_⟩
    rcases findItemLoop_spec total same loads with ⟨noneNamed, isNone⟩ | ⟨last, isLast, isMade⟩
    · rcases found with ⟨_, noLive⟩ | ⟨last, _, _, isLast, _⟩
      · exact Or.inl ⟨isNone, noLive⟩
      · exact absurd isLast.named (noneNamed last isLast.inside)
    · rw [isMade]
      rcases found with ⟨noItem, noLive⟩ | ⟨last', i, item, isLast', live, isItem, isFound⟩
      · exact Or.inl ⟨noItem last isLast, noLive⟩
      · exact Or.inr ⟨i, item, live, isItem, isLast'.unique isLast ▸ isFound⟩

/-- A directory without items has none that are found. -/
theorem foundAmong_none (v : FatVolume) (memory : FatMemory) (bytes : Nat → Byte) (len : Nat) (name : CString) :
    FoundAmong v memory bytes len 0 name ↔ ∀ i, ¬ LiveNamed bytes len name i := by
  constructor
  · rintro ⟨_, ⟨_, noLive⟩ | ⟨_, _, _, isLast, _⟩⟩
    · exact noLive
    · exact absurd isLast.inside (Nat.not_lt_zero _)
  · exact fun noLive => ⟨fun i inside => absurd inside (Nat.not_lt_zero i),
      Or.inl ⟨fun last isLast => absurd isLast.inside (Nat.not_lt_zero last), noLive⟩⟩

/-- **Where nothing was deleted, all items are found**, if they can be made. -/
theorem foundAmong_of_live {v : FatVolume} {memory : FatMemory} {bytes : Nat → Byte} {len : Nat} {name : CString}
    (live : ∀ i < len, IsLive bytes i)
    (makes : ∀ i < len, HasName bytes i name → ∃ item, madeItem v memory bytes i = some (some item)) :
    FoundAmong v memory bytes len (Nat.count (IsLive bytes) len) name := by
  rw [Nat.count_of_forall live]
  have loads : ∀ i < len, HasName bytes i name → madeItem v memory bytes i ≠ none := by
    intro i inside named
    obtain ⟨item, isItem⟩ := makes i inside named
    rw [isItem]
    exact Option.some_ne_none _
  refine ⟨loads, ?_⟩
  rcases findItemLoop_spec len (fun _ _ => rfl) loads with ⟨noneNamed, _⟩ | ⟨last, isLast, _⟩
  · exact Or.inl ⟨fun last isLast => absurd isLast.named (noneNamed last isLast.inside),
      fun i isLive => noneNamed i isLive.1 isLive.2.2⟩
  · obtain ⟨item, isItem⟩ := makes last isLast.inside isLast.named
    exact Or.inr ⟨last, last, item, isLast, ⟨isLast.inside, live last isLast.inside, isLast.named⟩, isItem, isItem⟩

/-! ### Loading a directory -/

/-- The bytes of the root directory. -/
def rootBytes (v : FatVolume) (contents : Int → Byte) (k : Nat) : Byte := contents (rootDirSectorPos v * v.sectorSize + k)

/-- The bytes of a directory in the clusters that are linked from a first one; zeros follow the last of them. -/
def chainBytes (v : FatVolume) (contents : Int → Byte) (cluster k : Nat) : Byte := (dataByte v contents cluster k).getD 0x00#8

/-- The bytes behind the position of a first cluster, of whatever clusters they are. -/
def followingBytes (v : FatVolume) (contents : Int → Byte) (cluster k : Nat) : Byte := contents (clusterPos v cluster + k)

/-- **A subdirectory**: all links of its clusters lead to data clusters, whose positions are an `int`. -/
structure IsSubdirectory (v : FatVolume) (contents : Int → Byte) (item : FatDirectoryItem) : Prop where
  directory : item.isSubdirectory = true
  high : item.high16BitsFirstCluster = 0
  links : ∀ links, walk (followLink v contents) item.low16BitsFirstCluster links =
    dataChain v contents item.low16BitsFirstCluster links
  fits : ∀ links data, dataChain v contents item.low16BitsFirstCluster links = some data → PositionsFit v data
  onDisk : 0 ≤ clusterPos v item.low16BitsFirstCluster

theorem directoryItems_eq {written : List Byte} {bytes : Nat → Byte} {i total : Nat} (inside : i < total)
    (same : ∀ offset < total * sizeofFatDirectoryItem, written.getD offset 0x00#8 = bytes offset) :
    directoryItems written i = itemAt bytes i := by
  refine fatDirectoryItem_congr fun k below => same _ ?_
  unfold sizeofFatDirectoryItem at *
  omega

section Loading

variable {v : FatVolume} {contents : Int → Byte} (delivers : v.Delivers contents)

include delivers in
/-- **The root directory**: all its items, and how many of them are live, if the position of the terminator is an `int`. -/
theorem rootDirectory_loads {len : Nat} (ends : TerminatedAt (rootBytes v contents) len) (inside : len ≤ v.header.rootDirEntries)
    (fits : rootDirSectorPos v * v.sectorSize + (len * sizeofFatDirectoryItem : Nat) < 2 ^ 31) :
    ∃ directory, fat16GetRootDirectory v = some (.ok directory) ∧
      ShowsItems directory (rootBytes v contents) (Nat.count (IsLive (rootBytes v contents)) len) ∧ directory.freed = false := by
  have position : rootDirSectorPos v * v.sectorSize =
      (((v.header.fatCopies * v.header.sectorsPerFat + v.header.reservedSectors) * v.sectorSize : Nat) : Int) := by
    unfold rootDirSectorPos
    push_cast
    rfl
  have isBase : toInt32 (rootDirSectorPos v * v.sectorSize) = rootDirSectorPos v * v.sectorSize := by
    unfold sizeofFatDirectoryItem at fits
    rw [toInt32_of_bounds (by rw [position]; omega) (by omega)]
  have fewer := @Nat.count_le (IsLive (rootBytes v contents)) _ len
  have total : fat16GetTotalItemsForDirectory v (rootDirSectorPos v) =
      some ((Nat.count (IsLive (rootBytes v contents)) len : Nat) : Int) := by
    refine totalItems_eq delivers (fun k => ?_) ends ?_ (isBase.trans position)
    · rw [rootBytes, position]
    · unfold sizeofFatDirectoryItem at *
      omega
  obtain ⟨ok, isRead⟩ := delivers (rootDirSectorPos v * v.sectorSize) (v.header.rootDirEntries * sizeofFatDirectoryItem : Nat)
  unfold fat16GetRootDirectory fat16SectorToAbsolute
  dsimp only
  rw [total, isBase, Option.bind_eq_bind, Option.bind_some, if_neg (by rw [ok]; exact fun differs => differs rfl)]
  refine ⟨_, rfl, ⟨⟨_, rfl, fun i isItem => ?_⟩, rfl⟩, rfl⟩
  refine directoryItems_eq (lt_of_lt_of_le isItem (fewer.trans inside)) fun offset below => ?_
  rw [List.getD_eq_getElem?_getD, List.getElem?_map, List.getElem?_range below, Option.map_some, Option.getD_some,
    isRead offset (by omega), rootBytes]

include delivers in
/-- So it is if the positions of the root directory are an `int`. -/
theorem rootDirectory_spec {len : Nat} (ends : TerminatedAt (rootBytes v contents) len) (inside : len ≤ v.header.rootDirEntries)
    (fits : rootDirSectorPos v * v.sectorSize + v.header.rootDirEntries * sizeofFatDirectoryItem < 2 ^ 31) :
    ∃ directory, fat16GetRootDirectory v = some (.ok directory) ∧
      ShowsItems directory (rootBytes v contents) (Nat.count (IsLive (rootBytes v contents)) len) ∧ directory.freed = false := by
  refine rootDirectory_loads delivers ends inside ?_
  unfold sizeofFatDirectoryItem at *
  omega

/-- The first cluster of a subdirectory is one of its data clusters. -/
theorem IsSubdirectory.first {item : FatDirectoryItem} (sub : IsSubdirectory v contents item) :
    dataChain v contents item.low16BitsFirstCluster 0 = some item.low16BitsFirstCluster := by
  rw [← sub.links, walk_zero]

theorem IsSubdirectory.small {item : FatDirectoryItem} (sub : IsSubdirectory v contents item) :
    item.low16BitsFirstCluster < 2 ^ 16 := by
  have isData := (dataChain_isData sub.first).2
  omega

/-- The position of which the items of a subdirectory are counted. -/
theorem IsSubdirectory.position {item : FatDirectoryItem} (sub : IsSubdirectory v contents item) (positive : 0 < v.clusterBytes) :
    toInt32 (toUInt32 (fat16ClusterToSector v item.low16BitsFirstCluster) * v.sectorSize) =
      ((clusterPos v item.low16BitsFirstCluster).toNat : Int) := by
  have sector : 0 < v.sectorSize := Nat.pos_of_mul_pos_left positive
  have fits := sub.fits 0 _ sub.first
  have isPos := clusterToSector_eq positive fits
  have onDisk := sub.onDisk
  have bounds : fat16ClusterToSector v item.low16BitsFirstCluster < 2 ^ 31 := by
    unfold fat16ClusterToSector toInt32
    split <;> omega
  have above : 0 ≤ fat16ClusterToSector v item.low16BitsFirstCluster := by
    by_contra below
    have := mul_neg_of_neg_of_pos (Int.not_le.mp below) (Int.natCast_pos.mpr sector)
    omega
  have unsigned : (toUInt32 (fat16ClusterToSector v item.low16BitsFirstCluster) : Int) =
      fat16ClusterToSector v item.low16BitsFirstCluster := by
    unfold toUInt32
    omega
  obtain ⟨_, high⟩ := fits
  rw [unsigned, isPos, Int.toNat_of_nonneg onDisk, toInt32_of_bounds (by omega) (by omega)]

include delivers in
/-- The bytes that are loaded are those of the clusters, and zeros behind the last of them. -/
theorem IsSubdirectory.loaded (table : v.header.reservedSectors * v.sectorSize + 2 ^ 17 ≤ 2 ^ 31)
    (positive : 0 < v.clusterBytes) {item : FatDirectoryItem} (sub : IsSubdirectory v contents item) {size : Nat}
    (isInt : size < 2 ^ 31) :
    (∀ offset < size, (fat16ReadInternal v item.low16BitsFirstCluster 0 size).2.getD offset 0x00#8 =
      chainBytes v contents item.low16BitsFirstCluster offset) ∧
      ((fat16ReadInternal v item.low16BitsFirstCluster 0 size).1 = 0 ↔ size = 0) := by
  obtain ⟨count, fewer, bytes, more, reads, written, ends⟩ :=
    readInternal_spec delivers table positive sub.small (show 0 < 2 ^ 31 by decide) size
  have unsigned : toUInt16 (item.low16BitsFirstCluster : Int) = item.low16BitsFirstCluster := by
    have := sub.small
    unfold toUInt16
    omega
  have isRead : ∀ offset < count, bytes[offset]? = some (chainBytes v contents item.low16BitsFirstCluster offset) := by
    intro offset inside
    obtain ⟨reached, isReached, isByte⟩ := reads.byte offset inside
    rw [sub.links, Nat.zero_add] at isReached
    rw [isByte (sub.fits _ _ isReached), chainBytes, dataByte_eq, isReached, Nat.zero_add]
    rfl
  rw [fat16ReadInternal, unsigned]
  rw [Nat.cast_zero] at written ends
  rw [written]
  rcases ends with ⟨whole, isAll, amount⟩ | ⟨stops, isAll, failed, ended⟩ | far
  · subst whole isAll
    refine ⟨fun offset inside => ?_, by rw [amount]; omega⟩
    rw [List.append_nil, List.getD_eq_getElem?_getD, isRead offset inside, Option.getD_some]
  · subst isAll
    refine ⟨fun offset inside => ?_, ⟨fun ok => ?_, fun none => by omega⟩⟩
    · rw [List.append_nil, List.getD_eq_getElem?_getD]
      by_cases early : offset < count
      · rw [isRead offset early, Option.getD_some]
      · have noByte : dataByte v contents item.low16BitsFirstCluster offset = none := by
          rw [dataByte_eq, ← sub.links, walk_ended ended (Nat.div_le_div_right (by omega)), Option.map_none]
        rw [List.getElem?_eq_none (by rw [reads.length]; omega), chainBytes, noByte]
    · rw [ok] at failed
      exact absurd failed (lt_irrefl 0)
  · omega

include delivers in
/-- **A subdirectory**: as many items as are live behind its first cluster. It was freed if there is one. -/
theorem loadDirectory_spec (table : v.header.reservedSectors * v.sectorSize + 2 ^ 17 ≤ 2 ^ 31)
    (positive : 0 < v.clusterBytes) {item : FatDirectoryItem} (sub : IsSubdirectory v contents item) {memory : FatMemory}
    {index len : Nat} (hasDirectory : memory.directory index = true) (hasItems : memory.items index = true)
    (ends : TerminatedAt (followingBytes v contents item.low16BitsFirstCluster) len)
    (fits : clusterPos v item.low16BitsFirstCluster + (len * sizeofFatDirectoryItem : Nat) < 2 ^ 31) :
    ∃ directory, fat16LoadFatDirectory v memory index item = some (some directory) ∧
      ShowsItems directory (chainBytes v contents item.low16BitsFirstCluster)
        (Nat.count (IsLive (followingBytes v contents item.low16BitsFirstCluster)) len) ∧
      (directory.freed = false ↔ Nat.count (IsLive (followingBytes v contents item.low16BitsFirstCluster)) len = 0) := by
  have onDisk := sub.onDisk
  have fewer := @Nat.count_le (IsLive (followingBytes v contents item.low16BitsFirstCluster)) _ len
  have first : toInt32 (fat16GetFirstCluster item) = item.low16BitsFirstCluster := by
    have := sub.small
    rw [fat16GetFirstCluster, sub.high, Nat.zero_mul, Nat.zero_add]
    exact toInt32_of_bounds (by omega) (by omega)
  have total : fat16GetTotalItemsForDirectory v (toUInt32 (fat16ClusterToSector v item.low16BitsFirstCluster)) =
      some ((Nat.count (IsLive (followingBytes v contents item.low16BitsFirstCluster)) len : Nat) : Int) := by
    refine totalItems_eq delivers (fun k => ?_) ends ?_ (sub.position positive)
    · rw [followingBytes, Int.toNat_of_nonneg onDisk]
    · omega
  generalize Nat.count (IsLive (followingBytes v contents item.low16BitsFirstCluster)) len = count at *
  have size : toInt32 ((count : Int) * (sizeofFatDirectoryItem : Nat)) = (count * sizeofFatDirectoryItem : Nat) := by
    unfold sizeofFatDirectoryItem at *
    rw [← Nat.cast_mul]
    exact toInt32_of_bounds (by omega) (by omega)
  have isInt : count * sizeofFatDirectoryItem < 2 ^ 31 := by
    unfold sizeofFatDirectoryItem at *
    omega
  obtain ⟨loaded, isZero⟩ := sub.loaded delivers table positive isInt
  unfold fat16LoadFatDirectory
  dsimp only
  rw [sub.directory, hasDirectory, hasItems, first, total, Option.bind_eq_bind, Option.bind_some, size]
  refine ⟨_, rfl, ⟨⟨_, rfl, fun i inside => directoryItems_eq inside loaded⟩, rfl⟩, ?_⟩
  show decide (_ ≠ 0) = false ↔ _
  rw [decide_eq_false_iff_not, not_not, isZero]
  unfold sizeofFatDirectoryItem
  omega

end Loading

/-- A disk whose root directory has two items: one with a name of eight bytes `first`, and a file `A`. -/
def twoItems (first : Byte) (pos : Int) : Byte :=
  if 1024 ≤ pos ∧ pos < 1032 then first else if pos = 1056 then 0x41#8 else 0x00#8

/-- The bytes of its root directory. -/
def twoSlots (first : Byte) : Nat → Byte := rootBytes (plainVolume (twoItems first)) (twoItems first)

/-- The name `a`. -/
def nameA : CString := ⟨[0x61#8], by decide⟩

/-- All allocations succeed. -/
def plenty : FatMemory := ⟨fun _ => true, fun _ => true, fun _ => true, fun _ => true⟩

end PeachOS
