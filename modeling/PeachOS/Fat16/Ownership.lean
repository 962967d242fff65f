/-
**Who frees the items of directories.**

`fat16_open` allocates an item for every entry that has the name of a part of its path, and a directory with its entries for every
subdirectory among them. The last item of a part is freed behind its search, and that of the last part by `fat16_close`.

* `newItem_settles`, `itemFree_settles` — what making and freeing one item does;
* `findItem_settles` — what a search leaves behind: the item that it returns, and the ones that were made for the same name;
* `walk_settles` — one part further;
* `openClose_settles_iff` — when everything is freed once.
-/

import PeachOS.Fat16.Paths
import PeachOS.Lib.Ledger

namespace PeachOS

open Ledger

/-! ### Uses of objects -/

/-- What an object is. -/
inductive FatObjectKind where
  | fatItem
  | fatDirectory
  | itemArray
  | itemCopy
deriving DecidableEq

/-- An object that is allocated for the entry at an index, in the search for a part of the path. -/
structure FatAllocation where
  kind : FatObjectKind
  part : Nat
  index : Nat
deriving DecidableEq

section Uses

variable (v : FatVolume) (memory : FatMemory) (part : Nat)

/-- `fat16_load_fat_directory`, for a subdirectory. `fat16_free_directory` is called for a directory that is returned. -/
def loadUses (index : Nat) (item : FatDirectoryItem) : List (Use FatAllocation) :=
  if memory.directory index then
    let cluster := toInt32 (fat16GetFirstCluster item)
    .alloc ⟨.fatDirectory, part, index⟩ ::
      match fat16GetTotalItemsForDirectory v (toUInt32 (fat16ClusterToSector v cluster)) with
      | none => []
      | some totalItems =>
          if memory.items index then
            .alloc ⟨.itemArray, part, index⟩ ::
              if (fat16ReadInternal v cluster 0 (toInt32 (totalItems * sizeofFatDirectoryItem))).1 ≠ 0 then
                [.read ⟨.fatDirectory, part, index⟩, .free ⟨.itemArray, part, index⟩, .free ⟨.fatDirectory, part, index⟩]
              else []
          else [.read ⟨.fatDirectory, part, index⟩, .free ⟨.fatDirectory, part, index⟩]
  else []

/-- `fat16_new_fat_item_for_directory_item`. -/
def newItemUses (index : Nat) (item : FatDirectoryItem) : List (Use FatAllocation) :=
  if memory.fItem index then
    .alloc ⟨.fatItem, part, index⟩ ::
      if item.isSubdirectory then loadUses v memory part index item
      else if memory.clone index then [.alloc ⟨.itemCopy, part, index⟩] else []
  else []

/-- The directory that is searched, when it was loaded for an entry of an earlier part. The root directory was loaded before. -/
structure Searched where
  part : Nat
  index : Nat

/-- The condition of the loop of `fat16_find_item_in_directory`, which reads the directory. -/
def guardUses : Option Searched → List (Use FatAllocation)
  | none => []
  | some searched => [.read ⟨.fatDirectory, searched.part, searched.index⟩]

/-- Its body, which reads an entry. -/
def entryUses : Option Searched → List (Use FatAllocation)
  | none => []
  | some searched => [.read ⟨.fatDirectory, searched.part, searched.index⟩, .read ⟨.itemArray, searched.part, searched.index⟩]

/-- The loop over the items below an index, up to an item that is not made. -/
def findItemUses (searched : Option Searched) (items : Nat → FatDirectoryItem) (name : CString) : (total : Nat) →
    List (Use FatAllocation)
  | 0 => guardUses searched
  | i + 1 =>
      findItemUses searched items name i ++
        match fat16FindItemLoop v memory items name i with
        | none => []
        | some _ =>
            entryUses searched ++ (if isNamed (items i) name then newItemUses v memory part i (items i) else []) ++
              if (fat16FindItemLoop v memory items name (i + 1)).isSome then guardUses searched else []

/-- `fat16_find_item_in_directory`. -/
def findUses (searched : Option Searched) (directory : FatDirectory) (name : CString) : List (Use FatAllocation) :=
  match directory.item with
  | some items => findItemUses v memory part searched items name directory.total.toNat
  | none => guardUses searched

/-- The index of the last of some items that has a name. -/
def lastIndex (items : Nat → FatDirectoryItem) (name : CString) : (total : Nat) → Nat
  | 0 => 0
  | i + 1 => if isNamed (items i) name then i else lastIndex items name i

/-- The index of the item that `fat16_find_item_in_directory` returns. -/
def foundIndex (directory : FatDirectory) (name : CString) : Nat :=
  match directory.item with
  | some items => lastIndex items name directory.total.toNat
  | none => 0

/-- `fat16_fat_item_free`, for the item of an entry. -/
def itemFreeUses (index : Nat) : FatItem → List (Use FatAllocation)
  | .directory (some directory) =>
      .read ⟨.fatItem, part, index⟩ :: .read ⟨.fatDirectory, part, index⟩ ::
        (if directory.item.isSome then [.free ⟨.itemArray, part, index⟩] else []) ++
        [.free ⟨.fatDirectory, part, index⟩, .free ⟨.fatItem, part, index⟩]
  | .directory none => [.read ⟨.fatItem, part, index⟩, .free ⟨.fatItem, part, index⟩]
  | .file copy =>
      .read ⟨.fatItem, part, index⟩ :: (if copy.isSome then [.free ⟨.itemCopy, part, index⟩] else []) ++
        [.free ⟨.fatItem, part, index⟩]

end Uses

/-- The loop of `fat16_get_directory_entry` from the item of an entry on, and `fat16_close` for the item that it returns. -/
def walkUses (v : FatVolume) (memory : Nat → FatMemory) :
    (part index : Nat) → (currentItem : Option FatItem) → (nextParts : List CString) → List (Use FatAllocation)
  | _, _, none, _ => []
  | part, index, some item, [] => itemFreeUses part index item
  | part, index, some (.file _), _ :: _ => [.read ⟨.fatItem, part, index⟩]
  | part, index, some (.directory none), _ :: _ => [.read ⟨.fatItem, part, index⟩]
  | part, index, some (.directory (some directory)), nextPart :: nextParts =>
      .read ⟨.fatItem, part, index⟩ :: findUses v (memory (part + 1)) (part + 1) (some ⟨part, index⟩) directory nextPart ++
        match fat16FindItemInDirectory v (memory (part + 1)) directory nextPart with
        | none => []
        | some tmpItem =>
            itemFreeUses part index (.directory (some directory)) ++
              walkUses v memory (part + 1) (foundIndex directory nextPart) tmpItem nextParts

/-- **`fat16_open`, and `fat16_close` for what it returns.** -/
def openCloseUses (v : FatVolume) (memory : Nat → FatMemory) (path : CString) (nextParts : List CString) :
    List (Use FatAllocation) :=
  findUses v (memory 0) 0 none v.rootDirectory path ++
    match fat16FindItemInDirectory v (memory 0) v.rootDirectory path with
    | none => []
    | some rootItem => walkUses v memory 0 (foundIndex v.rootDirectory path) rootItem nextParts

/-! ### When everything is freed -/

/-- **Everything is owned**: objects are read and freed while they are live only, and if `fat16_open` returns, none is live at the
end. -/
def AllFreed (v : FatVolume) (memory : Nat → FatMemory) (path : CString) (nextParts : List CString) : Prop :=
  ∃ live, settle ∅ (openCloseUses v memory path nextParts) = some live ∧
    ((fat16GetDirectoryEntry v memory path nextParts).2 ≠ none → live = ∅)

/-- **No entry hides another**: an entry for which an item is made is the last one with the name. -/
def OneMade (memory : FatMemory) (items : Nat → FatDirectoryItem) (name : CString) (total : Nat) : Prop :=
  ∀ i j, i < j → j < total → isNamed (items i) name → isNamed (items j) name → memory.fItem i = false

/-- So it is in a directory. -/
def OneMadeIn (memory : FatMemory) (directory : FatDirectory) (name : CString) : Prop :=
  ∀ items, directory.item = some items → OneMade memory items name directory.total.toNat

/-- **The parts behind an item are owned**: a directory was not freed when it was loaded, a file has no part behind it, and if the
search returns no entry hides another. -/
def WalkOwned (v : FatVolume) (memory : Nat → FatMemory) :
    (part : Nat) → (item : Option FatItem) → (nextParts : List CString) → Prop
  | _, some (.directory (some directory)), [] => directory.freed = false
  | part, some (.directory (some directory)), nextPart :: nextParts =>
      directory.freed = false ∧ ∀ tmpItem, fat16FindItemInDirectory v (memory (part + 1)) directory nextPart = some tmpItem →
        ((fat16GetDirectoryEntryLoop v memory (part + 1) tmpItem nextParts).2 ≠ none →
          OneMadeIn (memory (part + 1)) directory nextPart) ∧ WalkOwned v memory (part + 1) tmpItem nextParts
  | _, some (.file _), _ :: _ => False
  | _, _, _ => True

/-- **When everything is owned.** -/
def PathOwned (v : FatVolume) (memory : Nat → FatMemory) (path : CString) (nextParts : List CString) : Prop :=
  ∀ rootItem, fat16FindItemInDirectory v (memory 0) v.rootDirectory path = some rootItem →
    ((fat16GetDirectoryEntry v memory path nextParts).2 ≠ none → OneMadeIn (memory 0) v.rootDirectory path) ∧
      WalkOwned v memory 0 rootItem nextParts

/-! ### One item -/

/-- The objects of the item that was made for an entry. A directory that was freed when it was loaded is none of them. -/
def owned (part index : Nat) : Option FatItem → Finset FatAllocation
  | none => ∅
  | some (.file copy) => if copy.isSome then {⟨.itemCopy, part, index⟩, ⟨.fatItem, part, index⟩} else {⟨.fatItem, part, index⟩}
  | some (.directory none) => {⟨.fatItem, part, index⟩}
  | some (.directory (some directory)) =>
      if directory.freed then {⟨.fatItem, part, index⟩}
      else if directory.item.isSome then {⟨.itemArray, part, index⟩, ⟨.fatDirectory, part, index⟩, ⟨.fatItem, part, index⟩}
      else {⟨.fatDirectory, part, index⟩, ⟨.fatItem, part, index⟩}

/-- They are objects of this entry. -/
theorem owned_at {part index : Nat} {item : Option FatItem} {object : FatAllocation} (isOwned : object ∈ owned part index item) :
    object.part = part ∧ object.index = index := by
  unfold owned at isOwned
  split at isOwned
  · exact absurd isOwned (Finset.notMem_empty _)
  · split at isOwned <;> simp at isOwned
    · rcases isOwned with rfl | rfl <;> exact ⟨rfl, rfl⟩
    · exact isOwned ▸ ⟨rfl, rfl⟩
  · exact Finset.mem_singleton.mp isOwned ▸ ⟨rfl, rfl⟩
  · split at isOwned
    · exact Finset.mem_singleton.mp isOwned ▸ ⟨rfl, rfl⟩
    · split at isOwned <;> simp at isOwned
      · rcases isOwned with rfl | rfl | rfl <;> exact ⟨rfl, rfl⟩
      · rcases isOwned with rfl | rfl <;> exact ⟨rfl, rfl⟩

theorem item_owned (part index : Nat) (item : FatItem) :
    (⟨.fatItem, part, index⟩ : FatAllocation) ∈ owned part index (some item) := by
  cases item with
  | file copy => cases copy <;> simp [owned]
  | directory directory =>
      cases directory with
      | none => exact Finset.mem_singleton_self _
      | some directory =>
          rw [owned]
          split
          · exact Finset.mem_singleton_self _
          · split <;> simp

theorem owned_eq_empty {part index : Nat} {item : Option FatItem} : owned part index item = ∅ ↔ item = none := by
  cases item with
  | none => exact iff_of_true rfl rfl
  | some item => exact iff_of_false (Finset.ne_empty_of_mem (item_owned part index item)) (Option.some_ne_none item)

/-- **Uses of the objects of one entry.** -/
def UsesOf (part index : Nat) (uses : List (Use FatAllocation)) : Prop :=
  ∀ use ∈ uses, use.object.part = part ∧ use.object.index = index

@[simp]
theorem usesOf_nil (part index : Nat) : UsesOf part index [] := fun _ isUse => absurd isUse List.not_mem_nil

@[simp]
theorem usesOf_cons (part index : Nat) (use : Use FatAllocation) (uses : List (Use FatAllocation)) :
    UsesOf part index (use :: uses) ↔ (use.object.part = part ∧ use.object.index = index) ∧ UsesOf part index uses :=
  List.forall_mem_cons

/-- They leave the objects of other entries alone. -/
theorem UsesOf.frame {part index : Nat} {uses : List (Use FatAllocation)} (isOf : UsesOf part index uses)
    {live : Finset FatAllocation} (others : ∀ object ∈ live, object.part = part → object.index ≠ index) :
    settle live uses = (settle ∅ uses).map fun live' => live' ∪ live := by
  rw [← settle_frame uses fun use isUse isIn => others _ isIn (isOf use isUse).1 (isOf use isUse).2, Finset.empty_union]

section Items

variable (v : FatVolume) (memory : FatMemory) (part index : Nat)

theorem loadUses_of (item : FatDirectoryItem) : UsesOf part index (loadUses v memory part index item) := by
  unfold loadUses
  dsimp only
  split
  · refine (usesOf_cons _ _ _ _).mpr ⟨⟨rfl, rfl⟩, ?_⟩
    split
    · exact usesOf_nil _ _
    · split
      · refine (usesOf_cons _ _ _ _).mpr ⟨⟨rfl, rfl⟩, ?_⟩
        split <;> simp [Use.object]
      · simp [Use.object]
  · exact usesOf_nil _ _

theorem newItemUses_of (item : FatDirectoryItem) : UsesOf part index (newItemUses v memory part index item) := by
  unfold newItemUses
  split
  · refine (usesOf_cons _ _ _ _).mpr ⟨⟨rfl, rfl⟩, ?_⟩
    split
    · exact loadUses_of v memory part index item
    · split <;> simp [Use.object]
  · exact usesOf_nil _ _

theorem itemFreeUses_of (item : FatItem) : UsesOf part index (itemFreeUses part index item) := by
  unfold itemFreeUses
  split
  · split <;> simp [Use.object]
  · simp [Use.object]
  · split <;> simp [Use.object]

/-- Loading a directory allocates it and its entries, and frees them when the entries are read. -/
theorem load_settles {item : FatDirectoryItem} (isDirectory : item.isSubdirectory = true) :
    ∃ live, settle {⟨.fatItem, part, index⟩} (loadUses v memory part index item) = some live ∧
      ∀ directory, fat16LoadFatDirectory v memory index item = some directory → live =
        owned part index (some (.directory directory)) := by
  have newDirectory : (⟨.fatDirectory, part, index⟩ : FatAllocation) ∉
    ({⟨.fatItem, part, index⟩} : Finset FatAllocation) := by simp
  have newArray : (⟨.itemArray, part, index⟩ : FatAllocation) ∉
      (insert ⟨.fatDirectory, part, index⟩ {⟨.fatItem, part, index⟩} : Finset FatAllocation) := by simp
  unfold loadUses fat16LoadFatDirectory
  dsimp only
  rw [isDirectory]
  cases hasDirectory : memory.directory index with
  | false =>
      refine ⟨_, rfl, fun directory isLoaded => ?_⟩
      cases isLoaded
      rfl
  | true =>
      rw [if_pos rfl, settle_alloc newDirectory]
      cases counted : fat16GetTotalItemsForDirectory v
        (toUInt32 (fat16ClusterToSector v (toInt32 (fat16GetFirstCluster item)))) with
      | none =>
          refine ⟨_, rfl, fun directory isLoaded => ?_⟩
          cases isLoaded
      | some totalItems =>
          cases hasItems : memory.items index with
          | false =>
              refine ⟨{⟨.fatItem, part, index⟩}, ?_, fun directory isLoaded => ?_⟩
              · simp [settle, newDirectory]
              · cases isLoaded
                rfl
          | true =>
              dsimp only
              rw [if_pos rfl, settle_alloc newArray]
              by_cases isRead : (fat16ReadInternal v (toInt32 (fat16GetFirstCluster item)) 0
                  (toInt32 (totalItems * sizeofFatDirectoryItem))).1 = 0
              · rw [if_neg (not_not.mpr isRead)]
                refine ⟨_, rfl, fun directory isLoaded => ?_⟩
                cases isLoaded
                rw [owned, if_neg (by rw [decide_eq_true_iff]; exact not_not.mpr isRead)]
                rfl
              · rw [if_pos isRead]
                refine ⟨{⟨.fatItem, part, index⟩}, ?_, fun directory isLoaded => ?_⟩
                · simp [settle, newDirectory, newArray]
                · cases isLoaded
                  rw [owned, if_pos (decide_eq_true isRead)]

/-- **Making an item** allocates its objects, and no others are left. -/
theorem newItem_settles (item : FatDirectoryItem) :
    ∃ live, settle ∅ (newItemUses v memory part index item) = some live ∧
      ∀ made, fat16NewFatItemForDirectoryItem v memory index item = some made → live = owned part index made := by
  unfold newItemUses fat16NewFatItemForDirectoryItem
  cases hasItem : memory.fItem index with
  | false =>
      refine ⟨_, rfl, fun made isMade => ?_⟩
      cases isMade
      rfl
  | true =>
      rw [if_pos rfl, settle_alloc (Finset.notMem_empty _), insert_empty_eq]
      cases isDirectory : item.isSubdirectory with
      | true =>
          obtain ⟨live, isSettled, isOwned⟩ := load_settles v memory part index isDirectory
          refine ⟨live, isSettled, fun made isMade => ?_⟩
          cases isLoaded : fat16LoadFatDirectory v memory index item with
          | none =>
              rw [isLoaded] at isMade
              cases isMade
          | some directory =>
              rw [isLoaded] at isMade
              cases isMade
              exact isOwned directory isLoaded
      | false =>
          cases hasCopy : memory.clone index with
          | false =>
              refine ⟨_, rfl, fun made isMade => ?_⟩
              cases isMade
              simp [owned]
          | true =>
              refine ⟨{⟨.itemCopy, part, index⟩, ⟨.fatItem, part, index⟩}, by simp [settle], fun made isMade => ?_⟩
              cases isMade
              rfl

end Items

/-- Whether the directory of an item was freed when it was loaded. -/
def FatItem.isFreed : FatItem → Bool
  | .directory (some loaded) => loaded.freed
  | _ => false

/-- **Freeing an item** frees its objects. -/
theorem itemFree_settles {part index : Nat} {item : FatItem} (kept : item.isFreed = false) {frame : Finset FatAllocation}
    (others : ∀ object ∈ frame, object.part = part → object.index ≠ index) :
    settle (owned part index (some item) ∪ frame) (itemFreeUses part index item) = some frame := by
  have untouched := fun use isUse isIn =>
    others _ isIn (itemFreeUses_of part index item use isUse).1 (itemFreeUses_of part index item use isUse).2
  have alone : settle (owned part index (some item)) (itemFreeUses part index item) = some ∅ := by
    cases item with
    | file copy => cases copy <;> simp [owned, itemFreeUses, settle]
    | directory directory =>
        cases directory with
        | none => simp [owned, itemFreeUses, settle]
        | some directory =>
            have notFreed : directory.freed = false := kept
            cases hasItems : directory.item <;> simp [owned, itemFreeUses, settle, notFreed, hasItems]
  rw [settle_frame _ untouched, alone, Option.map_some, Finset.empty_union]

/-- **A directory that was freed before** is read. -/
theorem itemFree_dangling {part index : Nat} {item : FatItem} (freed : item.isFreed = true) {frame : Finset FatAllocation}
    (others : ∀ object ∈ frame, object.part = part → object.index ≠ index) :
    settle (owned part index (some item) ∪ frame) (itemFreeUses part index item) = none := by
  have untouched := fun use isUse isIn =>
    others _ isIn (itemFreeUses_of part index item use isUse).1 (itemFreeUses_of part index item use isUse).2
  rw [settle_frame _ untouched]
  cases item with
  | file copy => cases freed
  | directory directory =>
      cases directory with
      | none => cases freed
      | some directory =>
          have isFreed : directory.freed = true := freed
          simp [owned, itemFreeUses, settle, isFreed]

/-! ### A search -/

section Search

variable {v : FatVolume} {memory : FatMemory} {part : Nat} {searched : Option Searched} {items : Nat → FatDirectoryItem}
  {name : CString} {live : Finset FatAllocation}

/-- The directory that is searched, and its entries, are live. -/
def SearchedLive (live : Finset FatAllocation) : Option Searched → Prop
  | none => True
  | some searched => (⟨.fatDirectory, searched.part, searched.index⟩ : FatAllocation) ∈ live ∧
      (⟨.itemArray, searched.part, searched.index⟩ : FatAllocation) ∈ live

theorem guard_settles (isLive : SearchedLive live searched) : settle live (guardUses searched) = some live := by
  cases searched with
  | none => rfl
  | some searched => exact if_pos isLive.1

theorem entry_settles (isLive : SearchedLive live searched) : settle live (entryUses searched) = some live := by
  cases searched with
  | none => rfl
  | some searched =>
      rw [entryUses, settle_read isLive.1, settle_read isLive.2]
      rfl

theorem SearchedLive.mono {more : Finset FatAllocation} (isLive : SearchedLive live searched) :
    SearchedLive (more ∪ live) searched := by
  cases searched with
  | none => trivial
  | some searched => exact ⟨Finset.mem_union_right _ isLive.1, Finset.mem_union_right _ isLive.2⟩

/-- The search goes on with the next item. -/
theorem findItemLoop_next (v : FatVolume) (memory : FatMemory) (items : Nat → FatDirectoryItem) (name : CString) (i : Nat) :
    fat16FindItemLoop v memory items name (i + 1) =
      (fat16FindItemLoop v memory items name i).bind fun fItem =>
        if isNamed (items i) name then fat16NewFatItemForDirectoryItem v memory i (items i) else some fItem := rfl

/-- What a search has made: the item that is returned, and others of the same part. -/
structure Made (memory : FatMemory) (part : Nat) (items : Nat → FatDirectoryItem) (name : CString) (total : Nat)
    (fItem : Option FatItem)
    (others : Finset FatAllocation) : Prop where
  here : ∀ object ∈ owned part (lastIndex items name total) fItem ∪ others, object.part = part ∧ object.index < total
  apart : ∀ object ∈ others, object.index ≠ lastIndex items name total
  one : others = ∅ ↔ OneMade memory items name total
  none_ : fItem = none ∧ others = ∅ ↔ ∀ i < total, isNamed (items i) name → memory.fItem i = false

/-- An item that is not named changes nothing. -/
theorem Made.skip {total : Nat} {fItem : Option FatItem} {others : Finset FatAllocation}
    (made : Made memory part items name total fItem others) (unnamed : ¬ isNamed (items total) name) :
    Made memory part items name (total + 1) fItem others := by
  have sameIndex : lastIndex items name (total + 1) = lastIndex items name total := if_neg unnamed
  refine ⟨fun object isIn => ?_, fun object isIn => ?_, ?_, ?_⟩
  · rw [sameIndex] at isIn
    obtain ⟨isPart, before⟩ := made.here object isIn
    exact ⟨isPart, Nat.lt_succ_of_lt before⟩
  · rw [sameIndex]
    exact made.apart object isIn
  · rw [made.one]
    refine ⟨fun one i j before inside isFirst isLater => ?_,
      fun one i j before inside => one i j before (Nat.lt_succ_of_lt inside)⟩
    rcases Nat.eq_or_lt_of_le (Nat.le_of_lt_succ inside) with isLast | earlier
    · exact absurd (isLast ▸ isLater) unnamed
    · exact one i j before earlier isFirst isLater
  · rw [made.none_]
    refine ⟨fun all i inside isFirst => ?_, fun all i inside => all i (Nat.lt_succ_of_lt inside)⟩
    rcases Nat.eq_or_lt_of_le (Nat.le_of_lt_succ inside) with isLast | earlier
    · exact absurd (isLast ▸ isFirst) unnamed
    · exact all i earlier isFirst

/-- An item is made, unless it cannot be allocated. -/
theorem newItem_none {index : Nat} {item : FatDirectoryItem} {made : Option FatItem}
    (isMade : fat16NewFatItemForDirectoryItem v memory index item = some made) : made = none ↔ memory.fItem index = false := by
  unfold fat16NewFatItemForDirectoryItem at isMade
  cases hasItem : memory.fItem index with
  | false =>
      rw [hasItem] at isMade
      exact iff_of_true (Option.some.inj isMade).symm rfl
  | true =>
      rw [hasItem] at isMade
      refine iff_of_false (fun isNone => ?_) (by decide)
      subst isNone
      cases isDirectory : item.isSubdirectory with
      | true =>
          rw [isDirectory] at isMade
          obtain ⟨directory, _, same⟩ := Option.bind_eq_some_iff.mp isMade
          cases same
      | false =>
          rw [isDirectory] at isMade
          cases isMade

/-- An item that is named is made, and returned in place of the one before. -/
theorem Made.next {total : Nat} {fItem made : Option FatItem} {others : Finset FatAllocation}
    (before : Made memory part items name total fItem others) (named : isNamed (items total) name)
    (isMade : fat16NewFatItemForDirectoryItem v memory total (items total) = some made) :
    Made memory part items name (total + 1) made (owned part (lastIndex items name total) fItem ∪ others) := by
  have newIndex : lastIndex items name (total + 1) = total := if_pos named
  have isNone := newItem_none isMade
  refine ⟨fun object isIn => ?_, fun object isIn => ?_, ?_, ?_⟩
  · rw [newIndex] at isIn
    rcases Finset.mem_union.mp isIn with isNew | isOld
    · obtain ⟨isPart, isIndex⟩ := owned_at isNew
      exact ⟨isPart, by omega⟩
    · obtain ⟨isPart, earlier⟩ := before.here object isOld
      exact ⟨isPart, Nat.lt_succ_of_lt earlier⟩
  · rw [newIndex]
    exact (before.here object isIn).2.ne
  · rw [Finset.union_eq_empty, owned_eq_empty, before.none_]
    constructor
    · intro all i j earlier inside isFirst _
      exact all i (by omega) isFirst
    · exact fun one i inside isFirst => one i total inside (Nat.lt_succ_self total) isFirst named
  · rw [Finset.union_eq_empty, owned_eq_empty, before.none_, isNone]
    constructor
    · rintro ⟨noItem, all⟩ i inside isFirst
      rcases Nat.eq_or_lt_of_le (Nat.le_of_lt_succ inside) with isLast | earlier
      · exact isLast ▸ noItem
      · exact all i earlier isFirst
    · exact fun all => ⟨all total (Nat.lt_succ_self total) named, fun i inside => all i (Nat.lt_succ_of_lt inside)⟩

/-- **What a search leaves behind**: if it returns, the item, and the others that were made for the name. -/
theorem findItem_settles (isLive : SearchedLive live searched) (elsewhere : ∀ object ∈ live, object.part ≠ part) (total : Nat) :
    (fat16FindItemLoop v memory items name total = none →
      ∃ live', settle live (findItemUses v memory part searched items name total) = some live') ∧
    ∀ fItem, fat16FindItemLoop v memory items name total = some fItem → ∃ others,
      settle live (findItemUses v memory part searched items name total) =
        some (owned part (lastIndex items name total) fItem ∪ others ∪ live) ∧
      Made memory part items name total fItem others := by
  induction total with
  | zero =>
      refine ⟨fun isNone => (Option.some_ne_none _ isNone).elim, fun fItem isFound => ⟨∅, ?_, ?_⟩⟩
      · cases isFound
        rw [findItemUses, guard_settles isLive, owned, Finset.empty_union, Finset.empty_union]
      · cases isFound
        refine ⟨fun object isIn => ?_, fun object isIn => absurd isIn (Finset.notMem_empty _), ?_, ?_⟩
        · rw [owned, Finset.empty_union] at isIn
          exact absurd isIn (Finset.notMem_empty _)
        · exact iff_of_true rfl fun i j _ inside => absurd inside (Nat.not_lt_zero j)
        · exact iff_of_true ⟨rfl, rfl⟩ fun i inside => absurd inside (Nat.not_lt_zero i)
  | succ total ih =>
      obtain ⟨stuck, returns⟩ := ih
      have next := findItemLoop_next v memory items name total
      rw [findItemUses, settle_append]
      cases before : fat16FindItemLoop v memory items name total with
      | none =>
          obtain ⟨live', isSettled⟩ := stuck before
          rw [before, Option.bind_none] at next
          refine ⟨fun _ => ⟨live', ?_⟩, fun fItem isFound => ?_⟩
          · rw [isSettled]
            rfl
          · rw [next] at isFound
            cases isFound
      | some old =>
          obtain ⟨others, isSettled, made⟩ := returns old before
          have stillLive := @SearchedLive.mono searched live (owned part (lastIndex items name total) old ∪ others) isLive
          rw [before, Option.bind_some] at next
          dsimp only
          rw [isSettled, Option.bind_some, settle_append, settle_append, entry_settles stillLive, Option.bind_some]
          by_cases named : isNamed (items total) name
          · rw [if_pos named] at next ⊢
            obtain ⟨liveNew, isNew, isOwned⟩ := newItem_settles v memory part total (items total)
            have apart : ∀ object ∈ owned part (lastIndex items name total) old ∪ others ∪ live, object.part = part →
                object.index ≠ total := by
              intro object isIn isPart
              rcases Finset.mem_union.mp isIn with isMade | isOld
              · exact (made.here object isMade).2.ne
              · exact absurd isPart (elsewhere object isOld)
            rw [(newItemUses_of v memory part total (items total)).frame apart, isNew, Option.map_some, Option.bind_some, next]
            refine ⟨fun isNone => ?_, fun fItem isFound => ⟨owned part (lastIndex items name total) old ∪ others, ?_, ?_⟩⟩
            · rw [isNone]
              exact ⟨_, rfl⟩
            · have stillMore := @SearchedLive.mono searched _ liveNew stillLive
              rw [isFound, Option.isSome_some, if_pos rfl, guard_settles stillMore, isOwned fItem isFound, lastIndex,
                if_pos named,
                Finset.union_assoc (owned part total fItem)]
            · exact made.next named isFound
          · rw [if_neg named] at next ⊢
            rw [settle_nil, Option.bind_some, next, Option.isSome_some, if_pos rfl, guard_settles stillLive]
            refine ⟨fun isNone => (Option.some_ne_none _ isNone).elim, fun fItem isFound => ⟨others, ?_, ?_⟩⟩
            · cases isFound
              rw [lastIndex, if_neg named]
            · cases isFound
              exact made.skip named

/-- In a directory that was freed, the first condition reads it. -/
theorem findItem_dangling {directory : Searched}
    (freed : (⟨.fatDirectory, directory.part, directory.index⟩ : FatAllocation) ∉ live)
    (total : Nat) : settle live (findItemUses v memory part (some directory) items name total) = none := by
  induction total with
  | zero => exact settle_dangling freed _
  | succ total ih =>
      rw [findItemUses, settle_append, ih]
      rfl

/-- **A search of a directory.** -/
theorem find_settles {directory : FatDirectory} (guarded : settle live (guardUses searched) = some live)
    (isLive : directory.item.isSome = true → SearchedLive live searched) (elsewhere : ∀ object ∈ live, object.part ≠ part)
    (name : CString) :
    (fat16FindItemInDirectory v memory directory name = none →
      ∃ live', settle live (findUses v memory part searched directory name) = some live') ∧
    ∀ fItem, fat16FindItemInDirectory v memory directory name = some fItem → ∃ others,
      settle live (findUses v memory part searched directory name) =
        some (owned part (foundIndex directory name) fItem ∪ (others ∪ live)) ∧
      (∀ object ∈ others, object.part = part ∧ object.index ≠ foundIndex directory name) ∧
      (others = ∅ ↔ OneMadeIn memory directory name) := by
  unfold fat16FindItemInDirectory findUses foundIndex OneMadeIn
  cases hasItems : directory.item with
  | none =>
      dsimp only
      refine ⟨fun _ => ⟨live, guarded⟩, fun fItem isFound => ⟨∅, ?_, fun _ isIn => absurd isIn (Finset.notMem_empty _), ?_⟩⟩
      · split at isFound
        · cases isFound
        · cases isFound
          rw [guarded, owned, Finset.empty_union, Finset.empty_union]
      · exact iff_of_true rfl fun items isItems => by cases isItems
  | some items =>
      dsimp only
      obtain ⟨stuck, returns⟩ := @findItem_settles v memory part searched items name live
        (isLive (by rw [hasItems]; rfl)) elsewhere
        directory.total.toNat
      refine ⟨stuck, fun fItem isFound => ?_⟩
      obtain ⟨others, isSettled, made⟩ := returns fItem isFound
      refine ⟨others, ?_, fun object isIn => ⟨(made.here object (Finset.mem_union_right _ isIn)).1, made.apart object isIn⟩, ?_⟩
      · rw [isSettled, Finset.union_assoc]
      · rw [made.one]
        exact ⟨fun one items' isItems => by cases isItems; exact one, fun one => one items rfl⟩

theorem find_dangling {directory : Searched} (freed : (⟨.fatDirectory, directory.part, directory.index⟩ : FatAllocation) ∉ live)
    (loaded : FatDirectory) (name : CString) : settle live (findUses v memory part (some directory) loaded name) = none := by
  unfold findUses
  split
  · exact findItem_dangling freed _
  · exact settle_dangling freed _

end Search

/-! ### Part by part -/

/-- A directory that was kept is live, and so are its entries. -/
theorem kept_owned {part index : Nat} {directory : FatDirectory} (kept : directory.freed = false) :
    (⟨.fatDirectory, part, index⟩ : FatAllocation) ∈ owned part index (some (.directory (some directory))) ∧
      (directory.item.isSome = true →
        (⟨.itemArray, part, index⟩ : FatAllocation) ∈ owned part index (some (.directory (some directory)))) := by
  rw [owned, if_neg (by rw [kept]; decide)]
  cases directory.item <;> simp

/-- One that was freed is not. -/
theorem freed_owned {part index : Nat} {directory : FatDirectory} (freed : directory.freed = true) :
    (⟨.fatDirectory, part, index⟩ : FatAllocation) ∉ owned part index (some (.directory (some directory))) := by
  rw [owned, if_pos freed]
  simp

section Walk

variable {v : FatVolume} {memory : Nat → FatMemory}

/-- What is left of the parts before, apart from the item of an entry. -/
def LeftBehind (part index : Nat) (rest : Finset FatAllocation) : Prop :=
  ∀ object ∈ rest, object.part ≤ part ∧ (object.part = part → object.index ≠ index)

/-- The last item is freed when it is closed. -/
theorem walkOwned_last (part : Nat) (item : FatItem) : WalkOwned v memory part (some item) [] ↔ item.isFreed = false := by
  cases item with
  | file copy => exact iff_of_true trivial rfl
  | directory directory =>
      cases directory with
      | none => exact iff_of_true trivial rfl
      | some directory => exact Iff.rfl

/-- Without another part, an item is closed. -/
theorem close_settles {part index : Nat} {item : Option FatItem} {rest : Finset FatAllocation}
    (left : LeftBehind part index rest) :
    (∃ live, settle (owned part index item ∪ rest) (walkUses v memory part index item []) = some live ∧ live = ∅) ↔
      rest = ∅ ∧ WalkOwned v memory part item [] := by
  have apart : ∀ object ∈ rest, object.part = part → object.index ≠ index := fun object isIn => (left object isIn).2
  cases item with
  | none =>
      rw [owned, Finset.empty_union, walkUses, settle_nil]
      exact ⟨fun ⟨live, same, isEmpty⟩ => ⟨(Option.some.inj same).trans isEmpty, trivial⟩,
        fun ⟨isEmpty, _⟩ => ⟨rest, rfl, isEmpty⟩⟩
  | some item =>
      rw [walkOwned_last, walkUses]
      cases freed : item.isFreed with
      | true =>
          rw [itemFree_dangling freed apart]
          exact iff_of_false (fun ⟨_, same, _⟩ => by cases same) fun ⟨_, kept⟩ => by cases kept
      | false =>
          rw [itemFree_settles freed apart]
          exact ⟨fun ⟨live, same, isEmpty⟩ => ⟨(Option.some.inj same).trans isEmpty, rfl⟩,
            fun ⟨isEmpty, _⟩ => ⟨rest, rfl, isEmpty⟩⟩

/-- **One part further**, in a directory that was kept. -/
theorem enter_settles {nextParts : List CString}
    (ih : ∀ {part index : Nat} {item : Option FatItem} {rest : Finset FatAllocation}, LeftBehind part index rest →
      ((∃ live, settle (owned part index item ∪ rest) (walkUses v memory part index item nextParts) = some live ∧
          ((fat16GetDirectoryEntryLoop v memory part item nextParts).2 ≠ none → live = ∅)) ↔
        ((fat16GetDirectoryEntryLoop v memory part item nextParts).2 ≠ none → rest = ∅) ∧ WalkOwned v memory part item nextParts))
    {part index : Nat} {loaded : FatDirectory} {rest : Finset FatAllocation} (left : LeftBehind part index rest)
    (kept : loaded.freed = false) (nextPart : CString) :
    (∃ live, settle (owned part index (some (.directory (some loaded))) ∪ rest)
          (walkUses v memory part index (some (.directory (some loaded))) (nextPart :: nextParts)) = some live ∧
        ((fat16GetDirectoryEntryLoop v memory part (some (.directory (some loaded))) (nextPart :: nextParts)).2 ≠ none →
          live = ∅)) ↔
      ((fat16GetDirectoryEntryLoop v memory part (some (.directory (some loaded))) (nextPart :: nextParts)).2 ≠ none → rest = ∅) ∧
        WalkOwned v memory part (some (.directory (some loaded))) (nextPart :: nextParts) := by
  obtain ⟨isDirectory, isArray⟩ := @kept_owned part index loaded kept
  have isItem := item_owned part index (.directory (some loaded))
  have guarded : settle (owned part index (some (.directory (some loaded))) ∪ rest) (guardUses (some ⟨part, index⟩)) =
      some (owned part index (some (.directory (some loaded))) ∪ rest) := by
    rw [guardUses, settle_read (Finset.mem_union_left _ isDirectory), settle_nil]
  have elsewhere : ∀ object ∈ owned part index (some (.directory (some loaded))) ∪ rest, object.part ≠ part + 1 := by
    intro object isIn
    rcases Finset.mem_union.mp isIn with isOwned | isLeft
    · have := (owned_at isOwned).1
      omega
    · have := (left object isLeft).1
      omega
  obtain ⟨stuck, returns⟩ := @find_settles v (memory (part + 1)) (part + 1) (some ⟨part, index⟩) _ loaded guarded (fun hasItems =>
    ⟨Finset.mem_union_left _ isDirectory, Finset.mem_union_left _ (isArray hasItems)⟩) elsewhere nextPart
  rw [walkUses, List.cons_append, settle_read (Finset.mem_union_left _ isItem), settle_append,
    fat16GetDirectoryEntryLoop, WalkOwned]
  cases found : fat16FindItemInDirectory v (memory (part + 1)) loaded nextPart with
  | none =>
      obtain ⟨live', isSettled⟩ := stuck found
      rw [isSettled]
      exact iff_of_true ⟨live', rfl, fun returns => absurd rfl returns⟩
        ⟨fun returns => absurd rfl returns, kept, fun tmpItem isFound => by cases isFound⟩
  | some tmpItem =>
      obtain ⟨others, isSettled, here, one⟩ := returns tmpItem found
      have notFreed : (FatItem.directory (some loaded)).isFreed = false := kept
      have apart : ∀ object ∈ owned (part + 1) (foundIndex loaded nextPart) tmpItem ∪ (others ∪ rest), object.part = part →
          object.index ≠ index := by
        intro object isIn isPart
        rcases Finset.mem_union.mp isIn with isOwned | isIn
        · have := (owned_at isOwned).1
          omega
        · rcases Finset.mem_union.mp isIn with isOther | isLeft
          · have := (here object isOther).1
            omega
          · exact (left object isLeft).2 isPart
      have left' : LeftBehind (part + 1) (foundIndex loaded nextPart) (others ∪ rest) := by
        intro object isIn
        rcases Finset.mem_union.mp isIn with isOther | isLeft
        · exact ⟨(here object isOther).1.le, fun _ => (here object isOther).2⟩
        · have := (left object isLeft).1
          exact ⟨by omega, fun isPart => by omega⟩
      dsimp only
      rw [isSettled, Option.bind_some, settle_append, Finset.union_left_comm others,
        Finset.union_left_comm (owned (part + 1) _ _),
        itemFree_settles notFreed apart, Option.bind_some, ih left', Finset.union_eq_empty, one]
      constructor
      · rintro ⟨nothing, walked⟩
        refine ⟨fun returns => (nothing returns).2, kept, fun tmpItem' isFound => ?_⟩
        cases isFound
        exact ⟨fun returns => (nothing returns).1, walked⟩
      · rintro ⟨nothing, _, walked⟩
        exact ⟨fun returns => ⟨(walked tmpItem rfl).1 returns, nothing returns⟩, (walked tmpItem rfl).2⟩

/-- **The parts behind an item**: everything is owned exactly if nothing was left before, when the walk returns, and the parts are
owned. -/
theorem walk_settles (nextParts : List CString) : ∀ {part index : Nat} {item : Option FatItem} {rest : Finset FatAllocation},
    LeftBehind part index rest →
    ((∃ live, settle (owned part index item ∪ rest) (walkUses v memory part index item nextParts) = some live ∧
        ((fat16GetDirectoryEntryLoop v memory part item nextParts).2 ≠ none → live = ∅)) ↔
      ((fat16GetDirectoryEntryLoop v memory part item nextParts).2 ≠ none → rest = ∅) ∧
        WalkOwned v memory part item nextParts) := by
  induction nextParts with
  | nil =>
      intro part index item rest left
      have returns : (fat16GetDirectoryEntryLoop v memory part item []).2 ≠ none := by
        rw [fat16GetDirectoryEntryLoop]
        exact Option.some_ne_none _
      simp only [ne_eq, returns, not_false_eq_true, true_imp_iff]
      exact close_settles left
  | cons nextPart nextParts ih =>
      intro part index item rest left
      have apart : ∀ object ∈ rest, object.part = part → object.index ≠ index := fun object isIn => (left object isIn).2
      cases item with
      | none =>
          -- a null pointer is followed
          exact iff_of_true ⟨_, rfl, fun returns => absurd rfl returns⟩ ⟨fun returns => absurd rfl returns, trivial⟩
      | some item =>
          have isItem : (⟨.fatItem, part, index⟩ : FatAllocation) ∈ owned part index (some item) ∪ rest :=
            Finset.mem_union_left _ (item_owned part index item)
          cases item with
          | file copy =>
              -- the item is left behind
              refine iff_of_false ?_ fun owned => owned.2
              rintro ⟨live, isSettled, freed⟩
              rw [walkUses, settle_read isItem, settle_nil, Option.some.injEq] at isSettled
              have isEmpty := freed (Option.some_ne_none none)
              rw [← isSettled] at isEmpty
              exact Finset.ne_empty_of_mem isItem isEmpty
          | directory directory =>
              cases directory with
              | none =>
                  have isSettled : settle (owned part index (some (.directory none)) ∪ rest) (walkUses v memory part index
                      (some (.directory none)) (nextPart :: nextParts)) =
                        some (owned part index (some (.directory none)) ∪ rest) := by
                    rw [walkUses, settle_read isItem, settle_nil]
                  exact iff_of_true ⟨_, isSettled, fun returns => absurd rfl returns⟩ ⟨fun returns => absurd rfl returns, trivial⟩
              | some loaded =>
                  cases freed : loaded.freed with
                  | true =>
                      rw [walkUses, List.cons_append, settle_read isItem, settle_append, WalkOwned]
                      have dangling : (⟨.fatDirectory, part, index⟩ : FatAllocation) ∉
                          owned part index (some (.directory (some loaded))) ∪ rest := by
                        rw [Finset.mem_union, not_or]
                        exact ⟨freed_owned freed, fun isIn => apart _ isIn rfl rfl⟩
                      rw [@find_dangling v (memory (part + 1)) (part + 1) _ ⟨part, index⟩ dangling loaded nextPart]
                      refine iff_of_false ?_ ?_
                      · rintro ⟨live, isSettled, -⟩
                        cases isSettled
                      · intro owned
                        rw [freed] at owned
                        cases owned.2.1
                  | false => exact enter_settles ih left freed nextPart

end Walk

/-! ### The result -/

/-- **When everything is owned**, for every volume, path and outcome of the allocations. -/
theorem openClose_settles_iff (v : FatVolume) (memory : Nat → FatMemory) (path : CString) (nextParts : List CString) :
    AllFreed v memory path nextParts ↔ PathOwned v memory path nextParts := by
  obtain ⟨stuck, returns⟩ := @find_settles v (memory 0) 0 none ∅ v.rootDirectory rfl (fun _ => trivial)
    (fun _ isIn => absurd isIn (Finset.notMem_empty _)) path
  unfold AllFreed PathOwned openCloseUses
  rw [settle_append]
  cases found : fat16FindItemInDirectory v (memory 0) v.rootDirectory path with
  | none =>
      obtain ⟨live, isSettled⟩ := stuck found
      have noEntry : (fat16GetDirectoryEntry v memory path nextParts).2 = none := by
        rw [fat16GetDirectoryEntry, found]
      rw [isSettled]
      exact iff_of_true ⟨live, rfl, fun returns => absurd noEntry returns⟩ fun rootItem isFound => by cases isFound
  | some rootItem =>
      obtain ⟨others, isSettled, here, one⟩ := returns rootItem found
      have left : LeftBehind 0 (foundIndex v.rootDirectory path) others := fun object isIn =>
        ⟨(here object isIn).1.le, fun _ => (here object isIn).2⟩
      have single : ∀ {entry : Prop}, ((entry → others = ∅) ∧ WalkOwned v memory 0 rootItem nextParts ↔
          ∀ rootItem', some rootItem = some rootItem' →
            (entry → OneMadeIn (memory 0) v.rootDirectory path) ∧ WalkOwned v memory 0 rootItem' nextParts) := by
        intro entry
        rw [one]
        exact ⟨fun owned rootItem' isFound => by cases isFound; exact owned, fun owned => owned rootItem rfl⟩
      dsimp only
      rw [isSettled, Option.bind_some, Finset.union_empty, ← single]
      cases rootItem with
      | none =>
          have entry : (fat16GetDirectoryEntry v memory path nextParts).2 ≠ none := by
            rw [fat16GetDirectoryEntry, found]
            exact Option.some_ne_none _
          have walked : WalkOwned v memory 0 none nextParts := by
            cases nextParts <;> exact trivial
          rw [owned, Finset.empty_union, walkUses, settle_nil]
          exact ⟨fun ⟨live, same, isEmpty⟩ => ⟨fun entry => (Option.some.inj same).trans (isEmpty entry), walked⟩,
            fun ⟨isEmpty, _⟩ => ⟨others, rfl, isEmpty⟩⟩
      | some rootItem =>
          have entry : (fat16GetDirectoryEntry v memory path nextParts).2 =
              (fat16GetDirectoryEntryLoop v memory 0 (some rootItem) nextParts).2 := by
            rw [fat16GetDirectoryEntry, found]
          rw [entry]
          exact walk_settles nextParts left

/-! ### A directory with an item -/

/-- A disk with one directory `D` in its root directory, which has one item. -/
def filledDirectory (pos : Int) : Byte := if pos = 16896 then 0x41#8 else emptyDirectory pos

/-- Its volume, with the root directory as it is loaded. -/
def filledDirectoryVolume : FatVolume :=
  { plainVolume filledDirectory with
    rootDirectory := ⟨some (itemAt (rootBytes (plainVolume filledDirectory) filledDirectory)), 1, 2, 33, false⟩ }

/-- **A directory is freed twice**: `d` is opened and closed. -/
theorem filledDirectory_freedTwice :
    ¬ (∀ v memory path nextParts, AllFreed v memory path nextParts) ∧
      openCloseUses filledDirectoryVolume (fun _ => plenty) ⟨[0x64#8], by decide⟩ [] =
        [.alloc ⟨.fatItem, 0, 0⟩, .alloc ⟨.fatDirectory, 0, 0⟩, .alloc ⟨.itemArray, 0, 0⟩, .read ⟨.fatDirectory, 0, 0⟩,
          .free ⟨.itemArray, 0, 0⟩, .free ⟨.fatDirectory, 0, 0⟩, .read ⟨.fatItem, 0, 0⟩, .read ⟨.fatDirectory, 0, 0⟩,
          .free ⟨.itemArray, 0, 0⟩, .free ⟨.fatDirectory, 0, 0⟩, .free ⟨.fatItem, 0, 0⟩] := by
  have uses : openCloseUses filledDirectoryVolume (fun _ => plenty) ⟨[0x64#8], by decide⟩ [] =
      [.alloc ⟨.fatItem, 0, 0⟩, .alloc ⟨.fatDirectory, 0, 0⟩, .alloc ⟨.itemArray, 0, 0⟩, .read ⟨.fatDirectory, 0, 0⟩,
        .free ⟨.itemArray, 0, 0⟩, .free ⟨.fatDirectory, 0, 0⟩, .read ⟨.fatItem, 0, 0⟩, .read ⟨.fatDirectory, 0, 0⟩,
        .free ⟨.itemArray, 0, 0⟩, .free ⟨.fatDirectory, 0, 0⟩, .free ⟨.fatItem, 0, 0⟩] := by
    decide +kernel
  refine ⟨fun all => ?_, uses⟩
  obtain ⟨live, isSettled, _⟩ := all filledDirectoryVolume (fun _ => plenty) ⟨[0x64#8], by decide⟩ []
  rw [uses] at isSettled
  have dangling : settle ∅ ([.alloc ⟨.fatItem, 0, 0⟩, .alloc ⟨.fatDirectory, 0, 0⟩, .alloc ⟨.itemArray, 0, 0⟩,
      .read ⟨.fatDirectory, 0, 0⟩, .free ⟨.itemArray, 0, 0⟩, .free ⟨.fatDirectory, 0, 0⟩, .read ⟨.fatItem, 0, 0⟩,
      .read ⟨.fatDirectory, 0, 0⟩, .free ⟨.itemArray, 0, 0⟩, .free ⟨.fatDirectory, 0, 0⟩, .free ⟨.fatItem, 0, 0⟩] :
        List (Use FatAllocation)) = none := by decide
  rw [dangling] at isSettled
  cases isSettled

end PeachOS
