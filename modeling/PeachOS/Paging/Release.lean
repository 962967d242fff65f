/-
**Freeing page tables: `paging_desc_free`, `paging_desc_entry_free`.**

What is freed is the list of pointers that are given to `kfree`, in order. `kfree` changes no memory (its only statement is
commented out), so the tables are read as they were. A table is freed after the tables below it, but
`paging_desc_entry_free` starts with a look at the first entry of the table: when that entry is null it returns, and
neither the table nor anything below it is freed.

* `pagingDescEntryFree_frees` — below a table each freed pointer is a table, and none is freed twice;
* `pagingDescFree_iff` — after any run of `paging_map` all tables are freed exactly when every table below the root has
  something in its first slot;
* `pagingDescFree_leaks` — one page in the second slot of its page table is enough for a leak.
-/

import PeachOS.Paging.Beside
import PeachOS.Paging.Caching
import PeachOS.Paging.Spare
import Mathlib.Data.List.Nodup

namespace PeachOS

open ByteStore RadixTable
open StepRun (Reachable)

/-! ### The code -/

/-- The loop over entries of a table, which frees the tables that they refer to. -/
def pagingEntriesFree (free : Nat → Option (List Nat)) (mem : Memory) (table : Nat) : List Nat → Option (List Nat)
  | [] => some []
  | i :: rest =>
      let entry := tableRead mem table i
      let childEntry := entryAddress entry * 2 ^ 12
      if pagingNullEntry entry ∨ childEntry = 0 then pagingEntriesFree free mem table rest
      else
        match free childEntry with
        | none => none
        | some freed => (pagingEntriesFree free mem table rest).map (freed ++ ·)

/-- `paging_desc_entry_free`; `none` for its panics. -/
def pagingDescEntryFree (mem : Memory) : (level : Nat) → (tableEntry : Nat) → Option (List Nat)
  | 0, tableEntry => if pagingNullEntry (entryAt mem tableEntry) then some [] else none
  | level + 1, tableEntry =>
      if pagingNullEntry (entryAt mem tableEntry) then some []
      else if level + 1 > pagingMapLevel4 then none
      else if level + 1 > 1 then
        (pagingEntriesFree (pagingDescEntryFree mem level) mem tableEntry (List.range pagingTotalEntriesPerTable)).map
          (· ++ [tableEntry])
      else some [tableEntry]

/-- `paging_desc_free` of the descriptor at an address. -/
def pagingDescFree (mem : Memory) (address : Nat) (desc : PagingDesc) : Option (List Nat) :=
  (pagingEntriesFree (pagingDescEntryFree mem (desc.level - 1)) mem desc.pml (List.range pagingTotalEntriesPerTable)).map
    (· ++ [desc.pml, address])

/-! ### What is freed below a table -/

/-- **Every table below the root has something in its first slot.** -/
def FirstSlotsUsed (mem : Memory) (desc : PagingDesc) : Prop :=
  ∀ path table, ReachedTable mem desc path table → path ≠ [] → tableRead mem table 0 ≠ 0

/-- **What is freed at some paths**: each pointer is that of a table there, whose first slot is in use; no pointer is freed
twice, and none is left when all first slots are in use. -/
structure FreesAt (mem : Memory) (desc : PagingDesc) (paths : Set (List Nat)) (freed : List Nat) : Prop where
  nodup : freed.Nodup
  sound : ∀ a ∈ freed, tableRead mem a 0 ≠ 0 ∧ ∃ path ∈ paths, ReachedTable mem desc path a
  complete : FirstSlotsUsed mem desc → ∀ path ∈ paths, ∀ a, ReachedTable mem desc path a → a ∈ freed

/-- The paths that begin with a path. -/
def pathsFrom (path : List Nat) : Set (List Nat) := { path' | path <+: path' }

/-- The paths that go on from a path with one of some digits. -/
def pathsBelow (path digits : List Nat) : Set (List Nat) := { path' | ∃ digit ∈ digits, path ++ [digit] <+: path' }

section Frees

variable {mem : Memory} {desc : PagingDesc}

/-- The walk to a table passes a table for each part of its path. -/
theorem reached_prefix {path more : List Nat} {table : Nat} (reached : ReachedTable mem desc (path ++ more) table) :
    ∃ parent, ReachedTable mem desc path parent := by
  induction more using List.reverseRecOn generalizing table with
  | nil =>
      rw [List.append_nil] at reached
      exact ⟨table, reached⟩
  | append_singleton more digit ih =>
      rw [← List.append_assoc] at reached
      obtain ⟨_, _, parent, reached', _⟩ := reached_concat.mp reached
      exact ih reached'

/-- Nothing is freed where no table is reached. -/
theorem FreesAt.nothing {paths : Set (List Nat)}
    (none_ : FirstSlotsUsed mem desc → ∀ path ∈ paths, ∀ a, ¬ ReachedTable mem desc path a) :
    FreesAt mem desc paths [] where
  nodup := List.nodup_nil
  sound := fun _ member => absurd member List.not_mem_nil
  complete := fun used path isIn a reached => absurd reached (none_ used path isIn a)

/-- What is freed at other paths is something else. -/
theorem FreesAt.append (tables : TableTree mem desc) {paths paths' : Set (List Nat)} {freed freed' : List Nat}
    (first : FreesAt mem desc paths freed) (second : FreesAt mem desc paths' freed')
    (apart : ∀ path ∈ paths, path ∉ paths') : FreesAt mem desc (paths ∪ paths') (freed ++ freed') where
  nodup := by
    refine List.nodup_append.mpr ⟨first.nodup, second.nodup, fun a inFirst b inSecond equal => ?_⟩
    obtain ⟨_, path, isIn, reached⟩ := first.sound a inFirst
    obtain ⟨_, path', isIn', reached'⟩ := second.sound b inSecond
    rw [← equal] at reached'
    rw [tables.tree.unique path path' a reached reached'] at isIn
    exact apart path' isIn isIn'
  sound := fun a member => by
    rcases List.mem_append.mp member with inFirst | inSecond
    · obtain ⟨used, path, isIn, reached⟩ := first.sound a inFirst
      exact ⟨used, path, Or.inl isIn, reached⟩
    · obtain ⟨used, path, isIn, reached⟩ := second.sound a inSecond
      exact ⟨used, path, Or.inr isIn, reached⟩
  complete := fun used path isIn a reached => by
    rcases isIn with isIn | isIn
    · exact List.mem_append_left _ (first.complete used path isIn a reached)
    · exact List.mem_append_right _ (second.complete used path isIn a reached)

/-- A table that is freed itself. -/
theorem FreesAt.single {path : List Nat} {table : Nat} (reached : ReachedTable mem desc path table)
    (used : tableRead mem table 0 ≠ 0) : FreesAt mem desc {path} [table] where
  nodup := List.nodup_singleton table
  sound := fun a member => by
    rw [List.mem_singleton.mp member]
    exact ⟨used, path, rfl, reached⟩
  complete := fun _ path' isIn a reached' => by
    rw [Set.mem_singleton_iff.mp isIn] at reached'
    have walks := reached'.2.2
    rw [reached.2.2, Option.some.injEq] at walks
    exact List.mem_singleton.mpr walks.symm

/-- Paths without a table do not count. -/
theorem FreesAt.congr {paths paths' : Set (List Nat)} {freed : List Nat} (frees : FreesAt mem desc paths freed)
    (same : ∀ path a, ReachedTable mem desc path a → (path ∈ paths' ↔ path ∈ paths)) : FreesAt mem desc paths' freed where
  nodup := frees.nodup
  sound := fun a member => by
    obtain ⟨used, path, isIn, reached⟩ := frees.sound a member
    exact ⟨used, path, (same path a reached).mpr isIn, reached⟩
  complete := fun used path isIn a reached => frees.complete used path ((same path a reached).mp isIn) a reached

/-- A table at a path or below is at the path, or below one of its entries. -/
theorem pathsFrom_iff {path path' : List Nat} {a : Nat} (reached : ReachedTable mem desc path' a) :
    path' ∈ pathsFrom path ↔ path' ∈ pathsBelow path (List.range pagingTotalEntriesPerTable) ∪ {path} := by
  constructor
  · rintro ⟨more, rfl⟩
    cases more with
    | nil =>
        rw [List.append_nil]
        exact Or.inr rfl
    | cons digit more =>
        have inside := reached.2.1 digit (by simp)
        exact Or.inl ⟨digit, List.mem_range.mpr inside, more, by simp⟩
  · rintro (⟨digit, _, more, rfl⟩ | same)
    · exact ⟨digit :: more, by simp⟩
    · rw [Set.mem_singleton_iff.mp same]
      exact List.prefix_refl path

variable (tables : TableTree mem desc) (notZero : 0 ∉ tablesInUse mem desc)

include tables notZero

/-- **The loop over the entries of a table** frees what is below each of them. -/
theorem pagingEntriesFree_frees {free : Nat → Option (List Nat)} {path : List Nat} {table : Nat}
    (reached : ReachedTable mem desc path table) (above : path.length < 3)
    (below_ : ∀ digit child, ReachedTable mem desc (path ++ [digit]) child →
      ∃ freed, free child = some freed ∧ FreesAt mem desc (pathsFrom (path ++ [digit])) freed)
    (digits : List Nat) (distinct : digits.Nodup) (inside : ∀ digit ∈ digits, digit < pagingTotalEntriesPerTable) :
    ∃ freed, pagingEntriesFree free mem table digits = some freed ∧ FreesAt mem desc (pathsBelow path digits) freed := by
  induction digits with
  | nil =>
      refine ⟨[], rfl, .nothing ?_⟩
      rintro _ path' ⟨digit, member, _⟩
      exact absurd member List.not_mem_nil
  | cons digit rest ih =>
      obtain ⟨isNew, distinctRest⟩ := List.nodup_cons.mp distinct
      obtain ⟨freed, freedEq, frees⟩ := ih distinctRest fun other member => inside other (List.mem_cons_of_mem _ member)
      rw [pagingEntriesFree]
      by_cases null : tableRead mem table digit = 0
      · refine ⟨freed, ?_, frees.congr fun path' a reached' => ?_⟩
        · have isNull : pagingNullEntry (tableRead mem table digit) = true := decide_eq_true null
          rw [if_pos (Or.inl isNull)]
          exact freedEq
        · -- no walk goes through a null entry
          constructor
          · rintro ⟨other, member, more, rfl⟩
            rcases List.mem_cons.mp member with rfl | old
            · obtain ⟨parent, reachedParent⟩ := reached_prefix reached'
              obtain ⟨_, _, table', reachedTable', link⟩ := reached_concat.mp reachedParent
              have walks := reachedTable'.2.2
              rw [reached.2.2, Option.some.injEq] at walks
              rw [← walks, null] at link
              cases link
            · exact ⟨other, old, more, rfl⟩
          · rintro ⟨other, member, isBelow⟩
            exact ⟨other, List.mem_cons_of_mem _ member, isBelow⟩
      · have link : tableChild (tableRead mem table digit) = some (entryAddress (tableRead mem table digit) * 2 ^ 12) :=
          if_neg null
        have reachedChild := reached_concat.mpr ⟨above, inside digit List.mem_cons_self, table, reached, link⟩
        obtain ⟨freedChild, freedChildEq, freesChild⟩ := below_ digit _ reachedChild
        have nonnull : ¬ entryAddress (tableRead mem table digit) * 2 ^ 12 = 0 := fun zero =>
          notZero ⟨_, zero ▸ reachedChild⟩
        have notNull : ¬ (pagingNullEntry (tableRead mem table digit) = true ∨
            entryAddress (tableRead mem table digit) * 2 ^ 12 = 0) := by
          rintro (isNull | zero)
          · exact null (of_decide_eq_true isNull)
          · exact nonnull zero
        refine ⟨freedChild ++ freed, ?_, ?_⟩
        · rw [if_neg notNull, freedChildEq, freedEq]
          rfl
        · refine (freesChild.append tables frees ?_).congr fun path' a _ => ?_
          · rintro path' ⟨more, rfl⟩ ⟨other, member, more', equal⟩
            rw [List.append_assoc, List.append_assoc, List.append_cancel_left_eq] at equal
            exact isNew ((List.cons.inj equal).1 ▸ member)
          · constructor
            · rintro ⟨other, member, isBelow⟩
              rcases List.mem_cons.mp member with rfl | old
              · exact Or.inl isBelow
              · exact Or.inr ⟨other, old, isBelow⟩
            · rintro (isBelow | ⟨other, old, isBelow⟩)
              · exact ⟨digit, List.mem_cons_self, isBelow⟩
              · exact ⟨other, List.mem_cons_of_mem _ old, isBelow⟩

/-- **Freeing a table**: nothing if its first slot is not in use, else what is below it and the table. -/
theorem pagingDescEntryFree_frees {level : Nat} {path : List Nat} {table : Nat}
    (reached : ReachedTable mem desc path table) (notRoot : path ≠ []) (depth : path.length + level = 3) :
    ∃ freed, pagingDescEntryFree mem (level + 1) table = some freed ∧ FreesAt mem desc (pathsFrom path) freed := by
  have nullIff : pagingNullEntry (entryAt mem table) = true ↔ tableRead mem table 0 = 0 := decide_eq_true_iff
  induction level generalizing path table with
  | zero =>
      rw [pagingDescEntryFree]
      by_cases null : tableRead mem table 0 = 0
      · rw [if_pos (nullIff.mpr null)]
        refine ⟨[], rfl, .nothing fun used _ _ _ _ => ?_⟩
        exact used path table reached notRoot null
      · rw [if_neg fun isNull => null (nullIff.mp isNull), if_neg (by decide), if_neg (by decide)]
        refine ⟨[table], rfl, (FreesAt.single reached null).congr fun path' a reached' => ?_⟩
        constructor
        · rintro ⟨more, rfl⟩
          have short := reached'.1
          rw [List.length_append] at short
          rw [List.eq_nil_of_length_eq_zero (show more.length = 0 by omega), List.append_nil]
          rfl
        · intro same
          rw [Set.mem_singleton_iff.mp same]
          exact List.prefix_refl path
  | succ level ih =>
      rw [pagingDescEntryFree]
      by_cases null : tableRead mem table 0 = 0
      · rw [if_pos (nullIff.mpr null)]
        refine ⟨[], rfl, .nothing fun used _ _ _ _ => ?_⟩
        exact used path table reached notRoot null
      · have positive := List.length_pos_of_ne_nil notRoot
        have supported : ¬ level + 1 + 1 > pagingMapLevel4 := by
          unfold pagingMapLevel4
          omega
        rw [if_neg fun isNull => null (nullIff.mp isNull), if_neg supported, if_pos (by omega)]
        obtain ⟨freed, freedEq, frees⟩ := pagingEntriesFree_frees tables notZero reached (by omega)
          (fun digit child reachedChild =>
            ih reachedChild (by simp) (by rw [List.length_append, List.length_singleton]; omega) decide_eq_true_iff)
          (List.range pagingTotalEntriesPerTable) List.nodup_range fun digit => List.mem_range.mp
        refine ⟨freed ++ [table], by rw [freedEq]; rfl,
          (frees.append tables (.single reached null) ?_).congr fun path' a reached' => ?_⟩
        · rintro path' ⟨digit, _, more, rfl⟩ same
          have lengths := congrArg List.length (Set.mem_singleton_iff.mp same)
          simp at lengths
        · exact pathsFrom_iff reached'

end Frees

/-! ### Runs of `paging_map`, and then `paging_desc_free` -/

/-- A descriptor with its own address. -/
structure OwnedDescriptor where
  state : PagingState
  address : Nat

namespace OwnedDescriptor

/-- A descriptor of `paging_desc_new` with a root table, which the allocator keeps apart. -/
def Initial (σ : OwnedDescriptor) : Prop :=
  ∃ k level, pagingDescNew k level = (some σ.state.desc, σ.state.kernel) ∧ σ.address = (kzalloc k sizeofPagingDesc).1 ∧
    FreshTable (kzalloc k sizeofPagingDesc).2 {σ.address} ∧ σ.state.desc.pml ≠ 0 ∧ σ.state.mapped = ∅

/-- A call of `paging_map` whose tables are allocated beside the descriptor. -/
def mapStep (σ : OwnedDescriptor) (request : MapRequest) (σ' : OwnedDescriptor) : Prop :=
  MapsBeside σ.state.kernel σ.state.desc request.virt {σ.address} ∧ σ' = ⟨σ.state.map request, σ.address⟩

/-- The tables of the descriptor. -/
def tables (σ : OwnedDescriptor) : Set Nat := tablesInUse σ.state.kernel.mem σ.state.desc

/-- **The invariant of the runs.** -/
structure Kept (σ : OwnedDescriptor) : Prop where
  tree : σ.state.Tables
  level : σ.state.desc.level = pagingMapLevel4
  own : σ.address ∉ σ.tables
  nonnull : 0 ∉ σ.tables

theorem Initial.state {σ : OwnedDescriptor} (begun : σ.Initial) : σ.state.Initial := by
  obtain ⟨k, level, created, _, fresh, _, none_⟩ := begun
  exact ⟨k, level, created, fresh.mono (Set.empty_subset _), none_⟩

theorem Initial.kept {σ : OwnedDescriptor} (begun : σ.Initial) : σ.Kept := by
  have begun' := begun.state
  obtain ⟨k, level, created, address, fresh, nonnull, none_⟩ := begun
  obtain ⟨aligned, cleared⟩ := cleared_initial begun'
  obtain ⟨_, only⟩ := tableTree_root aligned cleared
  have unused := fresh.unused
  rw [pagingDescNew_eq created] at unused
  refine ⟨tables_initial begun', ?_, ?_, ?_⟩
  · unfold pagingDescNew at created
    split at created
    · cases created
    · next valid =>
        have isFour : level = pagingMapLevel4 := by simpa [pagingMapLevelIsValid] using valid
        dsimp only at created
        split at created
        · cases created
        · rw [Prod.mk.injEq, Option.some.injEq] at created
          rw [← created.1]
          exact isFour
  · rintro ⟨path, reached⟩
    exact unused ((only path _ reached).2.symm)
  · rintro ⟨path, reached⟩
    exact nonnull ((only path _ reached).2.symm)

theorem Kept.step {σ σ' : OwnedDescriptor} {request : MapRequest} (kept : σ.Kept) (taken : mapStep σ request σ') :
    σ'.Kept := by
  obtain ⟨beside, rfl⟩ := taken
  have taken' := pagingMap_beside kept.tree.tree beside request.phys request.flags
  refine ⟨tables_mapStep kept.tree ⟨beside.fresh, rfl⟩, kept.level, fun used => ?_, fun used => ?_⟩
  · rcases taken' _ used with old | new
    · exact kept.own old
    · exact new.1 rfl
  · rcases taken' _ used with old | new
    · exact kept.nonnull old
    · exact new.2 rfl

theorem kept_of_reachable {σ : OwnedDescriptor} (reachable : Reachable mapStep Initial σ) : σ.Kept :=
  reachable.invariant Kept (fun _ => Initial.kept) fun _ _ _ => Kept.step

/-- **What freeing a descriptor should free**: the descriptor and its tables, each once, and no page that is mapped in
them for being mapped. -/
structure FreesTables (σ : OwnedDescriptor) (freed : List Nat) : Prop where
  once : freed.Nodup
  all : ∀ a, a = σ.address ∨ a ∈ σ.tables → a ∈ freed
  noPage : ∀ a ∈ freed, a = σ.address ∨ a ∈ σ.tables

/-- `paging_desc_free` frees the descriptor and its tables. -/
def FreesAll (σ : OwnedDescriptor) : Prop :=
  ∃ freed, pagingDescFree σ.state.kernel.mem σ.address σ.state.desc = some freed ∧ σ.FreesTables freed

/-- **In every run** `paging_desc_free` returns, frees no pointer twice and nothing but the descriptor and its tables: the
root, and tables below it whose first slot is in use. -/
theorem Kept.frees {σ : OwnedDescriptor} (kept : σ.Kept) :
    ∃ below_, pagingDescFree σ.state.kernel.mem σ.address σ.state.desc =
        some (below_ ++ [σ.state.desc.pml, σ.address]) ∧
      (below_ ++ [σ.state.desc.pml, σ.address]).Nodup ∧
      FreesAt σ.state.kernel.mem σ.state.desc (pathsBelow [] (List.range pagingTotalEntriesPerTable)) below_ := by
  have tree := kept.tree.tree
  have root := tree.tree.root
  have belowRoot (digit child : Nat) (reached : ReachedTable σ.state.kernel.mem σ.state.desc ([] ++ [digit]) child) :
      ∃ freed, pagingDescEntryFree σ.state.kernel.mem (2 + 1) child = some freed ∧
        FreesAt σ.state.kernel.mem σ.state.desc (pathsFrom ([] ++ [digit])) freed :=
    pagingDescEntryFree_frees tree kept.nonnull reached (by simp) rfl
  obtain ⟨below_, belowEq, frees⟩ := pagingEntriesFree_frees tree kept.nonnull root (by decide) belowRoot
    (List.range pagingTotalEntriesPerTable) List.nodup_range fun digit => List.mem_range.mp
  refine ⟨below_, ?_, ?_, frees⟩
  · unfold pagingDescFree
    rw [kept.level, show pagingMapLevel4 - 1 = 2 + 1 from rfl, belowEq]
    rfl
  · have notRoot : σ.state.desc.pml ∉ below_ := fun member => by
      obtain ⟨_, path, ⟨digit, _, more, rfl⟩, reached⟩ := frees.sound _ member
      have equal := tree.tree.unique _ _ _ reached root
      simp at equal
    have notOwn : σ.address ∉ below_ := fun member => by
      obtain ⟨_, path, _, reached⟩ := frees.sound _ member
      exact kept.own ⟨path, reached⟩
    have apart : σ.state.desc.pml ≠ σ.address := fun equal => kept.own (equal ▸ ⟨[], root⟩)
    refine List.nodup_append.mpr ⟨frees.nodup, by simpa using apart, fun a inBelow b inEnd equal => ?_⟩
    rcases List.mem_pair.mp inEnd with rfl | rfl
    · exact notRoot (equal ▸ inBelow)
    · exact notOwn (equal ▸ inBelow)

/-- A table that is freed below the root has its first slot in use, so all are when all are freed. -/
theorem Kept.firstSlots {σ : OwnedDescriptor} (kept : σ.Kept) (frees : σ.FreesAll) :
    FirstSlotsUsed σ.state.kernel.mem σ.state.desc := by
  obtain ⟨freed, freedEq, isAll⟩ := frees
  obtain ⟨below_, belowEq, _, freesBelow⟩ := kept.frees
  rw [belowEq, Option.some.injEq] at freedEq
  intro path table reached notRoot
  have member := isAll.all table (Or.inr ⟨path, reached⟩)
  rw [← freedEq, List.mem_append, List.mem_pair] at member
  rcases member with inBelow | rfl | rfl
  · exact (freesBelow.sound table inBelow).1
  · exact absurd (kept.tree.tree.tree.unique _ _ _ reached kept.tree.tree.tree.root) notRoot
  · exact absurd ⟨path, reached⟩ kept.own

/-- **After any run of `paging_map`, `paging_desc_free` frees what it should exactly when every table below the root has
something in its first slot.** -/
theorem pagingDescFree_iff (σ : OwnedDescriptor) (reachable : Reachable mapStep Initial σ) :
    σ.FreesAll ↔ FirstSlotsUsed σ.state.kernel.mem σ.state.desc := by
  have kept := kept_of_reachable reachable
  refine ⟨kept.firstSlots, fun used => ?_⟩
  obtain ⟨below_, freedEq, nodup, frees⟩ := kept.frees
  refine ⟨_, freedEq, nodup, fun a isIn => ?_, fun a member => ?_⟩
  · rw [List.mem_append, List.mem_pair]
    rcases isIn with rfl | ⟨path, reached⟩
    · exact Or.inr (Or.inr rfl)
    · cases path with
      | nil => exact Or.inr (Or.inl (Option.some.inj reached.2.2).symm)
      | cons digit more =>
          have inside := reached.2.1 digit List.mem_cons_self
          exact Or.inl (frees.complete used (digit :: more) ⟨digit, List.mem_range.mpr inside, more, rfl⟩ a reached)
  · rw [List.mem_append, List.mem_pair] at member
    rcases member with inBelow | rfl | rfl
    · obtain ⟨_, path, _, reached⟩ := frees.sound a inBelow
      exact Or.inr ⟨path, reached⟩
    · exact Or.inr ⟨[], kept.tree.tree.tree.root⟩
    · exact Or.inl rfl

/-! ### The first descriptor -/

/-- The first descriptor, with the block it takes. -/
def firstOwned : OwnedDescriptor where
  state := firstDescriptor
  address := (kzalloc eightBlocks sizeofPagingDesc).1

/-- **The kernel heap keeps a descriptor apart from its tables.** -/
theorem firstOwned_initial : firstOwned.Initial ∧
    ∀ virt, MapsBeside firstDescriptor.kernel firstDescriptor.desc virt {firstOwned.address} := by
  obtain ⟨start, granted, _, spares⟩ := kzalloc_spare 7 kernelHeap_eightBlocks
    ⟨∅, by decide, fun _ member => absurd member (Set.notMem_empty _)⟩ (show sizeofPagingDesc < 2 ^ 64 by decide)
    (by decide)
  obtain ⟨root, grantedRoot, cleared, sparesRoot⟩ := kzalloc_spare 6 granted.heap spares
    (show sizeofPagingDescEntry * pagingTotalEntriesPerTable < 2 ^ 64 by norm_num) (by decide)
  obtain ⟨⟨k, level, created, _, none_⟩, _⟩ := firstDescriptor_inHeap
  have evaluated : (pagingDescNew eightBlocks pagingMapLevel4).1 = some firstDescriptor.desc := by decide +kernel
  have created : pagingDescNew eightBlocks pagingMapLevel4 = (some firstDescriptor.desc, firstDescriptor.kernel) :=
    Prod.ext evaluated rfl
  have rootEq := pagingDescNew_eq created
  have address : firstOwned.address = (kzalloc eightBlocks sizeofPagingDesc).2.address ⟨start, 1⟩ :=
    granted.pointer.trans granted.same.address.symm
  have fresh : FreshTable (kzalloc eightBlocks sizeofPagingDesc).2 {firstOwned.address} := by
    refine .of_granted granted.heap (fun a isOwn => ?_) grantedRoot cleared
    rw [Set.mem_singleton_iff.mp isOwn]
    exact ⟨_, Set.mem_insert _ _, address⟩
  rw [rootEq] at grantedRoot sparesRoot
  refine ⟨⟨eightBlocks, pagingMapLevel4, created, rfl, fresh, by decide, rfl⟩, fun virt => ?_⟩
  obtain ⟨aligned, digits⟩ := cleared_initial firstDescriptor_inHeap.1
  obtain ⟨tree, only⟩ := tableTree_root aligned digits
  have inHeap : TablesInHeap firstDescriptor.kernel firstDescriptor.desc (insert ⟨root, 1⟩ (insert ⟨start, 1⟩ ∅)) := by
    refine ⟨grantedRoot.heap, tree, fun path table reached => ?_⟩
    rw [(only path table reached).2]
    exact ⟨_, Set.mem_insert _ _, grantedRoot.pointer.trans grantedRoot.same.address.symm⟩
  obtain ⟨ledger, live, pageTables, _⟩ := inHeap.pageTables
  refine mapsBeside_of_heap (live ▸ inHeap.heap) pageTables (Option.some_injective _) (fun a isOwn => ?_)
    (pagingMapAllocates_spare 3 inHeap sparesRoot virt)
  rw [Set.mem_singleton_iff.mp isOwn, live]
  exact ⟨_, Set.mem_insert_of_mem _ (Set.mem_insert _ _), address.trans grantedRoot.same.address.symm⟩

/-- A new descriptor has no table but its root, and is freed as it should be. -/
theorem pagingDescFree_firstOwned : firstOwned.FreesAll := by
  obtain ⟨aligned, digits⟩ := cleared_initial firstDescriptor_inHeap.1
  obtain ⟨_, only⟩ := tableTree_root aligned digits
  refine (pagingDescFree_iff firstOwned (.start firstOwned_initial.1)).mpr fun path table reached notRoot => ?_
  exact absurd (only path table reached).1 notRoot

/-- A page in the second slot of its page table. -/
def secondSlot : MapRequest := ⟨0x1000, 0x5000, 0b111#32⟩

/-- **A descriptor with only that page** does not free its page table, whose first slot is null. -/
theorem not_freesAll_secondSlot {σ : OwnedDescriptor} (begun : σ.Initial)
    (beside : MapsBeside σ.state.kernel σ.state.desc secondSlot.virt {σ.address}) :
    ∃ σ', Reachable mapStep Initial σ' ∧ ¬ σ'.FreesAll := by
  obtain ⟨_, cleared⟩ := cleared_initial begun.state
  have tree : TableTree σ.state.kernel.mem σ.state.desc := (tables_initial begun.state).tree
  obtain ⟨_, ⟨table, reached⟩, _, leaves⟩ := pagingMap_tree tree beside.fresh secondSlot.phys secondSlot.flags
  have reachable : Reachable mapStep Initial ⟨σ.state.map secondSlot, σ.address⟩ :=
    .next secondSlot (.start begun) ⟨beside, rfl⟩
  refine ⟨_, reachable, fun freesAll => ?_⟩
  have used : FirstSlotsUsed (σ.state.map secondSlot).kernel.mem σ.state.desc :=
    (kept_of_reachable reachable).firstSlots freesAll
  -- page zero has its entry in the same table
  have different : pageNumber 0 ≠ pageNumber secondSlot.virt := by decide
  have before_ : pageEntry σ.state.kernel.mem σ.state.desc 0 = 0 := pageEntry_of_root (cleared _ (tableIndex_lt 0 3))
  have first := (leaves 0).trans ((if_neg different).trans before_)
  have samePath : pagePath 0 = pagePath secondSlot.virt := by decide
  unfold pageEntry leaf at first
  rw [samePath, reached.2.2] at first
  exact used _ table reached (by simp [pagePath]) first

/-- **Only a page in the second slot of its page table**: the page table is not freed. -/
theorem pagingDescFree_leaks : ¬ ∀ σ, Reachable mapStep Initial σ → σ.FreesAll := by
  intro always
  obtain ⟨begun, beside⟩ := firstOwned_initial
  obtain ⟨σ, reachable, leaks⟩ := not_freesAll_secondSlot begun (beside secondSlot.virt)
  exact leaks (always σ reachable)

end OwnedDescriptor

end PeachOS
