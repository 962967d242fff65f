/-
**Radix tables: trees of tables that are looked up digit by digit.**

A table has entries; an entry is null or refers to a child table. A key is a path of digits that leads
from the root through `depth` tables to a table of leaves, and one more digit that picks the leaf. Tables
are shared with nothing when each has a label, the path that leads to it, and no table has two labels:

* `Tree` — such a labelling, closed under the children of the tables above the leaves;
* `Tree.walk_labelled` — a walk ends on the table that its path labels;
* `Tree.walk_leaf_write` and `Tree.leaf_write` — writing a leaf moves no walk and changes this leaf only;
* `Tree.leaf_link` — linking a fresh table of null entries to a null entry changes no leaf.

A leaf whose table is missing reads as null.
-/

import Mathlib.Data.List.Induction

namespace RadixTable

section Walk

variable {Table Entry : Type} (child : Entry → Option Table) (read : Table → Nat → Entry)

/-- Follow a path of digits. -/
def walk : Table → List Nat → Option Table
  | table, [] => some table
  | table, digit :: path =>
      match child (read table digit) with
      | none => none
      | some next => walk next path

/-- The walk along a path and one digit more takes one step from the table at the end of the path. -/
theorem walk_concat (root : Table) (path : List Nat) (digit : Nat) :
    walk child read root (path ++ [digit]) =
      (walk child read root path).bind fun table => child (read table digit) := by
  induction path generalizing root with
  | nil =>
      rw [List.nil_append, walk, walk, Option.bind_some]
      cases child (read root digit) <;> rfl
  | cons first path ih =>
      rw [List.cons_append, walk, walk]
      cases child (read root first) with
      | none => rfl
      | some next => exact ih next

/-- The leaf at the end of a path, null when a table is missing. -/
def leaf (null : Entry) (root : Table) (path : List Nat) (digit : Nat) : Entry :=
  match walk child read root path with
  | none => null
  | some table => read table digit

/-- **A tree of tables of `width` entries**: each table is labelled by the one path that leads to it. -/
structure Tree (width depth : Nat) (labelled : List Nat → Table → Prop) (root : Table) : Prop where
  root : labelled [] root
  unique : ∀ path path' table, labelled path table → labelled path' table → path = path'
  linked : ∀ path table, labelled path table → path.length < depth → ∀ digit < width, ∀ next,
    child (read table digit) = some next → labelled (path ++ [digit]) next

end Walk

namespace Tree

variable {Table Entry : Type} {child : Entry → Option Table} {read read' : Table → Nat → Entry}
  {width depth : Nat} {labelled : List Nat → Table → Prop} {root : Table}

theorem ne_of_length (tree : Tree child read width depth labelled root) {path path' : List Nat} {table table' : Table}
    (label : labelled path table) (label' : labelled path' table') (different : path'.length ≠ path.length) :
    table' ≠ table := by
  rintro rfl
  exact different (congrArg List.length (tree.unique path' path table' label' label))

/-- **A walk ends on the table that its path labels.** -/
theorem walk_labelled (tree : Tree child read width depth labelled root) {path more : List Nat}
    {table table' : Table} (label : labelled path table) (bounded : path.length + more.length ≤ depth)
    (digits : ∀ digit ∈ more, digit < width) (walks : walk child read table more = some table') :
    labelled (path ++ more) table' := by
  induction more generalizing path table with
  | nil =>
      rw [walk, Option.some.injEq] at walks
      rw [List.append_nil, ← walks]
      exact label
  | cons digit more ih =>
      rw [List.length_cons] at bounded
      rw [walk] at walks
      cases entry : child (read table digit) with
      | none =>
          rw [entry] at walks
          cases walks
      | some next =>
          rw [entry] at walks
          have label' := tree.linked path table label (by omega) digit
            (digits digit List.mem_cons_self) next entry
          have tail := ih label' (by rw [List.length_append, List.length_singleton]; omega)
            (fun other member => digits other (List.mem_cons_of_mem _ member)) walks
          rwa [List.append_assoc, List.singleton_append] at tail

/-- The walks from the root. -/
theorem walk_root (tree : Tree child read width depth labelled root) {path : List Nat} {table : Table}
    (bounded : path.length ≤ depth) (digits : ∀ digit ∈ path, digit < width)
    (walks : walk child read root path = some table) : labelled path table := by
  have ends : labelled ([] ++ path) table :=
    tree.walk_labelled tree.root (by simpa using bounded) digits walks
  rwa [List.nil_append] at ends

/-- A walk of one digit more. -/
theorem walk_append {table table' : Table} {path : List Nat} {digit : Nat}
    (walks : walk child read table path = some table') :
    walk child read table (path ++ [digit]) = child (read table' digit) := by
  rw [walk_concat, walks, Option.bind_some]

/-- Tables above a level that are kept keep the walks down to it. -/
theorem walk_congr (tree : Tree child read width depth labelled root) {path more : List Nat} {table : Table}
    {limit : Nat} (label : labelled path table) (bounded : path.length + more.length ≤ limit)
    (inTree : limit ≤ depth) (digits : ∀ digit ∈ more, digit < width)
    (same : ∀ path' table', labelled path' table' → path'.length < limit → ∀ digit < width,
      read' table' digit = read table' digit) :
    walk child read' table more = walk child read table more := by
  induction more generalizing path table with
  | nil => rfl
  | cons digit more ih =>
      rw [List.length_cons] at bounded
      have inside := digits digit List.mem_cons_self
      rw [walk, walk, same path table label (by omega) digit inside]
      cases entry : child (read table digit) with
      | none => rfl
      | some next =>
          exact ih (tree.linked path table label (by omega) digit inside next entry)
            (by rw [List.length_append, List.length_singleton]; omega)
            fun other member => digits other (List.mem_cons_of_mem _ member)

/-- The same tables with the same entries are the same tree. -/
theorem congr (tree : Tree child read width depth labelled root) {labelled' : List Nat → Table → Prop}
    (labels : ∀ path table, labelled' path table ↔ labelled path table)
    (same : ∀ path table, labelled path table → ∀ digit < width, read' table digit = read table digit) :
    Tree child read' width depth labelled' root where
  root := (labels _ _).mpr tree.root
  unique := fun path path' table label label' =>
    tree.unique path path' table ((labels _ _).mp label) ((labels _ _).mp label')
  linked := fun path table label above digit inside next entry => by
    rw [same path table ((labels _ _).mp label) digit inside] at entry
    exact (labels _ _).mpr (tree.linked path table ((labels _ _).mp label) above digit inside next entry)

/-- ... and has the same leaves. -/
theorem leaf_congr (tree : Tree child read width depth labelled root)
    (same : ∀ path table, labelled path table → ∀ digit < width, read' table digit = read table digit)
    (null : Entry) {path : List Nat} (bounded : path.length ≤ depth) (digits : ∀ digit ∈ path, digit < width)
    {digit : Nat} (inside : digit < width) :
    leaf child read' null root path digit = leaf child read null root path digit := by
  unfold leaf
  rw [tree.walk_congr tree.root (show [].length + path.length ≤ depth by simpa using bounded) (Nat.le_refl depth) digits
    fun path' table label _ => same path' table label]
  cases walks : walk child read root path with
  | none => rfl
  | some table => exact same path table (tree.walk_root bounded digits walks) digit inside

section LeafWrite

variable (tree : Tree child read width depth labelled root) {path : List Nat} {table : Table} {digit : Nat}
  (label : labelled path table) (full : path.length = depth)
  (same : ∀ path' table', labelled path' table' → ∀ digit' < width, (table' ≠ table ∨ digit' ≠ digit) →
    read' table' digit' = read table' digit')

include tree label full same

/-- Writing a leaf moves no walk. -/
theorem walk_leaf_write {more : List Nat} (bounded : more.length ≤ depth)
    (digits : ∀ digit ∈ more, digit < width) :
    walk child read' root more = walk child read root more := by
  refine tree.walk_congr tree.root (by simpa using bounded) (Nat.le_refl depth) digits
    fun path' table' label' above digit' inside => ?_
  exact same path' table' label' digit' inside (Or.inl (tree.ne_of_length label label' (by omega)))

/-- **Writing a leaf changes this leaf only.** -/
theorem leaf_write (null : Entry) {more : List Nat} (bounded : more.length = depth)
    (digits : ∀ digit ∈ more, digit < width) {digit' : Nat} (inside : digit' < width)
    (other : more ≠ path ∨ digit' ≠ digit) :
    leaf child read' null root more digit' = leaf child read null root more digit' := by
  unfold leaf
  rw [walk_leaf_write tree label full same (Nat.le_of_eq bounded) digits]
  cases walks : walk child read root more with
  | none => rfl
  | some table' =>
      have label' := tree.walk_root (Nat.le_of_eq bounded) digits walks
      refine same more table' label' digit' inside ?_
      rcases other with different | different
      · left
        rintro rfl
        exact different (tree.unique more path table' label' label)
      · exact Or.inr different

/-- The tree is kept. -/
theorem tree_leaf_write : Tree child read' width depth labelled root where
  root := tree.root
  unique := tree.unique
  linked := fun path' table' label' above digit' inside next entry => by
    rw [same path' table' label' digit' inside (Or.inl (by
      rintro rfl
      have equal := tree.unique path path' table' label label'
      rw [← equal] at above
      omega))] at entry
    exact tree.linked path' table' label' above digit' inside next entry

end LeafWrite

section Link

variable (tree : Tree child read width depth labelled root) {path : List Nat} {table fresh : Table}
  {digit : Nat} {null : Entry} (label : labelled path table) (above : path.length < depth)
  (wasNull : child (read table digit) = none) (link : child (read' table digit) = some fresh)
  (nullEntry : child null = none) (cleared : ∀ digit' < width, read' fresh digit' = null)
  (same : ∀ path' table', labelled path' table' → ∀ digit' < width, (table' ≠ table ∨ digit' ≠ digit) →
    read' table' digit' = read table' digit')

include nullEntry cleared in
/-- Every leaf below a table of null entries is null. -/
theorem leaf_fresh {more : List Nat} (digits : ∀ digit ∈ more, digit < width) {digit' : Nat}
    (inside : digit' < width) : leaf child read' null fresh more digit' = null := by
  unfold leaf
  cases more with
  | nil => exact cleared digit' inside
  | cons first more =>
      rw [walk, cleared first (digits first List.mem_cons_self), nullEntry]

include tree above wasNull link nullEntry cleared same label

/-- **Linking a fresh table changes no leaf.** -/
theorem leaf_link {path' more : List Nat} {table' : Table} (label' : labelled path' table')
    (bounded : path'.length + more.length = depth) (digits : ∀ digit ∈ more, digit < width) {digit' : Nat}
    (inside : digit' < width) :
    leaf child read' null table' more digit' = leaf child read null table' more digit' := by
  induction more generalizing path' table' with
  | nil =>
      rw [List.length_nil] at bounded
      exact same path' table' label' digit' inside (Or.inl (tree.ne_of_length label label' (by omega)))
  | cons first more ih =>
      rw [List.length_cons] at bounded
      have firstInside := digits first List.mem_cons_self
      have rest : ∀ other ∈ more, other < width := fun other member =>
        digits other (List.mem_cons_of_mem _ member)
      by_cases here : table' = table ∧ first = digit
      · obtain ⟨rfl, rfl⟩ := here
        have below := leaf_fresh nullEntry cleared rest inside
        unfold leaf at below ⊢
        rw [walk, walk, wasNull, link]
        exact below
      · have kept := same path' table' label' first firstInside (by
          by_cases equal : table' = table
          · exact Or.inr fun equal' => here ⟨equal, equal'⟩
          · exact Or.inl equal)
        cases entry : child (read table' first) with
        | none =>
            unfold leaf
            rw [walk, walk, kept, entry]
        | some next =>
            have tail := ih (tree.linked path' table' label' (by omega) first firstInside next entry)
              (by rw [List.length_append, List.length_singleton]; omega) rest
            unfold leaf at tail ⊢
            rw [walk, walk, kept, entry]
            exact tail

omit wasNull link nullEntry cleared in
/-- Linking a table below a path does not move the walk along the path. -/
theorem walk_link (digits : ∀ digit ∈ path, digit < width) :
    walk child read' root path = walk child read root path := by
  refine tree.walk_congr tree.root (show [].length + path.length ≤ path.length by simp) (Nat.le_of_lt above) digits
    fun path' table' label' shorter digit' inside => ?_
  exact same path' table' label' digit' inside (Or.inl (tree.ne_of_length label label' (by omega)))

omit above in
/-- The tree with the fresh table, labelled by the entry it is linked to. -/
theorem tree_link {labelled' : List Nat → Table → Prop} (unlabelled : ∀ path', ¬ labelled path' fresh)
    (labels : ∀ path' table', labelled' path' table' ↔
      labelled path' table' ∨ path' = path ++ [digit] ∧ table' = fresh) :
    Tree child read' width depth labelled' root where
  root := (labels _ _).mpr (Or.inl tree.root)
  unique := fun first second table' one two => by
    rcases (labels _ _).mp one with old | ⟨new, isFresh⟩ <;>
      rcases (labels _ _).mp two with old' | ⟨new', isFresh'⟩
    · exact tree.unique first second table' old old'
    · rw [isFresh'] at old
      exact absurd old (unlabelled _)
    · rw [isFresh] at old'
      exact absurd old' (unlabelled _)
    · rw [new, new']
  linked := fun path' table' label' above' digit' inside next entry => by
    rw [labels]
    rcases (labels _ _).mp label' with old | ⟨_, isFresh⟩
    · by_cases here : table' = table ∧ digit' = digit
      · obtain ⟨rfl, rfl⟩ := here
        rw [link, Option.some.injEq] at entry
        rw [tree.unique path' path table' old label]
        exact Or.inr ⟨rfl, entry.symm⟩
      · rw [same path' table' old digit' inside (by
          by_cases equal : table' = table
          · exact Or.inr fun equal' => here ⟨equal, equal'⟩
          · exact Or.inl equal)] at entry
        exact Or.inl (tree.linked path' table' old above' digit' inside next entry)
    · rw [isFresh, cleared digit' inside, nullEntry] at entry
      cases entry

end Link

end Tree

/-! ### The tables that walks reach -/

section Reached

variable {Table Entry : Type}

/-- The table that the walk along a path of at most `depth` digits ends on. -/
def Reached (child : Entry → Option Table) (read : Table → Nat → Entry) (width depth : Nat) (root : Table)
    (path : List Nat) (table : Table) : Prop :=
  path.length ≤ depth ∧ (∀ digit ∈ path, digit < width) ∧ walk child read root path = some table

variable {child : Entry → Option Table} {read read' : Table → Nat → Entry} {width depth : Nat}
  {root table : Table} {path : List Nat} {digit : Nat}

theorem reached_root (child : Entry → Option Table) (read : Table → Nat → Entry) (width depth : Nat) (root : Table) :
    Reached child read width depth root [] root :=
  ⟨Nat.zero_le _, fun _ member => absurd member List.not_mem_nil, rfl⟩

/-- **Tables are reached one digit at a time.** -/
theorem reached_concat {table' : Table} :
    Reached child read width depth root (path ++ [digit]) table' ↔
      path.length < depth ∧ digit < width ∧
        ∃ table, Reached child read width depth root path table ∧ child (read table digit) = some table' := by
  unfold Reached
  rw [walk_concat, Option.bind_eq_some_iff, List.length_append, List.length_singleton]
  constructor
  · rintro ⟨short, digits, table, walks, entry⟩
    exact ⟨short, digits digit (by simp), table,
      ⟨Nat.le_of_lt short, fun other member => digits other (by simp [member]), walks⟩, entry⟩
  · rintro ⟨short, inside, table, ⟨_, digits, walks⟩, entry⟩
    refine ⟨short, fun other member => ?_, table, walks, entry⟩
    rcases List.mem_append.mp member with old | new
    · exact digits other old
    · rw [List.mem_singleton.mp new]
      exact inside

/-- Tables that keep their entries are reached as before. -/
theorem reached_congr (tree : Tree child read width depth (Reached child read width depth root) root)
    (same : ∀ path' table', Reached child read width depth root path' table' → ∀ digit' < width,
      read' table' digit' = read table' digit') (path : List Nat) (table : Table) :
    Reached child read' width depth root path table ↔ Reached child read width depth root path table := by
  have walks : path.length ≤ depth → (∀ digit ∈ path, digit < width) →
      walk child read' root path = walk child read root path := fun short digits =>
    tree.walk_congr tree.root (show [].length + path.length ≤ depth by simpa using short) (Nat.le_refl depth) digits
      fun path' table' reached _ => same path' table' reached
  unfold Reached
  constructor
  · rintro ⟨short, digits, ends⟩
    exact ⟨short, digits, (walks short digits).symm.trans ends⟩
  · rintro ⟨short, digits, ends⟩
    exact ⟨short, digits, (walks short digits).trans ends⟩

/-- **Walks that never meet make a tree.** -/
theorem tree_of_reached
    (unique : ∀ path path' table, Reached child read width depth root path table →
      Reached child read width depth root path' table → path = path') :
    Tree child read width depth (Reached child read width depth root) root where
  root := reached_root child read width depth root
  unique := unique
  linked := fun _ table reached above _ inside _ entry =>
    reached_concat.mpr ⟨above, inside, table, reached, entry⟩

variable (tree : Tree child read width depth (Reached child read width depth root) root)
  (reached : Reached child read width depth root path table)
  (same : ∀ path' table', Reached child read width depth root path' table' → ∀ digit' < width,
    (table' ≠ table ∨ digit' ≠ digit) → read' table' digit' = read table' digit')

include tree reached same

/-- Writing a leaf moves no walk. -/
theorem reached_leaf_write (full : path.length = depth) (path' : List Nat) (table' : Table) :
    Reached child read' width depth root path' table' ↔ Reached child read width depth root path' table' := by
  unfold Reached
  constructor
  · rintro ⟨short, digits, walks⟩
    rw [tree.walk_leaf_write reached full same short digits] at walks
    exact ⟨short, digits, walks⟩
  · rintro ⟨short, digits, walks⟩
    rw [tree.walk_leaf_write reached full same short digits]
    exact ⟨short, digits, walks⟩

/-- **A link adds the fresh table and nothing else** to the tables that are reached. -/
theorem reached_link {fresh : Table} {null : Entry} (above : path.length < depth) (insideDigit : digit < width)
    (wasNull : child (read table digit) = none) (link : child (read' table digit) = some fresh)
    (nullEntry : child null = none) (cleared : ∀ digit' < width, read' fresh digit' = null)
    (path' : List Nat) (table' : Table) :
    Reached child read' width depth root path' table' ↔
      Reached child read width depth root path' table' ∨ path' = path ++ [digit] ∧ table' = fresh := by
  induction path' using List.reverseRecOn generalizing table' with
  | nil =>
      have noLink : [] ≠ path ++ [digit] := by simp
      unfold Reached
      simp [walk, noLink]
  | append_singleton path' digit' ih =>
      rw [reached_concat, reached_concat]
      constructor
      · rintro ⟨short, inside, parent, reached', entry⟩
        rcases (ih parent).mp reached' with old | ⟨_, rfl⟩
        · by_cases here : parent = table ∧ digit' = digit
          · obtain ⟨rfl, rfl⟩ := here
            rw [link, Option.some.injEq] at entry
            rw [tree.unique path' path parent old reached]
            exact Or.inr ⟨rfl, entry.symm⟩
          · rw [same path' parent old digit' inside (not_and_or.mp here)] at entry
            exact Or.inl ⟨short, inside, parent, old, entry⟩
        · rw [cleared digit' inside, nullEntry] at entry
          cases entry
      · rintro (⟨short, inside, parent, old, entry⟩ | ⟨equal, rfl⟩)
        · refine ⟨short, inside, parent, (ih parent).mpr (Or.inl old), ?_⟩
          rw [same path' parent old digit' inside, entry]
          -- the null entry led nowhere
          by_contra here
          rw [not_or, not_not, not_not] at here
          rw [here.1, here.2, wasNull] at entry
          cases entry
        · obtain ⟨rfl, rfl⟩ := List.append_inj' equal rfl |>.imp_right fun digits => by simpa using digits
          exact ⟨above, insideDigit, table, (ih table).mpr (Or.inl reached), link⟩

end Reached

end RadixTable
