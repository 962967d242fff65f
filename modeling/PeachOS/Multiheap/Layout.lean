/-
**Heaps, page tables and block tables in one memory.**

The block tables of the physical heaps, the blocks they hand out, the page tables of the current descriptor and
the block tables of the paging heaps share the memory of the kernel. `MultiheapSound` says that they lie apart,
that free blocks hold none of the tables, and that the counters of the heaps that allow paging are right.

* `MultiheapSound.frame` — what has to be kept for it;
* `MultiheapSound.physical` — an operation of a physical heap that writes to its table and to free blocks, and
  releases no block that holds a table;
* `MultiheapSound.virtual` — an operation of a paging heap that writes to its table;
* `MultiheapSound.leaf` — a write over a leaf entry.
-/

import PeachOS.Heap.Footprint
import PeachOS.Multiheap.Paging
import PeachOS.Paging.Walk

namespace PeachOS

open ByteStore SpanTable RadixTable HeapState

/-! ### The heaps of a multiheap -/

namespace Kernel

/-- The heaps of physical blocks: the starting heap and the heaps of the list. -/
def IsPhysical (k : Kernel) (ref : HeapRef) : Prop :=
  ref = k.multiheap.startingHeap ∨ ∃ node ∈ k.multiheap.heaps, node.heap = ref

/-- A heap that allows paging: `multiheap_alloc_paging` looks at its counter. -/
def Defragments (k : Kernel) (ref : HeapRef) : Prop :=
  ∃ node ∈ k.multiheap.heaps, node.heap = ref ∧ multiheapHeapAllowsPaging node = true

/-- The paging heaps of the list. -/
def pagingHeaps (k : Kernel) : Set HeapRef := { ref | ∃ node ∈ k.multiheap.heaps, node.pagingHeap = some ref }

/-- **The tables of the kernel**: the page tables of the descriptor and the block tables of paging heaps. -/
def tables (k : Kernel) (desc : PagingDesc) (paging : Set HeapRef) : Set Nat :=
  { a | (∃ path table, ReachedTable k.mem desc path table ∧ a ∈ tablePage table) ∨
    ∃ ref ∈ paging, a ∈ (k.heaps ref).tableBytes }

theorem Defragments.physical {k : Kernel} {ref : HeapRef} (allows : k.Defragments ref) : k.IsPhysical ref := by
  obtain ⟨node, member, isHeap, _⟩ := allows
  exact Or.inr ⟨node, member, isHeap⟩

end Kernel

/-- **The heaps lie apart**: physical heaps share neither tables nor blocks, and paging heaps, whose blocks are
not memory, share no table. -/
structure HeapsApart (k : Kernel) (paging : Set HeapRef) : Prop where
  sound : ∀ ref, k.IsPhysical ref ∨ ref ∈ paging → (k.heaps ref).Sound
  top : ∀ ref, k.IsPhysical ref → (k.heaps ref).eaddr ≤ 2 ^ 52
  tables : ∀ ref ref', k.IsPhysical ref ∨ ref ∈ paging → k.IsPhysical ref' ∨ ref' ∈ paging → ref ≠ ref' →
    Disjoint (k.heaps ref).tableBytes (k.heaps ref').tableBytes
  blocks : ∀ ref ref', k.IsPhysical ref → k.IsPhysical ref' → ref ≠ ref' →
    Disjoint (k.heaps ref).tableBytes (k.heaps ref').dataBytes ∧
      Disjoint (k.heaps ref).dataBytes (k.heaps ref').dataBytes
  virtual : ∀ ref ∈ paging, ¬ k.IsPhysical ref

/-- **A sound multiheap.** -/
structure MultiheapSound (k : Kernel) (desc : PagingDesc) (paging : Set HeapRef) : Prop where
  apart : HeapsApart k paging
  counted : ∀ ref, k.Defragments ref → (k.heapState ref).TwoTypes ∧ (k.heapState ref).Accounted
  tree : TableTree k.mem desc
  tablesApart : ∀ ref, k.IsPhysical ref → Disjoint (k.tables desc paging) (k.heaps ref).tableBytes
  pagesApart : ∀ ref ∈ paging, ∀ path table, ReachedTable k.mem desc path table →
    Disjoint (tablePage table) (k.heaps ref).tableBytes
  held : ∀ ref, k.IsPhysical ref → ∀ block < (k.heaps ref).table.total,
    typeFree ((k.heapState ref).view block) → Disjoint (k.tables desc paging) ((k.heaps ref).blockBytes block)

/-! ### What is kept with the memory -/

/-- A table with the same entries is counted alike. -/
theorem counted_congr {s s' : HeapState} (sound : s.heap.Sound) (heap : s'.heap = s.heap)
    (view : ∀ block < s.heap.table.total, s'.view block = s.view block) (types : s.TwoTypes) (accounted : s.Accounted) :
    s'.TwoTypes ∧ s'.Accounted := by
  have types' : s'.TwoTypes := fun block below => by
    rw [heap] at below
    rw [view block below]
    exact types block below
  refine ⟨types', .of_counters (by rw [heap]; exact sound) types' ?_ ?_⟩
  · rw [heap, takenEntries_congr view]
    exact accounted.used
  · rw [heap, accounted.free]
    exact (countWhere_congr typeFree fun block below => by rw [view block below]).symm

/-- The entries of a heap whose block table is kept. -/
theorem Kernel.view_congr {k k' : Kernel} {ref : HeapRef} (same : (k.heaps ref).SameGeometry (k'.heaps ref))
    (mem : ∀ a ∈ (k.heaps ref).tableBytes, k'.mem a = k.mem a) {block : Nat}
    (below : block < (k.heaps ref).table.total) : (k'.heapState ref).view block = (k.heapState ref).view block := by
  show k'.mem ((k'.heaps ref).table.entries + block) = k.mem ((k.heaps ref).table.entries + block)
  rw [same.table]
  exact mem _ ⟨by omega, by omega⟩

/-- The counters of a heap that is left alone. -/
theorem Kernel.counted_kept {k k' : Kernel} {ref : HeapRef} (sound : (k.heaps ref).Sound)
    (heap : k'.heaps ref = k.heaps ref) (mem : ∀ a ∈ (k.heaps ref).tableBytes, k'.mem a = k.mem a)
    (counted : (k.heapState ref).TwoTypes ∧ (k.heapState ref).Accounted) :
    (k'.heapState ref).TwoTypes ∧ (k'.heapState ref).Accounted := by
  have same : (k.heaps ref).SameGeometry (k'.heaps ref) := by
    rw [heap]
    rfl
  have view : ∀ block < (k.heapState ref).heap.table.total, (k'.heapState ref).view block = (k.heapState ref).view block :=
    fun _ below => Kernel.view_congr same mem below
  have heapEq : (k'.heapState ref).heap = (k.heapState ref).heap := heap
  exact counted_congr sound heapEq view counted.1 counted.2

/-- ... when only memory has changed. -/
theorem Kernel.view_withMem {k : Kernel} {mem : Memory} {ref : HeapRef}
    (kept : ∀ a ∈ (k.heaps ref).tableBytes, mem a = k.mem a) {block : Nat} (below : block < (k.heaps ref).table.total) :
    (({ k with mem := mem } : Kernel).heapState ref).view block = (k.heapState ref).view block := by
  have same : (k.heaps ref).SameGeometry (({ k with mem := mem } : Kernel).heaps ref) := rfl
  exact Kernel.view_congr same kept below

theorem Kernel.counted_withMem {k : Kernel} {mem : Memory} {ref : HeapRef} (sound : (k.heaps ref).Sound)
    (kept : ∀ a ∈ (k.heaps ref).tableBytes, mem a = k.mem a)
    (counted : (k.heapState ref).TwoTypes ∧ (k.heapState ref).Accounted) :
    (({ k with mem := mem } : Kernel).heapState ref).TwoTypes ∧ (({ k with mem := mem } : Kernel).heapState ref).Accounted := by
  have heapEq : ({ k with mem := mem } : Kernel).heaps ref = k.heaps ref := rfl
  exact Kernel.counted_kept sound heapEq kept counted

/-! ### A heap function at work -/

theorem Kernel.heaps_withHeapState (k : Kernel) (ref : HeapRef) (s : HeapState) :
    (k.withHeapState ref s).heaps ref = s.heap := if_pos rfl

theorem Kernel.heaps_withHeapState_other (k : Kernel) {ref other : HeapRef} (different : other ≠ ref) (s : HeapState) :
    (k.withHeapState ref s).heaps other = k.heaps other := if_neg different

theorem Kernel.view_withHeapState (k : Kernel) (ref : HeapRef) (s : HeapState) :
    ((k.withHeapState ref s).heapState ref).view = s.view := by
  funext block
  show s.mem (((k.withHeapState ref s).heaps ref).table.entries + block) = _
  rw [k.heaps_withHeapState]
  rfl

theorem Kernel.counted_withHeapState (k : Kernel) {ref : HeapRef} {s : HeapState} (sound : s.heap.Sound)
    (counted : s.TwoTypes ∧ s.Accounted) :
    ((k.withHeapState ref s).heapState ref).TwoTypes ∧ ((k.withHeapState ref s).heapState ref).Accounted :=
  counted_congr sound (k.heaps_withHeapState ref s) (fun block _ => congrFun (k.view_withHeapState ref s) block)
    counted.1 counted.2

/-! ### Soundness -/

theorem HeapsApart.congr {k k' : Kernel} {paging : Set HeapRef} (apart : HeapsApart k paging)
    (physical : ∀ ref, k'.IsPhysical ref ↔ k.IsPhysical ref)
    (heaps : ∀ ref, k.IsPhysical ref ∨ ref ∈ paging → (k.heaps ref).SameGeometry (k'.heaps ref)) :
    HeapsApart k' paging := by
  have geometry : ∀ ref, k'.IsPhysical ref ∨ ref ∈ paging → (k.heaps ref).SameGeometry (k'.heaps ref) :=
    fun ref isHeap => heaps ref (isHeap.imp_left (physical ref).mp)
  refine ⟨fun ref isHeap => (geometry ref isHeap).sound (apart.sound ref (isHeap.imp_left (physical ref).mp)),
    fun ref isPhysical => ?_, fun ref ref' isHeap isHeap' different => ?_,
    fun ref ref' isPhysical isPhysical' different => ?_, fun ref member isPhysical =>
      apart.virtual ref member ((physical ref).mp isPhysical)⟩
  · rw [geometry ref (Or.inl isPhysical)]
    exact apart.top ref ((physical ref).mp isPhysical)
  · rw [(geometry ref isHeap).tableBytes, (geometry ref' isHeap').tableBytes]
    exact apart.tables ref ref' (isHeap.imp_left (physical ref).mp) (isHeap'.imp_left (physical ref').mp) different
  · have same := geometry ref (Or.inl isPhysical)
    have same' := geometry ref' (Or.inl isPhysical')
    rw [same.tableBytes, same.dataBytes, same'.dataBytes]
    exact apart.blocks ref ref' ((physical ref).mp isPhysical) ((physical ref').mp isPhysical') different

/-- The tables of the kernel depend on the tables that are reached and on the geometry of the paging heaps. -/
theorem Kernel.tables_congr {k k' : Kernel} {desc : PagingDesc} {paging : Set HeapRef}
    (reached : ∀ path table, ReachedTable k'.mem desc path table ↔ ReachedTable k.mem desc path table)
    (heaps : ∀ ref ∈ paging, (k.heaps ref).SameGeometry (k'.heaps ref)) :
    k'.tables desc paging = k.tables desc paging := by
  ext a
  unfold Kernel.tables
  simp only [Set.mem_ofPred_eq, reached]
  refine or_congr_right (exists_congr fun ref => and_congr_right fun member => ?_)
  rw [(heaps ref member).tableBytes]

namespace MultiheapSound

variable {k k' : Kernel} {desc : PagingDesc} {paging : Set HeapRef} (sound : MultiheapSound k desc paging)

include sound

/-- **The frame**: the heaps keep their geometry, the descriptor its tables, and blocks that become free hold
none of the tables. -/
theorem frame (physical : ∀ ref, k'.IsPhysical ref ↔ k.IsPhysical ref)
    (heaps : ∀ ref, k.IsPhysical ref ∨ ref ∈ paging → (k.heaps ref).SameGeometry (k'.heaps ref))
    (counted : ∀ ref, k'.Defragments ref → (k'.heapState ref).TwoTypes ∧ (k'.heapState ref).Accounted)
    (tree : TableTree k'.mem desc)
    (reached : ∀ path table, ReachedTable k'.mem desc path table ↔ ReachedTable k.mem desc path table)
    (free : ∀ ref, k.IsPhysical ref → ∀ block < (k.heaps ref).table.total, typeFree ((k'.heapState ref).view block) →
      typeFree ((k.heapState ref).view block) ∨ Disjoint (k.tables desc paging) ((k.heaps ref).blockBytes block)) :
    MultiheapSound k' desc paging := by
  have tablesEq : k'.tables desc paging = k.tables desc paging :=
    Kernel.tables_congr reached fun ref member => heaps ref (Or.inr member)
  refine ⟨sound.apart.congr physical heaps, counted, tree, fun ref isPhysical => ?_,
    fun ref member path table isTable => ?_, fun ref isPhysical block below isFree => ?_⟩
  · rw [tablesEq, (heaps ref (Or.inl ((physical ref).mp isPhysical))).tableBytes]
    exact sound.tablesApart ref ((physical ref).mp isPhysical)
  · rw [(heaps ref (Or.inr member)).tableBytes]
    exact sound.pagesApart ref member path table ((reached path table).mp isTable)
  · have isPhysical' := (physical ref).mp isPhysical
    have same := heaps ref (Or.inl isPhysical')
    rw [same.table] at below
    rw [tablesEq, same.blockBytes]
    exact (free ref isPhysical' block below isFree).elim (sound.held ref isPhysical' block below) id

/-- Free blocks and the block table of a physical heap hold no table, so writes to them keep the tables. -/
theorem tables_kept {ref : HeapRef} (isPhysical : k.IsPhysical ref) {s : HeapState} {released : Nat → Prop}
    (touches : (k.heapState ref).TouchesFree s released) : ∀ a ∈ k.tables desc paging, s.mem a = k.mem a :=
  fun a isTable => touches.mem a (Set.disjoint_left.mp (sound.tablesApart ref isPhysical) isTable)
    fun block below isFree => Set.disjoint_left.mp (sound.held ref isPhysical block below isFree) isTable

/-- ... and the block tables of the other heaps. -/
theorem table_kept {ref other : HeapRef} (isPhysical : k.IsPhysical ref) (isPhysical' : k.IsPhysical other)
    (different : other ≠ ref) {s : HeapState} {released : Nat → Prop}
    (touches : (k.heapState ref).TouchesFree s released) : ∀ a ∈ (k.heaps other).tableBytes, s.mem a = k.mem a := by
  intro a inside
  have soundHeap := sound.apart.sound ref (Or.inl isPhysical)
  refine touches.mem a (Set.disjoint_left.mp (sound.apart.tables other ref (Or.inl isPhysical') (Or.inl isPhysical)
    different) inside) fun block below _ inBlock => ?_
  exact Set.disjoint_left.mp (sound.apart.blocks other ref isPhysical' isPhysical different).1 inside
    (soundHeap.blockBytes_subset below inBlock)

/-- **An operation of a physical heap** that releases no block with a table and keeps the counters right. -/
theorem physical {ref : HeapRef} (isPhysical : k.IsPhysical ref) {s : HeapState} {released : Nat → Prop}
    (touches : (k.heapState ref).TouchesFree s released)
    (unheld : ∀ block < (k.heaps ref).table.total, released block →
      Disjoint (k.tables desc paging) ((k.heaps ref).blockBytes block))
    (counted : k.Defragments ref → s.TwoTypes ∧ s.Accounted) : MultiheapSound (k.withHeapState ref s) desc paging := by
  have soundHeap := sound.apart.sound ref (Or.inl isPhysical)
  have kept := sound.tables_kept isPhysical touches
  obtain ⟨tree, reached, _⟩ := sound.tree.congr fun path table isTable a inside =>
    kept a (Or.inl ⟨path, table, isTable, inside⟩)
  have geometry : k.SameHeaps (k.withHeapState ref s) := sameHeaps_withHeapState touches.geometry
  refine sound.frame (fun _ => Iff.rfl) (fun other _ => geometry other) (fun other allows => ?_) tree reached
    fun other isPhysical' block below isFree => ?_
  · by_cases here : other = ref
    · subst here
      exact k.counted_withHeapState (touches.geometry.sound soundHeap) (counted allows)
    · exact Kernel.counted_kept (sound.apart.sound other (Or.inl allows.physical)) (k.heaps_withHeapState_other here s)
        (sound.table_kept isPhysical allows.physical here touches) (sound.counted other allows)
  · by_cases here : other = ref
    · subst here
      rw [k.view_withHeapState] at isFree
      exact (touches.free block below isFree).imp_right (unheld block below)
    · rw [Kernel.view_congr (geometry other) (sound.table_kept isPhysical isPhysical' here touches) below] at isFree
      exact Or.inl isFree

/-- **An operation of a paging heap** that writes to its table. -/
theorem virtual {ref : HeapRef} (member : ref ∈ paging) {s : HeapState} (only : (k.heapState ref).OnlyTable s) :
    MultiheapSound (k.withHeapState ref s) desc paging := by
  have geometry : k.SameHeaps (k.withHeapState ref s) := sameHeaps_withHeapState only.geometry
  have outside : ∀ a, a ∉ (k.heaps ref).tableBytes → s.mem a = k.mem a :=
    fun a notTable => only.mem a (not_mem_tableBytes notTable)
  have kept : ∀ other, k.IsPhysical other → ∀ a ∈ (k.heaps other).tableBytes, s.mem a = k.mem a :=
    fun other isPhysical a inside => outside a (Set.disjoint_left.mp (sound.apart.tables other ref (Or.inl isPhysical)
      (Or.inr member) fun same => sound.apart.virtual ref member (same ▸ isPhysical)) inside)
  obtain ⟨tree, reached, _⟩ := sound.tree.congr fun path table isTable a inside =>
    outside a (Set.disjoint_left.mp (sound.pagesApart ref member path table isTable) inside)
  refine sound.frame (fun _ => Iff.rfl) (fun other _ => geometry other) (fun other allows => ?_) tree reached
    fun other isPhysical block below isFree => ?_
  · have different : other ≠ ref := fun same => sound.apart.virtual ref member (same ▸ allows.physical)
    exact Kernel.counted_kept (sound.apart.sound other (Or.inl allows.physical))
      (k.heaps_withHeapState_other different s) (kept other allows.physical) (sound.counted other allows)
  · rw [Kernel.view_congr (geometry other) (kept other isPhysical) below] at isFree
    exact Or.inl isFree

/-- **A change of memory** that keeps the tables of the kernel and of the physical heaps. -/
theorem withMem {mem : Memory} (tree : TableTree mem desc)
    (reached : ∀ path table, ReachedTable mem desc path table ↔ ReachedTable k.mem desc path table)
    (kept : ∀ ref, k.IsPhysical ref → ∀ a ∈ (k.heaps ref).tableBytes, mem a = k.mem a) :
    MultiheapSound { k with mem := mem } desc paging := by
  refine sound.frame (fun _ => Iff.rfl) (fun _ _ => rfl) (fun ref allows => ?_) tree reached
    fun ref isPhysical block below isFree => ?_
  · exact Kernel.counted_withMem (sound.apart.sound ref (Or.inl allows.physical)) (kept ref allows.physical)
      (sound.counted ref allows)
  · rw [Kernel.view_withMem (kept ref isPhysical) below] at isFree
    exact Or.inl isFree

/-- Entries of page tables lie apart from the block tables of physical heaps. -/
theorem entry_kept {path : List Nat} {table digit : Nat} (reached : ReachedTable k.mem desc path table)
    (inside : digit < pagingTotalEntriesPerTable) (mem : Memory) (value : Nat) {ref : HeapRef}
    (isPhysical : k.IsPhysical ref) : ∀ a ∈ (k.heaps ref).tableBytes,
      setEntryAt mem (table + sizeofPagingDescEntry * digit) value a = mem a := by
  intro a inTable
  refine writeWord_outside ?_
  by_contra between
  rw [not_or, not_lt, not_le] at between
  have isTable : a ∈ k.tables desc paging := Or.inl ⟨path, table, reached, entry_in_page inside between.1 between.2⟩
  exact Set.disjoint_left.mp (sound.tablesApart ref isPhysical) isTable inTable

/-- **A write over a leaf entry.** -/
theorem leaf {path : List Nat} {table digit value : Nat} (reached : ReachedTable k.mem desc path table)
    (full : path.length = 3) (inside : digit < pagingTotalEntriesPerTable) (word : value < 2 ^ 64) :
    MultiheapSound { k with mem := setEntryAt k.mem (table + sizeofPagingDescEntry * digit) value } desc paging := by
  obtain ⟨tree, reachedIff, _⟩ := sound.tree.setLeaf reached full inside word
  exact sound.withMem tree reachedIff fun ref isPhysical => sound.entry_kept reached inside k.mem value isPhysical

end MultiheapSound

end PeachOS
