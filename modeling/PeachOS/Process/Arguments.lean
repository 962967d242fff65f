/-
**The arguments of a new process: `process_inject_arguments` of `task/process.c`.**

Command 7 is given a list of `struct command_argument` by a program: 512 bytes each, and a pointer to the next one. The list
is walked twice, once to count it and once to copy it, by the pointers as they are, which the kernel reads as physical
addresses. Nothing looks at where they lead.

* `processCountCommandArguments_iff` — the count ends exactly on a list that reaches `NULL`;
* `Copied.argument` — one turn of the copy loop keeps the list and the copies before it;
* `processInjectArguments_iff` — **the call returns, reads memory of its caller only and copies the arguments in order exactly
  when the list reaches `NULL`**, within what an `int` counts, and all of its nodes are memory of the caller.
-/

import PeachOS.Process.Allocate
import PeachOS.Process.OwnFile
import PeachOS.Task.CopiedString

namespace PeachOS

open ByteStore SpanTable RadixTable

/-! ### The code -/

/-- `sizeof(current->argument)`. -/
abbrev sizeofArgument : Nat := 512

/-- `sizeof(struct command_argument)`. -/
abbrev sizeofCommandArgument : Nat := 520

/-- `INT_MAX`. -/
abbrev intMax : Nat := 2 ^ 31 - 1

/-- `current->next`. -/
def nextArgument (mem : Memory) (current : Nat) : Nat := readWord mem (toWord (current + sizeofArgument : Nat)) 8

/-- The loop of `process_count_command_arguments`, with the nodes that it reads, while `i` can be counted up `fuel` times
more. An `int` that goes over its maximum has no value, so there is none for a list without an end either. -/
def processCountCommandArgumentsLoop (mem : Memory) : (fuel i current : Nat) → (visited : List Nat) → Option (Nat × List Nat)
  | 0, i, current, visited => if current = 0 then some (i, visited) else none
  | fuel + 1, i, current, visited =>
      if current = 0 then some (i, visited)
      else processCountCommandArgumentsLoop mem fuel (i + 1) (nextArgument mem current) (visited ++ [current])

/-- `process_count_command_arguments`. -/
def processCountCommandArguments (mem : Memory) (rootArgument : Nat) : Option (Nat × List Nat) :=
  processCountCommandArgumentsLoop mem intMax 0 rootArgument []

/-- The kernel and the process while the arguments are copied, and the nodes that were read. -/
structure Inject where
  kernel : Kernel
  process : Process
  visited : List Nat

/-- A turn of the copy loop of `process_inject_arguments`: `-ENOMEM`, or the argument is copied and `argv[i]` points to the
copy. -/
def processInjectArgument (argv i current : Nat) (σ : Inject) : Option (Int × Inject) :=
  match processMalloc σ.kernel σ.process sizeofArgument with
  | none => none
  | some (argumentStr, process, k) =>
      if argumentStr = 0 then some (enomem, ⟨k, process, σ.visited⟩)
      else
        (strncpy (fun _ va => some va) k.mem argumentStr current sizeofArgument).map fun mem =>
          (0, ⟨{ k with mem := writeWord mem (toWord (argv + 8 * i : Nat)) 8 argumentStr }, process, σ.visited ++ [current]⟩)

/-- The copy loop, while `i` can be counted up `fuel` times more. -/
def processInjectArgumentsLoop (argv : Nat) : (fuel i current : Nat) → Inject → Option (Int × Inject)
  | 0, _, current, σ => if current = 0 then some (0, σ) else none
  | fuel + 1, i, current, σ =>
      if current = 0 then some (0, σ)
      else
        match processInjectArgument argv i current σ with
        | none => none
        | some (res, σ') =>
            if res < 0 then some (res, σ')
            else processInjectArgumentsLoop argv fuel (i + 1) (nextArgument σ'.kernel.mem current) σ'

/-- What `process_inject_arguments` returns and leaves, with `process->arguments` if it was assigned. -/
structure Injected where
  res : Int
  arguments : Option (Nat × Nat)
  state : Inject

/-- `process_inject_arguments`. -/
def processInjectArguments (k : Kernel) (process : Process) (rootArgument : Nat) : Option Injected :=
  match processCountCommandArguments k.mem rootArgument with
  | none => none
  | some (argc, visited) =>
      if argc = 0 then some ⟨eio, none, k, process, visited⟩
      else
        match processMalloc k process (toWord (8 * argc : Nat)) with
        | none => none
        | some (argv, process, k) =>
            if argv = 0 then some ⟨enomem, none, k, process, visited⟩
            else
              (processInjectArgumentsLoop argv intMax 0 rootArgument ⟨k, process, visited⟩).map fun (res, σ) =>
                if res < 0 then ⟨res, none, σ⟩ else ⟨0, some (argc, argv), σ⟩

/-! ### The statement -/

/-- **The nodes of a list** from a pointer on, up to `NULL`. -/
def ArgumentList (mem : Memory) : (current : Nat) → (nodes : List Nat) → Prop
  | current, [] => current = 0
  | current, node :: rest => current = node ∧ node ≠ 0 ∧ ArgumentList mem (nextArgument mem node) rest

/-- The bytes before the first zero, at most `n`. -/
def stringFrom (mem : Memory) : (a n : Nat) → List Byte
  | _, 0 => []
  | a, n + 1 => if mem a = 0x00#8 then [] else mem a :: stringFrom mem (a + 1) n

/-- The argument of a node, as much as there is room for with a terminator. -/
def argumentOf (mem : Memory) (node : Nat) : List Byte := (stringFrom mem node sizeofArgument).take (sizeofArgument - 1)

/-- **A node is memory of the caller**: each of its bytes lies in a page that the caller may access. -/
def NodeAccessible (mem : Memory) (callerDesc : PagingDesc) (node : Nat) : Prop :=
  ∀ offset < sizeofCommandArgument, (node + offset) / pagingPageSize ∈ userFrames mem callerDesc

/-- **The arguments are injected**: the call returns, it has read memory of its caller only, and if it succeeds the process
has as many arguments as the list has nodes, the argument of each in its place. -/
def Injects (k : Kernel) (callerDesc : PagingDesc) (rootArgument : Nat) (outcome : Option Injected) : Prop :=
  ∃ result, outcome = some result ∧ (∀ node ∈ result.state.visited, NodeAccessible k.mem callerDesc node) ∧
    (result.res = 0 → ∃ nodes argv, ArgumentList k.mem rootArgument nodes ∧ result.arguments = some (nodes.length, argv) ∧
      ∀ i node, nodes[i]? = some node →
        StringAt result.state.kernel.mem (readWord result.state.kernel.mem (argv + 8 * i) 8) (argumentOf k.mem node))

/-! ### Counting -/

section Count

variable {mem : Memory}

/-- **The count ends on `NULL`**, after at most as many nodes as it can count. -/
theorem processCountCommandArgumentsLoop_iff (fuel : Nat) : ∀ {i current : Nat} {visited : List Nat} {result : Nat × List Nat},
    processCountCommandArgumentsLoop mem fuel i current visited = some result ↔
      ∃ nodes, ArgumentList mem current nodes ∧ nodes.length ≤ fuel ∧ result = (i + nodes.length, visited ++ nodes) := by
  induction fuel with
  | zero =>
      intro i current visited result
      rw [processCountCommandArgumentsLoop]
      by_cases null : current = 0
      · rw [if_pos null, Option.some.injEq]
        constructor
        · rintro rfl
          exact ⟨[], null, le_rfl, by rw [List.length_nil, Nat.add_zero, List.append_nil]⟩
        · rintro ⟨nodes, -, none, rfl⟩
          rw [List.length_eq_zero_iff.mp (Nat.le_zero.mp none), List.length_nil, Nat.add_zero, List.append_nil]
      · rw [if_neg null]
        refine iff_of_false (fun ended => by cases ended) ?_
        rintro ⟨nodes, isList, none, -⟩
        rw [List.length_eq_zero_iff.mp (Nat.le_zero.mp none)] at isList
        exact null isList
  | succ fuel ih =>
      intro i current visited result
      rw [processCountCommandArgumentsLoop]
      by_cases null : current = 0
      · rw [if_pos null, Option.some.injEq]
        constructor
        · rintro rfl
          exact ⟨[], null, Nat.zero_le _, by rw [List.length_nil, Nat.add_zero, List.append_nil]⟩
        · rintro ⟨nodes, isList, -, rfl⟩
          cases nodes with
          | nil => rw [List.length_nil, Nat.add_zero, List.append_nil]
          | cons node rest => exact absurd (isList.1.symm.trans null) isList.2.1
      · rw [if_neg null, ih]
        constructor
        · rintro ⟨rest, isList, few, rfl⟩
          refine ⟨current :: rest, ⟨rfl, null, isList⟩, Nat.succ_le_succ few, ?_⟩
          rw [List.length_cons, List.append_assoc, List.singleton_append, Nat.add_assoc, Nat.add_comm 1]
        · rintro ⟨nodes, isList, few, rfl⟩
          cases nodes with
          | nil => exact absurd isList null
          | cons node rest =>
              obtain ⟨rfl, -, isList⟩ := isList
              refine ⟨rest, isList, Nat.le_of_succ_le_succ few, ?_⟩
              rw [List.length_cons, List.append_assoc, List.singleton_append, Nat.add_assoc, Nat.add_comm 1]

/-- **The count.** -/
theorem processCountCommandArguments_iff {root : Nat} {result : Nat × List Nat} :
    processCountCommandArguments mem root = some result ↔
      ∃ nodes, ArgumentList mem root nodes ∧ nodes.length ≤ intMax ∧ result = (nodes.length, nodes) := by
  unfold processCountCommandArguments
  rw [processCountCommandArgumentsLoop_iff]
  simp only [Nat.zero_add, List.nil_append]

end Count

/-! ### What is read -/

/-- The copy loop reads nodes in addition to those before. -/
theorem processInjectArgumentsLoop_visited {argv : Nat} (fuel : Nat) : ∀ {i current : Nat} {σ : Inject}
    {result : Int × Inject}, processInjectArgumentsLoop argv fuel i current σ = some result →
    σ.visited ⊆ result.2.visited := by
  induction fuel with
  | zero =>
      intro i current σ result ended
      rw [processInjectArgumentsLoop] at ended
      split at ended
      · rw [← Option.some.inj ended]
        exact List.Subset.refl _
      · cases ended
  | succ fuel ih =>
      intro i current σ result ended
      rw [processInjectArgumentsLoop] at ended
      split at ended
      · rw [← Option.some.inj ended]
        exact List.Subset.refl _
      · split at ended
        · cases ended
        · next res σ' turn =>
            have more : σ.visited ⊆ σ'.visited := by
              unfold processInjectArgument at turn
              split at turn
              · cases turn
              · split at turn
                · rw [← (Prod.mk.inj (Option.some.inj turn)).2]
                  exact List.Subset.refl _
                · rw [Option.map_eq_some_iff] at turn
                  obtain ⟨mem, -, same⟩ := turn
                  rw [← (Prod.mk.inj same).2]
                  exact List.subset_append_left _ _
            split at ended
            · rw [← Option.some.inj ended]
              exact more
            · exact List.Subset.trans more (ih ended)

/-- **A call that returns has counted the list**, and has read what the count reads. -/
theorem processInjectArguments_counted {k : Kernel} {process : Process} {root : Nat} {result : Injected}
    (returned : processInjectArguments k process root = some result) :
    ∃ nodes, ArgumentList k.mem root nodes ∧ nodes.length ≤ intMax ∧ nodes ⊆ result.state.visited := by
  unfold processInjectArguments at returned
  split at returned
  · cases returned
  · next argc visited counted =>
      obtain ⟨nodes, isList, few, same⟩ := processCountCommandArguments_iff.mp counted
      obtain ⟨rfl, rfl⟩ := Prod.mk.inj same
      refine ⟨visited, isList, few, ?_⟩
      split at returned
      · rw [← Option.some.inj returned]
        exact List.Subset.refl _
      · split at returned
        · cases returned
        · split at returned
          · rw [← Option.some.inj returned]
            exact List.Subset.refl _
          · rw [Option.map_eq_some_iff] at returned
            obtain ⟨⟨res, σ⟩, ended, rfl⟩ := returned
            have more := processInjectArgumentsLoop_visited intMax ended
            dsimp only
            split
            · exact more
            · exact more

/-! ### Strings of nodes -/

section Strings

variable {mem mem' : Memory}

theorem stringFrom_nonzero (n : Nat) : ∀ a, 0x00#8 ∉ stringFrom mem a n := by
  induction n with
  | zero => exact fun _ => List.not_mem_nil
  | succ n ih =>
      intro a
      rw [stringFrom]
      split
      · exact List.not_mem_nil
      · next nonzero =>
          intro isIn
          rcases List.mem_cons.mp isIn with here | later
          · exact nonzero here.symm
          · exact ih (a + 1) later

/-- The bytes of a string are those of memory, and so is its end if it is not cut. -/
theorem getD_stringFrom (n : Nat) : ∀ (a : Nat) {i : Nat}, i ≤ (stringFrom mem a n).length → i < n →
    (stringFrom mem a n).getD i 0x00#8 = mem (a + i) := by
  induction n with
  | zero => exact fun _ _ _ below => absurd below (Nat.not_lt_zero _)
  | succ n ih =>
      intro a i inside below
      rw [stringFrom] at inside ⊢
      by_cases ended : mem a = 0x00#8
      · rw [if_pos ended, List.length_nil, Nat.le_zero] at inside
        rw [if_pos ended, inside]
        exact ended.symm
      · rw [if_neg ended] at inside ⊢
        cases i with
        | zero => rfl
        | succ i =>
            rw [List.getD_cons_succ, ih (a + 1) (Nat.le_of_succ_le_succ inside) (Nat.lt_of_succ_lt_succ below)]
            congr 1
            omega

theorem length_argumentOf (node : Nat) : (argumentOf mem node).length < sizeofArgument := by
  unfold argumentOf
  rw [List.length_take]
  exact (min_le_left _ _).trans_lt (by decide)

end Strings

/-! ### Memory of the caller -/

section Caller

variable {k k' : Kernel} {ledger ledger' : Ledger AllocationHolder} {callerDesc : PagingDesc} {node : Nat}

/-- **Memory that the caller may access is its own**: it is in chains that neither hold page tables of the new process nor
its slots. -/
def CallerHeld (k : Kernel) (ledger : Ledger AllocationHolder) (callerDesc : PagingDesc) : Prop :=
  ∀ frame ∈ userFrames k.mem callerDesc, ∃ chain, ledger.Holds .other chain ∧
    Set.Ico (frame * pagingPageSize) (frame * pagingPageSize + pagingPageSize) ⊆ k.bytes chain

/-- Each byte of a node is in a chain of the caller. -/
theorem CallerHeld.byte (callers : CallerHeld k ledger callerDesc) (accessible : NodeAccessible k.mem callerDesc node)
    {offset : Nat} (inside : offset < sizeofCommandArgument) :
    ∃ chain, ledger.Holds .other chain ∧ node + offset ∈ k.bytes chain := by
  obtain ⟨chain, held, covers⟩ := callers _ (accessible offset inside)
  refine ⟨chain, held, covers ⟨?_, ?_⟩⟩
  · exact Nat.div_mul_le_self _ _
  · simp only [pagingPageSize]
    omega

/-- **Nodes are kept** while somebody else allocates and writes. -/
theorem CallerHeld.kept (callers : CallerHeld k ledger callerDesc) (accessible : NodeAccessible k.mem callerDesc node)
    {mine : Set AllocationHolder} (frame : Frame mine k ledger k' ledger') (other : AllocationHolder.other ∉ mine) :
    ∀ offset < sizeofCommandArgument, k'.mem (node + offset) = k.mem (node + offset) := fun offset inside => by
  obtain ⟨chain, held, isIn⟩ := callers.byte accessible inside
  exact frame.keeps _ other chain held _ isIn

/-- A node lies below the end of physical memory. -/
theorem CallerHeld.low (callers : CallerHeld k ledger callerDesc) (accessible : NodeAccessible k.mem callerDesc node)
    (heap : KernelHeap k ledger.chains) : node + sizeofCommandArgument ≤ 2 ^ 48 := by
  obtain ⟨chain, held, -, below⟩ := callers.byte accessible (show 519 < sizeofCommandArgument by decide)
  have high := (heap.bytes_in_heap held.1).2
  have physical := heap.physical
  simp only [sizeofCommandArgument] at below ⊢
  omega

/-- **The next node** is the same as before. -/
theorem CallerHeld.next (callers : CallerHeld k ledger callerDesc) (accessible : NodeAccessible k.mem callerDesc node)
    (heap : KernelHeap k ledger.chains) {mine : Set AllocationHolder} (frame : Frame mine k ledger k' ledger')
    (other : AllocationHolder.other ∉ mine) : nextArgument k'.mem node = nextArgument k.mem node := by
  have low := callers.low accessible heap
  have kept := callers.kept accessible frame other
  simp only [sizeofCommandArgument] at low kept
  unfold nextArgument
  rw [toWord_natCast (by simp only [sizeofArgument]; omega)]
  refine readWord_congr fun offset inside => ?_
  rw [Nat.add_assoc]
  exact kept _ (by simp only [sizeofArgument]; omega)

end Caller

/-! ### Copying -/

/-- The states of the copy loop before its turns. -/
inductive CopyReaches (argv rootArgument : Nat) (σ₀ : Inject) : (i current : Nat) → Inject → Prop
  | start : CopyReaches argv rootArgument σ₀ 0 rootArgument σ₀
  | turn {i current : Nat} {σ σ' : Inject} (before : CopyReaches argv rootArgument σ₀ i current σ) (more : current ≠ 0)
      (copied : processInjectArgument argv i current σ = some (0, σ')) :
      CopyReaches argv rootArgument σ₀ (i + 1) (nextArgument σ'.kernel.mem current) σ'

/-- **The slots can be given more memory** in each allocation of a call. -/
def SlotsGrowDuring (k : Kernel) (process : Process) (rootArgument : Nat) : Prop :=
  ∀ argc visited, processCountCommandArguments k.mem rootArgument = some (argc, visited) →
    SlotsGrow (kzalloc k (toWord (8 * argc : Nat))).2 process.allocations ∧
    ∀ argv process' k', processMalloc k process (toWord (8 * argc : Nat)) = some (argv, process', k') →
      ∀ i current σ, CopyReaches argv rootArgument ⟨k', process', visited⟩ i current σ → current ≠ 0 →
        SlotsGrow (kzalloc σ.kernel sizeofArgument).2 σ.process.allocations

section Copy

variable {k k' : Kernel} {ledger ledger' : Ledger AllocationHolder} {callerDesc : PagingDesc} {mine : Set AllocationHolder}
  {j : Nat} {string : List Byte} {ptr : Nat}

/-- **The copy of an argument**, in a chain of its own. -/
def CopyHeld (k : Kernel) (ledger : Ledger AllocationHolder) (j : Nat) (string : List Byte) (ptr : Nat) : Prop :=
  ∃ chain, ledger.Holds (.allocation (j + 1)) chain ∧ ptr = k.address chain ∧
    sizeofArgument ≤ chain.len * peachosHeapBlockSize ∧ StringAt k.mem ptr string

/-- Somebody else's chains leave a copy as it is. -/
theorem CopyHeld.frame (held : CopyHeld k ledger j string ptr) (short : string.length < sizeofArgument)
    (heap : KernelHeap k ledger.chains) (frame : Frame mine k ledger k' ledger')
    (other : AllocationHolder.allocation (j + 1) ∉ mine) : CopyHeld k' ledger' j string ptr := by
  obtain ⟨chain, holds, rfl, room, isString⟩ := held
  refine ⟨chain, (frame.holds _ other chain).mpr holds, frame.same.address.symm, room, fun i inside => ?_, isString.nonzero⟩
  have high := (heap.bytes_in_heap holds.1).2
  have physical := heap.physical
  have word : toWord (k.address chain + i : Nat) = k.address chain + i := toWord_natCast (by omega)
  rw [← isString.bytes i inside, word]
  exact frame.keeps _ other chain holds _ ⟨Nat.le_add_right _ _, by omega⟩

/-- **After `i` turns**: the caller's chains are as they were, `argv` has room for all pointers, and the first `i` of them
point to the copies of the arguments. -/
structure Copied (k : Kernel) (ledger₀ : Ledger AllocationHolder) (argv : Nat) (nodes : List Nat) (i : Nat) (σ : Inject)
    (ledger : Ledger AllocationHolder) : Prop where
  process : ProcessHeap σ.kernel ledger σ.process
  caller : Frame { who | who ≠ .other } k ledger₀ σ.kernel ledger
  pointers : ∃ chain, ledger.Holds (.allocation 0) chain ∧ argv = σ.kernel.address chain ∧
    8 * nodes.length ≤ chain.len * peachosHeapBlockSize
  copies : ∀ j node, nodes[j]? = some node → j < i →
    CopyHeld σ.kernel ledger j (argumentOf k.mem node) (readWord σ.kernel.mem (argv + 8 * j) 8)

/-- **A turn copies its argument** and keeps the copies before, or fails. -/
theorem Copied.argument {ledger₀ : Ledger AllocationHolder} {argv i node : Nat} {nodes : List Nat} {σ : Inject}
    (copied : Copied k ledger₀ argv nodes i σ ledger) (heap : KernelHeap k ledger₀.chains)
    (callers : CallerHeld k ledger₀ callerDesc) (isNode : nodes[i]? = some node)
    (accessible : NodeAccessible k.mem callerDesc node)
    (grows : SlotsGrow (kzalloc σ.kernel sizeofArgument).2 σ.process.allocations) :
    ∃ res σ', processInjectArgument argv i node σ = some (res, σ') ∧
      (res < 0 ∧ σ'.visited = σ.visited ∨ res = 0 ∧ σ'.visited = σ.visited ++ [node] ∧
        ∃ ledger', Copied k ledger₀ argv nodes (i + 1) σ' ledger') := by
  obtain ⟨ptr, process', k₁, allocated, outcome⟩ := processMalloc_spec (i + 1) copied.process (by decide) grows
  unfold processInjectArgument
  rw [allocated]
  dsimp only
  by_cases null : ptr = 0
  · rw [if_pos null]
    exact ⟨enomem, _, rfl, Or.inl ⟨by decide, rfl⟩⟩
  obtain ⟨ledger₁, chain, frame₁, state₁, -, held₁, pointer, covers⟩ := outcome.resolve_left null
  have caller₁ : Frame { who | who ≠ .other } k ledger₀ k₁ ledger₁ :=
    copied.caller.trans (frame₁.mono fun who isMine => isMine.1)
  obtain ⟨argvChain, heldArgv, argvEq, argvFits⟩ := copied.pointers
  have heldArgv₁ := (frame₁.holds (.allocation 0) (fun isMine => absurd (isMine.2 0 rfl) (Nat.succ_ne_zero i).symm) _).mpr
    heldArgv
  have argvEq₁ : argv = k₁.address argvChain := argvEq.trans frame₁.same.address.symm
  have inside : i < nodes.length := (List.getElem?_eq_some_iff.mp isNode).1
  have high := (state₁.heap.bytes_in_heap held₁.1).2
  have argvHigh := (state₁.heap.bytes_in_heap heldArgv₁.1).2
  have physical := state₁.heap.physical
  have nodeLow := callers.low accessible heap
  have kept := callers.kept accessible caller₁ fun isMine => isMine rfl
  simp only [sizeofCommandArgument] at nodeLow kept
  simp only [sizeofArgument] at covers
  -- The argument goes to its chain.
  have places : CopyPlaces (fun _ va => some va) k₁.mem ptr node sizeofArgument (stringFrom k.mem node sizeofArgument) := by
    refine ⟨fun _ _ offset below => ?_, fun mem' same offset within below => ⟨_, rfl, ?_⟩, stringFrom_nonzero _ _⟩
    · simp only [sizeofArgument] at below
      rw [toWord_natCast (by omega)]
    · simp only [sizeofArgument] at below
      rw [toWord_natCast (by omega), same _ ?_, kept offset (by omega), getD_stringFrom _ _ within below]
      intro inChain
      obtain ⟨other, heldOther, inOther⟩ := callers.byte accessible (show offset < sizeofCommandArgument by
        simp only [sizeofCommandArgument]
        omega)
      have heldOther₁ := (caller₁.holds .other (fun isMine => isMine rfl) _).mpr heldOther
      have different : chain ≠ other := by
        rintro rfl
        cases held₁.unique heldOther₁
      refine Set.disjoint_left.mp (KernelHeap.bytes_disjoint (k := k₁)
        (state₁.heap.disjoint held₁.1 heldOther₁.1 different)) ?_ (caller₁.same.bytes ▸ inOther)
      refine ⟨pointer ▸ inChain.1, ?_⟩
      have := inChain.2
      simp only [sizeofArgument] at this
      omega
  obtain ⟨mem, done, same, isString⟩ := strncpy_string places (by decide) (by simp only [sizeofArgument]; omega)
  rw [if_neg null, done, Option.map_some]
  have frame₂ : Frame {.allocation (i + 1)} k₁ ledger₁ { k₁ with mem := mem } ledger₁ := by
    refine Frame.of_write state₁.heap held₁ fun a outside => same a fun within => outside ?_
    refine ⟨pointer ▸ within.1, ?_⟩
    have := within.2
    simp only [sizeofArgument] at this
    omega
  -- Its pointer goes to `argv`.
  have target : toWord (argv + 8 * i : Nat) = argv + 8 * i := toWord_natCast (by omega)
  rw [target]
  have frame₃ : Frame {.allocation 0} { k₁ with mem := mem } ledger₁
      { k₁ with mem := writeWord mem (argv + 8 * i) 8 ptr } ledger₁ := by
    refine @Frame.of_write { k₁ with mem := mem } ledger₁ _ _ frame₂.heap heldArgv₁ _ fun a outside => writeWord_outside ?_
    have address : ({ k₁ with mem := mem } : Kernel).address argvChain = argv := argvEq₁.symm
    unfold Kernel.bytes at outside
    rw [Set.mem_Ico, not_and_or, not_le, not_lt, address] at outside
    omega
  have state₃ := (state₁.frame frame₂ (fun path isMine => by cases isMine) fun isMine => by cases isMine).frame frame₃
    (fun path isMine => by cases isMine) fun isMine => by cases isMine
  refine ⟨0, ⟨{ k₁ with mem := writeWord mem (argv + 8 * i) 8 ptr }, process', σ.visited ++ [node]⟩, rfl,
    Or.inr ⟨rfl, rfl, ledger₁, state₃, ?_, ⟨argvChain, heldArgv₁, argvEq₁, argvFits⟩, ?_⟩⟩
  · refine (caller₁.trans (frame₂.mono fun who isMine => ?_)).trans (frame₃.mono fun who isMine => ?_)
    · rw [Set.mem_singleton_iff.mp isMine]
      exact fun isOther => by cases isOther
    · rw [Set.mem_singleton_iff.mp isMine]
      exact fun isOther => by cases isOther
  · intro j other isOther before
    have short := @length_argumentOf k.mem other
    have notArgv : AllocationHolder.allocation (j + 1) ∉ ({.allocation 0} : Set AllocationHolder) := fun isMine => by
      cases isMine
    show CopyHeld _ _ _ _ (readWord (writeWord mem (argv + 8 * i) 8 ptr) (argv + 8 * j) 8)
    rcases Nat.lt_succ_iff_lt_or_eq.mp before with earlier | rfl
    · have notMine : AllocationHolder.allocation (j + 1) ∉ ({.allocation (i + 1)} : Set AllocationHolder) := fun isMine => by
        have := AllocationHolder.allocation.inj (Set.mem_singleton_iff.mp isMine)
        omega
      have held := (((copied.copies j other isOther earlier).frame short copied.process.heap frame₁ fun isMine => by
        have := isMine.2 _ rfl
        omega).frame short state₁.heap frame₂ notMine).frame short frame₂.heap frame₃ notArgv
      have word : readWord (writeWord mem (argv + 8 * i) 8 ptr) (argv + 8 * j) 8 =
          readWord σ.kernel.mem (argv + 8 * j) 8 := by
        rw [readWord_writeWord_apart (by omega)]
        have fits : 8 * j + 8 ≤ argvChain.len * peachosHeapBlockSize := by omega
        have first := (frame₁.keeps (.allocation 0) (fun isMine => absurd (isMine.2 0 rfl) (Nat.succ_ne_zero i).symm) _
          heldArgv).readWord fits
        have second := (frame₂.keeps (.allocation 0) (fun isMine => by cases isMine) _ heldArgv₁).readWord fits
        rw [← argvEq₁] at second
        rw [← argvEq] at first
        exact second.trans first
      rw [word]
      exact held
    · rw [isNode, Option.some.injEq] at isOther
      have word : ptr < 256 ^ 8 := by
        have := state₁.heap.address_pos chain
        omega
      rw [readWord_writeWord word]
      have held : CopyHeld { k₁ with mem := mem } ledger₁ j (argumentOf k.mem other) ptr :=
        ⟨chain, held₁, pointer, covers, isOther ▸ isString⟩
      exact held.frame short frame₂.heap frame₃ notArgv

/-- **The copy loop** copies the rest of the list, or fails. -/
theorem Copied.loop {ledger₀ : Ledger AllocationHolder} {argv root : Nat} {nodes : List Nat} {σ₀ : Inject}
    (heap : KernelHeap k ledger₀.chains) (callers : CallerHeld k ledger₀ callerDesc)
    (accessible : ∀ node ∈ nodes, NodeAccessible k.mem callerDesc node)
    (grows : ∀ i current σ, CopyReaches argv root σ₀ i current σ → current ≠ 0 →
      SlotsGrow (kzalloc σ.kernel sizeofArgument).2 σ.process.allocations) (rest : List Nat) :
    ∀ {fuel i current : Nat} {σ : Inject} {ledger : Ledger AllocationHolder}, Copied k ledger₀ argv nodes i σ ledger →
      CopyReaches argv root σ₀ i current σ → nodes.drop i = rest → ArgumentList k.mem current rest → rest.length ≤ fuel →
      ∃ res σ', processInjectArgumentsLoop argv fuel i current σ = some (res, σ') ∧
        (∀ node ∈ σ'.visited, node ∈ σ.visited ∨ node ∈ rest) ∧
        (res < 0 ∨ res = 0 ∧ ∃ ledger', Copied k ledger₀ argv nodes nodes.length σ' ledger') := by
  induction rest with
  | nil =>
      intro fuel i current σ ledger copied _ dropped isList _
      have all : nodes.length ≤ i := List.drop_eq_nil_iff.mp dropped
      have ended : processInjectArgumentsLoop argv fuel i current σ = some (0, σ) := by
        cases fuel with
        | zero => exact if_pos isList
        | succ fuel => exact if_pos isList
      exact ⟨0, σ, ended, fun node isIn => Or.inl isIn, Or.inr ⟨rfl, ledger, copied.process, copied.caller, copied.pointers,
        fun j node isNode inside => copied.copies j node isNode (inside.trans_le all)⟩⟩
  | cons node rest ih =>
      intro fuel i current σ ledger copied reached dropped isList few
      obtain ⟨rfl, nonnull, isList⟩ := isList
      have isNode : nodes[i]? = some current := by
        rw [← List.head?_drop, dropped]
        rfl
      have dropped' : nodes.drop (i + 1) = rest := by
        rw [← List.tail_drop, dropped]
        rfl
      have isAccessible := accessible current (List.mem_of_getElem? isNode)
      cases fuel with
      | zero => exact absurd few (Nat.not_succ_le_zero _)
      | succ fuel =>
          rw [processInjectArgumentsLoop, if_neg nonnull]
          obtain ⟨res, σ', turn, outcome⟩ := copied.argument heap callers isNode isAccessible
            (grows i current σ reached nonnull)
          rw [turn]
          dsimp only
          rcases outcome with ⟨failed, same⟩ | ⟨rfl, visited, ledger', copied'⟩
          · rw [if_pos failed]
            exact ⟨res, σ', rfl, fun other isIn => Or.inl (same ▸ isIn), Or.inl failed⟩
          · rw [if_neg (lt_irrefl _)]
            have next := callers.next isAccessible heap copied'.caller fun isMine => isMine rfl
            obtain ⟨res, σ'', ended, reads, done⟩ := ih copied' (.turn reached nonnull turn) dropped' (next.symm ▸ isList)
              (Nat.le_of_succ_le_succ few)
            refine ⟨res, σ'', ended, fun other isIn => ?_, done⟩
            rcases reads other isIn with before | later
            · rw [visited] at before
              rcases List.mem_append.mp before with old | here
              · exact Or.inl old
              · exact Or.inr (List.mem_singleton.mp here ▸ List.mem_cons_self)
            · exact Or.inr (List.mem_cons_of_mem _ later)

end Copy

/-! ### The call -/

/-- **The arguments are injected exactly when the list reaches `NULL`**, after at most as many nodes as an `int` counts, and
all of its nodes are memory that the caller may access. -/
theorem processInjectArguments_iff {k : Kernel} {ledger : Ledger AllocationHolder} {process : Process}
    {callerDesc : PagingDesc} {rootArgument : Nat} (state : ProcessHeap k ledger process)
    (callers : CallerHeld k ledger callerDesc) (grows : SlotsGrowDuring k process rootArgument) :
    Injects k callerDesc rootArgument (processInjectArguments k process rootArgument) ↔
      ∃ nodes, ArgumentList k.mem rootArgument nodes ∧ nodes.length ≤ intMax ∧
        ∀ node ∈ nodes, NodeAccessible k.mem callerDesc node := by
  constructor
  · rintro ⟨result, returned, reads, -⟩
    obtain ⟨nodes, isList, few, visited⟩ := processInjectArguments_counted returned
    exact ⟨nodes, isList, few, fun node isIn => reads node (visited isIn)⟩
  · rintro ⟨nodes, isList, few, accessible⟩
    have counted := processCountCommandArguments_iff.mpr ⟨nodes, isList, few, rfl⟩
    obtain ⟨growsFirst, growsNext⟩ := grows _ _ counted
    unfold processInjectArguments
    rw [counted]
    dsimp only
    by_cases none : nodes.length = 0
    · rw [if_pos none]
      exact ⟨_, rfl, accessible, fun success => absurd success (show eio ≠ 0 by decide)⟩
    rw [if_neg none]
    unfold intMax at few
    have size : toWord (8 * nodes.length : Nat) = 8 * nodes.length := toWord_natCast (by omega)
    rw [size] at growsFirst growsNext ⊢
    obtain ⟨argv, process', k₁, allocated, outcome⟩ := processMalloc_spec 0 state (by omega) growsFirst
    rw [allocated]
    dsimp only
    by_cases null : argv = 0
    · rw [if_pos null]
      exact ⟨_, rfl, accessible, fun success => absurd success (show enomem ≠ 0 by decide)⟩
    rw [if_neg null]
    obtain ⟨ledger₁, chain, frame, state₁, -, held, pointer, covers⟩ := outcome.resolve_left null
    have copied : Copied k ledger argv nodes 0 ⟨k₁, process', nodes⟩ ledger₁ :=
      ⟨state₁, frame.mono fun who isMine => isMine.1, ⟨chain, held, pointer, covers⟩,
        fun j _ _ before => absurd before (Nat.not_lt_zero j)⟩
    obtain ⟨res, σ, ended, reads, done⟩ := copied.loop state.heap callers accessible (growsNext argv process' k₁ allocated)
      nodes .start rfl isList (show nodes.length ≤ intMax by unfold intMax; omega)
    rw [ended, Option.map_some]
    have readsNodes : ∀ node ∈ σ.visited, NodeAccessible k.mem callerDesc node := fun node isIn =>
      accessible node ((reads node isIn).elim id id)
    rcases done with failed | ⟨rfl, ledger', copied'⟩
    · rw [if_pos failed]
      exact ⟨_, rfl, readsNodes, fun success => absurd success failed.ne⟩
    · rw [if_neg (lt_irrefl _)]
      refine ⟨_, rfl, readsNodes, fun _ => ⟨nodes, argv, isList, rfl, fun i node isNode => ?_⟩⟩
      obtain ⟨_, -, -, -, isString⟩ := copied'.copies i node isNode (List.getElem?_eq_some_iff.mp isNode).1
      exact isString

/-! ### Two lists -/

/-- The entries of five blocks that are in use. -/
def fiveBlocks : Memory := fun a => if 0x1000 ≤ a ∧ a < 0x1005 then mallocEntry 1 0 else 0x00#8

/-- Four page tables and a page, in a heap of sixteen blocks. -/
def callerTables : Kernel where
  mem := linkTable (linkTable (linkTable fiveBlocks 0x100000 0 0x101000) 0x101000 0 0x102000) 0x102000 0 0x103000
  heaps := fun _ =>
    { table := { entries := 0x1000, total := 16 }, saddr := 0x100000, eaddr := 0x110000, totalBlocks := 16,
      freeBlocks := 11, usedBlocks := 5, blockAllocatedCallback := false, blockFreeCallback := false }
  multiheap :=
    { startingHeap := .kernelMinimalHeap, heaps := [⟨.kernelMinimalHeap, none, multiheapHeapFlagExternallyOwned⟩],
      maxEndDataAddr := 0x110000, flags := multiheapFlagIsReady, totalHeaps := 1 }
  calls := []

/-- The heap, mapped for the kernel. -/
def callerHeap : Kernel :=
  (pagingMapTo callerTables heapTables 0x100000 0x100000 (0x100000 + 16 * pagingPageSize)
    (pagingIsWriteable ||| pagingIsPresent)).2

/-- The page, mapped for the caller. -/
def callerPage : Kernel := (pagingMap callerHeap heapTables 0x104000 0x104000 allocationFlags).2

/-- **A caller with one argument**, the letter `a`, in its page `0x104000`. -/
def callerKernel : Kernel := { callerPage with mem := put callerPage.mem 0x104000 0x61#8 }

/-- A process without allocations. -/
def newProcess : Process where
  allocations := { memory := 0, eSize := sizeofProcessAllocation, tElems := 0, tmElems := 0, tReservedElements := 10 }
  fileHandles := { memory := 0, eSize := 8, tElems := 0, tmElems := 0, tReservedElements := 4 }
  pagingDesc := heapTables

theorem kernelHeap_callerTables : KernelHeap callerTables { chain | chain.len = 1 ∧ chain.start < 5 } :=
  kernelHeap_singles ⟨_, rfl⟩ (by decide) (by decide)
    ⟨by decide, by decide, by decide, by decide, by decide, by decide, by decide, by decide⟩ (by decide) (by decide +kernel)
    (by decide +kernel)

/-- The upper tables of the caller are linked. -/
structure UpperLinked (mem : Memory) : Prop where
  pdpt : entryAt mem 0x100000 = 0x101007
  pd : entryAt mem 0x101000 = 0x102007
  pt : entryAt mem 0x102000 = 0x103007

/-- **Pages of the third table need no other one.** -/
theorem pagingRangeAllocates_upper {flags : BitVec 32} {fuel virt phys : Nat} {k : Kernel} (upper : UpperLinked k.mem)
    (fits : virt + fuel * pagingPageSize ≤ 0x200000) : PagingRangeAllocates heapTables flags fuel virt phys k := by
  induction fuel generalizing virt phys k with
  | zero => trivial
  | succ fuel ih =>
      simp only [pagingPageSize] at fits
      have low : tableIndex virt 3 = 0 ∧ tableIndex virt 2 = 0 ∧ tableIndex virt 1 = 0 := by
        unfold tableIndex
        norm_num
        omega
      obtain ⟨pdpt, pd, pt⟩ := upper
      have root : pagingTable k 0x100000 = (0x101000, k) := by
        rw [pagingTable_of_entry (by rw [pdpt]; decide), pdpt]
        rfl
      have table : pagingTable k 0x101000 = (0x102000, k) := by
        rw [pagingTable_of_entry (by rw [pd]; decide), pd]
        rfl
      have last : pagingTable k 0x102000 = (0x103000, k) := by
        rw [pagingTable_of_entry (by rw [pt]; decide), pt]
        rfl
      unfold PagingRangeAllocates PagingMapAllocates pagingMap heapTables
      simp only [low.1, low.2.1, low.2.2, Nat.mul_zero, Nat.add_zero, root, table, last]
      refine ⟨⟨tableAllocated_of_entry (by rw [pdpt]; decide), tableAllocated_of_entry (by rw [pd]; decide),
        tableAllocated_of_entry (by rw [pt]; decide)⟩, ih ⟨?_, ?_, ?_⟩ ?_⟩
      · rw [entryAt_setEntryAt_apart (by simp only [sizeofPagingDescEntry]; omega), pdpt]
      · rw [entryAt_setEntryAt_apart (by simp only [sizeofPagingDescEntry]; omega), pd]
      · rw [entryAt_setEntryAt_apart (by simp only [sizeofPagingDescEntry]; omega), pt]
      · unfold toWord
        simp only [pagingPageSize]
        omega

/-- The page tables have no leaves yet. -/
theorem tables_callerTables : TablesInHeap callerTables heapTables { chain | chain.len = 1 ∧ chain.start < 5 } ∧
    (∀ path table, ReachedTable callerTables.mem heapTables path table → 0x100000 ≤ table ∧ table ≤ 0x103000) ∧
    ∀ va, pageEntry callerTables.mem heapTables va = 0 := by
  obtain ⟨tree₃, reached₃, inUse₃, cleared₃⟩ := @linkThree_tables fiveBlocks heapTables 0 0 0 (by decide) (by decide)
    (by decide) fun a (high : 0x100000 ≤ a) => if_neg (by omega)
  have aligned {path : List Nat} {table : Nat} (reached : ReachedTable callerTables.mem heapTables path table) :
      table % 4096 = 0 := tree₃.table_aligned reached
  refine ⟨⟨kernelHeap_callerTables, tree₃, fun path table reached => ?_⟩, inUse₃, fun va => ?_⟩
  · obtain ⟨low, high⟩ : 0x100000 ≤ table ∧ table ≤ 0x103000 := inUse₃ path table reached
    have page := aligned reached
    refine ⟨⟨(table - 0x100000) / 4096, 1⟩, ⟨rfl, ?_⟩, ?_⟩
    · show (table - 0x100000) / 4096 < 5
      omega
    · show table = 0x100000 + (table - 0x100000) / 4096 * 4096
      omega
  · unfold pageEntry leaf
    cases walks : walk tableChild (tableRead callerTables.mem) heapTables.pml (pagePath va) with
    | none => rfl
    | some table =>
        -- The first three tables have shorter paths.
        have reached : ReachedTable callerTables.mem heapTables (pagePath va) table := ⟨le_rfl, pagePath_digits va, walks⟩
        obtain ⟨low, high⟩ : 0x100000 ≤ table ∧ table ≤ 0x103000 := inUse₃ _ _ reached
        have page := aligned reached
        have other {path : List Nat} {table' : Nat} (reached' : ReachedTable callerTables.mem heapTables path table')
            (shorter : path.length < 3) : table ≠ table' := by
          rintro rfl
          have same := tree₃.tree.unique _ _ _ reached reached'
          rw [← same] at shorter
          exact lt_irrefl 3 shorter
        have one : table ≠ 0x100000 := @other [] _ ⟨by decide, by decide, rfl⟩ (by decide)
        have two : table ≠ 0x101000 := @other [0] _ ⟨by decide, by decide, by decide +kernel⟩ (by decide)
        have three : table ≠ 0x102000 := @other [0, 0] _ ⟨by decide, by decide, by decide +kernel⟩ (by decide)
        have last : table = 0x103000 := by omega
        rw [last]
        refine readWord_eq_zero fun offset _ => cleared₃ _ ?_
        show 0x103000 ≤ 0x103000 + sizeofPagingDescEntry * tableIndex va 0 + offset
        omega

/-- **The process can be given memory, and the page is memory of the caller**, whatever is in it. -/
theorem processHeap_callerPage {mem : Memory} (sameOutside : SameOutside (Set.Ico 0x104000 0x105000) callerPage.mem mem) :
    ∃ ledger, ProcessHeap { callerPage with mem := mem } ledger newProcess ∧
      CallerHeld { callerPage with mem := mem } ledger heapTables := by
  obtain ⟨tables, inUse, empty⟩ := tables_callerTables
  obtain ⟨ledger, live, pages, others⟩ := tables.allocationTables
  have heap : KernelHeap callerTables ledger.chains := live ▸ tables.heap
  -- The heap is mapped for the kernel.
  obtain ⟨ledger₁, grown₁, pages₁, -, leaves₁⟩ := @pagingMapTo_identity AllocationHolder callerTables ledger .table heapTables
    table_injective (pagingIsWriteable ||| pagingIsPresent) 0x100000 16 (by decide) (by decide) heap pages
      (pagingRangeAllocates_upper ⟨by decide +kernel, by decide +kernel, by decide +kernel⟩ (by decide))
  change Grown _ _ _ callerHeap _ at grown₁
  change PageTables callerHeap _ _ _ at pages₁
  change ∀ va < 2 ^ 48, pageEntry callerHeap.mem heapTables va = _ at leaves₁
  have leaf₁ (va : Nat) (low : va < 2 ^ 48) : pageEntry callerHeap.mem heapTables va =
      if 0x100000 ≤ va ∧ va < 0x110000 then leafSet 0 (pageBase va) (pagingIsWriteable ||| pagingIsPresent) else 0 := by
    rw [leaves₁ va low, empty]
    rfl
  -- The page is mapped for the caller.
  have mapped : pageEntry callerHeap.mem heapTables 0x104000 ≠ 0 := by
    rw [leaf₁ _ (by decide)]
    decide
  obtain ⟨ledger₂, grown₂, pages₂, -, leaves₂⟩ := pagingMap_spec grown₁.heap pages₁ table_injective 0x104000 allocationFlags
    (pagingMapAllocates_of_leaf mapped)
  change Grown _ _ _ callerPage _ at grown₂
  change PageTables callerPage _ _ _ at pages₂
  change ∀ va, pageEntry callerPage.mem heapTables va = _ at leaves₂
  have kernelLeaf (va : Nat) : entryUserSupervisor (leafSet 0 va (pagingIsWriteable ||| pagingIsPresent)) = false := by
    unfold leafSet
    rw [entryUserSupervisor_set]
    decide
  have held : ledger₂.Holds .other ⟨4, 1⟩ := grown₂.holds (grown₁.holds (others _ ⟨rfl, by decide⟩
    fun path table reached same => by
      have high := (inUse path table reached).2
      rw [same] at high
      exact absurd high (by decide)))
  have same := grown₁.same.trans grown₂.same
  have bytes : callerPage.bytes ⟨4, 1⟩ = Set.Ico 0x104000 0x105000 := same.bytes
  have state : ProcessHeap callerPage ledger₂ newProcess := by
    have geometry := same.geometry
    have eaddr : callerPage.minimal.eaddr = 0x110000 := by
      rw [geometry]
      rfl
    refine ⟨grown₂.heap, pages₂, fun va low high => ?_, rfl, rfl, le_rfl, Or.inl ⟨rfl, rfl⟩⟩
    rw [geometry.saddr] at low
    rw [eaddr] at high
    have low : 0x100000 ≤ va := low
    show pageEntry callerPage.mem heapTables va ≠ 0
    rw [leaves₂]
    split
    · exact leafSet_allocation _ _
    · rw [leaf₁ va (by omega), if_pos ⟨low, high⟩]
      intro null
      have present : entryPresent (leafSet 0 (pageBase va) (pagingIsWriteable ||| pagingIsPresent)) = true := by
        unfold leafSet
        rw [entryPresent_set]
        decide
      rw [null] at present
      cases present
  -- The caller writes to it.
  have written : Frame {.other} callerPage ledger₂ { callerPage with mem := mem } ledger₂ :=
    Frame.of_write grown₂.heap held fun a outside => sameOutside a (bytes ▸ outside)
  have entries (va : Nat) : pageEntry mem heapTables va = pageEntry callerPage.mem heapTables va :=
    (pages₂.frame grown₂.heap written.same (fun path chain => written.holds _ (fun isOther => by cases isOther) chain)
      fun path chain isTable => written.keeps _ (fun isOther => by cases isOther) chain isTable).2 va
  refine ⟨ledger₂, state.frame written (fun path isOther => by cases isOther) fun isOther => (by cases isOther), ?_⟩
  rintro frame ⟨va, -, user, rfl⟩
  have samePage : pageNumber va = pageNumber (va % 2 ^ 48) := by
    unfold pageNumber
    simp only [pagingPageSize]
    omega
  rw [entries, leaves₂] at user
  rw [entries, leaves₂]
  by_cases page : pageNumber va = pageNumber 0x104000
  · rw [if_pos page, entryAddress_leafSet]
    refine ⟨⟨4, 1⟩, held, ?_⟩
    rw [written.same.bytes, bytes]
    exact Set.Subset.refl _
  · rw [if_neg page, pageEntry_page samePage, leaf₁ _ (Nat.mod_lt _ (by norm_num))] at user
    split at user
    · rw [kernelLeaf] at user
      cases user
    · exact absurd user (by decide)

/-- The slots of the process get their memory with the first allocation. -/
theorem slotsGrowDuring_caller : SlotsGrowDuring callerKernel newProcess 0x104000 := by
  intro argc visited counted
  have count : processCountCommandArguments callerKernel.mem 0x104000 = some (1, [0x104000]) := by decide +kernel
  obtain ⟨rfl, rfl⟩ := Prod.mk.inj (Option.some.inj (count.symm.trans counted))
  refine ⟨slotsGrow_null _ rfl, fun argv process' k' allocated i current σ reached => ?_⟩
  have room : (processMalloc callerKernel newProcess 8).map (fun result =>
      (result.2.1.allocations.tElems, result.2.1.allocations.tmElems)) = some (1, 11) := by decide +kernel
  have next : (processMalloc callerKernel newProcess 8).bind (fun result =>
      (processInjectArgument result.1 0 0x104000 ⟨result.2.2, result.2.1, [0x104000]⟩).map fun result =>
        nextArgument result.2.kernel.mem 0x104000) = some 0 := by decide +kernel
  change processMalloc callerKernel newProcess 8 = _ at allocated
  rw [allocated] at room next
  have ends : ∀ i current σ, CopyReaches argv 0x104000 ⟨k', process', [0x104000]⟩ i current σ →
      current = 0 ∨ i = 0 ∧ current = 0x104000 ∧ σ = ⟨k', process', [0x104000]⟩ := by
    intro i current σ reached
    induction reached with
    | start => exact Or.inr ⟨rfl, rfl, rfl⟩
    | turn before more copied ih =>
        obtain ⟨rfl, rfl, rfl⟩ := ih.resolve_left more
        rw [Option.bind_some, copied] at next
        exact Or.inl (Option.some.inj next)
  intro more
  obtain ⟨-, -, rfl⟩ := (ends i current σ reached).resolve_left more
  rw [Option.map_some, Option.some.injEq, Prod.mk.injEq] at room
  intro full
  have elems : process'.allocations.tElems = 1 := room.1
  have capacity : process'.allocations.tmElems = 11 := room.2
  dsimp only at full
  omega

/-- The page of the caller as it starts. -/
theorem sameOutside_callerPage : SameOutside (Set.Ico 0x104000 0x105000) callerPage.mem callerPage.mem := fun _ _ => rfl

/-- The theorem at the argument of this caller. -/
theorem processInjectArguments_caller :
    Injects callerKernel heapTables 0x104000 (processInjectArguments callerKernel newProcess 0x104000) ↔
      ∃ nodes, ArgumentList callerKernel.mem 0x104000 nodes ∧ nodes.length ≤ intMax ∧
        ∀ node ∈ nodes, NodeAccessible callerKernel.mem heapTables node := by
  have written : SameOutside (Set.Ico 0x104000 0x105000) callerPage.mem (put callerPage.mem 0x104000 0x61#8) :=
    sameOutside_callerPage.put (Set.mem_Ico.mpr (by decide)) _
  obtain ⟨ledger, state, callers⟩ := processHeap_callerPage written
  exact processInjectArguments_iff state callers slotsGrowDuring_caller

/-- The same caller, whose argument is followed by itself. -/
def cyclicKernel : Kernel :=
  { callerPage with mem := put (put (put callerPage.mem 0x104000 0x61#8) 0x104201 0x40#8) 0x104202 0x10#8 }

/-- A node that is followed by itself is in no list. -/
theorem not_argumentList_cyclic {mem : Memory} {node : Nat} (nonnull : node ≠ 0) (cyclic : nextArgument mem node = node)
    (nodes : List Nat) : ¬ ArgumentList mem node nodes := by
  induction nodes with
  | nil => exact nonnull
  | cons first rest ih =>
      rintro ⟨rfl, -, isList⟩
      rw [cyclic] at isList
      exact ih isList

/-- **A list without an end in memory of its caller**: the call does not return. -/
theorem processInjectArguments_cyclic : (∃ ledger, ProcessHeap cyclicKernel ledger newProcess ∧
      CallerHeld cyclicKernel ledger heapTables) ∧ NodeAccessible cyclicKernel.mem heapTables 0x104000 ∧
    ¬ Injects cyclicKernel heapTables 0x104000 (processInjectArguments cyclicKernel newProcess 0x104000) := by
  have written : SameOutside (Set.Ico 0x104000 0x105000) callerPage.mem
      (put (put (put callerPage.mem 0x104000 0x61#8) 0x104201 0x40#8) 0x104202 0x10#8) :=
    ((sameOutside_callerPage.put (Set.mem_Ico.mpr (by decide)) _).put (Set.mem_Ico.mpr (by decide)) _).put
      (Set.mem_Ico.mpr (by decide)) _
  refine ⟨processHeap_callerPage written, fun offset inside => ?_, ?_⟩
  · have frame : (0x104000 + offset) / pagingPageSize = 0x104 := by
      simp only [sizeofCommandArgument] at inside
      simp only [pagingPageSize]
      omega
    rw [frame]
    exact ⟨0x104000, by decide +kernel, by decide +kernel, by decide +kernel⟩
  · rintro ⟨result, returned, -⟩
    obtain ⟨nodes, isList, -⟩ := processInjectArguments_counted returned
    exact not_argumentList_cyclic (by decide) (by decide +kernel) nodes isList

end PeachOS
