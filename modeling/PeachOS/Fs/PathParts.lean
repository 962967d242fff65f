/-
**The parts of a path: `pathparser_parse` of `fs/pparser.c`.**

The list of parts ends at the first one that `pathparser_get_path_part` does not return, be it because there are no more,
because it is empty or because it could not be allocated. What follows is dropped, and the path is accepted all the same.

* `pathPartStores_eq` — a part is copied to the start of its buffer;
* `parts_eq_takeParts` — the parts are the first components, as far as they are not empty and can be allocated;
* `takeParts_eq_filter_iff` — when these are all;
* `parsesPath_iff` — when a path is parsed as it should be.
-/

import PeachOS.Fs.Model
import Mathlib.Data.List.GetD
import Mathlib.Data.List.TakeWhile

namespace PeachOS

open ByteStore

/-! ### What is stored -/

/-- The loop of `pathparser_get_path_part`: the bytes that it stores, with their indices in `result_path_part`. -/
def pathPartStores : (path : List Byte) → (i : Nat) → List (Byte × Nat)
  | [], _ => []
  | byte :: path, i => if byte ≠ 0x2F#8 then (byte, i) :: pathPartStores path (i + 1) else []

/-- `result_path_part` after the loop. The allocation has zeroed it. -/
def resultPathPart (path : List Byte) : Store Byte :=
  (pathPartStores path 0).foldl (fun buffer store => put buffer store.2 store.1) fun _ => 0x00#8

/-- What `pathparser_parse` stores in the buffers of the parts, in its turns over the path. -/
def pathparserPartsStores (memory : Nat → Bool) : (fuel : Nat) → (allocation : Nat) → (path : CString) → List (List (Byte × Nat))
  | 0, _, _ => []
  | fuel + 1, allocation, path =>
      if !memory allocation then []
      else
        pathPartStores path.bytes 0 ::
          if path.part.bytes = [] then []
          else if !memory (allocation + 1) then []
          else pathparserPartsStores memory fuel (allocation + 2) (path.drop (path.part.bytes.length + 1))

/-- What `pathparser_parse` stores in the buffers of the parts. -/
def pathparserParseStores (primaryFsDisk : Option Nat) (memory : Nat → Bool) (path : CString) : List (List (Byte × Nat)) :=
  if path.bytes.length > peachosMaxPath then []
  else if pathparserGetDriveByPath primaryFsDisk path = none then []
  else if !memory 0 then []
  else pathparserPartsStores memory path.bytes.length 1 (path.drop 3)

/-! ### What is asked for -/

/-- What is between the slashes after the prefix. -/
def slashSeparated (path : CString) : List (List Byte) := (path.bytes.drop 3).splitOn 0x2F#8

/-- The drive of a path: its digit, or the primary disk for `@`. -/
def IsDrive (primaryFsDisk : Option Nat) (path : CString) (driveNo : Nat) : Prop :=
  (path.bytes.head? = some 0x40#8 ∧ primaryFsDisk = some driveNo) ∨
    (driveNo < 10 ∧ path.bytes.head? = some (BitVec.ofNat 8 (48 + driveNo)))

/-- A digit, `:/`, and parts that are joined by single slashes. -/
def WellFormedPath (path : CString) : Prop :=
  ∃ digit < 10, ∃ parts : List (List Byte), parts ≠ [] ∧ (∀ part ∈ parts, part ≠ [] ∧ 0x2F#8 ∉ part) ∧
    path.bytes = BitVec.ofNat 8 (48 + digit) :: 0x3A#8 :: 0x2F#8 :: [0x2F#8].intercalate parts

/-- **A path is parsed as it should be**: the copies stay in their buffers, a path that is accepted has its drive and all its
parts, and a well-formed path is accepted if there is memory. -/
structure ParsesPath (primaryFsDisk : Option Nat) (memory : Nat → Bool) (path : CString) : Prop where
  inside : ∀ stores ∈ pathparserParseStores primaryFsDisk memory path, ∀ store ∈ stores, store.2 < peachosMaxPath
  drive : ∀ root, pathparserParse primaryFsDisk memory path = some root → IsDrive primaryFsDisk path root.driveNo
  parts : ∀ root, pathparserParse primaryFsDisk memory path = some root →
    root.first.map CString.bytes = (slashSeparated path).filter (· ≠ [])
  accepts : WellFormedPath path → (∀ allocation, memory allocation = true) →
    ∃ root, pathparserParse primaryFsDisk memory path = some root

/-- The path is refused: it has no drive, or no first part. -/
def PathRefused (primaryFsDisk : Option Nat) (memory : Nat → Bool) (path : CString) : Prop :=
  pathparserGetDriveByPath primaryFsDisk path = none ∨ memory 0 = false ∨ memory 1 = false ∨ memory 2 = false ∨
    (slashSeparated path).getD 0 [] = []

/-- **Every component is reached**: in front of one that is not empty there is none that is, and all allocations succeed. -/
def AllReached (memory : Nat → Bool) (allocation : Nat) (components : List (List Byte)) : Prop :=
  ∀ n, components.getD n [] ≠ [] → ∀ j ≤ n,
    components.getD j [] ≠ [] ∧ memory (allocation + 2 * j) = true ∧ memory (allocation + 2 * j + 1) = true

/-! ### The copies -/

/-- **A part is copied to the start of its buffer.** -/
theorem pathPartStores_eq (path : List Byte) : ∀ i : Nat,
    pathPartStores path i = (path.takeWhile fun byte => byte ≠ 0x2F#8).zipIdx i := by
  induction path with
  | nil => exact fun _ => rfl
  | cons byte path ih =>
      intro i
      rw [pathPartStores]
      by_cases taken : byte ≠ 0x2F#8
      · rw [if_pos taken, List.takeWhile_cons_of_pos (p := fun byte : Byte => byte ≠ 0x2F#8) (decide_eq_true taken),
          List.zipIdx_cons, ih]
      · rw [if_neg taken, List.takeWhile_cons_of_neg (by rw [decide_eq_true_eq]; exact taken)]
        rfl

theorem foldl_put_zipIdx (bytes : List Byte) : ∀ (buffer : Store Byte) (i : Nat),
    (bytes.zipIdx i).foldl (fun buffer store => put buffer store.2 store.1) buffer = blit buffer i bytes := by
  induction bytes with
  | nil => exact fun _ _ => rfl
  | cons byte bytes ih =>
      intro buffer i
      rw [List.zipIdx_cons, List.foldl_cons, ih, blit]

/-- **The buffer of a part is its string**: the bytes in front of the slash, and zeros. -/
theorem resultPathPart_eq (path : CString) : resultPathPart path.bytes = blit (fun _ => 0x00#8) 0 path.part.bytes := by
  rw [resultPathPart, pathPartStores_eq]
  exact foldl_put_zipIdx _ _ _

theorem part_bytes (path : CString) : path.part.bytes = path.bytes.takeWhile fun byte => byte ≠ 0x2F#8 := rfl

theorem drop_bytes (path : CString) (count : Nat) : (path.drop count).bytes = path.bytes.drop count := rfl

theorem part_length_le (path : CString) : path.part.bytes.length ≤ path.bytes.length := (List.takeWhile_prefix _).length_le

theorem pathPartStores_inside {path : CString} {max : Nat} (short : path.bytes.length ≤ max) :
    ∀ store ∈ pathPartStores path.bytes 0, store.2 < max := by
  intro store isStore
  rw [pathPartStores_eq, ← part_bytes] at isStore
  have bound := (List.mem_zipIdx isStore).2.1
  have partLength := part_length_le path
  omega

/-- The copies of all turns stay in the buffers. -/
theorem partsStores_inside (memory : Nat → Bool) (fuel max : Nat) : ∀ {allocation : Nat} {path : CString},
    path.bytes.length ≤ max → ∀ stores ∈ pathparserPartsStores memory fuel allocation path, ∀ store ∈ stores, store.2 < max := by
  induction fuel with
  | zero => exact fun _ stores isStores => absurd isStores List.not_mem_nil
  | succ fuel ih =>
      intro allocation path short stores isStores
      rw [pathparserPartsStores] at isStores
      split at isStores
      · exact absurd isStores List.not_mem_nil
      · rcases List.mem_cons.mp isStores with first | others
        · rw [first]
          exact pathPartStores_inside short
        · split at others
          · exact absurd others List.not_mem_nil
          · split at others
            · exact absurd others List.not_mem_nil
            · refine ih ?_ stores others
              rw [drop_bytes, List.length_drop]
              omega

/-! ### The parts -/

/-- The first components, as far as they are not empty and can be allocated. -/
def takeParts (memory : Nat → Bool) : (allocation : Nat) → List (List Byte) → List (List Byte)
  | _, [] => []
  | allocation, component :: components =>
      if memory allocation = true ∧ component ≠ [] ∧ memory (allocation + 1) = true then
        component :: takeParts memory (allocation + 2) components
      else []

/-- One turn of the parser, over the components. -/
theorem splitOn_part (path : CString) :
    path.bytes.splitOn 0x2F#8 = [path.part.bytes] ∧ (path.drop (path.part.bytes.length + 1)).bytes = [] ∨
      path.bytes.splitOn 0x2F#8 =
        path.part.bytes :: (path.drop (path.part.bytes.length + 1)).bytes.splitOn 0x2F#8 := by
  rw [drop_bytes, part_bytes]
  generalize path.bytes = bytes
  by_cases hasSlash : 0x2F#8 ∈ bytes
  · obtain ⟨part, rest, rfl, noSlash⟩ := List.eq_append_cons_of_mem hasSlash
    have taken : ((part ++ 0x2F#8 :: rest).takeWhile fun byte => byte ≠ 0x2F#8) = part := by
      have noSlashes : ∀ byte ∈ part, decide (byte ≠ 0x2F#8) = true := by
        intro byte isPart
        refine decide_eq_true fun isSlash => noSlash ?_
        rwa [← isSlash]
      rw [List.takeWhile_append_of_pos noSlashes,
        List.takeWhile_cons_of_neg (by decide), List.append_nil]
    refine Or.inr ?_
    rw [taken, List.splitOn_append_cons_self_of_not_mem noSlash, ← List.drop_drop, List.drop_left]
    rfl
  · have taken : (bytes.takeWhile fun byte => byte ≠ 0x2F#8) = bytes :=
      List.takeWhile_eq_self_iff.mpr fun byte isByte => decide_eq_true fun slash => hasSlash (slash ▸ isByte)
    refine Or.inl ?_
    rw [taken]
    exact ⟨List.splitOn_eq_singleton hasSlash, List.drop_eq_nil_of_le (Nat.le_succ _)⟩

/-- There is nothing behind the last component. -/
theorem parseParts_nil (memory : Nat → Bool) (fuel allocation : Nat) {path : CString} (ended : path.bytes = []) :
    pathparserParseParts memory fuel allocation path = [] := by
  have noPart : path.part.bytes = [] := by
    rw [part_bytes, ended]
    rfl
  cases fuel with
  | zero => rfl
  | succ fuel =>
      rw [pathparserParseParts, if_pos noPart]
      split <;> rfl

/-- **The parts are the first components**, as far as they are not empty and can be allocated. -/
theorem parts_eq_takeParts (memory : Nat → Bool) (fuel : Nat) : ∀ {allocation : Nat} {path : CString}, path.bytes.length < fuel →
    (pathparserParseParts memory fuel allocation path).map CString.bytes =
      takeParts memory allocation (path.bytes.splitOn 0x2F#8) := by
  induction fuel with
  | zero => exact fun short => absurd short (Nat.not_lt_zero _)
  | succ fuel ih =>
      intro allocation path short
      have first : ∃ components, path.bytes.splitOn 0x2F#8 = path.part.bytes :: components ∧
          (path.part.bytes ≠ [] →
            (pathparserParseParts memory fuel (allocation + 2) (path.drop (path.part.bytes.length + 1))).map CString.bytes =
              takeParts memory (allocation + 2) components) := by
        rcases splitOn_part path with ⟨last, ended⟩ | more
        · refine ⟨[], last, fun _ => ?_⟩
          rw [parseParts_nil memory fuel _ ended]
          rfl
        · refine ⟨_, more, fun isPart => ih ?_⟩
          have partLength := part_length_le path
          have positive := List.length_pos_iff.mpr isPart
          rw [drop_bytes, List.length_drop]
          omega
      obtain ⟨components, isSplit, others⟩ := first
      rw [isSplit, takeParts, pathparserParseParts]
      by_cases hasBuffer : memory allocation = true
      · rw [hasBuffer, Bool.not_true, if_neg Bool.false_ne_true]
        by_cases isPart : path.part.bytes = []
        · rw [if_pos isPart, if_neg fun taken => taken.2.1 isPart]
          rfl
        · rw [if_neg isPart]
          by_cases hasItem : memory (allocation + 1) = true
          · rw [hasItem, Bool.not_true, if_neg Bool.false_ne_true, if_pos ⟨rfl, isPart, rfl⟩, List.map_cons, others isPart]
          · rw [Bool.not_eq_true] at hasItem
            rw [hasItem, Bool.not_false, if_pos rfl, if_neg fun taken => absurd taken.2.2 Bool.false_ne_true]
            rfl
      · rw [Bool.not_eq_true] at hasBuffer
        rw [hasBuffer, Bool.not_false, if_pos rfl, if_neg fun taken => absurd taken.1 Bool.false_ne_true]
        rfl

theorem getD_mem {components : List (List Byte)} {n : Nat} (isComponent : components.getD n [] ≠ []) :
    components.getD n [] ∈ components := by
  by_cases inside : n < components.length
  · rw [List.getD_eq_getElem _ _ inside]
    exact List.getElem_mem inside
  · exact absurd (List.getD_eq_default _ _ (not_lt.mp inside)) isComponent

/-- Nothing is reached behind an end of the list, so nothing may be there. -/
theorem allReached_cons (memory : Nat → Bool) (allocation : Nat) (component : List Byte) (components : List (List Byte)) :
    AllReached memory allocation (component :: components) ↔
      if memory allocation = true ∧ component ≠ [] ∧ memory (allocation + 1) = true then
        AllReached memory (allocation + 2) components
      else ∀ other ∈ component :: components, other = [] := by
  by_cases taken : memory allocation = true ∧ component ≠ [] ∧ memory (allocation + 1) = true
  · rw [if_pos taken]
    have number : ∀ j, allocation + 2 * (j + 1) = allocation + 2 + 2 * j := fun j => by omega
    constructor
    · intro reached n isComponent j before
      have next := reached (n + 1) isComponent (j + 1) (Nat.succ_le_succ before)
      rwa [number] at next
    · intro reached n isComponent j before
      cases j with
      | zero => exact ⟨taken.2.1, taken.1, taken.2.2⟩
      | succ j =>
          cases n with
          | zero => exact absurd before (Nat.not_succ_le_zero j)
          | succ n =>
              rw [number]
              exact reached n isComponent j (Nat.le_of_succ_le_succ before)
  · rw [if_neg taken]
    constructor
    · intro reached other isComponent
      by_contra notEmpty
      obtain ⟨n, isOther⟩ := List.mem_iff_getElem?.mp isComponent
      have here : (component :: components).getD n [] = other := by
        rw [List.getD_eq_getElem?_getD, isOther, Option.getD_some]
      have first := reached n (by rw [here]; exact notEmpty) 0 (Nat.zero_le n)
      exact taken ⟨first.2.1, first.1, first.2.2⟩
    · exact fun empty n isComponent => absurd (empty _ (getD_mem isComponent)) isComponent

/-- **When the parts are all components that are not empty.** -/
theorem takeParts_eq_filter_iff (memory : Nat → Bool) (components : List (List Byte)) : ∀ allocation : Nat,
    takeParts memory allocation components = components.filter (· ≠ []) ↔ AllReached memory allocation components := by
  induction components with
  | nil =>
      intro allocation
      exact iff_of_true rfl fun n isComponent => absurd rfl isComponent
  | cons component components ih =>
      intro allocation
      rw [allReached_cons, takeParts]
      by_cases taken : memory allocation = true ∧ component ≠ [] ∧ memory (allocation + 1) = true
      · rw [if_pos taken, if_pos taken, List.filter_cons_of_pos (p := (· ≠ [])) (decide_eq_true taken.2.1), List.cons.injEq, ih]
        exact and_iff_right rfl
      · rw [if_neg taken, if_neg taken, eq_comm, List.filter_eq_nil_iff]
        exact forall₂_congr fun other _ => by rw [decide_eq_true_eq, not_not]

/-! ### Paths -/

section Paths

variable {primaryFsDisk : Option Nat} {memory : Nat → Bool} {path : CString}

/-- **The drive is the one that the path names**, and the path is long enough for the prefix. -/
theorem isDrive_of_some {driveNo : Nat} (isSome : pathparserGetDriveByPath primaryFsDisk path = some driveNo) :
    IsDrive primaryFsDisk path driveNo ∧ 3 ≤ path.bytes.length := by
  unfold pathparserGetDriveByPath at isSome
  cases valid : pathparserPathValidFormat path with
  | false =>
      rw [valid] at isSome
      exact absurd isSome (Option.some_ne_none _).symm
  | true =>
      rw [valid, Bool.not_true, if_neg Bool.false_ne_true] at isSome
      unfold pathparserPathValidFormat at valid
      obtain ⟨long, first, -, -⟩ := of_decide_eq_true valid
      have long : 3 ≤ path.bytes.length := long.trans (Nat.min_le_left _ _)
      obtain ⟨c, rest, isPath⟩ := List.exists_cons_of_length_pos (Nat.lt_of_lt_of_le (by decide) long)
      have isFirst : path.bytes.getD 0 0x00#8 = c := by rw [isPath]; rfl
      have isHead : path.bytes.head? = some c := by rw [isPath]; rfl
      rw [isFirst] at isSome first
      refine ⟨?_, long⟩
      by_cases primary : c = 0x40#8
      · rw [if_pos primary] at isSome
        exact Or.inl ⟨by rw [isHead, primary], isSome⟩
      · rw [if_neg primary, Option.some.injEq] at isSome
        have digit := of_decide_eq_true (first.resolve_right primary)
        have value : driveNo + 48 = c.toNat := by
          rw [← isSome]
          unfold tonumericdigit
          omega
        refine Or.inr ⟨by omega, ?_⟩
        rw [isHead, Nat.add_comm, value, BitVec.ofNat_toNat, BitVec.setWidth_eq]

/-- The components are not none, so there is a first one. -/
theorem slashSeparated_cons (path : CString) : ∃ component components, slashSeparated path = component :: components :=
  List.exists_cons_of_ne_nil (List.splitOn_ne_nil _ _)

/-- The parts of a path behind its prefix. -/
theorem parse_parts (memory : Nat → Bool) (long : 3 ≤ path.bytes.length) :
    (pathparserParseParts memory path.bytes.length 1 (path.drop 3)).map CString.bytes =
    takeParts memory 1 (slashSeparated path) := by
  refine parts_eq_takeParts memory path.bytes.length ?_
  rw [drop_bytes, List.length_drop]
  omega

theorem parse_refused (refused : PathRefused primaryFsDisk memory path) : pathparserParse primaryFsDisk memory path = none := by
  unfold pathparserParse
  split
  · rfl
  · cases isDrive : pathparserGetDriveByPath primaryFsDisk path with
    | none => rfl
    | some driveNo =>
        have long := (isDrive_of_some isDrive).2
        have parts := parse_parts memory long
        obtain ⟨component, components, isSplit⟩ := slashSeparated_cons path
        rw [isSplit, takeParts] at parts
        unfold PathRefused at refused
        rw [isDrive, isSplit, List.getD_cons_zero] at refused
        dsimp only
        by_cases hasRoot : memory 0 = true
        · have noFirst : ¬ (memory 1 = true ∧ component ≠ [] ∧ memory (1 + 1) = true) := by
            rintro ⟨hasBuffer, isPart, hasItem⟩
            rcases refused with noDrive | noRoot | noBuffer | noItem | noPart
            · exact absurd noDrive (Option.some_ne_none _)
            · exact absurd hasRoot (by rw [noRoot]; exact Bool.false_ne_true)
            · exact absurd hasBuffer (by rw [noBuffer]; exact Bool.false_ne_true)
            · exact absurd hasItem (by rw [noItem]; exact Bool.false_ne_true)
            · exact isPart noPart
          rw [if_neg noFirst, List.map_eq_nil_iff] at parts
          rw [hasRoot, Bool.not_true, if_neg Bool.false_ne_true, if_pos parts]
        · rw [Bool.not_eq_true] at hasRoot
          rw [hasRoot, Bool.not_false, if_pos rfl]

/-- **A path that is not refused** has the drive it names, and the parts are the first components. -/
theorem parse_accepted (short : path.bytes.length ≤ peachosMaxPath) (accepted : ¬ PathRefused primaryFsDisk memory path) :
    ∃ root, pathparserParse primaryFsDisk memory path = some root ∧ IsDrive primaryFsDisk path root.driveNo ∧
      root.first.map CString.bytes = takeParts memory 1 (slashSeparated path) := by
  unfold PathRefused at accepted
  push Not at accepted
  obtain ⟨hasDrive, hasRoot, hasBuffer, hasItem, isPart⟩ := accepted
  rw [ne_eq, Bool.not_eq_false] at hasRoot hasBuffer hasItem
  obtain ⟨driveNo, isDrive⟩ := Option.ne_none_iff_exists'.mp hasDrive
  have long := (isDrive_of_some isDrive).2
  have parts := parse_parts memory long
  have hasFirst : pathparserParseParts memory path.bytes.length 1 (path.drop 3) ≠ [] := by
    obtain ⟨component, components, isSplit⟩ := slashSeparated_cons path
    rw [isSplit, List.getD_cons_zero] at isPart
    intro noParts
    rw [noParts, isSplit, takeParts, if_pos ⟨hasBuffer, isPart, hasItem⟩] at parts
    exact absurd parts (List.cons_ne_nil _ _).symm
  refine ⟨⟨driveNo, pathparserParseParts memory path.bytes.length 1 (path.drop 3)⟩, ?_, (isDrive_of_some isDrive).1, parts⟩
  unfold pathparserParse
  rw [if_neg (not_lt.mpr short), isDrive]
  dsimp only
  rw [hasRoot, Bool.not_true, if_neg Bool.false_ne_true, if_neg hasFirst]

/-- A well-formed path is not refused. -/
theorem not_refused_of_wellFormed (wellFormed : WellFormedPath path) (hasMemory : ∀ allocation, memory allocation = true) :
    ¬ PathRefused primaryFsDisk memory path := by
  obtain ⟨digit, isDigit, parts, hasParts, plain, isPath⟩ := wellFormed
  have value : (BitVec.ofNat 8 (48 + digit)).toNat = 48 + digit := by
    rw [BitVec.toNat_ofNat]
    omega
  have isSplit : slashSeparated path = parts := by
    unfold slashSeparated
    rw [isPath]
    exact List.splitOn_intercalate _ (fun part isPart => (plain part isPart).2) hasParts
  have valid : pathparserPathValidFormat path = true := by
    unfold pathparserPathValidFormat
    rw [isPath]
    refine decide_eq_true ⟨?_, Or.inl (decide_eq_true ?_), rfl, rfl⟩
    · simp only [List.length_cons]
      unfold peachosMaxPath
      omega
    · rw [List.getD_cons_zero, value]
      omega
  have hasDrive : pathparserGetDriveByPath primaryFsDisk path ≠ none := by
    have noPrimary : path.bytes.getD 0 0x00#8 ≠ 0x40#8 := by
      rw [isPath, List.getD_cons_zero]
      intro primary
      rw [primary] at value
      have sixtyFour : (0x40#8).toNat = 64 := rfl
      omega
    unfold pathparserGetDriveByPath
    rw [valid, Bool.not_true, if_neg Bool.false_ne_true, if_neg noPrimary]
    exact Option.some_ne_none _
  rintro (noDrive | noMemory | noMemory | noMemory | noPart)
  · exact hasDrive noDrive
  · exact absurd (hasMemory 0) (by rw [noMemory]; exact Bool.false_ne_true)
  · exact absurd (hasMemory 1) (by rw [noMemory]; exact Bool.false_ne_true)
  · exact absurd (hasMemory 2) (by rw [noMemory]; exact Bool.false_ne_true)
  · obtain ⟨part, others, isParts⟩ := List.exists_cons_of_ne_nil hasParts
    rw [isSplit, isParts, List.getD_cons_zero] at noPart
    exact (plain part (isParts ▸ List.mem_cons_self)).1 noPart

/-- The copies of `pathparser_parse` stay in the buffers of the parts, for every path. -/
theorem parseStores_inside (primaryFsDisk : Option Nat) (memory : Nat → Bool) (path : CString) :
    ∀ stores ∈ pathparserParseStores primaryFsDisk memory path, ∀ store ∈ stores, store.2 < peachosMaxPath := by
  unfold pathparserParseStores
  intro stores isStores
  split at isStores
  · exact absurd isStores List.not_mem_nil
  · next short =>
      split at isStores
      · exact absurd isStores List.not_mem_nil
      · split at isStores
        · exact absurd isStores List.not_mem_nil
        · refine partsStores_inside memory _ _ ?_ stores isStores
          rw [drop_bytes, List.length_drop]
          omega

end Paths

/-- **When a path is parsed as it should be**: when it is refused, or every component that is not empty is reached. -/
theorem parsesPath_iff (primaryFsDisk : Option Nat) (memory : Nat → Bool) {path : CString}
    (short : path.bytes.length ≤ peachosMaxPath) :
    ParsesPath primaryFsDisk memory path ↔
      PathRefused primaryFsDisk memory path ∨ AllReached memory 1 (slashSeparated path) := by
  by_cases refused : PathRefused primaryFsDisk memory path
  · have isNone := parse_refused refused
    refine iff_of_true ⟨parseStores_inside _ _ _, fun root isRoot => ?_, fun root isRoot => ?_, fun wellFormed hasMemory => ?_⟩
      (Or.inl refused)
    · exact absurd (isNone.symm.trans isRoot) (Option.some_ne_none _).symm
    · exact absurd (isNone.symm.trans isRoot) (Option.some_ne_none _).symm
    · exact absurd refused (not_refused_of_wellFormed wellFormed hasMemory)
  · obtain ⟨root, isRoot, isDrive, parts⟩ := parse_accepted short refused
    have sameRoot : ∀ root', pathparserParse primaryFsDisk memory path = some root' → root' = root := fun root' isRoot' =>
      Option.some.inj (isRoot'.symm.trans isRoot)
    rw [or_iff_right refused, ← takeParts_eq_filter_iff]
    constructor
    · intro parses
      rw [← parts]
      exact parses.parts root isRoot
    · intro whole
      refine ⟨parseStores_inside _ _ _, fun root' isRoot' => ?_, fun root' isRoot' => ?_, fun _ _ => ⟨root, isRoot⟩⟩
      · rw [sameRoot root' isRoot']
        exact isDrive
      · rw [sameRoot root' isRoot', parts]
        exact whole

/-- `0:/a/b`. -/
def pathAB : CString := ⟨[0x30#8, 0x3A#8, 0x2F#8, 0x61#8, 0x2F#8, 0x62#8], by decide⟩

/-- `0:/a//b`. -/
def pathASlashB : CString := ⟨[0x30#8, 0x3A#8, 0x2F#8, 0x61#8, 0x2F#8, 0x2F#8, 0x62#8], by decide⟩

/-- All components of the first are reached. -/
theorem parsesPath_ab : ParsesPath none (fun _ => true) pathAB := by
  refine (parsesPath_iff none (fun _ => true) (by decide)).mpr (Or.inr ?_)
  have components : slashSeparated pathAB = [[0x61#8], [0x62#8]] := by decide
  rw [components, ← takeParts_eq_filter_iff]
  decide

/-- **A component is lost**: `0:/a//b` is accepted as `0:/a`. -/
theorem component_lost : ¬ ParsesPath none (fun _ => true) pathASlashB := by
  intro parses
  have isRoot : (pathparserParse none (fun _ => true) pathASlashB).map (fun root => root.first.map CString.bytes) =
      some [[0x61#8]] := by decide
  obtain ⟨root, parsed, isParts⟩ := Option.map_eq_some_iff.mp isRoot
  have whole := parses.parts root parsed
  rw [isParts] at whole
  exact absurd whole (by decide)

end PeachOS
