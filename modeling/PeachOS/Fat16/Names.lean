/-
**Names of directory items.**

`istrncmp` compares the name of an item with a part of a path. On strings that are shorter than its limit it decides
whether they are the same ignoring the case of ASCII letters.

* `istrncmp_eq_zero_iff` — what `istrncmp` decides;
* `fullRelativeFilename_padded` — the name of an item whose fields are padded with blanks;
* `isNamed_iff` — when an item is taken for the one with a name.
-/

import PeachOS.Fat16.Model

namespace PeachOS

/-- **Two strings are the same**, ignoring the case of ASCII letters. -/
def SameName (s1 s2 : List Byte) : Prop := s1.map tolower = s2.map tolower

instance (s1 s2 : List Byte) : Decidable (SameName s1 s2) := inferInstanceAs (Decidable (_ = _))

/-! ### Comparing strings -/

theorem tolower_zero_iff (s1 : Byte) : tolower s1 = 0x00#8 ↔ s1 = 0x00#8 := by
  unfold tolower
  split <;> bv_omega

theorem sameName_cons (u1 u2 : Byte) (s1 s2 : List Byte) :
    SameName (u1 :: s1) (u2 :: s2) ↔ tolower u1 = tolower u2 ∧ SameName s1 s2 := by
  unfold SameName
  rw [List.map_cons, List.map_cons, List.cons.injEq]

/-- One turn of the comparison. -/
theorem istrncmp_succ (s1 s2 : List Byte) (n : Nat) :
    istrncmp s1 s2 (n + 1) = 0 ↔ tolower (s1.headD 0x00#8) = tolower (s2.headD 0x00#8) ∧
      (s1.headD 0x00#8 = 0x00#8 ∨ istrncmp s1.tail s2.tail n = 0) := by
  rw [istrncmp]
  generalize s1.headD 0x00#8 = u1
  generalize s2.headD 0x00#8 = u2
  by_cases same : tolower u1 = tolower u2
  · rw [if_neg fun differ => differ.2 same]
    by_cases ended : u1 = 0x00#8
    · rw [if_pos ended]
      exact ⟨fun _ => ⟨same, Or.inl ended⟩, fun _ => rfl⟩
    · rw [if_neg ended]
      exact ⟨fun rest => ⟨same, Or.inr rest⟩, fun ⟨_, rest⟩ => rest.resolve_left ended⟩
  · have differ : u1 ≠ u2 := fun equal => same (congrArg tolower equal)
    rw [if_pos ⟨differ, same⟩]
    constructor
    · intro equal
      exact absurd (BitVec.eq_of_toNat_eq (by omega)) differ
    · exact fun ⟨equal, _⟩ => absurd equal same

/-- **What `istrncmp` decides**, for a first string that ends before the limit. -/
theorem istrncmp_eq_zero_iff (n : Nat) : ∀ {s1 s2 : List Byte}, 0x00#8 ∉ s1 → 0x00#8 ∉ s2 → s1.length < n →
    (istrncmp s1 s2 n = 0 ↔ SameName s1 s2) := by
  induction n with
  | zero => exact fun _ _ short => absurd short (Nat.not_lt_zero _)
  | succ n hyp =>
      intro s1 s2 noZero noZero' short
      rw [istrncmp_succ]
      cases s1 with
      | nil =>
          cases s2 with
          | nil => exact ⟨fun _ => rfl, fun _ => ⟨rfl, Or.inl rfl⟩⟩
          | cons u2 s2 =>
              have isByte : u2 ≠ 0x00#8 := fun zero => noZero' (zero ▸ List.mem_cons_self)
              constructor
              · rintro ⟨same, _⟩
                exact absurd ((tolower_zero_iff u2).mp same.symm) isByte
              · exact fun same => absurd same (List.cons_ne_nil _ _).symm
      | cons u1 s1 =>
          have isByte : u1 ≠ 0x00#8 := fun zero => noZero (zero ▸ List.mem_cons_self)
          cases s2 with
          | nil =>
              constructor
              · rintro ⟨same, _⟩
                exact absurd ((tolower_zero_iff u1).mp same) isByte
              · exact fun same => absurd same (List.cons_ne_nil _ _)
          | cons u2 s2 =>
              rw [sameName_cons, ← hyp (fun zero => noZero (List.mem_cons_of_mem _ zero))
                (fun zero => noZero' (List.mem_cons_of_mem _ zero)) (Nat.lt_of_succ_lt_succ short)]
              exact and_congr_right fun _ => or_iff_right isByte

/-! ### The name of an item -/

theorem properString_noZero (bytes : List Byte) : 0x00#8 ∉ fat16ToProperString bytes := by
  intro isByte
  have accepted := List.all_eq_true.mp (List.all_takeWhile (l := bytes)) _ isByte
  exact (of_decide_eq_true accepted).1 rfl

theorem properString_length (bytes : List Byte) : (fat16ToProperString bytes).length ≤ bytes.length :=
  (List.takeWhile_prefix _).length_le

/-- What is padded with blanks keeps its other bytes. -/
theorem properString_padded {base : List Byte} (plain : ∀ byte ∈ base, byte ≠ 0x00#8 ∧ byte ≠ 0x20#8) (blanks : Nat) :
    fat16ToProperString (base ++ List.replicate blanks 0x20#8) = base := by
  unfold fat16ToProperString
  rw [List.takeWhile_append_of_pos (fun byte isByte => decide_eq_true (plain byte isByte))]
  cases blanks with
  | zero => exact List.append_nil base
  | succ blanks =>
      rw [List.replicate_succ, List.takeWhile_cons_of_neg (by decide), List.append_nil]

/-- **The name of an item**: its base, a dot and its extension if it has one. -/
theorem fullRelativeFilename_padded {item : FatDirectoryItem} {base ext : List Byte} {blanks blanks' : Nat}
    (plain : ∀ byte ∈ base, byte ≠ 0x00#8 ∧ byte ≠ 0x20#8) (plain' : ∀ byte ∈ ext, byte ≠ 0x00#8 ∧ byte ≠ 0x20#8)
    (isBase : item.filename = base ++ List.replicate blanks 0x20#8) (isExt : item.ext = ext ++ List.replicate blanks' 0x20#8) :
    fat16GetFullRelativeFilename item = if ext = [] then base else base ++ 0x2E#8 :: ext := by
  unfold fat16GetFullRelativeFilename
  rw [isBase, isExt, properString_padded plain, properString_padded plain']
  cases ext with
  | nil =>
      have noExt : ¬ ((([] : List Byte) ++ List.replicate blanks' 0x20#8).headD 0x00#8 ≠ 0x00#8 ∧
          (([] : List Byte) ++ List.replicate blanks' 0x20#8).headD 0x00#8 ≠ 0x20#8) := by
        cases blanks' with
        | zero => exact fun ⟨zero, _⟩ => zero rfl
        | succ blanks' => exact fun ⟨_, blank⟩ => blank rfl
      rw [if_neg noExt, if_pos rfl, List.append_nil]
  | cons first ext =>
      have isExt : (first :: ext ++ List.replicate blanks' 0x20#8).headD 0x00#8 = first := rfl
      rw [isExt, if_pos (plain' first List.mem_cons_self), if_neg (List.cons_ne_nil _ _)]

theorem fullRelativeFilename_noZero (item : FatDirectoryItem) : 0x00#8 ∉ fat16GetFullRelativeFilename item := by
  unfold fat16GetFullRelativeFilename
  rw [List.mem_append]
  rintro (isBase | isExt)
  · exact properString_noZero _ isBase
  · split at isExt
    · rcases List.mem_cons.mp isExt with dot | isExt
      · exact absurd dot (by decide)
      · exact properString_noZero _ isExt
    · exact absurd isExt List.not_mem_nil

theorem fullRelativeFilename_length (item : FatDirectoryItem) :
    (fat16GetFullRelativeFilename item).length ≤ item.filename.length + 1 + item.ext.length := by
  have base := properString_length item.filename
  have ext := properString_length item.ext
  unfold fat16GetFullRelativeFilename
  rw [List.length_append]
  split
  · rw [List.length_cons]
    omega
  · rw [List.length_nil]
    omega

/-- **When an item is taken for the one with a name**: when they are the same, ignoring case. -/
theorem isNamed_iff (bytes : Nat → Byte) (name : CString) :
    isNamed (fatDirectoryItem bytes) name ↔ SameName (fat16GetFullRelativeFilename (fatDirectoryItem bytes)) name.bytes := by
  have short := fullRelativeFilename_length (fatDirectoryItem bytes)
  have fields : (fatDirectoryItem bytes).filename.length = 8 ∧ (fatDirectoryItem bytes).ext.length = 3 := by
    unfold fatDirectoryItem
    exact ⟨by rw [List.length_map, List.length_range], by rw [List.length_map, List.length_range]⟩
  exact istrncmp_eq_zero_iff _ (fullRelativeFilename_noZero _) name.noZero (by unfold peachosMaxPath; omega)

end PeachOS
