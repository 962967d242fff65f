/-
**What a read of the NVMe driver delivers.**

A command of the driver reaches two pages at most, so its data arrives in the buffer when the buffer has room for it there. A
buffer that starts inside a page lacks that room from its fifteenth or sixteenth sector on: the command is then shortened and
the rest of it never read, or, for a buffer between sectors, its second entry is taken for a list of pages, and data goes to
wherever the bytes of the buffer point.

* `nvmeIoCommand_transfer` — a command whose pages suffice, or that is shortened to whole sectors, fills the buffer in order;
* `nvmeReadLoop_delivers` — a read whose commands all have room delivers every sector, and writes nothing else;
* `nvmeDiskDriverRead_iff` — that is so exactly for buffers at a dword that start a page, or end in the next one;
* `nvmeDiskDriverRead_shortens` — sixteen sectors to a buffer one sector into its page.
-/

import PeachOS.Disk.Nvme
import Mathlib.Order.Interval.Set.Basic

namespace PeachOS

open ByteStore

section Command

variable {opcode nsid lba nlb buf : Nat} {mem : Memory} {disk : Nat → Byte}

/-! ### The command -/

theorem nvmeIoCommand_prp1 : (nvmeIoCommand opcode nsid lba nlb buf).prp1 = buf :=
  Nat.mod_add_div buf (2 ^ 32)

theorem nvmeIoCommand_slba : (nvmeIoCommand opcode nsid lba nlb buf).slba = lba :=
  Nat.mod_add_div lba (2 ^ 32)

/-- The blocks of a command: all that its two pages have room for, rounded up. -/
theorem nvmeIoCommand_blocks (some_ : 1 ≤ nlb) (few : nlb ≤ 16) :
    (nvmeIoCommand opcode nsid lba nlb buf).blocks = (min (nlb * 512) (8192 - buf % 4096) + 511) / 512 := by
  have inPage : buf % 4096 < 4096 := Nat.mod_lt _ (by decide)
  have some_ : 1 ≤ min (nlb * 512) (8192 - buf % 4096) := by omega
  have second : (nvmeSecondPage nlb buf).2 = (min (nlb * 512) (8192 - buf % 4096) + 511) / 512 := by
    unfold nvmeSecondPage nvmeFirstSpan nvmeSectorSize
    generalize buf % 4096 = into at inPage ⊢
    dsimp only
    by_cases leaves : nlb * 512 ≤ 4096 - into
    · rw [min_eq_right leaves, if_neg (lt_irrefl _), min_eq_left (by omega)]
      omega
    · have described : 4096 - into + min (nlb * 512 - (4096 - into)) 4096 = min (nlb * 512) (8192 - into) := by omega
      rw [min_eq_left (by omega), if_pos (by omega), described]
      rfl
  have count : (nvmeIoCommand opcode nsid lba nlb buf).commandCdw2 = toUInt32 ((nvmeSecondPage nlb buf).2 - 1) := rfl
  unfold NvmeCommand.blocks toUInt32 at *
  rw [count, second]
  have few : min (nlb * 512) (8192 - buf % 4096) ≤ 8192 := by omega
  generalize min (nlb * 512) (8192 - buf % 4096) = bytes at some_ few ⊢
  omega

/-- The second entry, when there is one: the page behind the first. -/
theorem nvmeIoCommand_prp2 (leaves : 4096 - buf % 4096 < nlb * 512) (fits : buf + nlb * 512 ≤ 2 ^ 64) :
    (nvmeIoCommand opcode nsid lba nlb buf).prp2 = buf + (4096 - buf % 4096) := by
  have second : (nvmeSecondPage nlb buf).1 = buf + (4096 - buf % 4096) := by
    have span : nvmeFirstSpan nlb buf = 4096 - buf % 4096 := min_eq_left leaves.le
    simp only [nvmeSecondPage, span]
    rw [if_pos leaves]
    exact_mod_cast toWord_natCast (show buf + (4096 - buf % 4096) < 2 ^ 64 by omega)
  exact (Nat.mod_add_div _ (2 ^ 32)).trans second

/-- **A command fills its buffer in order**, as far as its two pages go, when they are enough or end with a sector. -/
theorem nvmeIoCommand_transfer (opcode nsid lba : Nat) (mem : Memory) (disk : Nat → Byte) (aligned : buf % 4 = 0)
    (some_ : 1 ≤ nlb) (few : nlb ≤ 16) (fits : buf + nlb * 512 ≤ 2 ^ 64)
    (direct : buf % 512 = 0 ∨ buf % 4096 + nlb * 512 ≤ 8192) :
    (nvmeTransfer disk (nvmeIoCommand opcode nsid lba nlb buf) mem).length = min (nlb * 512) (8192 - buf % 4096) ∧
      ∀ i < min (nlb * 512) (8192 - buf % 4096),
        (nvmeTransfer disk (nvmeIoCommand opcode nsid lba nlb buf) mem).place i = buf + i := by
  have length : (nvmeIoCommand opcode nsid lba nlb buf).blocks * 512 = min (nlb * 512) (8192 - buf % 4096) := by
    rw [nvmeIoCommand_blocks some_ few]
    omega
  refine ⟨length, fun i below => ?_⟩
  show nvmePlace _ mem i = buf + i
  unfold nvmePlace
  simp only [nvmeIoCommand_prp1, aligned, Nat.sub_zero]
  split
  · rfl
  · rw [if_pos (by rw [length]; omega), nvmeIoCommand_prp2 (by omega) fits, prpPage]
    omega

end Command

/-! ### The loop -/

section Loop

variable {device : NvmeDevice} {nsid : Nat} {disk : Nat → Byte}

/-- One command of the loop, when it returns zero. -/
theorem nvmeIoSubmitAndPoll_read {opcode lba nlb buf : Nat} {σ : NvmeState} (executes : device.Executes disk)
    (done : (nvmeIoSubmitAndPoll device nsid opcode lba nlb buf σ).1 = 0) :
    (nvmeIoSubmitAndPoll device nsid opcode lba nlb buf σ).2 =
      σ.transfer (nvmeTransfer disk (nvmeIoCommand opcode nsid lba nlb buf) σ.mem) := by
  unfold nvmeIoSubmitAndPoll at done ⊢
  dsimp only at done ⊢
  cases status : (device σ.transfers.length (nvmeIoCommand opcode nsid lba nlb buf) σ.mem).status with
  | none =>
      rw [status] at done
      exact absurd (show etimeout = 0 from done) (by decide)
  | some code =>
      rw [status] at done
      dsimp only at done ⊢
      have success : code = 0 := by
        by_contra failed
        rw [if_neg failed] at done
        exact absurd (show eio = 0 from done) (by decide)
      rw [executes _ _ _ (status.trans (congrArg some success))]

/-- A command returns zero or an error. -/
theorem nvmeIoSubmitAndPoll_res (device : NvmeDevice) (nsid opcode lba nlb buf : Nat) (σ : NvmeState) :
    (nvmeIoSubmitAndPoll device nsid opcode lba nlb buf σ).1 = 0 ∨
      (nvmeIoSubmitAndPoll device nsid opcode lba nlb buf σ).1 < 0 := by
  unfold nvmeIoSubmitAndPoll
  dsimp only
  split
  · exact Or.inr (show etimeout < 0 by decide)
  · split
    · exact Or.inl rfl
    · exact Or.inr (show eio < 0 by decide)

variable {slba p remaining : Nat} {σ : NvmeState}

/-- The last round of the loop. -/
theorem nvmeReadLoop_last (more : 0 < remaining) (few : remaining ≤ 16) :
    nvmeReadLoop device nsid slba p σ remaining = nvmeIoSubmitAndPoll device nsid nvmeOpcodeRead slba remaining p σ := by
  rw [nvmeReadLoop, if_neg more.ne', min_eq_left few]
  have res := nvmeIoSubmitAndPoll_res device nsid nvmeOpcodeRead slba remaining p σ
  dsimp only
  rcases res with zero | error
  · rw [if_neg zero.not_lt, Nat.sub_self, nvmeReadLoop, if_pos rfl]
    exact Prod.ext zero.symm rfl
  · rw [if_pos error]

/-- An earlier round of a loop that succeeds. -/
theorem nvmeReadLoop_more (more : 16 < remaining) (lba : slba + 16 < 2 ^ 64) (buf : p + 8192 < 2 ^ 64)
    (done : (nvmeReadLoop device nsid slba p σ remaining).1 = 0) :
    (nvmeIoSubmitAndPoll device nsid nvmeOpcodeRead slba 16 p σ).1 = 0 ∧
      nvmeReadLoop device nsid slba p σ remaining = nvmeReadLoop device nsid (slba + 16) (p + 8192)
        (nvmeIoSubmitAndPoll device nsid nvmeOpcodeRead slba 16 p σ).2 (remaining - 16) := by
  have sector : toWord ((slba : Int) + ((16 : Nat) : Int)) = slba + 16 := by exact_mod_cast toWord_natCast lba
  have address : toWord ((p : Int) + ((16 : Nat) : Int) * ((nvmeSectorSize : Nat) : Int)) = p + 8192 := by
    exact_mod_cast toWord_natCast buf
  rw [nvmeReadLoop, if_neg (by omega), min_eq_right more.le] at done ⊢
  dsimp only at done ⊢
  rcases nvmeIoSubmitAndPoll_res device nsid nvmeOpcodeRead slba 16 p σ with zero | error
  · rw [if_neg zero.not_lt, sector, address]
    exact ⟨zero, rfl⟩
  · rw [if_pos error] at done
    exact absurd done error.ne

/-! ### What is written -/

/-- **All that a read writes lies in a buffer.** -/
structure WritesOnly (buffer : Set Nat) (σ σ' : NvmeState) : Prop where
  transfers : ∃ new, σ'.transfers = σ.transfers ++ new ∧
    ∀ transfer ∈ new, ∀ i < transfer.length, transfer.place i ∈ buffer
  frame : ∀ a, a ∉ buffer → σ'.mem a = σ.mem a

theorem WritesOnly.refl {buffer : Set Nat} : WritesOnly buffer σ σ where
  transfers := ⟨[], (List.append_nil _).symm, fun _ member => absurd member List.not_mem_nil⟩
  frame _ _ := rfl

theorem WritesOnly.trans {buffer : Set Nat} {σ₁ σ₂ : NvmeState} (first : WritesOnly buffer σ σ₁)
    (second : WritesOnly buffer σ₁ σ₂) : WritesOnly buffer σ σ₂ where
  transfers := by
    obtain ⟨new₁, equal₁, inside₁⟩ := first.transfers
    obtain ⟨new₂, equal₂, inside₂⟩ := second.transfers
    refine ⟨new₁ ++ new₂, by rw [equal₂, equal₁, List.append_assoc], fun transfer member => ?_⟩
    rcases List.mem_append.mp member with member | member
    · exact inside₁ transfer member
    · exact inside₂ transfer member
  frame a outside := (second.frame a outside).trans (first.frame a outside)

theorem WritesOnly.mono {buffer buffer' : Set Nat} {σ' : NvmeState} (writes : WritesOnly buffer σ σ')
    (inside : buffer ⊆ buffer') : WritesOnly buffer' σ σ' where
  transfers := by
    obtain ⟨new, equal, places⟩ := writes.transfers
    exact ⟨new, equal, fun transfer member i below => inside (places transfer member i below)⟩
  frame a outside := writes.frame a fun member => outside (inside member)

/-- A transfer writes to its places. -/
theorem writesOnly_transfer {buffer : Set Nat} {transfer : Transfer}
    (inside : ∀ i < transfer.length, transfer.place i ∈ buffer) : WritesOnly buffer σ (σ.transfer transfer) where
  transfers := ⟨[transfer], rfl, fun other member => by
    rw [List.mem_singleton.mp member]
    exact inside⟩
  frame a outside := scatter_outside fun i below here => outside (here ▸ inside i below)

/-- A command writes to its buffer. -/
theorem nvmeIoSubmitAndPoll_writes {opcode lba nlb buf : Nat} (executes : device.Executes disk) (aligned : buf % 4 = 0)
    (some_ : 1 ≤ nlb) (few : nlb ≤ 16) (fits : buf + nlb * 512 ≤ 2 ^ 64)
    (direct : buf % 512 = 0 ∨ buf % 4096 + nlb * 512 ≤ 8192)
    (done : (nvmeIoSubmitAndPoll device nsid opcode lba nlb buf σ).1 = 0) :
    WritesOnly (Set.Ico buf (buf + nlb * 512)) σ (nvmeIoSubmitAndPoll device nsid opcode lba nlb buf σ).2 := by
  rw [nvmeIoSubmitAndPoll_read executes done]
  obtain ⟨length, places⟩ := nvmeIoCommand_transfer opcode nsid lba σ.mem disk aligned some_ few fits direct
  refine writesOnly_transfer fun i below => ?_
  rw [length] at below
  rw [places i below]
  exact ⟨Nat.le_add_right buf i, Nat.add_lt_add_left (below.trans_le (min_le_left _ _)) buf⟩

/-- The loop writes to its buffer, as long as no second entry is taken for a list. -/
theorem nvmeReadLoop_writes (executes : device.Executes disk) (aligned : p % 4 = 0) (fits : p + remaining * 512 ≤ 2 ^ 64)
    (sectors : slba + remaining ≤ 2 ^ 64) (direct : p % 512 = 0 ∨ p % 4096 + remaining * 512 ≤ 8192)
    (done : (nvmeReadLoop device nsid slba p σ remaining).1 = 0) :
    WritesOnly (Set.Ico p (p + remaining * 512)) σ (nvmeReadLoop device nsid slba p σ remaining).2 := by
  revert done
  induction remaining using Nat.strong_induction_on generalizing slba p σ with
  | _ remaining ih =>
      rcases Nat.eq_zero_or_pos remaining with none_ | more
      · intro _
        rw [none_, nvmeReadLoop, if_pos rfl]
        exact WritesOnly.refl
      · rcases Nat.lt_or_ge 16 remaining with many | few
        · have sector : p % 512 = 0 := by omega
          have first_ : p + 16 * 512 ≤ p + remaining * 512 :=
            Nat.add_le_add_left (Nat.mul_le_mul_right 512 many.le) p
          have rest_ : p + 8192 + (remaining - 16) * 512 ≤ p + remaining * 512 := by omega
          have before : Set.Ico p (p + 16 * 512) ⊆ Set.Ico p (p + remaining * 512) := Set.Ico_subset_Ico_right first_
          have behind : Set.Ico (p + 8192) (p + 8192 + (remaining - 16) * 512) ⊆ Set.Ico p (p + remaining * 512) :=
            Set.Ico_subset_Ico (Nat.le_add_right p 8192) rest_
          have fits₁ : p + 16 * 512 ≤ 2 ^ 64 := first_.trans fits
          intro done
          obtain ⟨zero, step⟩ := nvmeReadLoop_more many (by omega) (by omega) done
          rw [step] at done ⊢
          have first := nvmeIoSubmitAndPoll_writes executes aligned (by norm_num) le_rfl fits₁ (Or.inl sector) zero
          have rest := ih (remaining - 16) (by omega) (by omega) (by omega) (by omega) (Or.inl (by omega)) done
          exact (first.mono before).trans (rest.mono behind)
        · intro done
          rw [nvmeReadLoop_last more few] at done ⊢
          exact nvmeIoSubmitAndPoll_writes executes aligned more few fits direct done

/-! ### What is delivered -/

/-- A command whose two pages have room for all of it. -/
theorem nvmeIoSubmitAndPoll_delivers {opcode lba nlb buf : Nat} (executes : device.Executes disk) (aligned : buf % 4 = 0)
    (some_ : 1 ≤ nlb) (few : nlb ≤ 16) (fits : buf + nlb * 512 ≤ 2 ^ 64) (room : buf % 4096 + nlb * 512 ≤ 8192)
    (done : (nvmeIoSubmitAndPoll device nsid opcode lba nlb buf σ).1 = 0) :
    ∀ i < nlb * 512, (nvmeIoSubmitAndPoll device nsid opcode lba nlb buf σ).2.mem (buf + i) = disk (lba * 512 + i) := by
  intro i below
  have all : min (nlb * 512) (8192 - buf % 4096) = nlb * 512 := min_eq_left (by omega)
  obtain ⟨length, places⟩ := nvmeIoCommand_transfer opcode nsid lba σ.mem disk aligned some_ few fits (Or.inr room)
  rw [all] at length places
  rw [nvmeIoSubmitAndPoll_read executes done]
  show scatter _ _ _ _ _ = _
  rw [length, scatter_inside places below]
  show disk ((nvmeIoCommand opcode nsid lba nlb buf).slba * 512 + i) = _
  rw [nvmeIoCommand_slba]

/-- **A read whose commands all have room delivers every sector.** -/
theorem nvmeReadLoop_delivers (executes : device.Executes disk) (aligned : p % 4 = 0) (fits : p + remaining * 512 ≤ 2 ^ 64)
    (sectors : slba + remaining ≤ 2 ^ 64) (room : p % 4096 = 0 ∨ p % 4096 + remaining * 512 ≤ 8192)
    (done : (nvmeReadLoop device nsid slba p σ remaining).1 = 0) :
    ∀ i < remaining * 512, (nvmeReadLoop device nsid slba p σ remaining).2.mem (p + i) = disk (slba * 512 + i) := by
  revert done
  induction remaining using Nat.strong_induction_on generalizing slba p σ with
  | _ remaining ih =>
      rcases Nat.eq_zero_or_pos remaining with none_ | more
      · intro _ i below
        rw [none_, Nat.zero_mul] at below
        exact absurd below (Nat.not_lt_zero i)
      · rcases Nat.lt_or_ge 16 remaining with many | few
        · have page : p % 4096 = 0 := by omega
          have fits₁ : p + 16 * 512 ≤ 2 ^ 64 := (Nat.add_le_add_left (Nat.mul_le_mul_right 512 many.le) p).trans fits
          have fits₂ : p + 8192 + (remaining - 16) * 512 ≤ 2 ^ 64 := by omega
          intro done i below
          obtain ⟨zero, step⟩ := nvmeReadLoop_more many (by omega) (by omega) done
          rw [step] at done ⊢
          rcases Nat.lt_or_ge i 8192 with early | late
          · -- the later commands write behind the sectors of this one
            rw [(nvmeReadLoop_writes executes (by omega) fits₂ (by omega) (Or.inl (by omega)) done).frame (p + i)
              fun inside => absurd inside.1 (by omega)]
            exact nvmeIoSubmitAndPoll_delivers executes aligned (by norm_num) le_rfl fits₁ (by omega) zero i early
          · have later := ih (remaining - 16) (by omega) (by omega) fits₂ (by omega) (Or.inl (by omega)) done (i - 8192)
              (by omega)
            rwa [show p + 8192 + (i - 8192) = p + i by omega,
              show (slba + 16) * 512 + (i - 8192) = slba * 512 + i by omega] at later
        · intro done
          rw [nvmeReadLoop_last more few] at done ⊢
          exact nvmeIoSubmitAndPoll_delivers executes aligned more few fits (by omega) done

end Loop

/-! ### Exactly when -/

/-- **A read that returns zero has delivered every sector, and has written nothing else**, for every device that executes its
commands. -/
def NvmeReadsExactly (disk : Nat → Byte) (lba total buf : Nat) : Prop :=
  ∀ (device : NvmeDevice) nsid mem, device.Executes disk → (nvmeDiskDriverRead device nsid lba total buf mem).1 = 0 →
    (∀ i < total * 512, (nvmeDiskDriverRead device nsid lba total buf mem).2.mem (buf + i) = disk (lba * 512 + i)) ∧
      WritesOnly (Set.Ico buf (buf + total * 512)) ⟨mem, []⟩ (nvmeDiskDriverRead device nsid lba total buf mem).2

/-- The device that completes every command at once. -/
def promptDevice (disk : Nat → Byte) : NvmeDevice := fun _ cmd mem => ⟨some 0, nvmeTransfer disk cmd mem⟩

theorem promptDevice_executes (disk : Nat → Byte) : (promptDevice disk).Executes disk := fun _ _ _ _ => rfl

section Prompt

variable {disk : Nat → Byte} {nsid slba p remaining lba total buf : Nat} {σ : NvmeState}

/-- One round with the prompt device. -/
theorem promptDevice_step (more : 0 < remaining) :
    nvmeReadLoop (promptDevice disk) nsid slba p σ remaining =
      nvmeReadLoop (promptDevice disk) nsid (toWord (slba + (min remaining 16 : Nat)))
        (toWord (p + (min remaining 16 : Nat) * (nvmeSectorSize : Nat)))
        (σ.transfer (nvmeTransfer disk (nvmeIoCommand nvmeOpcodeRead nsid slba (min remaining 16) p) σ.mem))
        (remaining - min remaining 16) := by
  rw [nvmeReadLoop, if_neg more.ne']
  rfl

/-- It succeeds, and a transfer that was made stays on record. -/
theorem promptDevice_reads : (nvmeReadLoop (promptDevice disk) nsid slba p σ remaining).1 = 0 ∧
    σ.transfers ⊆ (nvmeReadLoop (promptDevice disk) nsid slba p σ remaining).2.transfers := by
  induction remaining using Nat.strong_induction_on generalizing slba p σ with
  | _ remaining ih =>
      rcases Nat.eq_zero_or_pos remaining with none_ | more
      · rw [none_, nvmeReadLoop, if_pos rfl]
        exact ⟨rfl, List.Subset.refl _⟩
      · rw [promptDevice_step more]
        exact (ih _ (by omega)).imp_right (List.Subset.trans (List.subset_append_left _ _))

/-- The first command of a read that keeps to its buffer does. -/
theorem NvmeReadsExactly.first (reads : NvmeReadsExactly disk lba total buf) (some_ : 1 ≤ total) (mem : Memory) {i : Nat}
    (below : i < (nvmeIoCommand nvmeOpcodeRead 1 lba (min total 16) buf).blocks * 512) :
    buf ≤ nvmePlace (nvmeIoCommand nvmeOpcodeRead 1 lba (min total 16) buf) mem i := by
  obtain ⟨_, writes⟩ := reads (promptDevice disk) 1 mem (promptDevice_executes disk) promptDevice_reads.1
  obtain ⟨new, made, inside⟩ := writes.transfers
  have first : nvmeTransfer disk (nvmeIoCommand nvmeOpcodeRead 1 lba (min total 16) buf) mem ∈ new := by
    rw [← List.nil_append new, ← made, nvmeDiskDriverRead, Int.toNat_natCast, promptDevice_step some_]
    exact promptDevice_reads.2 (List.mem_append_right _ (List.mem_singleton_self _))
  exact (inside _ first i below).1

/-- The buffer is at a dword. -/
theorem NvmeReadsExactly.aligned (reads : NvmeReadsExactly disk lba total buf) (some_ : 1 ≤ total) : buf % 4 = 0 := by
  have start := reads.first some_ (fun _ => 0#8) (i := 0) (Nat.mul_pos (Nat.succ_pos _) (by norm_num))
  unfold nvmePlace at start
  rw [nvmeIoCommand_prp1] at start
  dsimp only at start
  rw [if_pos (by omega)] at start
  omega

/-- **Between sectors** the second entry is taken for a list, here of the page at address zero. -/
theorem NvmeReadsExactly.room_between (reads : NvmeReadsExactly disk lba total buf) (some_ : 1 ≤ total) (aligned : buf % 4 = 0)
    (between : buf % 512 ≠ 0) : buf % 4096 + total * 512 ≤ 8192 := by
  by_contra tight
  have blocks := @nvmeIoCommand_blocks nvmeOpcodeRead 1 lba (min total 16) buf (by omega) (by omega)
  have start := reads.first some_ (fun _ => 0#8) (i := 4096 - buf % 4096) (by rw [blocks]; omega)
  unfold nvmePlace at start
  rw [nvmeIoCommand_prp1, aligned] at start
  dsimp only at start
  rw [Nat.sub_zero, if_neg (lt_irrefl _), if_neg (by rw [blocks]; show ¬ _ * 512 ≤ _; omega),
    readWord_eq_zero fun _ _ => rfl, Nat.sub_self] at start
  simp only [prpPage] at start
  omega

/-- **At a sector inside a page** the rest of the second page's end is left out. -/
theorem NvmeReadsExactly.room_at_sector (reads : NvmeReadsExactly disk lba total buf) (some_ : 1 ≤ total)
    (fits : buf + total * 512 ≤ 2 ^ 64) (sectors : lba + total ≤ 2 ^ 64) (sector : buf % 512 = 0) :
    buf % 4096 = 0 ∨ buf % 4096 + total * 512 ≤ 8192 := by
  by_contra tight
  obtain ⟨inside, tight⟩ := not_or.mp tight
  obtain ⟨other, different⟩ : ∃ other : Byte, other ≠ disk (lba * 512 + (8192 - buf % 4096)) :=
    ⟨disk (lba * 512 + (8192 - buf % 4096)) + 1, by grind⟩
  obtain ⟨delivered, _⟩ := reads (promptDevice disk) 1 (fun _ => other) (promptDevice_executes disk) promptDevice_reads.1
  have missed := delivered (8192 - buf % 4096) (by omega)
  refine different (Eq.trans ?_ missed)
  rw [nvmeDiskDriverRead, Int.toNat_natCast, promptDevice_step some_]
  have fits₁ : buf + min total 16 * 512 ≤ 2 ^ 64 :=
    (Nat.add_le_add_left (Nat.mul_le_mul_right 512 (min_le_left _ _)) buf).trans fits
  have first : ((⟨fun _ => other, []⟩ : NvmeState).transfer
      (nvmeTransfer disk (nvmeIoCommand nvmeOpcodeRead 1 lba (min total 16) buf) fun _ => other)).mem
        (buf + (8192 - buf % 4096)) = other := by
    obtain ⟨length, places⟩ := nvmeIoCommand_transfer nvmeOpcodeRead 1 lba (fun _ => other) disk
      (show buf % 4 = 0 by omega) (show 1 ≤ min total 16 by omega) (min_le_right _ _) fits₁ (Or.inl sector)
    refine scatter_outside fun i below => ?_
    rw [length] at below
    rw [places i below]
    omega
  rcases Nat.lt_or_ge 16 total with many | few
  · -- the later commands write behind the sectors of this one
    have sector₁ : toWord ((lba : Int) + ((min total 16 : Nat) : Int)) = lba + 16 := by
      rw [min_eq_right many.le]
      exact_mod_cast toWord_natCast (show lba + 16 < 2 ^ 64 by omega)
    have address₁ : toWord ((buf : Int) + ((min total 16 : Nat) : Int) * ((nvmeSectorSize : Nat) : Int)) = buf + 8192 := by
      rw [min_eq_right many.le]
      exact_mod_cast toWord_natCast (show buf + 8192 < 2 ^ 64 by omega)
    rw [sector₁, address₁, (nvmeReadLoop_writes (promptDevice_executes disk) (by omega) (by omega) (by omega)
      (Or.inl (by omega)) promptDevice_reads.1).frame _ fun inside => absurd inside.1 (by omega)]
    exact first.symm
  · rw [show total - min total 16 = 0 by omega, nvmeReadLoop, if_pos rfl]
    exact first.symm

/-- **A read delivers its sectors exactly when its buffer starts a page, or ends in the next one**, at a dword. -/
theorem nvmeDiskDriverRead_iff (some_ : 1 ≤ total) (sectors : lba + total ≤ 2 ^ 64) (fits : buf + total * 512 ≤ 2 ^ 64) :
    NvmeReadsExactly disk lba total buf ↔ buf % 4 = 0 ∧ (buf % 4096 = 0 ∨ buf % 4096 + total * 512 ≤ 8192) := by
  constructor
  · intro reads
    have aligned := reads.aligned some_
    refine ⟨aligned, ?_⟩
    by_cases sector : buf % 512 = 0
    · exact reads.room_at_sector some_ fits sectors sector
    · exact Or.inr (reads.room_between some_ aligned sector)
  · rintro ⟨aligned, room⟩ device nsid mem executes done
    unfold nvmeDiskDriverRead at done ⊢
    rw [Int.toNat_natCast] at done ⊢
    exact ⟨nvmeReadLoop_delivers executes aligned fits sectors room done,
      nvmeReadLoop_writes executes aligned fits sectors (by omega) done⟩

/-- The theorem at a buffer one sector into its page. -/
theorem nvmeDiskDriverRead_inside : ¬ NvmeReadsExactly (fun _ => 0#8) 0 16 0x100200 := by
  rw [nvmeDiskDriverRead_iff (by decide) (by decide) (by decide)]
  decide

/-- **Sixteen sectors to a buffer one sector into its page**: the last is not read. -/
theorem nvmeDiskDriverRead_shortens : ¬ ∀ disk lba total buf, 1 ≤ total → lba + total ≤ 2 ^ 64 →
    buf + total * 512 ≤ 2 ^ 64 → NvmeReadsExactly disk lba total buf := by
  intro always
  have reads := always (fun _ => 0#8) 0 16 0x100200 (by decide) (by decide) (by decide)
  exact absurd (reads.room_at_sector (by decide) (by decide) (by decide) (by decide)) (by decide)

end Prompt

end PeachOS
