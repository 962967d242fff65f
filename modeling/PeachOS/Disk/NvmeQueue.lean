/-
**The queues of the NVMe driver, with a controller that works at its own pace.**

`nvme_io_submit_and_poll` puts a command into the submission queue, polls the completion queue a million times for an entry
of its phase, and takes that entry for the completion of its command. A call that finds none returns `-ETIMEOUT` and leaves its
command in flight. The controller completes every command once and in order, whenever it likes, also after such a return: the
next call then takes the late completion for its own, and every later call the completion of the call before.

Every identifier that the driver gives a command is zero, so an entry does not say which command it completes. `command` in
an entry is that knowledge, which the driver does not have. The slots of the submission queue are left out: that every
command is completed says that the controller has taken it from its slot in time. The commands of the other queues are polled
the same way (`nvme_admin_cmd_raw`).

* `nvmeStep` — a run of calls and completions, read by read;
* `NvmeRun.Numbered` — which completion each call has taken, in every reachable state.
-/

import PeachOS.Disk.Nvme
import PeachOS.Lib.PhaseRing
import PeachOS.Lib.StepRun

namespace PeachOS

open ByteStore PhaseRing

/-- `struct nvme_completion_queue_entry`: the word with its status, phase and identifier, and the command that it completes. -/
structure NvmeCompletionEntry where
  statusPhaseAndCommandIdentifier : Nat
  command : Nat
deriving DecidableEq

/-- The phase bit. -/
def NvmeCompletionEntry.phase (entry : NvmeCompletionEntry) : Bool :=
  (entry.statusPhaseAndCommandIdentifier >>> 16) % 2 = 1

/-- `NVME_COMPLETION_QUEUE_STATUS`. -/
def nvmeCompletionQueueStatus (entry : NvmeCompletionEntry) : Nat :=
  (entry.statusPhaseAndCommandIdentifier >>> 17) % 2 ^ 15

/-- The entry of a controller: fifteen bits of status, the phase, and the identifier of the command. -/
def nvmeCompletionEntry (status : Nat) (phase : Bool) (identifier command : Nat) : NvmeCompletionEntry where
  statusPhaseAndCommandIdentifier := (status % 2 ^ 15 * 2 + if phase then 1 else 0) * 2 ^ 16 + identifier % 2 ^ 16
  command := command

theorem nvmeCompletionEntry_phase (status : Nat) (phase : Bool) (identifier command : Nat) :
    (nvmeCompletionEntry status phase identifier command).phase = phase := by
  unfold NvmeCompletionEntry.phase nvmeCompletionEntry
  rw [Nat.shiftRight_eq_div_pow]
  dsimp only
  cases phase
  · exact decide_eq_false (by simp only [if_false, Bool.false_eq_true]; omega)
  · exact decide_eq_true (by simp only [if_true]; omega)

/-! ### Runs -/

/-- How far a call is: before the reads of its loop, before the read behind the loop, before the read of the status. -/
inductive NvmePoll where
  | idle
  | polling (i : Nat)
  | polled
  | matched
deriving DecidableEq

/-- A call that has returned: its command, its result, the command whose completion it took, and how many commands had been
completed by then. -/
structure NvmeReturn where
  command : Nat
  res : Int
  consumed : Option Nat
  finished : Nat
deriving DecidableEq

/-- **The call took the completion of its own command**, whose data transfer has finished. -/
def NvmeReturn.Paired (returned : NvmeReturn) : Prop :=
  returned.consumed = some returned.command ∧ returned.command < returned.finished

/-- The queues in a run. `head` is the driver's place in the completion queue, `released` the entries that it has given back by
its doorbell. -/
structure NvmeRun where
  size : Nat
  head : Cursor
  entries : Store NvmeCompletionEntry
  poll : NvmePoll
  commands : List NvmeCommand
  completions : List NvmeCompletionEntry
  released : Nat
  returns : List NvmeReturn

/-- What happens next: a call submits its command, the call in progress reads an entry, or the controller completes its next
command. -/
inductive NvmeEvent where
  | submit (opcode nsid lba nlb buf : Nat)
  | read
  | complete (status : Nat)
deriving DecidableEq

namespace NvmeRun

/-- Cleared queues, as `nvme_disk_driver_mount_for_device` makes them. -/
def start (size : Nat) : NvmeRun where
  size := size
  head := ⟨0, true⟩
  entries := fun _ => ⟨0, 0⟩
  poll := .idle
  commands := []
  completions := []
  released := 0
  returns := []

/-- The entry that the driver looks at. -/
def entry (σ : NvmeRun) : NvmeCompletionEntry := σ.entries σ.head.index

/-- The call in progress returns. -/
def return_ (σ : NvmeRun) (res : Int) (consumed : Option Nat) : NvmeRun :=
  { σ with
    poll := .idle
    returns := σ.returns ++ [⟨σ.commands.length - 1, res, consumed, σ.completions.length⟩] }

/-- The next read of the call in progress. -/
def driverRead (σ : NvmeRun) : Option NvmeRun :=
  match σ.poll with
  | .idle => none
  | .polling i =>
      if σ.entry.phase = σ.head.phase then some { σ with poll := .polled }
      else if i + 1 < 1000000 then some { σ with poll := .polling (i + 1) }
      else some { σ with poll := .polled }
  | .polled =>
      if σ.entry.phase = σ.head.phase then some { σ with poll := .matched } else some (σ.return_ etimeout none)
  | .matched =>
      let res := if nvmeCompletionQueueStatus σ.entry = 0 then 0 else eio
      some { σ.return_ res (some σ.entry.command) with
        head := σ.head.advance σ.size
        released := σ.released + 1 }

/-- The controller completes its next command. It has a slot for the entry. -/
def complete (σ : NvmeRun) (status : Nat) : Option NvmeRun :=
  let n := σ.completions.length
  if n < σ.commands.length ∧ n < σ.released + lap σ.size then
    let entry := nvmeCompletionEntry status (cursor σ.size n).phase 0 n
    some { σ with
      entries := put σ.entries (cursor σ.size n).index entry
      completions := σ.completions ++ [entry] }
  else none

/-- **One step of a run.** -/
def nvmeStep (σ : NvmeRun) : NvmeEvent → Option NvmeRun
  | .submit opcode nsid lba nlb buf =>
      match σ.poll with
      | .idle => some { σ with poll := .polling 0, commands := σ.commands ++ [nvmeIoCommand opcode nsid lba nlb buf] }
      | _ => none
  | .read => σ.driverRead
  | .complete status => σ.complete status

def Step (σ : NvmeRun) (event : NvmeEvent) (σ' : NvmeRun) : Prop := nvmeStep σ event = some σ'

/-- The states of all runs, for queues of any size. -/
def Reachable (σ : NvmeRun) : Prop := StepRun.Reachable Step (fun σ => ∃ size, σ = start size) σ

/-! ### Which completion a call takes -/

/-- The calls that timed out. -/
def timeouts (returns : List NvmeReturn) : Nat := returns.countP fun returned => returned.res = etimeout

/-- The calls in progress. -/
def inFlight : NvmePoll → Nat
  | .idle => 0
  | _ => 1

/-- What the `k`-th call returned, after so many timeouts: a timeout, or the completion of the command so many before its own. -/
def Explained (k late : Nat) (returned : NvmeReturn) : Prop :=
  returned.command = k ∧
    (returned.res = etimeout ∨
      returned.res ≠ etimeout ∧ ∃ n, returned.consumed = some n ∧ n + late = k ∧ n < returned.finished)

/-- **Every call is numbered**: the entries taken and the calls that timed out are all the calls. -/
structure Numbered (σ : NvmeRun) : Prop where
  ring : Written NvmeCompletionEntry.phase σ.size σ.entries σ.completions
  head : σ.head = cursor σ.size σ.released
  taken : σ.released ≤ σ.completions.length
  near : σ.completions.length ≤ σ.released + lap σ.size
  submitted : σ.completions.length ≤ σ.commands.length
  order : ∀ n (inside : n < σ.completions.length), σ.completions[n].command = n
  flight : σ.commands.length = σ.returns.length + inFlight σ.poll
  late : σ.returns.length = σ.released + timeouts σ.returns
  found : σ.poll = .matched → σ.released < σ.completions.length
  history : ∀ k returned, σ.returns[k]? = some returned → Explained k (timeouts (σ.returns.take k)) returned

variable {σ σ' : NvmeRun}

theorem numbered_start (size : Nat) : (start size).Numbered where
  ring := Written.empty fun _ _ => (show NvmeCompletionEntry.phase ⟨0, 0⟩ = false by decide)
  head := by
    show (⟨0, true⟩ : Cursor) = cursor size 0
    unfold cursor
    rw [Nat.zero_mod, Nat.zero_div]
    rfl
  taken := le_rfl
  near := Nat.zero_le _
  submitted := le_rfl
  order n inside := absurd inside (Nat.not_lt_zero n)
  flight := rfl
  late := rfl
  found found := by cases found
  history k returned member := by cases member

/-- **The driver sees an entry of its phase exactly when there is a completion that it has not taken.** -/
theorem Numbered.fresh_iff (numbered : σ.Numbered) : σ.entry.phase = σ.head.phase ↔ σ.released < σ.completions.length := by
  unfold entry
  rw [numbered.head]
  exact numbered.ring.fresh_iff numbered.taken numbered.near

/-- The entry is then the first completion that it has not taken. -/
theorem Numbered.entry (numbered : σ.Numbered) (inside : σ.released < σ.completions.length) :
    σ.entry.command = σ.released := by
  unfold NvmeRun.entry
  rw [numbered.head, numbered.ring.recent σ.released inside numbered.near]
  exact numbered.order σ.released inside

/-- A call that goes on polling. -/
theorem Numbered.poll (numbered : σ.Numbered) {poll : NvmePoll} (busy : inFlight poll = inFlight σ.poll)
    (found : poll = .matched → σ.released < σ.completions.length) : ({ σ with poll := poll } : NvmeRun).Numbered :=
  { numbered with flight := numbered.flight.trans (congrArg _ busy.symm), found := found }

/-- The history with one more call. -/
theorem Numbered.history_return (numbered : σ.Numbered) (busy : inFlight σ.poll = 1) {res : Int} {consumed : Option Nat}
    (explained : res = etimeout ∨ res ≠ etimeout ∧ ∃ n, consumed = some n ∧ n + timeouts σ.returns = σ.returns.length ∧
      n < σ.completions.length) :
    ∀ k returned, (σ.return_ res consumed).returns[k]? = some returned →
      Explained k (timeouts ((σ.return_ res consumed).returns.take k)) returned := by
  intro k returned member
  have flight := numbered.flight
  rw [busy] at flight
  change (σ.returns ++ [_])[k]? = some returned at member
  show Explained k (timeouts ((σ.returns ++ [_]).take k)) returned
  rcases Nat.lt_trichotomy k σ.returns.length with earlier | here | later
  · rw [List.getElem?_append_left earlier] at member
    rw [List.take_append_of_le_length earlier.le]
    exact numbered.history k returned member
  · rw [here, List.getElem?_concat_length, Option.some.injEq] at member
    rw [here, List.take_left' rfl, ← member]
    exact ⟨show σ.commands.length - 1 = _ by omega, explained⟩
  · rw [List.getElem?_eq_none (by rw [List.length_append, List.length_singleton]; omega)] at member
    cases member

/-- One more return is one more timeout or not. -/
theorem timeouts_append (returns : List NvmeReturn) (returned : NvmeReturn) :
    timeouts (returns ++ [returned]) = timeouts returns + if returned.res = etimeout then 1 else 0 := by
  unfold timeouts
  rw [List.countP_append, List.countP_singleton]
  simp only [decide_eq_true_eq]

/-- A call that times out. -/
theorem Numbered.timeout (numbered : σ.Numbered) (busy : inFlight σ.poll = 1) : (σ.return_ etimeout none).Numbered :=
  { numbered with
    flight := by
      have flight := numbered.flight
      show σ.commands.length = (σ.returns ++ [_]).length + 0
      rw [List.length_append, List.length_singleton]
      omega
    late := by
      have late := numbered.late
      show (σ.returns ++ [_]).length = σ.released + timeouts (σ.returns ++ [_])
      rw [List.length_append, List.length_singleton, timeouts_append, if_pos rfl]
      omega
    found := fun found => by cases found
    history := numbered.history_return busy (Or.inl rfl) }

/-- A call that takes a completion. -/
theorem Numbered.take (numbered : σ.Numbered) (matched : σ.poll = .matched) {res : Int} (result : res ≠ etimeout) :
    ({ σ.return_ res (some σ.entry.command) with
        head := σ.head.advance σ.size
        released := σ.released + 1 } : NvmeRun).Numbered := by
  have inside := numbered.found matched
  have busy : inFlight σ.poll = 1 := by
    rw [matched]
    rfl
  refine { numbered with
    head := ?_, taken := inside, near := ?_, flight := ?_, late := ?_, found := fun found => ?_,
    history := numbered.history_return busy (Or.inr ⟨result, σ.released, ?_, ?_, inside⟩) }
  · show σ.head.advance σ.size = cursor σ.size (σ.released + 1)
    rw [numbered.head]
    exact cursor_advance σ.size σ.released
  · have near := numbered.near
    show σ.completions.length ≤ σ.released + 1 + lap σ.size
    omega
  · have flight := numbered.flight
    show σ.commands.length = (σ.returns ++ [_]).length + 0
    rw [List.length_append, List.length_singleton]
    omega
  · have late := numbered.late
    show (σ.returns ++ [_]).length = σ.released + 1 + timeouts (σ.returns ++ [_])
    rw [List.length_append, List.length_singleton, timeouts_append, if_neg result]
    omega
  · cases found
  · rw [numbered.entry inside]
  · exact numbered.late.symm

/-- The reads of a call. -/
theorem Numbered.read (numbered : σ.Numbered) (taken : σ.driverRead = some σ') : σ'.Numbered := by
  unfold driverRead at taken
  cases poll : σ.poll with
  | idle =>
      rw [poll] at taken
      cases taken
  | polling i =>
      rw [poll] at taken
      dsimp only at taken
      split at taken
      · cases taken
        exact numbered.poll (by rw [poll]; rfl) fun found => by cases found
      · split at taken
        · cases taken
          exact numbered.poll (by rw [poll]; rfl) fun found => by cases found
        · cases taken
          exact numbered.poll (by rw [poll]; rfl) fun found => by cases found
  | polled =>
      rw [poll] at taken
      dsimp only at taken
      split at taken
      · rename_i same
        cases taken
        exact numbered.poll (by rw [poll]; rfl) fun _ => numbered.fresh_iff.mp same
      · cases taken
        exact numbered.timeout (by rw [poll]; rfl)
  | matched =>
      rw [poll] at taken
      cases taken
      refine numbered.take poll ?_
      split <;> decide

/-- A completion by the controller. -/
theorem Numbered.complete (numbered : σ.Numbered) {status : Nat} (taken : σ.complete status = some σ') : σ'.Numbered := by
  unfold NvmeRun.complete at taken
  dsimp only at taken
  split at taken
  · rename_i room
    cases taken
    exact { numbered with
      ring := numbered.ring.write (nvmeCompletionEntry_phase _ _ _ _)
      taken := by
        have taken := numbered.taken
        show σ.released ≤ (σ.completions ++ [_]).length
        rw [List.length_append]
        omega
      near := by
        show (σ.completions ++ [_]).length ≤ σ.released + lap σ.size
        rw [List.length_append, List.length_singleton]
        omega
      submitted := by
        show (σ.completions ++ [_]).length ≤ σ.commands.length
        rw [List.length_append, List.length_singleton]
        omega
      order := fun n inside => by
        change n < (σ.completions ++ [_]).length at inside
        rw [List.length_append, List.length_singleton] at inside
        rcases Nat.lt_succ_iff_lt_or_eq.mp inside with earlier | last
        · show (σ.completions ++ [_])[n].command = n
          rw [List.getElem_append_left earlier]
          exact numbered.order n earlier
        · subst last
          show (σ.completions ++ [_])[σ.completions.length].command = σ.completions.length
          rw [List.getElem_concat_length rfl]
          rfl
      found := fun matched => by
        have inside := numbered.found matched
        show σ.released < (σ.completions ++ [_]).length
        rw [List.length_append]
        omega }
  · cases taken

/-- **One step keeps the numbers.** -/
theorem Numbered.step (numbered : σ.Numbered) {event : NvmeEvent} (taken : Step σ event σ') : σ'.Numbered := by
  unfold Step nvmeStep at taken
  cases event with
  | submit opcode nsid lba nlb buf =>
      dsimp only at taken
      split at taken
      · rename_i idle
        cases taken
        have flight := numbered.flight
        rw [idle] at flight
        exact { numbered with
          submitted := by
            have submitted := numbered.submitted
            show σ.completions.length ≤ (σ.commands ++ [_]).length
            rw [List.length_append]
            omega
          flight := by
            show (σ.commands ++ [_]).length = σ.returns.length + 1
            rw [List.length_append, List.length_singleton, flight]
            rfl
          found := fun found => by cases found }
      · cases taken
  | read => exact numbered.read taken
  | complete status => exact numbered.complete taken

/-- **Every reachable state is numbered.** -/
theorem Reachable.numbered (reached : σ.Reachable) : σ.Numbered :=
  StepRun.Reachable.invariant Numbered (fun _ ⟨size, begins⟩ => begins ▸ numbered_start size)
    (fun _ _ _ numbered taken => numbered.step taken) reached

/-! ### Pairing -/

/-- **A call that returns zero has taken the completion of its own command exactly when no call before it timed out.** -/
theorem nvmePairing_iff (reached : σ.Reachable) {k : Nat} {returned : NvmeReturn} (member : σ.returns[k]? = some returned)
    (zero : returned.res = 0) : returned.Paired ↔ ∀ earlier ∈ σ.returns.take k, earlier.res ≠ etimeout := by
  obtain ⟨command, outcome⟩ := reached.numbered.history k returned member
  have inTime : (∀ earlier ∈ σ.returns.take k, earlier.res ≠ etimeout) ↔ timeouts (σ.returns.take k) = 0 := by
    unfold timeouts
    rw [List.countP_eq_zero]
    simp only [decide_eq_true_eq]
  rw [inTime]
  rcases outcome with timedOut | ⟨_, n, consumed, late, finished⟩
  · rw [zero] at timedOut
    exact absurd timedOut (by decide)
  · unfold NvmeReturn.Paired
    rw [consumed, command, Option.some.injEq]
    constructor
    · rintro ⟨own, _⟩
      omega
    · intro none_
      have own : n = k := by omega
      exact ⟨own, own ▸ finished⟩

/-! ### Two runs -/

/-- The state after a list of events. -/
def after (σ : NvmeRun) : List NvmeEvent → Option NvmeRun
  | [] => some σ
  | event :: events => (nvmeStep σ event).bind fun σ' => after σ' events

theorem Reachable.after (reached : σ.Reachable) {events : List NvmeEvent} (taken : σ.after events = some σ') :
    σ'.Reachable := by
  induction events generalizing σ with
  | nil =>
      cases taken
      exact reached
  | cons event events ih =>
      obtain ⟨σ₁, first, rest⟩ := Option.bind_eq_some_iff.mp taken
      exact ih (StepRun.Reachable.next event reached first) rest

/-- The loop of a call that finds no entry. -/
theorem Reachable.waits (reached : σ.Reachable) {i : Nat} (polling : σ.poll = .polling i)
    (waiting : σ.entry.phase ≠ σ.head.phase) {n : Nat} (more : i + n < 1000000) :
    Reachable { σ with poll := .polling (i + n) } := by
  induction n with
  | zero =>
      rw [Nat.add_zero, ← polling]
      exact reached
  | succ n ih =>
      refine StepRun.Reachable.next .read (ih (by omega)) ?_
      unfold Step nvmeStep driverRead
      exact (if_neg waiting).trans (if_pos (by omega))

/-- **A call that finds no entry** ends its loop. -/
theorem Reachable.exhausts (reached : σ.Reachable) (polling : σ.poll = .polling 0)
    (waiting : σ.entry.phase ≠ σ.head.phase) : Reachable { σ with poll := .polled } := by
  refine StepRun.Reachable.next .read (reached.waits polling waiting (n := 999999) (by omega)) ?_
  unfold Step nvmeStep driverRead
  exact (if_neg waiting).trans (if_neg (by omega))

/-- A read of one sector. -/
def readSector : NvmeEvent := .submit nvmeOpcodeRead 1 0 1 0x100000

/-- A read that is completed in time. -/
def promptRun : List NvmeEvent := [readSector, .complete 0, .read, .read, .read]

/-- The theorem at a read that is completed in time. -/
theorem nvmePairing_prompt : ∃ σ : NvmeRun, ∃ returned, σ.returns[0]? = some returned ∧ returned.Paired := by
  have run : ((start 64).after promptRun).map returns = some [⟨0, 0, some 0, 1⟩] := by decide
  obtain ⟨σ, taken, returned⟩ := Option.map_eq_some_iff.mp run
  have member : σ.returns[0]? = some ⟨0, 0, some 0, 1⟩ := by
    rw [returned]
    rfl
  refine ⟨σ, _, member, (nvmePairing_iff (Reachable.after (.start ⟨64, rfl⟩) taken) member rfl).mpr ?_⟩
  exact fun earlier inside => absurd inside List.not_mem_nil

/-- **A completion that comes too late**: the next call returns with it, while its own command is still in flight. -/
theorem nvmePairing_shifts : ¬ ∀ σ : NvmeRun, σ.Reachable → ∀ returned ∈ σ.returns, returned.res = 0 → returned.Paired := by
  intro always
  have submitted : (start 64).after [readSector] =
      some { start 64 with poll := .polling 0, commands := [nvmeIoCommand nvmeOpcodeRead 1 0 1 0x100000] } := rfl
  have waited := (Reachable.after (.start ⟨64, rfl⟩) submitted).exhausts rfl (by decide)
  have late : (({ start 64 with poll := .polled, commands := [nvmeIoCommand nvmeOpcodeRead 1 0 1 0x100000] } : NvmeRun).after
      [.read, .complete 0, readSector, .read, .read, .read]).map returns =
        some [⟨0, etimeout, none, 0⟩, ⟨1, 0, some 0, 1⟩] := by decide
  obtain ⟨σ, taken, returned⟩ := Option.map_eq_some_iff.mp late
  have paired := always σ (waited.after taken) ⟨1, 0, some 0, 1⟩ (by rw [returned]; decide) rfl
  exact absurd paired.1 (by decide)

end NvmeRun

end PeachOS
