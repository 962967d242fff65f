/-
**The two rings of the NVMe driver and of its controller, in step.**

`nvme_io_submit_and_poll` has three places on two rings: the tail of the submission queue, and the head of the completion queue
with the phase that it expects. The controller has three of its own: where it fetches the next command, and where it posts the
next completion, with the phase of its round. The parties tell each other their places through doorbells. Each ring is as
large as the driver said when it created the queue.

The controller works at any time: it fetches a command when the tail that it was told is not its own place, and posts the
completions one for each command and in order.

* `nvmeNextHead_cursor`, `nvmePostNext_cursor` — the driver's increment and the controller's are the same on the ring;
* `nvmeRingStep` — the driver, read by read, and the controller, in any order;
* `NvmeRings.Paced` — where the parties are, by the number of calls that have returned;
* `nvmeLockstep` — while no poll has timed out, the parties agree before each submission, and an entry that is taken is that
  of the command in flight.
-/

import PeachOS.Disk.NvmeQueue

namespace PeachOS

open ByteStore PhaseRing

/-! ### Places -/

/-- The next place of the driver on the submission ring. -/
def nvmeNextTail (size tail : Nat) : Nat :=
  let newTail := toUInt16 (tail + 1 : Nat)
  if newTail ≥ size then 0 else newTail

/-- The next place of the driver on the completion ring. Where it wraps, the phase that is expected changes. -/
def nvmeNextHead (size : Nat) (head : Cursor) : Cursor :=
  let newHead := toUInt16 (head.index + 1 : Nat)
  if newHead ≥ size then ⟨0, head.phase ^^ true⟩ else ⟨newHead, head.phase⟩

/-- The first parameter of the commands that create a queue: its identifier, and its size less one. -/
def nvmeCreateCdw10 (qid qsize : Nat) : Nat := toUInt32 ((qsize - 1) <<< 16) ||| qid

/-- The controller's reading of it. -/
def nvmeControllerSize (cdw10 : Nat) : Nat := cdw10 / 2 ^ 16 + 1

/-- The next place of the controller on a ring. -/
def nvmeFetchNext (size index : Nat) : Nat := (index + 1) % size

/-- The next place of the controller on the completion ring: its phase changes when its place wraps. -/
def nvmePostNext (size : Nat) (cursor : Cursor) : Cursor :=
  let next := nvmeFetchNext size cursor.index
  ⟨next, if next = 0 then !cursor.phase else cursor.phase⟩

/-- Both parties have the same size. -/
theorem nvmeControllerSize_create {size : Nat} (positive : 0 < size) (small : size ≤ 64) :
    nvmeControllerSize (nvmeCreateCdw10 1 size) = size := by
  have shifted : toUInt32 ((size - 1) <<< 16) = (size - 1) <<< 16 := by
    unfold toUInt32
    rw [Nat.shiftLeft_eq]
    omega
  unfold nvmeControllerSize nvmeCreateCdw10
  rw [shifted, ← Nat.shiftLeft_add_eq_or_of_lt (by decide), Nat.shiftLeft_eq]
  omega

section Ring

variable {size : Nat} (positive : 0 < size) (small : size ≤ 64)

include positive

theorem lap_of_pos : lap size = size := max_eq_left positive

theorem cursor_inside (n : Nat) : (cursor size n).index < size := by
  show n % lap size < size
  rw [lap_of_pos positive]
  exact Nat.mod_lt n positive

/-- **The controller's increment** is the one of the ring. -/
theorem nvmePostNext_cursor (n : Nat) : nvmePostNext size (cursor size n) = cursor size (n + 1) := by
  have inside := cursor_inside positive n
  rw [← cursor_advance]
  unfold nvmePostNext nvmeFetchNext Cursor.advance
  dsimp only
  by_cases last : (cursor size n).index + 1 ≥ size
  · rw [if_pos last, show (cursor size n).index + 1 = size by omega, Nat.mod_self, if_pos rfl]
  · rw [if_neg last, Nat.mod_eq_of_lt (by omega), if_neg (Nat.succ_ne_zero _)]

include small

/-- The place after `n` steps, of either party. -/
theorem nvmeNextTail_mod (n : Nat) : nvmeNextTail size (n % size) = (n + 1) % size := by
  have inside := Nat.mod_lt n positive
  unfold nvmeNextTail
  dsimp only
  rw [toUInt16_natCast (show n % size + 1 < 2 ^ 16 by omega), ← Nat.mod_add_mod]
  split
  · next last =>
      rw [show n % size + 1 = size by omega, Nat.mod_self]
  · next earlier => exact (Nat.mod_eq_of_lt (by omega)).symm

/-- **The driver's increment** is the one of the ring. -/
theorem nvmeNextHead_cursor (n : Nat) : nvmeNextHead size (cursor size n) = cursor size (n + 1) := by
  have inside := cursor_inside positive n
  rw [← cursor_advance]
  unfold nvmeNextHead Cursor.advance
  dsimp only
  rw [toUInt16_natCast (show (cursor size n).index + 1 < 2 ^ 16 by omega), Bool.xor_true]

end Ring

/-! ### Runs -/

/-- A slot of the submission ring: a command, and which of all commands it is. -/
structure NvmeSubmission where
  command : NvmeCommand
  number : Nat
deriving DecidableEq

/-- The two rings, the doorbells, and the places of both parties. `executing` are the commands that the controller has fetched
and not completed. -/
structure NvmeRings where
  size : Nat
  tail : Nat
  head : Cursor
  poll : NvmePoll
  submissions : Store NvmeSubmission
  entries : Store NvmeCompletionEntry
  tailDoorbell : Nat
  headDoorbell : Nat
  submissionSize : Nat
  completionSize : Nat
  fetch : Nat
  executing : List Nat
  post : Cursor
  commands : List NvmeCommand
  completions : List NvmeCompletionEntry
  returns : List NvmeReturn

/-- What happens next: a call begins, the call in progress reads an entry, the controller fetches a command, or posts a
completion. -/
inductive NvmeRingEvent where
  | submit (opcode nsid lba nlb buf : Nat)
  | read
  | fetch
  | post (status : Nat)
deriving DecidableEq

namespace NvmeRings

/-- The queues as `nvme_disk_driver_mount_for_device` makes them: cleared, and created with their sizes. -/
def start (size : Nat) : NvmeRings where
  size := size
  tail := 0
  head := ⟨0, true⟩
  poll := .idle
  submissions := fun _ => ⟨⟨0, 0, 0, 0, 0, 0, 0, 0, 0⟩, 0⟩
  entries := fun _ => ⟨0, 0⟩
  tailDoorbell := 0
  headDoorbell := 0
  submissionSize := nvmeControllerSize (nvmeCreateCdw10 1 size)
  completionSize := nvmeControllerSize (nvmeCreateCdw10 1 size)
  fetch := 0
  executing := []
  post := ⟨0, true⟩
  commands := []
  completions := []
  returns := []

/-- The entry that the driver looks at. -/
def entry (σ : NvmeRings) : NvmeCompletionEntry := σ.entries σ.head.index

/-- The call in progress returns. -/
def return_ (σ : NvmeRings) (res : Int) (consumed : Option Nat) : NvmeRings :=
  { σ with
    poll := .idle
    returns := σ.returns ++ [⟨σ.commands.length - 1, res, consumed, σ.completions.length⟩] }

/-- A call writes its command and rings the doorbell of the submission queue. -/
def submit (σ : NvmeRings) (command : NvmeCommand) : NvmeRings :=
  let newTail := nvmeNextTail σ.size σ.tail
  { σ with
    poll := .polling 0
    submissions := put σ.submissions σ.tail ⟨command, σ.commands.length⟩
    tail := newTail
    tailDoorbell := newTail
    commands := σ.commands ++ [command] }

/-- The next read of the call in progress. -/
def driverRead (σ : NvmeRings) : Option NvmeRings :=
  match σ.poll with
  | .idle => none
  | .polling i =>
      if σ.entry.phase = σ.head.phase then some { σ with poll := .polled }
      else if i + 1 < 1000000 then some { σ with poll := .polling (i + 1) }
      else some { σ with poll := .polled }
  | .polled =>
      if σ.entry.phase = σ.head.phase then some { σ with poll := .matched } else some (σ.return_ etimeout none)
  | .matched =>
      let res := if nvmeCompletionQueueStatus σ.entry = 0 then 0 else eio
      let newHead := nvmeNextHead σ.size σ.head
      some { σ.return_ res (some σ.entry.command) with head := newHead, headDoorbell := newHead.index }

/-- The controller fetches the next command. -/
def controllerFetch (σ : NvmeRings) : Option NvmeRings :=
  if σ.fetch = σ.tailDoorbell then none
  else some { σ with
    executing := σ.executing ++ [(σ.submissions σ.fetch).number]
    fetch := nvmeFetchNext σ.submissionSize σ.fetch }

/-- The controller completes the command that it fetched first. -/
def controllerPost (σ : NvmeRings) (status : Nat) : Option NvmeRings :=
  match σ.executing with
  | [] => none
  | number :: executing =>
      let entry := nvmeCompletionEntry status σ.post.phase 0 number
      some { σ with
        entries := put σ.entries σ.post.index entry
        executing := executing
        post := nvmePostNext σ.completionSize σ.post
        completions := σ.completions ++ [entry] }

/-- **One step of a run.** -/
def nvmeRingStep (σ : NvmeRings) : NvmeRingEvent → Option NvmeRings
  | .submit opcode nsid lba nlb buf =>
      match σ.poll with
      | .idle => some (σ.submit (nvmeIoCommand opcode nsid lba nlb buf))
      | _ => none
  | .read => σ.driverRead
  | .fetch => σ.controllerFetch
  | .post status => σ.controllerPost status

def Step (σ : NvmeRings) (event : NvmeRingEvent) (σ' : NvmeRings) : Prop := nvmeRingStep σ event = some σ'

/-- The states of all runs with queues of a size. -/
def Reachable (size : Nat) (σ : NvmeRings) : Prop := StepRun.Reachable Step (· = start size) σ

/-- No poll has timed out. -/
def InTime (σ : NvmeRings) : Prop := ∀ returned ∈ σ.returns, returned.res ≠ etimeout

/-- **The parties are in step**: before a submission the driver expects the completion where the controller posts it next and
with the same phase, and the controller has fetched and completed all commands. While a call polls, an entry of the phase that
it expects is that of its command, and so it took its own completion whenever it took one. -/
structure Lockstep (σ : NvmeRings) : Prop where
  completion : σ.poll = .idle → σ.head = σ.post
  submission : σ.poll = .idle → σ.fetch = σ.tailDoorbell ∧ σ.executing = []
  fresh : σ.poll ≠ .idle → σ.entry.phase = σ.head.phase → σ.entry.command + 1 = σ.commands.length
  own : ∀ k (returned : NvmeReturn), σ.returns[k]? = some returned → returned.consumed = some k

/-! ### Where the parties are -/

/-- How many commands the controller has fetched. -/
def fetched (σ : NvmeRings) : Nat := σ.completions.length + σ.executing.length

/-- **The places by the numbers**: the driver's by the calls that have returned and that have begun, the controller's by the
commands that it has fetched and completed. -/
structure Paced (size : Nat) (σ : NvmeRings) : Prop where
  sizes : σ.size = size ∧ σ.submissionSize = size ∧ σ.completionSize = size
  ring : Written NvmeCompletionEntry.phase size σ.entries σ.completions
  head : σ.head = cursor size σ.returns.length
  post : σ.post = cursor size σ.completions.length
  tail : σ.tail = σ.commands.length % size
  doorbell : σ.tailDoorbell = σ.tail
  fetch : σ.fetch = σ.fetched % size
  flight : σ.commands.length = σ.returns.length + NvmeRun.inFlight σ.poll
  taken : σ.returns.length ≤ σ.completions.length
  submitted : σ.fetched ≤ σ.commands.length
  slots : ∀ n, σ.fetched ≤ n → n < σ.commands.length → (σ.submissions (n % size)).number = n
  executing : σ.executing = List.range' σ.completions.length σ.executing.length
  order : ∀ n (inside : n < σ.completions.length), σ.completions[n].command = n
  found : σ.poll = .matched → σ.returns.length < σ.completions.length
  own : ∀ k (returned : NvmeReturn), σ.returns[k]? = some returned → returned.consumed = some k

variable {σ σ' : NvmeRings} {size : Nat}

/-- The calls in progress are at most one. -/
theorem inFlight_le (poll : NvmePoll) : NvmeRun.inFlight poll ≤ 1 := by
  cases poll with
  | idle => exact Nat.zero_le 1
  | _ => exact le_rfl

theorem Paced.near (paced : σ.Paced size) : σ.completions.length ≤ σ.returns.length + lap size := by
  have busy := inFlight_le σ.poll
  have flight := paced.flight
  have submitted := paced.submitted
  have positive := lap_pos size
  unfold fetched at submitted
  omega

/-- **The driver sees an entry of its phase exactly when there is a completion that it has not taken.** -/
theorem Paced.fresh_iff (paced : σ.Paced size) : σ.entry.phase = σ.head.phase ↔ σ.returns.length < σ.completions.length := by
  unfold NvmeRings.entry
  rw [paced.head]
  exact paced.ring.fresh_iff paced.taken paced.near

/-- The entry is then that of the command in flight. -/
theorem Paced.entry (paced : σ.Paced size) (inside : σ.returns.length < σ.completions.length) :
    σ.entry.command = σ.returns.length := by
  unfold NvmeRings.entry
  rw [paced.head, paced.ring.recent σ.returns.length inside paced.near]
  exact paced.order σ.returns.length inside

/-- **Places that go with the numbers are in step.** -/
theorem Paced.lockstep (paced : σ.Paced size) : σ.Lockstep := by
  have busy := inFlight_le σ.poll
  have flight := paced.flight
  have taken := paced.taken
  have submitted := paced.submitted
  unfold fetched at submitted
  refine ⟨fun idle => ?_, fun idle => ?_, fun _ fresh => ?_, paced.own⟩
  · rw [idle] at flight
    change σ.commands.length = σ.returns.length at flight
    rw [paced.head, paced.post, show σ.returns.length = σ.completions.length by omega]
  · rw [idle] at flight
    change σ.commands.length = σ.returns.length at flight
    have none_ : σ.executing.length = 0 := by omega
    refine ⟨?_, List.length_eq_zero_iff.mp none_⟩
    rw [paced.fetch, paced.doorbell, paced.tail]
    unfold fetched
    rw [show σ.completions.length + σ.executing.length = σ.commands.length by omega]
  · have inside := paced.fresh_iff.mp fresh
    rw [paced.entry inside]
    omega

theorem paced_start (atLeast : 0 < size) (atMost : size ≤ 64) : (start size).Paced size where
  sizes := ⟨rfl, nvmeControllerSize_create atLeast atMost, nvmeControllerSize_create atLeast atMost⟩
  ring := Written.empty fun _ _ => (show NvmeCompletionEntry.phase ⟨0, 0⟩ = false by decide)
  head := by
    show (⟨0, true⟩ : Cursor) = cursor size 0
    unfold cursor
    rw [Nat.zero_mod, Nat.zero_div]
    rfl
  post := by
    show (⟨0, true⟩ : Cursor) = cursor size 0
    unfold cursor
    rw [Nat.zero_mod, Nat.zero_div]
    rfl
  tail := (Nat.zero_mod size).symm
  doorbell := rfl
  fetch := (Nat.zero_mod size).symm
  flight := rfl
  taken := le_rfl
  submitted := le_rfl
  slots n _ inside := absurd inside (Nat.not_lt_zero n)
  executing := rfl
  order n inside := absurd inside (Nat.not_lt_zero n)
  found found := by cases found
  own k returned member := by cases member

/-- A call that goes on polling. -/
theorem Paced.poll (paced : σ.Paced size) {poll : NvmePoll} (busy : NvmeRun.inFlight poll = NvmeRun.inFlight σ.poll)
    (found : poll = .matched → σ.returns.length < σ.completions.length) : ({ σ with poll := poll } : NvmeRings).Paced size :=
  { paced with flight := paced.flight.trans (congrArg _ busy.symm), found := found }

/-- A call begins: its command is in the slot of its number. -/
theorem Paced.submit (paced : σ.Paced size) (atLeast : 0 < size) (atMost : size ≤ 64) (idle : σ.poll = .idle)
    (command : NvmeCommand) : (σ.submit command).Paced size := by
  have flight := paced.flight
  have taken := paced.taken
  have submitted := paced.submitted
  rw [idle] at flight
  change σ.commands.length = σ.returns.length at flight
  have newTail : nvmeNextTail σ.size σ.tail = (σ.commands.length + 1) % size := by
    rw [paced.sizes.1, paced.tail]
    exact nvmeNextTail_mod atLeast atMost _
  refine { paced with
    tail := ?_, doorbell := rfl, flight := ?_, submitted := ?_, slots := fun n later inside => ?_, found := fun found => ?_ }
  · show nvmeNextTail σ.size σ.tail = (σ.commands ++ [command]).length % size
    rw [newTail, List.length_append, List.length_singleton]
  · show (σ.commands ++ [command]).length = σ.returns.length + 1
    rw [List.length_append, List.length_singleton, flight]
  · show σ.fetched ≤ (σ.commands ++ [command]).length
    rw [List.length_append]
    omega
  · -- Only this command is in flight.
    change σ.fetched ≤ n at later
    change n < (σ.commands ++ [command]).length at inside
    rw [List.length_append, List.length_singleton] at inside
    have first : n = σ.commands.length := by
      unfold fetched at later
      omega
    show (put σ.submissions σ.tail _ (n % size)).number = n
    rw [paced.tail, first, put_same]
  · cases found

/-- A call that takes a completion. -/
theorem Paced.take (paced : σ.Paced size) (atLeast : 0 < size) (atMost : size ≤ 64) (matched : σ.poll = .matched) (res : Int) :
    ({ σ.return_ res (some σ.entry.command) with
        head := nvmeNextHead σ.size σ.head
        headDoorbell := (nvmeNextHead σ.size σ.head).index } : NvmeRings).Paced size := by
  have inside := paced.found matched
  have flight := paced.flight
  rw [matched] at flight
  change σ.commands.length = σ.returns.length + 1 at flight
  have more : ∀ returned : NvmeReturn, (σ.returns ++ [returned]).length = σ.returns.length + 1 := fun returned => by
    rw [List.length_append, List.length_singleton]
  refine { paced with
    head := ?_, flight := ?_, taken := ?_, found := fun found => ?_, own := fun k returned member => ?_ }
  · show nvmeNextHead σ.size σ.head = cursor size (σ.returns ++ [_]).length
    rw [paced.sizes.1, paced.head, more]
    exact nvmeNextHead_cursor atLeast atMost _
  · show σ.commands.length = (σ.returns ++ [_]).length + 0
    rw [more, flight]
  · show (σ.returns ++ [_]).length ≤ σ.completions.length
    rw [more]
    exact inside
  · cases found
  · change (σ.returns ++ [_])[k]? = some returned at member
    rcases Nat.lt_trichotomy k σ.returns.length with earlier | here | later
    · rw [List.getElem?_append_left earlier] at member
      exact paced.own k returned member
    · rw [here, List.getElem?_concat_length, Option.some.injEq] at member
      rw [← member, here, paced.entry inside]
    · rw [List.getElem?_eq_none (by rw [more]; omega)] at member
      cases member

/-- The reads of a call that does not time out. -/
theorem Paced.read (paced : σ.Paced size) (atLeast : 0 < size) (atMost : size ≤ 64) (taken : σ.driverRead = some σ')
    (inTime : σ'.InTime) : σ'.Paced size := by
  unfold driverRead at taken
  cases poll : σ.poll with
  | idle =>
      rw [poll] at taken
      cases taken
  | polling i =>
      rw [poll] at taken
      dsimp only at taken
      split at taken
      · cases taken
        exact paced.poll (by rw [poll]; rfl) fun found => by cases found
      · split at taken
        · cases taken
          exact paced.poll (by rw [poll]; rfl) fun found => by cases found
        · cases taken
          exact paced.poll (by rw [poll]; rfl) fun found => by cases found
  | polled =>
      rw [poll] at taken
      dsimp only at taken
      split at taken
      · next same =>
          cases taken
          exact paced.poll (by rw [poll]; rfl) fun _ => paced.fresh_iff.mp same
      · cases taken
        exact absurd rfl (inTime _ (List.mem_append_right _ List.mem_cons_self))
  | matched =>
      rw [poll] at taken
      cases taken
      exact paced.take atLeast atMost poll _

/-- **The controller fetches the command in flight.** -/
theorem Paced.controllerFetch (paced : σ.Paced size) (taken : σ.controllerFetch = some σ') : σ'.Paced size := by
  unfold NvmeRings.controllerFetch at taken
  split at taken
  · cases taken
  · next different =>
      cases taken
      have submitted := paced.submitted
      have pending : σ.fetched < σ.commands.length := by
        refine submitted.lt_of_ne fun all => different ?_
        rw [paced.fetch, paced.doorbell, paced.tail, all]
      have number := paced.slots σ.fetched le_rfl pending
      rw [← paced.fetch] at number
      have more : ∀ number, (σ.executing ++ [number]).length = σ.executing.length + 1 := fun number => by
        rw [List.length_append, List.length_singleton]
      refine { paced with
        fetch := ?_, submitted := ?_, slots := fun n later inside => paced.slots n ?_ inside, executing := ?_ }
      · show (σ.fetch + 1) % σ.submissionSize = (σ.completions.length + (σ.executing ++ [_]).length) % size
        rw [paced.sizes.2.1, paced.fetch, Nat.mod_add_mod, more]
        rfl
      · show σ.completions.length + (σ.executing ++ [_]).length ≤ σ.commands.length
        rw [more]
        exact pending
      · change σ.completions.length + (σ.executing ++ [_]).length ≤ n at later
        rw [more] at later
        exact (Nat.le_succ _).trans later
      · show σ.executing ++ [_] = List.range' σ.completions.length (σ.executing ++ [_]).length
        rw [more, List.range'_concat, ← paced.executing, number, Nat.one_mul]
        rfl

/-- **The controller completes the command in flight.** -/
theorem Paced.controllerPost (paced : σ.Paced size) (atLeast : 0 < size) {status : Nat}
    (taken : σ.controllerPost status = some σ') : σ'.Paced size := by
  unfold NvmeRings.controllerPost at taken
  cases executing : σ.executing with
  | nil =>
      rw [executing] at taken
      cases taken
  | cons number rest =>
      rw [executing] at taken
      cases taken
      have submitted := paced.submitted
      have inOrder := paced.executing
      unfold fetched at submitted
      rw [executing, List.length_cons] at inOrder submitted
      rw [List.range'_succ, List.cons.injEq] at inOrder
      have more : ∀ entry : NvmeCompletionEntry, (σ.completions ++ [entry]).length = σ.completions.length + 1 := fun entry => by
        rw [List.length_append, List.length_singleton]
      have sameFetched : σ.completions.length + 1 + rest.length = σ.fetched := by
        unfold fetched
        rw [executing, List.length_cons]
        omega
      refine { paced with
        ring := ?_, post := ?_, fetch := ?_, taken := ?_, submitted := ?_, slots := fun n later => paced.slots n ?_,
        executing := ?_, order := fun n inside => ?_, found := fun matched => ?_ }
      · show Written _ size (put σ.entries σ.post.index _) (σ.completions ++ [_])
        rw [paced.post]
        exact paced.ring.write (nvmeCompletionEntry_phase _ _ _ _)
      · show nvmePostNext σ.completionSize σ.post = cursor size (σ.completions ++ [_]).length
        rw [paced.sizes.2.2, paced.post, more]
        exact nvmePostNext_cursor atLeast _
      · show σ.fetch = ((σ.completions ++ [_]).length + rest.length) % size
        rw [more, sameFetched]
        exact paced.fetch
      · have taken := paced.taken
        show σ.returns.length ≤ (σ.completions ++ [_]).length
        rw [more]
        omega
      · show (σ.completions ++ [_]).length + rest.length ≤ σ.commands.length
        rw [more]
        omega
      · change (σ.completions ++ [_]).length + rest.length ≤ n at later
        rwa [more, sameFetched] at later
      · show rest = List.range' (σ.completions ++ [_]).length rest.length
        rw [more]
        exact inOrder.2
      · change n < (σ.completions ++ [_]).length at inside
        rw [more] at inside
        rcases Nat.lt_succ_iff_lt_or_eq.mp inside with earlier | last
        · show (σ.completions ++ [_])[n].command = n
          rw [List.getElem_append_left earlier]
          exact paced.order n earlier
        · subst last
          show (σ.completions ++ [_])[σ.completions.length].command = σ.completions.length
          rw [List.getElem_concat_length rfl]
          exact inOrder.1
      · have inside := paced.found matched
        show σ.returns.length < (σ.completions ++ [_]).length
        rw [more]
        omega

/-- A step forgets no return. -/
theorem Step.inTime {event : NvmeRingEvent} (taken : Step σ event σ') (inTime : σ'.InTime) : σ.InTime := by
  have grows : σ.returns <+: σ'.returns := by
    unfold Step nvmeRingStep at taken
    cases event with
    | submit opcode nsid lba nlb buf =>
        dsimp only at taken
        split at taken
        · cases taken
          exact List.prefix_rfl
        · cases taken
    | read =>
        change σ.driverRead = some σ' at taken
        unfold driverRead at taken
        split at taken
        · cases taken
        · split at taken
          · cases taken
            exact List.prefix_rfl
          · split at taken <;> cases taken <;> exact List.prefix_rfl
        · split at taken <;> cases taken
          · exact List.prefix_rfl
          · exact List.prefix_append _ _
        · cases taken
          exact List.prefix_append _ _
    | fetch =>
        change σ.controllerFetch = some σ' at taken
        unfold NvmeRings.controllerFetch at taken
        split at taken <;> cases taken
        exact List.prefix_rfl
    | post status =>
        change σ.controllerPost status = some σ' at taken
        unfold NvmeRings.controllerPost at taken
        split at taken <;> cases taken
        exact List.prefix_rfl
  exact fun returned member => inTime returned (grows.subset member)

/-- **One step keeps the places**, unless its poll times out. -/
theorem Paced.step (paced : σ.Paced size) (atLeast : 0 < size) (atMost : size ≤ 64) {event : NvmeRingEvent}
    (taken : Step σ event σ') (inTime : σ'.InTime) : σ'.Paced size := by
  unfold Step nvmeRingStep at taken
  cases event with
  | submit opcode nsid lba nlb buf =>
      dsimp only at taken
      split at taken
      · next idle =>
          cases taken
          exact paced.submit atLeast atMost idle _
      · cases taken
  | read => exact paced.read atLeast atMost taken inTime
  | fetch => exact paced.controllerFetch taken
  | post status => exact paced.controllerPost atLeast taken

/-- **Every reachable state in which no poll has timed out has its places by the numbers.** -/
theorem Reachable.paced (atLeast : 0 < size) (atMost : size ≤ 64) (reached : Reachable size σ) (inTime : σ.InTime) :
    σ.Paced size :=
  StepRun.Reachable.invariant (fun σ => σ.InTime → σ.Paced size)
    (fun _ begins _ => begins ▸ paced_start atLeast atMost)
    (fun _ _ _ kept taken inTime => (kept (taken.inTime inTime)).step atLeast atMost taken inTime) reached inTime

/-- **The rings run in lock-step**: for queues of two to sixty-four entries, after any number of commands, however the steps of
the driver and of the controller interleave, as long as no poll times out. -/
theorem nvmeLockstep (atLeast : 2 ≤ size) (atMost : size ≤ 64) (reached : Reachable size σ) (inTime : σ.InTime) :
    σ.Lockstep :=
  (reached.paced (by omega) atMost inTime).lockstep

/-! ### A run over more than one lap -/

/-- The state after a list of events. -/
def after (σ : NvmeRings) : List NvmeRingEvent → Option NvmeRings
  | [] => some σ
  | event :: events => (nvmeRingStep σ event).bind fun σ' => after σ' events

theorem Reachable.after (reached : Reachable size σ) {events : List NvmeRingEvent} (taken : σ.after events = some σ') :
    Reachable size σ' := by
  induction events generalizing σ with
  | nil =>
      cases taken
      exact reached
  | cons event events ih =>
      obtain ⟨σ₁, first, rest⟩ := Option.bind_eq_some_iff.mp taken
      exact ih (StepRun.Reachable.next event reached first) rest

/-- A read of one sector, which is polled once in vain and then completed. -/
def oneRead : List NvmeRingEvent := [.submit nvmeOpcodeRead 1 0 1 0x100000, .fetch, .read, .post 0, .read, .read, .read]

/-- **Three reads on rings of two entries.** -/
theorem nvmeLockstep_three : ∃ σ, (start 2).after (oneRead ++ oneRead ++ oneRead) = some σ ∧
    σ.returns.length = 3 ∧ σ.head = ⟨1, false⟩ ∧ σ.Lockstep := by
  have run : ((start 2).after (oneRead ++ oneRead ++ oneRead)).map (fun σ => (σ.returns, σ.head)) =
      some ([⟨0, 0, some 0, 1⟩, ⟨1, 0, some 1, 2⟩, ⟨2, 0, some 2, 3⟩], ⟨1, false⟩) := by decide
  obtain ⟨σ, taken, facts⟩ := Option.map_eq_some_iff.mp run
  have returns : σ.returns = _ := congrArg Prod.fst facts
  refine ⟨σ, taken, by rw [returns]; rfl, congrArg Prod.snd facts,
    nvmeLockstep le_rfl (by decide) (Reachable.after (.start rfl) taken) ?_⟩
  unfold InTime
  rw [returns]
  decide

end NvmeRings

end PeachOS
