/-
**The turns of the tasks.**

Every entry into the kernel is a turn: the task that is interrupted goes on, or `task_next` picks another. The scan
of `task_next` starts behind the current task and returns to the head only from the tail:

* `resumed_inOrder` — between two turns of the last task, the tasks run in the order of the list;
* `resumed_roundRobin` — if no task sleeps, the timer runs the tasks one after the other, for ever.
-/

import PeachOS.Isr80h.Calls
import PeachOS.Task.Scheduling

namespace PeachOS

/-- An entry into the kernel. -/
inductive Turn where
  | interrupt (callback : InterruptCallback) (frame : InterruptFrame) (input : CallInput)
  | systemCall (command : Int) (frame : InterruptFrame) (input : CallInput)

/-- The tasks are scanned to the end. -/
def Turn.Scans (length : Nat) : Turn → Prop
  | .interrupt _ _ input => length ≤ input.fuel
  | .systemCall _ _ input => length ≤ input.fuel

/-- The calls that load or end a process. -/
def processCommands : List SystemCommand := [.processLoadStart, .invokeSystemCommand, .exit, .fread, .fstat]

/-- The tasks stay the same. -/
def Turn.Stays : Turn → Prop
  | .interrupt _ _ _ => True
  | .systemCall command _ _ => ∀ known ∈ processCommands, commandOf command ≠ some known

namespace TaskSystem

def takeTurn (s : TaskSystem) : Turn → Outcome
  | .interrupt callback frame input => s.interruptHandler input callback frame
  | .systemCall command frame input => s.isr80hHandler input command frame

/-- The tasks that `task_next` picks, turn after turn. -/
def resumedTasks (s : TaskSystem) : List Turn → List Nat
  | [] => []
  | turn :: turns =>
      match s.takeTurn turn with
      | .resumes task s => task :: s.resumedTasks turns
      | .returns _ s => s.resumedTasks turns
      | .stops => []

/-- The tasks that are scanned. -/
def upcoming (before : List Nat) (current : Nat) (after : List Nat) : List Nat :=
  if after = [] then before ++ [current] else after

/-! ### One turn -/

/-- The run stops, the current task goes on, or a task that is scanned runs. -/
def TurnEnds (s : TaskSystem) (scanned : List Nat) : Outcome → Prop
  | .stops => True
  | .returns _ s' => TasksKept s s' ∧ s'.list.currentTask = s.list.currentTask
  | .resumes task s' => TasksKept s s' ∧ s'.list.currentTask = task ∧ task ∈ scanned

theorem thenTaskPage_ends {s : TaskSystem} {scanned : List Nat} {outcome : Outcome} (ends : s.TurnEnds scanned outcome) :
    s.TurnEnds scanned (thenTaskPage outcome) := by
  cases outcome with
  | returns result s' => exact ⟨ends.1.trans (taskSwitch_kept _ _), ends.2⟩
  | resumes task s' => exact ends
  | stops => trivial

theorem listsTasks_kept {s s' : TaskSystem} {tasks : List Nat} (kept : TasksKept s s') (lists : ListsTasks s.list tasks) :
    ListsTasks s'.list tasks := by
  unfold ListsTasks
  rw [kept.head]
  exact (LinkedList.segment_congr fun task _ => kept.next task).mpr lists

theorem firstAwake_mem {list : TaskList} {now : Nat} {tasks : List Nat} (found : firstAwake list now tasks ≠ 0) :
    firstAwake list now tasks ∈ tasks := by
  unfold firstAwake at *
  cases first : tasks.find? (taskAwake list now) with
  | none =>
      rw [first] at found
      exact absurd rfl found
  | some task => exact List.mem_of_find?_eq_some first

section Turns

variable {s : TaskSystem} {before after : List Nat} {current : Nat}
  (lists : ListsTasks s.list (before ++ current :: after)) (isCurrent : s.list.currentTask = current)

include lists isCurrent

theorem taskNext_ends {s' : TaskSystem} {fuel : Nat} (times : List Nat) (kept : TasksKept s s')
    (same : s'.list.currentTask = s.list.currentTask) (enough : (before ++ current :: after).length ≤ fuel) :
    s.TurnEnds (upcoming before current after) (s'.taskNext fuel times) := by
  induction times with
  | nil => trivial
  | cons now later ih =>
      unfold taskNext
      rw [taskGetNextNonSleepingTask_eq (listsTasks_kept kept lists) (same.trans isCurrent) enough]
      by_cases none_ : firstAwake s'.list now (upcoming before current after) = 0
      · unfold upcoming at none_
        simpa only [none_, if_true, lt_irrefl, if_false] using ih
      · have member := firstAwake_mem none_
        unfold upcoming at none_ member
        simp only [none_, lt_irrefl, if_false]
        exact ⟨kept.trans (taskSwitch_kept _ _), rfl, member⟩

/-- **One turn** keeps the list, and a task that is scanned runs if not the same one. -/
theorem takeTurn_ends (turn : Turn) (stays : turn.Stays) (enough : turn.Scans (before ++ current :: after).length) :
    s.TurnEnds (upcoming before current after) (s.takeTurn turn) := by
  have some_ : s.list.currentTask ≠ 0 := isCurrent ▸ lists.ne_null current (by simp)
  cases turn with
  | interrupt callback frame input =>
      have entered := entered_kept s frame
      show s.TurnEnds _ (s.interruptHandler input callback frame)
      have still : (s.kernelPage.taskCurrentSaveState frame).list.currentTask ≠ 0 := some_
      unfold interruptHandler
      rw [if_pos some_]
      cases callback with
      | exception => trivial
      | clock =>
          dsimp only
          rw [if_neg still]
          exact taskNext_ends lists isCurrent input.times entered rfl enough
      | device =>
          dsimp only
          rw [if_pos still]
          exact @thenTaskPage_ends s (upcoming before current after) (.returns 0 _)
            ⟨entered.trans (data_kept _ input.data), rfl⟩
      | nothing =>
          dsimp only
          rw [if_pos (show s.kernelPage.list.currentTask ≠ 0 from some_)]
          exact @thenTaskPage_ends s (upcoming before current after) (.returns 0 _)
            ⟨kernelPage_kept s, rfl⟩
  | systemCall command frame input =>
      have entered := entered_kept s frame
      show s.TurnEnds _ (s.isr80hHandler input command frame)
      unfold isr80hHandler
      rw [if_neg some_]
      refine thenTaskPage_ends ?_
      unfold isr80hHandleCommand
      cases known : commandOf command with
      | none => exact ⟨entered, rfl⟩
      | some call =>
          have apart : call ∉ processCommands := fun member => stays call member known
          cases call
          case processLoadStart | invokeSystemCommand | exit | fread | fstat => exact absurd (by decide) apart
          case udelay =>
            exact taskNext_ends lists isCurrent input.times (entered.trans (sleep_kept _ _ _ _)) rfl enough
          all_goals exact ⟨entered.trans (data_kept _ input.data), rfl⟩

end Turns

/-- What is scanned, split at the task that runs: behind it are the tasks behind it in the list. -/
theorem upcoming_split {before after : List Nat} {current task : Nat} (scanned : task ∈ upcoming before current after) :
    ∃ passed rest before', upcoming before current after = passed ++ task :: rest ∧
      before ++ current :: after = before' ++ task :: rest := by
  obtain ⟨passed, rest, split⟩ := List.append_of_mem scanned
  unfold upcoming at split ⊢
  by_cases ends : after = []
  · rw [if_pos ends] at split ⊢
    exact ⟨passed, rest, passed, split, by rw [ends, split]⟩
  · rw [if_neg ends] at split ⊢
    exact ⟨passed, rest, before ++ current :: passed, split, by rw [split]; simp⟩

/-! ### The runs -/

/-- From any task on, the tasks up to the next turn of the last one are in order. -/
theorem resumed_fromCurrent {last : Nat} {front : List Nat} (turns : List Turn) {s : TaskSystem}
    {before after window : List Nat} {current task : Nat}
    (ordered : before ++ current :: after = front ++ [last]) (lists : ListsTasks s.list (before ++ current :: after))
    (isCurrent : s.list.currentTask = current)
    (orderly : ∀ turn ∈ turns, turn.Stays ∧ turn.Scans (before ++ current :: after).length)
    (starts : window ++ [task] <+: s.resumedTasks turns) (notLast : last ∉ window) :
    (window ++ [task]).Sublist (upcoming before current after) := by
  induction turns generalizing s before current after window with
  | nil => simp [resumedTasks] at starts
  | cons turn turns ih =>
      obtain ⟨stays, enough⟩ := orderly turn List.mem_cons_self
      have later := fun turn member => orderly turn (List.mem_cons_of_mem _ member)
      have ends := takeTurn_ends lists isCurrent turn stays enough
      unfold resumedTasks at starts
      cases outcome : s.takeTurn turn with
      | stops => simp [outcome] at starts
      | returns result s' =>
          rw [outcome] at ends
          rw [outcome] at starts
          exact ih ordered (listsTasks_kept ends.1 lists) (ends.2.trans isCurrent) later starts notLast
      | resumes first s' =>
          rw [outcome] at ends starts
          obtain ⟨kept, now, scanned⟩ := ends
          obtain ⟨passed, rest, before', split, ordered'⟩ := upcoming_split scanned
          rw [split]
          refine List.Sublist.trans ?_ (List.sublist_append_right passed _)
          cases window with
          | nil =>
              have same : task = first := by simpa using starts
              simp [same]
          | cons other window =>
              obtain ⟨same, follows⟩ := List.cons_prefix_cons.mp starts
              subst same
              have different : rest ≠ [] := by
                rintro rfl
                rw [ordered'] at ordered
                have same := List.singleton_inj.mp (List.append_inj' ordered rfl).2
                exact notLast (same ▸ List.mem_cons_self)
              rw [ordered'] at ordered lists later
              have behind := ih ordered (listsTasks_kept kept lists) now later follows
                fun member => notLast (List.mem_cons_of_mem _ member)
              rw [upcoming, if_neg different] at behind
              exact behind.cons_cons other

/-- What is scanned is part of the list. -/
theorem upcoming_sublist (before : List Nat) (current : Nat) (after : List Nat) :
    (upcoming before current after).Sublist (before ++ current :: after) := by
  unfold upcoming
  split
  · simp_all
  · exact (List.sublist_cons_self current after).trans (List.sublist_append_right _ _)

/-- **No task has a second turn before the last task has had one.** In every run whose calls neither load nor end
a process, the tasks that `task_next` picks between two turns of the last task of the list are in the order of the
list, whichever of them sleep. -/
theorem resumed_inOrder (s : TaskSystem) (front : List Nat) (last : Nat) (turns : List Turn) (window : List Nat)
    (task : Nat) (lists : ListsTasks s.list (front ++ [last])) (isCurrent : s.list.currentTask ∈ front ++ [last])
    (orderly : ∀ turn ∈ turns, turn.Stays ∧ turn.Scans (front ++ [last]).length)
    (within : window ++ [task] <:+: s.resumedTasks turns) (notLast : last ∉ window) :
    (window ++ [task]).Sublist (front ++ [last]) := by
  induction turns generalizing s with
  | nil => simp [resumedTasks] at within
  | cons turn turns ih =>
      obtain ⟨before, after, ordered⟩ := List.append_of_mem isCurrent
      have behind := @resumed_fromCurrent last front (turn :: turns) s before after window s.list.currentTask task ordered.symm
        (ordered ▸ lists) rfl (ordered ▸ orderly)
      have ends := takeTurn_ends (ordered ▸ lists) rfl turn (orderly turn List.mem_cons_self).1
        (ordered ▸ (orderly turn List.mem_cons_self).2)
      have later := fun turn member => orderly turn (List.mem_cons_of_mem _ member)
      unfold resumedTasks at within behind
      cases outcome : s.takeTurn turn with
      | stops => simp [outcome] at within
      | returns result s' =>
          rw [outcome] at ends within
          exact ih s' (listsTasks_kept ends.1 lists) (ends.2.symm ▸ isCurrent) later within
      | resumes first s' =>
          rw [outcome] at ends within behind
          rcases List.infix_cons_iff.mp within with starts | inside
          · rw [ordered]
            exact (behind starts notLast).trans (upcoming_sublist _ _ _)
          · obtain ⟨kept, now, scanned⟩ := ends
            refine ih s' (listsTasks_kept kept lists) ?_ later inside
            rw [now, ordered]
            exact (upcoming_sublist _ _ _).subset scanned

/-- Two tasks, of which the second one sleeps until 5. -/
def sleepySystem : TaskSystem := { emptyMachine.system with list := twoTasks 5 }

/-- The timer waits until the second task is awake, the second task calls `udelay`, and the timer comes again. -/
def sleepyTurns : List Turn :=
  [.interrupt .clock emptyFrame { programInput with times := [3, 7] }, .systemCall 25 emptyFrame { programInput with times := [8] },
    .interrupt .clock emptyFrame { programInput with times := [9] }]

/-- The first task runs between two turns of the second one. -/
theorem resumed_inOrder_sleepy : sleepySystem.resumedTasks sleepyTurns = [0x2000, 0x1000, 0x2000] ∧
    ([0x1000] ++ [0x2000]).Sublist ([0x1000] ++ [0x2000]) := by
  have runs : sleepySystem.resumedTasks sleepyTurns = [0x2000, 0x1000, 0x2000] := by decide +kernel
  refine ⟨runs, resumed_inOrder sleepySystem [0x1000] 0x2000 sleepyTurns [0x1000] 0x2000 (twoTasks_lists 5) (by decide)
    ?_ ⟨[0x2000], [], by rw [runs]; rfl⟩ (by decide)⟩
  intro turn member
  simp only [sleepyTurns, List.mem_cons, List.not_mem_nil, or_false] at member
  have enough : 2 ≤ 4 := by decide
  rcases member with rfl | rfl | rfl
  · exact ⟨trivial, enough⟩
  · exact ⟨(by decide : ∀ known ∈ processCommands, commandOf 25 ≠ some known), enough⟩
  · exact ⟨trivial, enough⟩

/-- The first task that is scanned is the next one in cyclic order. -/
theorem upcoming_head? {tasks : List Nat} {index : Nat} (inside : index < tasks.length) :
    (upcoming (tasks.take index) tasks[index] (tasks.drop (index + 1))).head? =
      some (tasks.getD ((index + 1) % tasks.length) 0) := by
  unfold upcoming
  by_cases ends : index + 1 < tasks.length
  · rw [if_neg (by simpa using ends), Nat.mod_eq_of_lt ends, List.head?_drop, List.getElem?_eq_getElem ends]
    simp [ends]
  · have last : index + 1 = tasks.length := by omega
    have all : tasks.take index ++ [tasks[index]] = tasks := by
      rw [List.take_append_getElem, last, List.take_length]
    rw [if_pos (by simp [last]), last, Nat.mod_self, all, List.head?_eq_getElem?]
    have some_ : 0 < tasks.length := by omega
    simp [some_]

/-- If all are awake, the first task that is scanned runs. -/
theorem taskNext_awake {s : TaskSystem} {tasks : List Nat} {index fuel now : Nat} (later : List Nat)
    (lists : ListsTasks s.list tasks) (isCurrent : tasks[index]? = some s.list.currentTask)
    (enough : tasks.length ≤ fuel) (awake : ∀ task ∈ tasks, (s.list.tasks task).sleepUntilMicroseconds ≤ now) :
    s.taskNext fuel (now :: later) =
      .resumes (tasks.getD ((index + 1) % tasks.length) 0) (s.taskSwitch (tasks.getD ((index + 1) % tasks.length) 0)) := by
  obtain ⟨inside, isCurrent⟩ := List.getElem?_eq_some_iff.mp isCurrent
  have split : tasks = tasks.take index ++ s.list.currentTask :: tasks.drop (index + 1) := by
    rw [← isCurrent, List.getElem_cons_drop, List.take_append_drop]
  obtain ⟨rest, first⟩ := List.head?_eq_some_iff.mp (upcoming_head? inside)
  rw [isCurrent] at first
  set next := tasks.getD ((index + 1) % tasks.length) 0
  have member : next ∈ tasks := by
    rw [split]
    exact (upcoming_sublist _ _ _).subset (first ▸ List.mem_cons_self)
  have nonnull : next ≠ 0 := lists.ne_null next member
  have found : firstAwake s.list now (upcoming (tasks.take index) s.list.currentTask (tasks.drop (index + 1))) = next := by
    have isAwake : taskAsleep (s.list.tasks next) now = false := by
      simpa [taskAsleep] using awake next member
    rw [first, firstAwake_cons, isAwake]
    rfl
  rw [taskNext, taskGetNextNonSleepingTask_eq (split ▸ lists) rfl (split ▸ enough)]
  unfold upcoming at found
  simp only [found, nonnull, lt_irrefl, if_false]

/-- **Round robin**: while no task sleeps, the interrupts of the timer run the tasks in the order of the list, again
and again. -/
theorem resumed_roundRobin (s : TaskSystem) (tasks : List Nat) (index : Nat) (turns : List (InterruptFrame × CallInput))
    (lists : ListsTasks s.list tasks) (isCurrent : tasks[index]? = some s.list.currentTask)
    (scans : ∀ turn ∈ turns, tasks.length ≤ turn.2.fuel ∧ turn.2.times ≠ [] ∧
      ∀ now ∈ turn.2.times, ∀ task ∈ tasks, (s.list.tasks task).sleepUntilMicroseconds ≤ now) :
    s.resumedTasks (turns.map fun turn => .interrupt .clock turn.1 turn.2) =
      (List.range turns.length).map fun turn => tasks.getD ((index + 1 + turn) % tasks.length) 0 := by
  induction turns generalizing s index with
  | nil => rfl
  | cons turn turns ih =>
      obtain ⟨enough, some_, awake⟩ := scans turn List.mem_cons_self
      obtain ⟨now, later, times⟩ := List.exists_cons_of_ne_nil some_
      have asleep : ∀ task, ((s.entered turn.1).list.tasks task).sleepUntilMicroseconds =
          (s.list.tasks task).sleepUntilMicroseconds :=
        ByteStore.put_field _ Task.sleepUntilMicroseconds rfl
      set next := tasks.getD ((index + 1) % tasks.length) 0 with isNext
      have runs : s.takeTurn (.interrupt .clock turn.1 turn.2) = .resumes next ((s.entered turn.1).taskSwitch next) := by
        have current : s.list.currentTask ≠ 0 := lists.ne_null _ (List.mem_of_getElem? isCurrent)
        have still : (s.kernelPage.taskCurrentSaveState turn.1).list.currentTask ≠ 0 := current
        show s.interruptHandler turn.2 .clock turn.1 = _
        unfold interruptHandler
        rw [if_pos current]
        dsimp only
        rw [if_neg still, times]
        exact taskNext_awake later (listsTasks_kept (entered_kept s turn.1) lists) isCurrent enough fun task member =>
          (asleep task).trans_le (awake now (times ▸ List.mem_cons_self) task member)
      have inside := Nat.mod_lt (index + 1) (List.length_pos_of_mem (List.mem_of_getElem? isCurrent))
      have rest := ih ((s.entered turn.1).taskSwitch next) ((index + 1) % tasks.length)
        (listsTasks_kept ((entered_kept s turn.1).trans (taskSwitch_kept _ _)) lists)
        (by simp [taskSwitch, pagingSwitch, inside, isNext])
        fun other member => by
          simpa only [taskSwitch, pagingSwitch, asleep] using scans other (List.mem_cons_of_mem _ member)
      rw [List.map_cons, resumedTasks, runs, List.length_cons, List.range_succ_eq_map, List.map_cons, List.map_map]
      dsimp only
      rw [rest]
      congr 1
      refine List.map_congr_left fun turn _ => ?_
      congr 1
      show ((index + 1) % tasks.length + 1 + turn) % tasks.length = (index + 1 + (turn + 1)) % tasks.length
      rw [Nat.add_assoc, Nat.mod_add_mod, Nat.add_comm 1 turn]

/-- Three interrupts once both are awake. -/
theorem resumed_roundRobin_two :
    sleepySystem.resumedTasks ((List.replicate 3 (emptyFrame, { programInput with times := [7] })).map
        fun turn => .interrupt .clock turn.1 turn.2) =
      (List.range 3).map fun turn => [0x1000, 0x2000].getD ((0 + 1 + turn) % 2) 0 := by
  refine resumed_roundRobin sleepySystem [0x1000, 0x2000] 0 (List.replicate 3 (emptyFrame, { programInput with times := [7] }))
    (twoTasks_lists 5) rfl fun turn member => ?_
  rw [List.eq_of_mem_replicate member]
  decide

end TaskSystem

end PeachOS
