/-
**The tasks of the living processes.**

`SystemLinked` is what the list of tasks keeps when processes end in any order: `next` visits the tasks of the
processes that have not been terminated, while a `prev` pointer leads to the task in front or to a freed one, as
`task_list_remove` leaves it. A task whose `prev` pointer leads to a freed task is cut out wrongly, unless it is
the first one.

* `SystemLinked.load` — a new process gets the last task;
* `SystemLinked.terminate` — a process is terminated whose task is the first one, or has the right `prev`;
* `SystemLinked.taskNext` — `task_next` resumes a task of the list.
-/

import PeachOS.Isr80h.Model
import PeachOS.Task.Links

namespace PeachOS

open ByteStore LinkedList

/-- A task that was freed: its memory still names its process. -/
def TaskSystem.Freed (s : TaskSystem) (task : Nat) : Prop := task ∈ s.tasksMade ∧ s.taskProcess task ∈ s.terminated

/-- **The list of tasks, forwards**: with the processes of its tasks, of which none was terminated. -/
structure SystemLinked (s : TaskSystem) (live : List Nat) : Prop where
  visits : NextVisits s.list live
  first : ∀ task rest, live = task :: rest → (s.list.tasks task).prev = 0 ∨ s.Freed (s.list.tasks task).prev
  back : ∀ front before task rest, live = front ++ before :: task :: rest →
    (s.list.tasks task).prev = before ∨ s.Freed (s.list.tasks task).prev
  owned : ∀ task ∈ live, (s.processes (s.taskProcess task)).task = task ∧ s.taskProcess task ∉ s.terminated
  made : ∀ task ∈ live, task ∈ s.tasksMade
  processesMade : ∀ task ∈ s.tasksMade, s.taskProcess task ∈ s.processesMade
  terminatedMade : ∀ process ∈ s.terminated, process ∈ s.processesMade

/-! ### Functions that leave the list -/

/-- The links between tasks and processes are kept. -/
structure TasksKept (s s' : TaskSystem) : Prop where
  next : ∀ task, (s'.list.tasks task).next = (s.list.tasks task).next
  prev : ∀ task, (s'.list.tasks task).prev = (s.list.tasks task).prev
  process : ∀ task, (s'.list.tasks task).process = (s.list.tasks task).process
  head : s'.list.taskHead = s.list.taskHead
  tail : s'.list.taskTail = s.list.taskTail
  processes : s'.processes = s.processes
  terminated : s'.terminated = s.terminated
  tasksMade : s'.tasksMade = s.tasksMade
  processesMade : s'.processesMade = s.processesMade

/-- What keeps the tasks, the processes and the histories keeps the links. -/
theorem tasksKept_of_eq {s s' : TaskSystem} (tasks : s'.list.tasks = s.list.tasks)
    (head : s'.list.taskHead = s.list.taskHead) (tail : s'.list.taskTail = s.list.taskTail)
    (processes : s'.processes = s.processes) (terminated : s'.terminated = s.terminated)
    (tasksMade : s'.tasksMade = s.tasksMade) (processesMade : s'.processesMade = s.processesMade) : TasksKept s s' :=
  ⟨fun _ => by rw [tasks], fun _ => by rw [tasks], fun _ => by rw [tasks], head, tail, processes, terminated, tasksMade,
    processesMade⟩

theorem TasksKept.refl (s : TaskSystem) : TasksKept s s := tasksKept_of_eq rfl rfl rfl rfl rfl rfl rfl

theorem TasksKept.trans {s s' s'' : TaskSystem} (first : TasksKept s s') (second : TasksKept s' s'') : TasksKept s s'' where
  next task := (second.next task).trans (first.next task)
  prev task := (second.prev task).trans (first.prev task)
  process task := (second.process task).trans (first.process task)
  head := second.head.trans first.head
  tail := second.tail.trans first.tail
  processes := second.processes.trans first.processes
  terminated := second.terminated.trans first.terminated
  tasksMade := second.tasksMade.trans first.tasksMade
  processesMade := second.processesMade.trans first.processesMade

/-- A task is assigned with the same links. -/
theorem tasksKept_setTask (s : TaskSystem) {task : Nat} {value : Task} (next : value.next = (s.list.tasks task).next)
    (prev : value.prev = (s.list.tasks task).prev) (process : value.process = (s.list.tasks task).process) :
    TasksKept s { s with list := s.list.setTask task value } :=
  ⟨put_field _ Task.next next, put_field _ Task.prev prev, put_field _ Task.process process, rfl, rfl, rfl, rfl, rfl, rfl⟩

section Kept

variable {s s' : TaskSystem} {live : List Nat} (same : TasksKept s s')

include same

theorem TasksKept.taskProcess (task : Nat) : s'.taskProcess task = s.taskProcess task := same.process task

theorem TasksKept.freed (task : Nat) : s'.Freed task ↔ s.Freed task := by
  unfold TaskSystem.Freed
  rw [same.taskProcess, same.terminated, same.tasksMade]

theorem SystemLinked.kept (linked : SystemLinked s live) : SystemLinked s' live where
  visits := by
    refine ⟨?_, linked.visits.once, fun front last ends => ?_⟩
    · rw [same.head]
      exact (segment_congr fun task _ => same.next task).mpr linked.visits.visits
    · rw [same.tail]
      exact linked.visits.tail front last ends
  first task rest starts := by
    rw [same.prev, same.freed]
    exact linked.first task rest starts
  back front before task rest ends := by
    rw [same.prev, same.freed]
    exact linked.back front before task rest ends
  owned task member := by
    rw [same.taskProcess, same.processes, same.terminated]
    exact linked.owned task member
  made task member := by
    rw [same.tasksMade]
    exact linked.made task member
  processesMade task member := by
    rw [same.tasksMade] at member
    rw [same.taskProcess, same.processesMade]
    exact linked.processesMade task member
  terminatedMade process member := by
    rw [same.terminated] at member
    rw [same.processesMade]
    exact linked.terminatedMade process member

end Kept

section Switches

variable (s : TaskSystem)

theorem kernelPage_kept : TasksKept s s.kernelPage := tasksKept_of_eq rfl rfl rfl rfl rfl rfl rfl

theorem taskSwitch_kept (task : Nat) : TasksKept s (s.taskSwitch task) := tasksKept_of_eq rfl rfl rfl rfl rfl rfl rfl

theorem data_kept (data : KernelData) : TasksKept s { s with data := data } := tasksKept_of_eq rfl rfl rfl rfl rfl rfl rfl

theorem saveState_kept (frame : InterruptFrame) : TasksKept s (s.taskCurrentSaveState frame) :=
  tasksKept_setTask s rfl rfl rfl

theorem sleep_kept (task now microseconds : Nat) :
    TasksKept s { s with list := taskSleep s.list task now microseconds } := tasksKept_setTask s rfl rfl rfl

end Switches

/-! ### A new process -/

section Load

variable {s : TaskSystem} {live : List Nat} {loaded : TaskSystem.LoadedProcess}

/-- The task of a process is made, and its address is not taken for an error. -/
def TaskSystem.LoadedProcess.MakesTask (loaded : TaskSystem.LoadedProcess) : Prop :=
  loaded.allocated ≠ 0 ∧ toInt32 loaded.allocated ≠ 0

theorem processLoadForSlot_eq (makes : loaded.MakesTask) (slot : Nat) : s.processLoadForSlot loaded slot =
    (some loaded.process, { s with
      list := (taskNew s.list loaded.allocated loaded.process loaded.elfEntry).2
      data := loaded.data
      tasksMade := loaded.allocated :: s.tasksMade
      processesMade := loaded.process :: s.processesMade
      processes := put s.processes loaded.process
        { id := slot % 2 ^ 16, task := loaded.allocated, pagingDesc := loaded.pagingDesc }
      processVector := s.processVector.set slot loaded.process }) := by
  have made : (taskNew s.list loaded.allocated loaded.process loaded.elfEntry).1 = .ok loaded.allocated := by
    unfold taskNew
    rw [if_neg makes.1]
    dsimp only
    split <;> rfl
  unfold TaskSystem.processLoadForSlot
  simp only [made, if_neg makes.1, if_neg makes.2]

/-- **A new process**: its task is the last one. -/
theorem SystemLinked.load (linked : SystemLinked s live) (makes : loaded.MakesTask)
    (freshTask : loaded.allocated ∉ s.tasksMade) (freshProcess : loaded.process ∉ s.processesMade) :
    SystemLinked (s.processLoadSwitch (.ok loaded)).2.2 (live ++ [loaded.allocated]) ∧
      (s.list.CurrentIn live → (s.processLoadSwitch (.ok loaded)).2.2.list.CurrentIn (live ++ [loaded.allocated])) ∧
      ((s.processLoadSwitch (.ok loaded)).2.2.processes (s.processLoadSwitch (.ok loaded)).2.1).task = loaded.allocated ∧
      (live ≠ [] → (s.processLoadSwitch (.ok loaded)).2.2.list.currentTask = s.list.currentTask) := by
  have notLive : loaded.allocated ∉ live := fun member => freshTask (linked.made _ member)
  have appended := taskNew_appended linked.visits loaded.process loaded.elfEntry makes.1 notLive
  have result : s.processLoadSwitch (.ok loaded) = (0, loaded.process, { s with
      list := (taskNew s.list loaded.allocated loaded.process loaded.elfEntry).2
      data := loaded.data
      tasksMade := loaded.allocated :: s.tasksMade
      processesMade := loaded.process :: s.processesMade
      processes := put s.processes loaded.process
        { id := (TaskSystem.processGetFreeSlot s.processVector).1 % 2 ^ 16, task := loaded.allocated,
          pagingDesc := loaded.pagingDesc }
      processVector := (TaskSystem.processGetFreeSlot s.processVector).2.set
        (TaskSystem.processGetFreeSlot s.processVector).1 loaded.process
      currentProcess := loaded.process }) := by
    unfold TaskSystem.processLoadSwitch
    simp only [processLoadForSlot_eq makes]
    rfl
  rw [result]
  generalize (taskNew s.list loaded.allocated loaded.process loaded.elfEntry).2 = list at appended
  dsimp only
  have others : ∀ task ∈ s.tasksMade, (list.tasks task).prev = (s.list.tasks task).prev ∧
      (list.tasks task).process = (s.list.tasks task).process := fun task member =>
    appended.others task fun same => freshTask (same ▸ member)
  have freed : ∀ task, s.Freed task → task ∈ loaded.allocated :: s.tasksMade ∧ (list.tasks task).process ∈ s.terminated := by
    rintro task ⟨member, terminated⟩
    rw [(others task member).2]
    exact ⟨List.mem_cons_of_mem _ member, terminated⟩
  have notTerminated : loaded.process ∉ s.terminated := fun member => freshProcess (linked.terminatedMade _ member)
  refine ⟨⟨appended.visits, fun task rest starts => ?_, fun front before task rest ends => ?_, fun task member => ?_,
    fun task member => ?_, fun task member => ?_, fun process member => List.mem_cons_of_mem _ (linked.terminatedMade _ member)⟩,
    fun currentIn => ?_, ?_, fun some_ => ?_⟩
  · -- the first task
    cases live with
    | nil =>
        rw [List.nil_append, List.cons.injEq] at starts
        rw [← starts.1]
        exact Or.inl (appended.noPrev rfl)
    | cons other live =>
        rw [List.cons_append, List.cons.injEq] at starts
        rw [← starts.1, (others other (linked.made other List.mem_cons_self)).1]
        exact (linked.first other live rfl).imp_right (freed _)
  · -- two tasks in a row: the new one and the last, or two old ones
    rcases rest.eq_nil_or_concat with rfl | ⟨middle, last, rfl⟩
    · have split_ := List.append_inj' (show live ++ [loaded.allocated] = (front ++ [before]) ++ [task] by
        rw [ends, List.append_assoc]; rfl) rfl
      rw [← List.singleton_inj.mp split_.2]
      exact Or.inl (appended.prev front before split_.1)
    · have split_ := List.append_inj' (show live ++ [loaded.allocated] = (front ++ before :: task :: middle) ++ [last] by
        rw [ends, List.concat_eq_append, List.append_assoc]; rfl) rfl
      have member : task ∈ live := by rw [split_.1]; simp
      rw [(others task (linked.made task member)).1]
      exact (linked.back front before task middle split_.1).imp_right (freed _)
  · -- the processes of the tasks
    show ((put s.processes loaded.process _) (list.tasks task).process).task = task ∧ (list.tasks task).process ∉ s.terminated
    rcases List.mem_append.mp member with old | new
    · have made := linked.made task old
      have notNew : (s.list.tasks task).process ≠ loaded.process := fun same =>
        freshProcess (same ▸ linked.processesMade task made)
      rw [(others task made).2, put_other _ notNew]
      exact linked.owned task old
    · rw [List.mem_singleton.mp new, appended.process, put_same]
      exact ⟨rfl, notTerminated⟩
  · rcases List.mem_append.mp member with old | new
    · exact List.mem_cons_of_mem _ (linked.made task old)
    · rw [List.mem_singleton.mp new]
      exact List.mem_cons_self
  · show (list.tasks task).process ∈ loaded.process :: s.processesMade
    rcases List.mem_cons.mp member with new | old
    · rw [new, appended.process]
      exact List.mem_cons_self
    · rw [(others task old).2]
      exact List.mem_cons_of_mem _ (linked.processesMade task old)
  · show list.currentTask = 0 ∨ list.currentTask ∈ live ++ [loaded.allocated]
    rw [appended.current]
    split
    · exact Or.inr (by simp)
    · exact currentIn.imp_right (List.mem_append_left _)
  · rw [put_same]
  · rw [appended.current, if_neg some_]

end Load

/-! ### The end of a process -/

/-- A task that `task_list_remove` cuts out: it is the first one, or its `prev` pointer does not lead to a task that was
freed. -/
def TaskSystem.EndsCleanly (s : TaskSystem) (task : Nat) : Prop :=
  task = s.list.taskHead ∨ s.taskProcess (s.list.tasks task).prev ∉ s.terminated

section Terminate

variable {s s' : TaskSystem} {live : List Nat} {process : Nat} {data : KernelData}

theorem processUnlink_kept (unlinked : s.processUnlink process = some s') :
    TasksKept s s' ∧ s'.list = s.list ∧ s'.currentPagingDesc = s.currentPagingDesc := by
  unfold TaskSystem.processUnlink TaskSystem.processSwitchToAny at unlinked
  dsimp only at unlinked
  split at unlinked
  · split at unlinked
    · cases unlinked
    · rw [Option.some.injEq] at unlinked
      rw [← unlinked]
      exact ⟨tasksKept_of_eq rfl rfl rfl rfl rfl rfl rfl, rfl, rfl⟩
  · rw [Option.some.injEq] at unlinked
    rw [← unlinked]
    exact ⟨tasksKept_of_eq rfl rfl rfl rfl rfl rfl rfl, rfl, rfl⟩

/-- What a terminated process with a task leaves. -/
structure ProcessTerminated (s : TaskSystem) (process : Nat) (s' : TaskSystem) : Prop where
  list : s'.list = taskFree s.list (s.processes process).task
  processes : s'.processes = put s.processes process { s.processes process with task := 0 }
  terminated : s'.terminated = process :: s.terminated
  tasksMade : s'.tasksMade = s.tasksMade
  processesMade : s'.processesMade = s.processesMade

theorem processTerminate_terminated (hasTask : (s.processes process).task ≠ 0)
    (ends : s.processTerminate process data = some s') : ProcessTerminated s process s' := by
  unfold TaskSystem.processTerminate at ends
  cases unlinked : s.processUnlink process with
  | none =>
      rw [unlinked] at ends
      cases ends
  | some unlinked_ =>
      obtain ⟨kept, list, _⟩ := processUnlink_kept unlinked
      rw [unlinked] at ends
      simp only [Option.some.injEq] at ends
      have free : unlinked_.processFreeProcess process data = { unlinked_ with
          data := data
          list := taskFree s.list (s.processes process).task
          processes := put s.processes process { s.processes process with task := 0 } } := by
        unfold TaskSystem.processFreeProcess
        dsimp only
        rw [kept.processes, if_pos hasTask, list]
      rw [free] at ends
      rw [← ends]
      exact ⟨rfl, rfl, congrArg _ kept.terminated, kept.tasksMade, kept.processesMade⟩

/-- **A process is terminated**: its task is cut out of the list. -/
theorem SystemLinked.terminate (linked : SystemLinked s live) {task : Nat} (member : task ∈ live)
    (clean : s.EndsCleanly task) (ends : s.processTerminate (s.taskProcess task) data = some s') :
    ∃ live', SystemLinked s' live' ∧ (s.list.CurrentIn live → s'.list.CurrentIn live') := by
  have notFreed : ∀ other, s.Freed other → other ∉ live := fun other freed inside => (linked.owned other inside).2 freed.2
  have nonnull := linked.visits.visits.ne_null task member
  obtain ⟨ownTask, _⟩ := linked.owned task member
  have after := processTerminate_terminated (by rw [ownTask]; exact nonnull) ends
  obtain ⟨front, rest, rfl⟩ := List.append_of_mem member
  have once := linked.visits.once
  have notFront : task ∉ front := fun inside => (List.disjoint_of_nodup_append once) inside List.mem_cons_self
  have notRest : task ∉ rest := (List.nodup_cons.mp once.of_append_right).1
  have outside : front = [] → (s.list.tasks task).prev ∉ task :: rest := by
    rintro rfl inside
    rcases linked.first task rest rfl with null | freed
    · exact linked.visits.visits.ne_null _ inside null
    · exact notFreed _ freed inside
  have prev : ∀ before last, front = before ++ [last] → (s.list.tasks task).prev = last := by
    rintro before last rfl
    refine (linked.back before last task rest (by simp)).resolve_right fun freed => ?_
    rcases clean with isHead | alive
    · rw [linked.visits.visits.head] at isHead
      refine notFront ?_
      cases before with
      | nil => exact isHead ▸ List.mem_singleton_self _
      | cons first before => exact isHead ▸ List.mem_cons_self
    · exact alive freed.2
  obtain ⟨cut, currentIn⟩ := taskListRemove_cut linked.visits outside prev
  have list : s'.list = taskListRemove s.list task := by rw [after.list, ownTask]; rfl
  rw [← list] at cut currentIn
  have processKept : ∀ other, s'.taskProcess other = s.taskProcess other := fun other => (cut.others other).2
  have freed : ∀ other, s.Freed other → s'.Freed other := by
    rintro other ⟨made, terminated⟩
    refine ⟨by rw [after.tasksMade]; exact made, ?_⟩
    rw [processKept, after.terminated]
    exact List.mem_cons_of_mem _ terminated
  have isFreed : s'.Freed task := by
    refine ⟨by rw [after.tasksMade]; exact linked.made task member, ?_⟩
    rw [processKept, after.terminated]
    exact List.mem_cons_self
  -- the task behind it keeps its `prev` pointer, which now leads to a freed task
  have behind : ∀ other after', rest = other :: after' → s'.Freed (s'.list.tasks other).prev := by
    rintro other after' rfl
    rw [(cut.others other).1]
    rcases linked.back front task other after' rfl with same | old
    · rw [same]
      exact isFreed
    · exact freed _ old
  refine ⟨front ++ rest, ⟨cut.visits, fun other after' starts => ?_, fun before first second after' together => ?_,
    fun other inside => ?_, fun other inside => ?_, fun other made => ?_, fun other terminated => ?_⟩, currentIn⟩
  · cases front with
    | nil => exact Or.inr (behind other after' starts)
    | cons first front =>
        rw [List.cons_append, List.cons.injEq] at starts
        rw [← starts.1, (cut.others first).1]
        exact (linked.first first _ rfl).imp_right (freed _)
  · rw [(cut.others second).1]
    rcases adjacent_append together with ⟨more, inFront⟩ | ⟨_, inRest⟩ | ⟨start, inRest⟩
    · refine (linked.back before first second (more ++ task :: rest) ?_).imp_right (freed _)
      rw [inFront, List.append_assoc]
      rfl
    · rw [← (cut.others second).1]
      exact Or.inr (behind second after' inRest)
    · refine (linked.back (front ++ task :: start) first second after' ?_).imp_right (freed _)
      rw [inRest, List.append_assoc]
      rfl
  · -- the processes of the other tasks are other processes
    have inLive : other ∈ front ++ task :: rest := by
      rcases List.mem_append.mp inside with inFront | inRest
      · exact List.mem_append_left _ inFront
      · exact List.mem_append_right _ (List.mem_cons_of_mem _ inRest)
    have different : other ≠ task := by
      rintro rfl
      exact (List.mem_append.mp inside).elim notFront notRest
    obtain ⟨own, alive⟩ := linked.owned other inLive
    have otherProcess : s.taskProcess other ≠ s.taskProcess task := by
      intro same
      rw [same, ownTask] at own
      exact different own.symm
    rw [processKept, after.processes, put_other _ otherProcess, after.terminated, List.mem_cons]
    exact ⟨own, fun terminated => terminated.elim otherProcess alive⟩
  · rw [after.tasksMade]
    refine linked.made other ?_
    rcases List.mem_append.mp inside with inFront | inRest
    · exact List.mem_append_left _ inFront
    · exact List.mem_append_right _ (List.mem_cons_of_mem _ inRest)
  · rw [after.tasksMade] at made
    rw [processKept, after.processesMade]
    exact linked.processesMade other made
  · rw [after.terminated] at terminated
    rw [after.processesMade]
    rcases List.mem_cons.mp terminated with rfl | old
    · exact linked.processesMade task (linked.made task member)
    · exact linked.terminatedMade other old

end Terminate

/-! ### The next task -/

section Next

variable {s : TaskSystem} {live : List Nat} (linked : SystemLinked s live)

include linked

/-- The scan of the tasks ends at one of them, or behind the last one. -/
theorem SystemLinked.scan (now fuel : Nat) : ∀ {current : Nat}, current = 0 ∨ current ∈ live → ∀ {res : Int} {task : Nat},
    taskGetNextNonSleepingTaskLoop s.list now fuel current = some (res, task) → task = 0 ∨ task ∈ live := by
  induction fuel with
  | zero =>
      intro current _ res task result
      cases result
  | succ fuel hyp =>
      intro current inside res task result
      rw [taskGetNextNonSleepingTaskLoop] at result
      dsimp only at result
      have starts : (if current = 0 then s.list.taskHead else current) = 0 ∨
          (if current = 0 then s.list.taskHead else current) ∈ live := by
        split
        · exact linked.visits.head
        · exact inside
      generalize (if current = 0 then s.list.taskHead else current) = current at starts result
      by_cases null : current = 0
      · rw [if_pos null, Option.some.injEq, Prod.mk.injEq] at result
        exact Or.inl result.2.symm
      · rw [if_neg null] at result
        have member := starts.resolve_left null
        have next := linked.visits.visits.next_mem member
        by_cases asleep : taskAsleep (s.list.tasks current) now = true
        · rw [if_pos asleep] at result
          by_cases last : (s.list.tasks current).next = 0
          · rw [if_neg (not_not.mpr last), Option.some.injEq, Prod.mk.injEq] at result
            exact Or.inl (result.2.symm.trans last)
          · rw [if_pos last] at result
            exact hyp next result
        · rw [if_neg asleep, Option.some.injEq, Prod.mk.injEq] at result
          exact Or.inr (result.2 ▸ member)

/-- **`task_next` resumes a task of the list**, on its page table. -/
theorem SystemLinked.taskNext (current : s.list.CurrentIn live) (fuel : Nat) (times : List Nat) :
    s.taskNext fuel times = .stops ∨ ∃ task ∈ live, s.taskNext fuel times = .resumes task (s.taskSwitch task) := by
  induction times with
  | nil => exact Or.inl rfl
  | cons now later hyp =>
      rw [TaskSystem.taskNext]
      cases found : taskGetNextNonSleepingTask s.list now fuel with
      | none => exact Or.inl rfl
      | some result =>
          obtain ⟨res, task⟩ := result
          dsimp only
          by_cases error : res < 0
          · rw [if_pos error]
            exact Or.inl rfl
          · rw [if_neg error]
            by_cases null : task = 0
            · rw [if_pos null]
              exact hyp
            · rw [if_neg null]
              have starts : (if s.list.currentTask ≠ 0 then (s.list.tasks s.list.currentTask).next else s.list.taskHead) = 0 ∨
                  (if s.list.currentTask ≠ 0 then (s.list.tasks s.list.currentTask).next else s.list.taskHead) ∈ live := by
                by_cases some_ : s.list.currentTask = 0
                · rw [if_neg (not_not.mpr some_)]
                  exact linked.visits.head
                · rw [if_pos some_]
                  exact linked.visits.visits.next_mem (current.resolve_left some_)
              exact Or.inr ⟨task, (linked.scan now fuel starts found).resolve_left null, rfl⟩

end Next

end PeachOS
