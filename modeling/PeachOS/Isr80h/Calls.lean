/-
**System calls return to the task that made them.**

The wrapper of a system call restores the frame of the caller on the page table of the current task. A command
that fails to validate an address terminates the caller and still returns.

* `isr80hHandler_returns_iff` — when a system call that returns leaves the caller the current task, and alive;
* `userCode_resumed_runs` — in every run whose system calls fail no validation, in which processes end
  while `task_list_remove` can cut out their tasks and new tasks find memory, user code is resumed only for
  living processes and on their own page tables;
* `terminated_resumed` — a failed validation in a run of two processes.
-/

import PeachOS.Isr80h.Tasks
import PeachOS.Lib.StepRun

namespace PeachOS

open ByteStore LinkedList StepRun

/-! ### Conditions on a system call -/

namespace TaskSystem

variable (s : TaskSystem)

/-- An address that the caller passes is not in its memory. -/
def FailsValidation (input : CallInput) : SystemCommand → Prop
  | .fread =>
      (processFileHandleGet s.data.mem (s.data.process s.caller) (toInt32 (input.item 3))).isSome ∧
        processValidateMemoryOrTerminate s.data.mem (s.data.process s.caller) (input.item 0)
          (toWord (input.item 1 * input.item 2)) < 0
  | .fstat =>
      processValidateMemoryOrTerminate s.data.mem (s.data.process s.caller) (input.item 1) sizeofFileStat < 0
  | _ => False

/-- `process_unlink` finds a process to switch to, if it has to. -/
def Unlinks (process : Nat) : Prop :=
  s.currentProcess = process → ∃ other ∈ s.processVector.set (s.processes process).id 0, other ≠ 0

/-- A system call that terminates the caller and returns. -/
def TerminatesCaller (command : Int) (input : CallInput) : Prop :=
  (∃ known, commandOf command = some known ∧ s.FailsValidation input known) ∧ s.Unlinks s.caller

end TaskSystem

/-- A system call that loads a process makes its task. -/
def LoadsTask (command : Int) (input : CallInput) : Prop :=
  commandOf command = some .processLoadStart ∨ commandOf command = some .invokeSystemCommand →
    ∀ loaded, input.load = .ok loaded → loaded.MakesTask

/-- A system call that ends the caller finds its task where it can be cut out. -/
def ExitsCleanly (s : TaskSystem) (command : Int) : Prop :=
  commandOf command = some .exit → s.EndsCleanly s.list.currentTask

/-- **The steps that keep user code apart.** -/
def UserMachine.Permits (m : UserMachine) : UserEvent → Prop
  | .load loaded => loaded.MakesTask
  | .systemCall command _ input =>
      ¬ m.system.TerminatesCaller command input ∧ LoadsTask command input ∧ ExitsCleanly m.system command
  | _ => True

/-- **User code is resumed where it belongs**: the task whose frame is resumed is the current one, its process has not
been terminated, and the page table is that of its process. -/
def ResumesSafely (s : TaskSystem) (running : Nat) : Prop :=
  s.list.currentTask = running ∧ s.taskProcess running ∉ s.terminated ∧
    s.currentPagingDesc = (s.processes (s.taskProcess running)).pagingDesc

/-! ### Outcomes -/

/-- What an outcome keeps, before the page table of the caller is switched to. -/
def Outcome.Keeps (caller : Nat) : Outcome → Prop
  | .returns _ s => ∃ live, SystemLinked s live ∧ s.list.currentTask = caller ∧ caller ∈ live
  | .resumes task s => ∃ live, SystemLinked s live ∧ s.list.currentTask = task ∧ task ∈ live ∧
      s.currentPagingDesc = (s.processes (s.taskProcess task)).pagingDesc
  | .stops => True

theorem keeps_returns {s s' : TaskSystem} {live : List Nat} {caller : Nat} (linked : SystemLinked s live)
    (current : s.list.currentTask = caller) (member : caller ∈ live) (kept : TasksKept s s')
    (sameCurrent : s'.list.currentTask = s.list.currentTask) (result : Int) : (Outcome.returns result s').Keeps caller :=
  ⟨live, linked.kept kept, sameCurrent.trans current, member⟩

/-- A task of the list is resumed by `task_switch` and `task_return`. -/
theorem keeps_resumes {s : TaskSystem} {live : List Nat} (caller : Nat) (linked : SystemLinked s live) {task : Nat}
    (member : task ∈ live) : (Outcome.resumes task (s.taskSwitch task)).Keeps caller :=
  ⟨live, linked.kept (taskSwitch_kept s task), rfl, member, rfl⟩

theorem keeps_taskNext {s : TaskSystem} {live : List Nat} (caller : Nat) (linked : SystemLinked s live)
    (current : s.list.CurrentIn live) (fuel : Nat) (times : List Nat) : (s.taskNext fuel times).Keeps caller := by
  rcases linked.taskNext current fuel times with stops | ⟨task, member, resumes⟩
  · rw [stops]
    trivial
  · rw [resumes]
    exact keeps_resumes caller linked member

/-- `task_next` does not return. -/
theorem taskNext_resumes (s : TaskSystem) (fuel : Nat) (times : List Nat) {result : Int} {s' : TaskSystem} :
    s.taskNext fuel times ≠ .returns result s' := by
  induction times with
  | nil => exact fun returned => by cases returned
  | cons now later hyp =>
      rw [TaskSystem.taskNext]
      cases taskGetNextNonSleepingTask s.list now fuel with
      | none => exact fun returned => by cases returned
      | some found =>
          dsimp only
          by_cases error : found.1 < 0
          · rw [if_pos error]
            exact fun returned => by cases returned
          · rw [if_neg error]
            by_cases null : found.2 = 0
            · rw [if_pos null]
              exact hyp
            · rw [if_neg null]
              exact fun returned => by cases returned

/-! ### Terminating the caller -/

theorem processUnlink_isSome (s : TaskSystem) (process : Nat) : (s.processUnlink process).isSome ↔ s.Unlinks process := by
  unfold TaskSystem.processUnlink TaskSystem.processSwitchToAny TaskSystem.Unlinks
  dsimp only
  by_cases isCurrent : s.currentProcess = process
  · rw [if_pos isCurrent]
    cases found : (s.processVector.set (s.processes process).id 0).find? (· ≠ 0) with
    | none =>
        rw [List.find?_eq_none] at found
        refine ⟨fun impossible => (Bool.false_ne_true impossible).elim, fun exists_ => ?_⟩
        obtain ⟨other, member, nonnull⟩ := exists_ isCurrent
        exact absurd nonnull (by simpa using found other member)
    | some other =>
        refine ⟨fun _ _ => ⟨other, List.mem_of_find?_eq_some found, by simpa using List.find?_some found⟩, fun _ => rfl⟩
  · rw [if_neg isCurrent]
    exact ⟨fun _ impossible => absurd impossible isCurrent, fun _ => rfl⟩

theorem processTerminate_isSome (s : TaskSystem) (process : Nat) (data : KernelData) :
    (s.processTerminate process data).isSome ↔ s.Unlinks process := by
  rw [← processUnlink_isSome]
  unfold TaskSystem.processTerminate
  cases s.processUnlink process <;> rfl

theorem validate_terminates {s s' : TaskSystem} {process virtAddr spaceNeeded : Nat} {data : KernelData}
    (invalid : processValidateMemoryOrTerminate s.data.mem (s.data.process process) virtAddr spaceNeeded < 0)
    (ends : s.processTerminate process data = some s') :
    s.validateMemoryOrTerminate process virtAddr spaceNeeded data =
      some (processValidateMemoryOrTerminate s.data.mem (s.data.process process) virtAddr spaceNeeded, s') := by
  unfold TaskSystem.validateMemoryOrTerminate
  dsimp only
  rw [if_pos invalid, ends, Option.map_some]

/-- A command that terminates the caller returns the error. -/
theorem isr80hCommand_terminates {s s' : TaskSystem} (input : CallInput) {known : SystemCommand}
    (fails : s.FailsValidation input known) (ends : s.processTerminate s.caller input.data = some s') :
    ∃ result, s.isr80hCommand input known = .returns result s' := by
  cases known
  case fread =>
    obtain ⟨handle, invalid⟩ := fails
    obtain ⟨fd, found⟩ := Option.isSome_iff_exists.mp handle
    refine ⟨processValidateMemoryOrTerminate s.data.mem (s.data.process s.caller) (input.item 0)
      (toWord (input.item 1 * input.item 2)), ?_⟩
    show s.isr80hCommand12Fread input = _
    unfold TaskSystem.isr80hCommand12Fread
    rw [found]
    dsimp only
    rw [validate_terminates invalid ends]
    exact if_pos invalid
  case fstat =>
    have invalid : processValidateMemoryOrTerminate s.data.mem (s.data.process s.caller) (input.item 1) sizeofFileStat < 0 :=
      fails
    refine ⟨processValidateMemoryOrTerminate s.data.mem (s.data.process s.caller) (input.item 1) sizeofFileStat, ?_⟩
    show s.isr80hCommand14Fstat input = _
    unfold TaskSystem.isr80hCommand14Fstat
    rw [validate_terminates invalid ends]
    exact if_pos invalid
  all_goals exact fails.elim

section Commands

variable {s : TaskSystem} {live : List Nat} (linked : SystemLinked s live) (member : s.list.currentTask ∈ live)
  (input : CallInput)

include linked member

theorem servesData_keeps : (s.servesData input).Keeps s.list.currentTask :=
  keeps_returns linked rfl member (data_kept s input.data) rfl input.result

/-- A validation that does not fail keeps the tasks; one that fails panics or is excluded. -/
theorem validate_keeps {virtAddr spaceNeeded : Nat}
    (permits : ¬ (processValidateMemoryOrTerminate s.data.mem (s.data.process s.caller) virtAddr spaceNeeded < 0 ∧
      s.Unlinks s.caller)) :
    (match s.validateMemoryOrTerminate s.caller virtAddr spaceNeeded input.data with
      | none => Outcome.stops
      | some (res, s) => if res < 0 then .returns res s else s.servesData input).Keeps s.list.currentTask := by
  unfold TaskSystem.validateMemoryOrTerminate
  dsimp only
  by_cases fails : processValidateMemoryOrTerminate s.data.mem (s.data.process s.caller) virtAddr spaceNeeded < 0
  · rw [if_pos fails]
    have panics : s.processTerminate s.caller input.data = none := by
      rw [← Option.not_isSome_iff_eq_none, processTerminate_isSome]
      exact fun unlinks => permits ⟨fails, unlinks⟩
    rw [panics]
    trivial
  · rw [if_neg fails]
    dsimp only
    rw [if_neg fails]
    exact servesData_keeps linked member input

omit linked member in
theorem loaded_eq {loaded : Int × Nat × TaskSystem} (ok : loaded.1 = 0) : loaded = (0, loaded.2.1, loaded.2.2) := by
  obtain ⟨res, process, s'⟩ := loaded
  exact congrArg (·, process, s') ok

/-- A process that is loaded starts with its own task. -/
theorem load_keeps {loaded : TaskSystem.LoadedProcess} (makes : loaded.MakesTask)
    (fresh : loaded.process ∉ s.processesMade ∧ (loaded.allocated = 0 ∨ loaded.allocated ∉ s.tasksMade)) :
    ∃ process s' live', s.processLoadSwitch (.ok loaded) = (0, process, s') ∧ SystemLinked s' live' ∧
      s.list.currentTask ∈ live' ∧ s'.list.currentTask = s.list.currentTask ∧ (s'.processes process).task ∈ live' := by
  obtain ⟨linked', _, own, sameCurrent⟩ := linked.load makes (fresh.2.resolve_left makes.1) fresh.1
  have ok : (s.processLoadSwitch (.ok loaded)).1 = 0 := rfl
  have started : ((s.processLoadSwitch (.ok loaded)).2.2.processes (s.processLoadSwitch (.ok loaded)).2.1).task ∈
      live ++ [loaded.allocated] := by
    rw [own]
    exact List.mem_append_right _ List.mem_cons_self
  exact ⟨(s.processLoadSwitch (.ok loaded)).2.1, (s.processLoadSwitch (.ok loaded)).2.2, _, loaded_eq ok, linked',
    List.mem_append_left _ member, sameCurrent (List.ne_nil_of_mem member), started⟩

omit linked member in
/-- A process whose arguments were injected, or not. -/
theorem injected_keeps {caller task : Nat} (linked : SystemLinked s live) (current : s.list.currentTask = caller)
    (callerIn : caller ∈ live) (taskIn : task ∈ live) :
    (if input.injected < 0 then Outcome.returns input.injected s else .resumes task (s.taskSwitch task)).Keeps caller := by
  by_cases notInjected : input.injected < 0
  · rw [if_pos notInjected]
    exact keeps_returns linked current callerIn (TasksKept.refl s) rfl _
  · rw [if_neg notInjected]
    exact keeps_resumes caller linked taskIn

theorem isr80hCommand_keeps {known : SystemCommand}
    (alive : ¬ (s.FailsValidation input known ∧ s.Unlinks s.caller))
    (makes : known = .processLoadStart ∨ known = .invokeSystemCommand → ∀ loaded, input.load = .ok loaded → loaded.MakesTask)
    (clean : known = .exit → s.EndsCleanly s.list.currentTask)
    (fresh : ∀ loaded, input.load = .ok loaded →
      loaded.process ∉ s.processesMade ∧ (loaded.allocated = 0 ∨ loaded.allocated ∉ s.tasksMade)) :
    (s.isr80hCommand input known).Keeps s.list.currentTask := by
  cases known
  case processLoadStart =>
    show (s.isr80hCommand6ProcessLoadStart input).Keeps _
    unfold TaskSystem.isr80hCommand6ProcessLoadStart
    by_cases unprepared : input.prepared < 0
    · rw [if_pos unprepared]
      exact keeps_returns linked rfl member (TasksKept.refl s) rfl 0
    · rw [if_neg unprepared]
      cases load : input.load with
      | error failed =>
          rw [show s.processLoadSwitch (.error failed) = (failed.res, 0, { s with data := failed.data }) from rfl]
          dsimp only
          rw [if_pos failed.negative]
          exact keeps_returns linked rfl member (data_kept s failed.data) rfl 0
      | ok loaded =>
          obtain ⟨process, s', live', result, linked', _, _, started⟩ :=
            load_keeps linked member (makes (Or.inl rfl) loaded load) (fresh loaded load)
          rw [result]
          exact keeps_resumes _ linked' started
  case invokeSystemCommand =>
    show (s.isr80hCommand7InvokeSystemCommand input).Keeps _
    unfold TaskSystem.isr80hCommand7InvokeSystemCommand
    by_cases unprepared : input.prepared < 0
    · rw [if_pos unprepared]
      exact keeps_returns linked rfl member (TasksKept.refl s) rfl _
    · rw [if_neg unprepared]
      cases load : input.load with
      | error failed =>
          rw [show s.processLoadSwitch (.error failed) = (failed.res, 0, { s with data := failed.data }) from rfl]
          dsimp only
          rw [if_pos failed.negative]
          exact keeps_returns linked rfl member (data_kept s failed.data) rfl _
      | ok loaded =>
          obtain ⟨process, s', live', result, linked', caller, sameCurrent, started⟩ :=
            load_keeps linked member (makes (Or.inr rfl) loaded load) (fresh loaded load)
          rw [result]
          exact injected_keeps input (linked'.kept (data_kept s' input.data)) sameCurrent caller started
  case exit =>
    show (s.isr80hCommand9Exit input).Keeps _
    unfold TaskSystem.isr80hCommand9Exit
    cases ends : s.processTerminate s.caller input.data with
    | none => trivial
    | some s' =>
        obtain ⟨live', linked', current⟩ := linked.terminate member (clean rfl) ends
        exact keeps_taskNext _ linked' (current (Or.inr member)) _ _
  case fread =>
    show (s.isr80hCommand12Fread input).Keeps _
    unfold TaskSystem.isr80hCommand12Fread
    cases handle : processFileHandleGet s.data.mem (s.data.process s.caller) (toInt32 (input.item 3)) with
    | none => exact keeps_returns linked rfl member (TasksKept.refl s) rfl _
    | some _ =>
        refine validate_keeps linked member input fun fails => alive ⟨⟨?_, fails.1⟩, fails.2⟩
        rw [handle]
        rfl
  case fstat => exact validate_keeps linked member input alive
  case udelay =>
    exact keeps_taskNext _ (linked.kept (sleep_kept s _ _ _)) (Or.inr member) _ _
  all_goals exact servesData_keeps linked member input

end Commands

/-! ### The handler -/

/-- The tasks are kept, and the caller is the current task on its page table. -/
def Outcome.Safe (caller : Nat) : Outcome → Prop
  | .returns _ s => ∃ live, SystemLinked s live ∧ caller ∈ live ∧ ResumesSafely s caller
  | .resumes task s => ∃ live, SystemLinked s live ∧ task ∈ live ∧ ResumesSafely s task
  | .stops => True

/-- `task_page` gives the caller its page table. -/
theorem thenTaskPage_safe {caller : Nat} {outcome : Outcome} (keeps : outcome.Keeps caller) :
    (TaskSystem.thenTaskPage outcome).Safe caller := by
  cases outcome with
  | returns result s =>
      obtain ⟨live, linked, current, member⟩ := keeps
      have kept := taskSwitch_kept s s.list.currentTask
      refine ⟨live, linked.kept kept, member, current, ((linked.kept kept).owned caller member).2, ?_⟩
      rw [← current]
      rfl
  | resumes task s =>
      obtain ⟨live, linked, current, member, page⟩ := keeps
      exact ⟨live, linked, member, current, (linked.owned task member).2, page⟩
  | stops => trivial

section Handler

variable {s : TaskSystem} {live : List Nat} (linked : SystemLinked s live) (member : s.list.currentTask ∈ live)
  (input : CallInput) (frame : InterruptFrame)

/-- The kernel after `kernel_page` and `task_current_save_state`. -/
def TaskSystem.entered (s : TaskSystem) (frame : InterruptFrame) : TaskSystem := s.kernelPage.taskCurrentSaveState frame

theorem entered_kept (s : TaskSystem) (frame : InterruptFrame) : TasksKept s (s.entered frame) :=
  (kernelPage_kept s).trans (saveState_kept s.kernelPage frame)

theorem entered_caller (s : TaskSystem) (frame : InterruptFrame) : (s.entered frame).caller = s.caller :=
  (entered_kept s frame).taskProcess s.list.currentTask

theorem entered_failsValidation (s : TaskSystem) (known : SystemCommand) :
    (s.entered frame).FailsValidation input known ↔ s.FailsValidation input known := by
  unfold TaskSystem.FailsValidation
  rw [entered_caller]
  exact Iff.rfl

theorem entered_unlinks (s : TaskSystem) : (s.entered frame).Unlinks (s.entered frame).caller ↔ s.Unlinks s.caller := by
  rw [entered_caller]
  exact Iff.rfl

theorem entered_endsCleanly (s : TaskSystem) (task : Nat) : (s.entered frame).EndsCleanly task ↔ s.EndsCleanly task := by
  unfold TaskSystem.EndsCleanly
  rw [(entered_kept s frame).prev, (entered_kept s frame).taskProcess]
  exact Iff.rfl

include linked member

theorem isr80hHandler_eq (command : Int) : s.isr80hHandler input command frame =
    TaskSystem.thenTaskPage ((s.entered frame).isr80hHandleCommand input command) :=
  if_neg (linked.visits.visits.ne_null _ member)

/-- **A system call keeps the tasks**, and is safe wherever it resumes user code. -/
theorem isr80hHandler_safe {command : Int} (alive : ¬ s.TerminatesCaller command input) (makes : LoadsTask command input)
    (clean : ExitsCleanly s command)
    (fresh : ∀ loaded, input.load = .ok loaded →
      loaded.process ∉ s.processesMade ∧ (loaded.allocated = 0 ∨ loaded.allocated ∉ s.tasksMade)) :
    (s.isr80hHandler input command frame).Safe s.list.currentTask := by
  rw [isr80hHandler_eq linked member]
  refine thenTaskPage_safe ?_
  have linked' := linked.kept (entered_kept s frame)
  unfold TaskSystem.isr80hHandleCommand
  cases known : commandOf command with
  | none => exact keeps_returns linked rfl member (entered_kept s frame) rfl 0
  | some known_ =>
      refine isr80hCommand_keeps linked' member input ?_ ?_ ?_ fresh
      · rw [entered_failsValidation, entered_unlinks]
        exact fun fails => alive ⟨⟨known_, known, fails.1⟩, fails.2⟩
      · rintro (rfl | rfl)
        · exact makes (Or.inl known)
        · exact makes (Or.inr known)
      · rintro rfl
        exact (entered_endsCleanly frame s _).mpr (clean known)

/-- A system call that terminates the caller returns. -/
theorem isr80hHandler_terminates {command : Int} (terminates : s.TerminatesCaller command input) :
    ∃ result s', s.isr80hHandler input command frame = .returns result s' ∧
      s'.taskProcess s.list.currentTask ∈ s'.terminated := by
  rw [isr80hHandler_eq linked member]
  obtain ⟨⟨known, isKnown, fails⟩, unlinks⟩ := terminates
  have linked' := linked.kept (entered_kept s frame)
  rw [← entered_unlinks frame, ← processTerminate_isSome _ _ input.data] at unlinks
  rw [← entered_failsValidation input frame] at fails
  obtain ⟨s', ends⟩ := Option.isSome_iff_exists.mp unlinks
  have hasTask : ((s.entered frame).processes (s.entered frame).caller).task ≠ 0 := by
    have own := (linked'.owned s.list.currentTask member).1
    rw [show (s.entered frame).caller = (s.entered frame).taskProcess s.list.currentTask from rfl, own]
    exact linked.visits.visits.ne_null _ member
  have after := processTerminate_terminated hasTask ends
  -- the task keeps its process, which is in the list of the terminated ones
  have terminated : s'.taskPage.taskProcess s.list.currentTask ∈ s'.taskPage.terminated := by
    have process : s'.taskProcess s.list.currentTask = (s.entered frame).caller := by
      unfold TaskSystem.taskProcess
      rw [after.list]
      exact taskListRemove_process _ _ _
    show s'.taskProcess s.list.currentTask ∈ s'.terminated
    rw [process, after.terminated]
    exact List.mem_cons_self
  obtain ⟨result, returns⟩ := isr80hCommand_terminates input fails ends
  unfold TaskSystem.isr80hHandleCommand
  rw [isKnown]
  dsimp only
  rw [returns]
  exact ⟨result, s'.taskPage, rfl, terminated⟩

/-- Leaving a process never returns. -/
theorem isr80hHandler_exit {command : Int} (isExit : commandOf command = some .exit) {result : Int} {s' : TaskSystem} :
    s.isr80hHandler input command frame ≠ .returns result s' := by
  rw [isr80hHandler_eq linked member]
  unfold TaskSystem.isr80hHandleCommand
  rw [isExit]
  show TaskSystem.thenTaskPage ((s.entered frame).isr80hCommand9Exit input) ≠ _
  unfold TaskSystem.isr80hCommand9Exit
  cases (s.entered frame).processTerminate (s.entered frame).caller input.data with
  | none => exact fun returned => by cases returned
  | some left =>
      dsimp only
      cases next : left.taskNext input.fuel input.times with
      | returns result' s'' => exact absurd next (taskNext_resumes left _ _)
      | resumes task s'' => exact fun returned => by cases returned
      | stops => exact fun returned => by cases returned

/-- **When a system call that returns goes back to its caller**: exactly when it does not terminate it. -/
theorem isr80hHandler_returns_iff {command : Int} (makes : LoadsTask command input)
    (fresh : ∀ loaded, input.load = .ok loaded →
      loaded.process ∉ s.processesMade ∧ (loaded.allocated = 0 ∨ loaded.allocated ∉ s.tasksMade)) :
    (∀ result s', s.isr80hHandler input command frame = .returns result s' → ResumesSafely s' s.list.currentTask) ↔
      ¬ s.TerminatesCaller command input := by
  refine ⟨fun safe terminates => ?_, fun alive result s' returned => ?_⟩
  · obtain ⟨result, s', returned, terminated⟩ := isr80hHandler_terminates linked member input frame terminates
    exact (safe result s' returned).2.1 terminated
  · by_cases isExit : commandOf command = some .exit
    · exact absurd returned (isr80hHandler_exit linked member input frame isExit)
    · have safe := isr80hHandler_safe linked member input frame alive makes (fun exit => absurd exit isExit) fresh
      rw [returned] at safe
      exact safe.choose_spec.2.2

/-- **An interrupt keeps the tasks**, and is safe wherever it resumes user code. -/
theorem interruptHandler_safe (callback : InterruptCallback) :
    (s.interruptHandler input callback frame).Safe s.list.currentTask := by
  have some_ : s.list.currentTask ≠ 0 := linked.visits.visits.ne_null _ member
  have linked' := linked.kept (entered_kept s frame)
  -- every handler that returns leaves by `task_page`
  have leaves : ∀ s', TasksKept s s' → s'.list.currentTask = s.list.currentTask →
      (if s'.list.currentTask ≠ 0 then Outcome.returns 0 s'.taskPage else .returns 0 s').Safe s.list.currentTask := by
    intro s' kept current
    rw [current, if_pos some_]
    exact thenTaskPage_safe (keeps_returns linked rfl member kept current 0)
  unfold TaskSystem.interruptHandler
  rw [if_pos some_]
  cases callback with
  | exception => trivial
  | clock =>
      dsimp only
      rw [if_neg (show ¬ (s.kernelPage.taskCurrentSaveState frame).list.currentTask = 0 from some_)]
      have next := thenTaskPage_safe (keeps_taskNext s.list.currentTask linked' (Or.inr member) input.fuel input.times)
      cases resumed : (s.entered frame).taskNext input.fuel input.times with
      | returns result s'' => exact absurd resumed (taskNext_resumes _ _ _)
      | resumes task s'' =>
          rw [resumed] at next
          show ((s.entered frame).taskNext input.fuel input.times).Safe _
          rw [resumed]
          exact next
      | stops =>
          show ((s.entered frame).taskNext input.fuel input.times).Safe _
          rw [resumed]
          trivial
  | device => exact leaves _ ((entered_kept s frame).trans (data_kept _ input.data)) rfl
  | nothing => exact leaves _ ((kernelPage_kept s).trans (kernelPage_kept _)) rfl

end Handler

/-! ### Runs -/

/-- The invariant of the machine. -/
def MachineLinked (m : UserMachine) : Prop :=
  ∃ live, SystemLinked m.system live ∧ m.system.list.CurrentIn live ∧
    ∀ running, m.running = some running → running ∈ live ∧ ResumesSafely m.system running

theorem systemLinked_empty {s : TaskSystem} (head : s.list.taskHead = 0) (terminated : s.terminated = [])
    (tasksMade : s.tasksMade = []) : SystemLinked s [] where
  visits := ⟨head, List.nodup_nil, fun front last ends => by simp at ends⟩
  first task rest starts := by cases starts
  back front before task rest ends := by simp at ends
  owned task member := by cases member
  made task member := by cases member
  processesMade task member := by
    rw [tasksMade] at member
    cases member
  terminatedMade process member := by
    rw [terminated] at member
    cases member

/-- Where user code is resumed, the invariant holds. -/
theorem machineLinked_resume {outcome : Outcome} {caller : Nat} (safe : outcome.Safe caller) {m' : UserMachine}
    (resumed : outcome.resume (some caller) = some m') : MachineLinked m' := by
  have holds : ∀ task s live, SystemLinked s live → task ∈ live → ResumesSafely s task →
      MachineLinked { system := s, running := some task } := by
    intro task s live linked member resumes
    refine ⟨live, linked, Or.inr ?_, fun running same => ?_⟩
    · rw [resumes.1]
      exact member
    · rw [Option.some.injEq] at same
      rw [← same]
      exact ⟨member, resumes⟩
  cases outcome with
  | returns result s =>
      obtain ⟨live, linked, member, resumes⟩ := safe
      rw [Outcome.resume, Option.some.injEq] at resumed
      rw [← resumed]
      exact holds caller s live linked member resumes
  | resumes task s =>
      obtain ⟨live, linked, member, resumes⟩ := safe
      rw [Outcome.resume, Option.some.injEq] at resumed
      rw [← resumed]
      exact holds task s live linked member resumes
  | stops => cases resumed

theorem fresh_of_freshMemory {m : UserMachine} {command : Int} {frame : InterruptFrame} {input : CallInput}
    (fresh : m.FreshMemory (.systemCall command frame input)) (loaded : TaskSystem.LoadedProcess)
    (load : input.load = .ok loaded) : loaded.process ∉ m.system.processesMade ∧
      (loaded.allocated = 0 ∨ loaded.allocated ∉ m.system.tasksMade) := by
  refine fresh loaded ?_
  show input.load.toOption = some loaded
  rw [load]
  rfl

/-- **A permitted step keeps the invariant.** -/
theorem machineLinked_step {m m' : UserMachine} {event : UserEvent} (linked : MachineLinked m) (permits : m.Permits event)
    (taken : m.step event m') : MachineLinked m' := by
  obtain ⟨mode, fresh, after⟩ := taken
  obtain ⟨live, linked, current, safe⟩ := linked
  cases event with
  | load loaded =>
      have freshLoaded := fresh loaded rfl
      obtain ⟨linked', current', _, _⟩ := linked.load permits (freshLoaded.2.resolve_left permits.1) freshLoaded.1
      rw [UserMachine.after, Option.some.injEq] at after
      rw [← after]
      exact ⟨_, linked', current' current, fun running none_ => by cases none_⟩
  | first =>
      unfold UserMachine.after at after
      dsimp only at after
      by_cases null : m.system.list.currentTask = 0
      · rw [if_pos null] at after
        cases after
      · rw [if_neg null, Option.some.injEq] at after
        have head : m.system.list.taskHead ∈ live := by
          have inside := current.resolve_left null
          rw [linked.visits.visits.head]
          cases live with
          | nil => cases inside
          | cons task rest => exact List.mem_cons_self
        have linked' := linked.kept (taskSwitch_kept m.system m.system.list.taskHead)
        rw [← after]
        refine ⟨live, linked', Or.inr head, fun running same => ?_⟩
        rw [Option.some.injEq] at same
        rw [← same]
        exact ⟨head, rfl, (linked'.owned _ head).2, rfl⟩
  | compute data =>
      rw [UserMachine.after, Option.some.injEq] at after
      rw [← after]
      exact ⟨live, linked.kept (data_kept m.system data), current, safe⟩
  | systemCall command frame input =>
      obtain ⟨caller, running⟩ := Option.ne_none_iff_exists'.mp mode
      obtain ⟨member, isCurrent, _⟩ := safe caller running
      rw [UserMachine.after, running] at after
      rw [← isCurrent] at member after
      exact machineLinked_resume (isr80hHandler_safe linked member input frame permits.1 permits.2.1 permits.2.2
        (fresh_of_freshMemory fresh)) after
  | interrupt callback frame input =>
      obtain ⟨caller, running⟩ := Option.ne_none_iff_exists'.mp mode
      obtain ⟨member, isCurrent, _⟩ := safe caller running
      rw [UserMachine.after, running] at after
      rw [← isCurrent] at member after
      exact machineLinked_resume (interruptHandler_safe linked member input frame callback) after

theorem machineLinked_runs {m : UserMachine}
    (reached : Reachable (Guarded UserMachine.Permits UserMachine.step) UserMachine.starts m) : MachineLinked m := by
  refine reached.invariant _ ?_ ?_
  · rintro state ⟨notRunning, head, _, current, _, _, terminated, tasksMade, _⟩
    refine ⟨[], systemLinked_empty head terminated tasksMade, Or.inl current, fun running some_ => ?_⟩
    rw [notRunning] at some_
    cases some_
  · exact fun state event state' linked taken => machineLinked_step linked taken.1 taken.2

/-- **User code is resumed where it belongs in every run of permitted steps**; and a system call of such a run returns to
its caller exactly when it does not terminate it. -/
theorem userCode_resumed_runs : ∀ m,
    Reachable (Guarded UserMachine.Permits UserMachine.step) UserMachine.starts m →
    ∀ running, m.running = some running → ResumesSafely m.system running ∧
      ∀ command frame input, LoadsTask command input → m.FreshMemory (.systemCall command frame input) →
        ((∀ result s, m.system.isr80hHandler input command frame = .returns result s → ResumesSafely s running) ↔
          ¬ m.system.TerminatesCaller command input) := by
  intro m reached running isRunning
  obtain ⟨live, linked, _, safe⟩ := machineLinked_runs reached
  obtain ⟨member, resumes⟩ := safe running isRunning
  refine ⟨resumes, fun command frame input makes fresh => ?_⟩
  have isCurrent := resumes.1
  subst isCurrent
  exact isr80hHandler_returns_iff linked member input frame makes (fresh_of_freshMemory fresh)

/-! ### A shell and a program -/

/-- Data without allocations and files. -/
def emptyData : KernelData where
  mem := fun _ => 0x00#8
  process := fun _ =>
    { allocations := { memory := 0, eSize := 24, tElems := 0, tmElems := 0, tReservedElements := 10 }
      fileHandles := { memory := 0, eSize := 8, tElems := 0, tmElems := 0, tReservedElements := 4 }
      pagingDesc := { pml := 0, level := 4 } }

def emptyMachine : UserMachine where
  system :=
    { list := { tasks := fun _ => taskInit 0 none, taskHead := 0, taskTail := 0, currentTask := 0 }
      processes := fun _ => { id := 0, task := 0, pagingDesc := 0 }
      processVector := []
      currentProcess := 0
      currentPagingDesc := 0x8000
      kernelPagingDesc := 0x8000
      data := emptyData
      terminated := []
      tasksMade := []
      processesMade := [] }
  running := none

def shell : TaskSystem.LoadedProcess where
  process := 0x5000
  allocated := 0x1000
  pagingDesc := 0x9000
  elfEntry := none
  data := emptyData

def program : TaskSystem.LoadedProcess where
  process := 0x6000
  allocated := 0x2000
  pagingDesc := 0xA000
  elfEntry := none
  data := emptyData

/-- A call whose items are all zero, and that loads the program if it loads one. -/
def programInput : CallInput where
  item := fun _ => 0
  now := 0
  times := [0]
  fuel := 4
  prepared := 0
  load := .ok program
  injected := 0
  result := 0
  data := emptyData

/-- A call of the same items that loads nothing. -/
def statInput : CallInput := { programInput with load := .error ⟨-1, emptyData, by decide⟩ }

def emptyFrame : InterruptFrame where
  rdi := 0
  rsi := 0
  rbp := 0
  reserved := 0
  rbx := 0
  rdx := 0
  rcx := 0
  rax := 0
  ip := 0
  cs := 0
  flags := 0
  rsp := 0
  ss := 0

/-- The machine after an event that does not stop it. -/
def UserMachine.next (m : UserMachine) (event : UserEvent) : UserMachine := (m.after event).getD m

theorem after_next {m : UserMachine} {event : UserEvent} (goesOn : (m.after event).isSome) :
    m.after event = some (m.next event) := by
  obtain ⟨m', after⟩ := Option.isSome_iff_exists.mp goesOn
  rw [UserMachine.next, after, Option.getD_some]

/-- The shell is loaded. -/
def bootMachine : UserMachine := emptyMachine.next (.load shell)

/-- The shell in user mode. -/
def shellMachine : UserMachine := bootMachine.next .first

/-- The program that the shell loads, in user mode. -/
def startedProgram : UserMachine := shellMachine.next (.systemCall 6 emptyFrame programInput)

theorem bootMachine_step : Guarded UserMachine.Permits UserMachine.step emptyMachine (.load shell) bootMachine := by
  refine ⟨⟨by decide, by decide⟩, rfl, fun loaded isShell => ?_, after_next rfl⟩
  rw [← Option.some.inj isShell]
  exact ⟨List.not_mem_nil, Or.inr List.not_mem_nil⟩

theorem shellMachine_step : Guarded UserMachine.Permits UserMachine.step bootMachine .first shellMachine := by
  refine ⟨trivial, rfl, fun loaded isLoaded => ?_, after_next (by decide +kernel)⟩
  cases isLoaded

theorem startedProgram_step :
    Guarded UserMachine.Permits UserMachine.step shellMachine (.systemCall 6 emptyFrame programInput) startedProgram := by
  refine ⟨⟨?_, fun _ loaded isProgram => ?_, fun exit => ?_⟩, ?_, fun loaded isProgram => ?_, after_next (by decide +kernel)⟩
  · rintro ⟨⟨known, isKnown, fails⟩, _⟩
    rw [show commandOf 6 = some .processLoadStart from rfl, Option.some.injEq] at isKnown
    rw [← isKnown] at fails
    exact fails
  · rw [← Except.ok.inj isProgram]
    exact ⟨by decide, by decide⟩
  · exact absurd exit (by decide)
  · show shellMachine.running ≠ none
    decide +kernel
  · rw [← Option.some.inj isProgram]
    exact ⟨by decide, by decide⟩

theorem startedProgram_reached :
    Reachable (Guarded UserMachine.Permits UserMachine.step) UserMachine.starts startedProgram := by
  have start : Reachable (Guarded UserMachine.Permits UserMachine.step) UserMachine.starts emptyMachine :=
    .start ⟨rfl, rfl, rfl, rfl, rfl, rfl, rfl, rfl, rfl⟩
  exact .next _ (.next _ (.next _ start bootMachine_step) shellMachine_step) startedProgram_step

/-- The program runs as its own task. -/
theorem userCode_resumed_program : ResumesSafely startedProgram.system 0x2000 ∧
    ∀ command frame input, LoadsTask command input → startedProgram.FreshMemory (.systemCall command frame input) →
      ((∀ result s, startedProgram.system.isr80hHandler input command frame = .returns result s → ResumesSafely s 0x2000) ↔
        ¬ startedProgram.system.TerminatesCaller command input) :=
  userCode_resumed_runs startedProgram startedProgram_reached 0x2000 (by decide +kernel)

/-- **A terminated program is resumed**: it asks for the state of a file at an address that is not its own. The kernel
terminates it, makes the shell the current task and restores the frame of the program. -/
theorem terminated_resumed : ∃ m, Reachable UserMachine.step UserMachine.starts m ∧ m.running = some 0x2000 ∧
    m.system.list.currentTask = 0x1000 ∧ m.system.taskProcess 0x2000 ∈ m.system.terminated ∧
    m.system.currentPagingDesc = 0x9000 ∧ ¬ ResumesSafely m.system 0x2000 := by
  have running : startedProgram.running ≠ none := by decide +kernel
  have fresh : startedProgram.FreshMemory (.systemCall 14 emptyFrame statInput) := fun loaded isLoaded => by cases isLoaded
  refine ⟨startedProgram.next (.systemCall 14 emptyFrame statInput), .next _ startedProgram_reached.of_guarded
    ⟨running, fresh, after_next (by decide +kernel)⟩, by decide +kernel, by decide +kernel, by decide +kernel,
    by decide +kernel, fun safe => ?_⟩
  exact absurd safe.1 (by decide +kernel)

end PeachOS
