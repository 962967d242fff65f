/-
**System calls, interrupts and processes: `isr80h/*.c`, `idt/idt.c` and `task/process.c`.**

A `TaskSystem` is what the kernel knows of tasks and processes, and the page table it runs on. Of a process
it has the number, the task and the page table; what else belongs to a process is in `KernelData`. The
functions end in an `Outcome`: they return, they resume a task by `task_return`, or they do neither (a panic, or
waiting for ever).

* `isr80hHandler` serves a system call; the commands that neither load nor end a process nor give up the
  processor leave the tasks as they are, whatever they compute on the data;
* `processTerminate` and `processLoadSwitch` end and start processes;
* `interruptHandler` serves the other interrupts.

The items of the user stack and what the rest of the kernel computes are inputs (`CallInput`). `terminated`,
`tasksMade` and `processesMade` are histories: the processes that were terminated, and the memory that tasks and
processes have been made in.
-/

import PeachOS.Process.Model
import PeachOS.Task.Model

namespace PeachOS

open ByteStore

/-! ### Tasks and processes -/

/-- `struct process`, as far as its task goes. -/
structure ProcessTask where
  id : Nat
  task : Nat
  pagingDesc : Nat

/-- Memory, and what processes own. -/
structure KernelData where
  mem : Memory
  process : Nat → Process

/-- The tasks and the processes, `current_process`, `current_paging_desc` and `kernel_paging_desc`; a process in
the vector is its address, zero for none. -/
structure TaskSystem where
  list : TaskList
  processes : Store ProcessTask
  processVector : List Nat
  currentProcess : Nat
  currentPagingDesc : Nat
  kernelPagingDesc : Nat
  data : KernelData
  terminated : List Nat
  tasksMade : List Nat
  processesMade : List Nat

/-- How a function of the kernel ends. -/
inductive Outcome where
  | returns (result : Int) (s : TaskSystem)
  | resumes (task : Nat) (s : TaskSystem)
  | stops

namespace TaskSystem

/-- `task_current()->process`. -/
def taskProcess (s : TaskSystem) (task : Nat) : Nat := (s.list.tasks task).process

def pagingSwitch (s : TaskSystem) (desc : Nat) : TaskSystem := { s with currentPagingDesc := desc }

def kernelPage (s : TaskSystem) : TaskSystem := s.pagingSwitch s.kernelPagingDesc

def taskSwitch (s : TaskSystem) (task : Nat) : TaskSystem :=
  { s with list := { s.list with currentTask := task } }.pagingSwitch (s.processes (s.taskProcess task)).pagingDesc

def taskPage (s : TaskSystem) : TaskSystem := s.taskSwitch s.list.currentTask

/-- `task_next`: it scans the tasks at one time after the other, until one is awake. -/
def taskNext (s : TaskSystem) (fuel : Nat) : (times : List Nat) → Outcome
  | [] => .stops
  | now :: later =>
      match taskGetNextNonSleepingTask s.list now fuel with
      | none => .stops
      | some (res, task) =>
          if res < 0 then .stops
          else if task = 0 then s.taskNext fuel later
          else .resumes task (s.taskSwitch task)

/-! ### The end of a process -/

/-- `process_switch_to_any`, `none` for its panic. -/
def processSwitchToAny (s : TaskSystem) : Option TaskSystem :=
  match s.processVector.find? (· ≠ 0) with
  | none => none
  | some process => some { s with currentProcess := process }

def processUnlink (s : TaskSystem) (process : Nat) : Option TaskSystem :=
  let s := { s with processVector := s.processVector.set (s.processes process).id 0 }
  if s.currentProcess = process then s.processSwitchToAny else some s

/-- `process_free_process`, which leaves `data`. -/
def processFreeProcess (s : TaskSystem) (process : Nat) (data : KernelData) : TaskSystem :=
  let s := { s with data := data }
  if (s.processes process).task ≠ 0 then
    { s with
      list := taskFree s.list (s.processes process).task
      processes := put s.processes process { s.processes process with task := 0 } }
  else s

def processTerminate (s : TaskSystem) (process : Nat) (data : KernelData) : Option TaskSystem :=
  match s.processUnlink process with
  | none => none
  | some s => some { s.processFreeProcess process data with terminated := process :: s.terminated }

/-- `process_validate_memory_or_terminate`: the result, or `none` for a panic. -/
def validateMemoryOrTerminate (s : TaskSystem) (process virtAddr spaceNeeded : Nat) (data : KernelData) :
    Option (Int × TaskSystem) :=
  let res := processValidateMemoryOrTerminate s.data.mem (s.data.process process) virtAddr spaceNeeded
  if res < 0 then (s.processTerminate process data).map fun s => (res, s) else some (res, s)

/-! ### The start of a process -/

/-- What `process_load_for_slot` puts together before it makes the task: the process, the result of the `kzalloc` of
`task_new`, the page table and the entry point. -/
structure LoadedProcess where
  process : Nat
  allocated : Nat
  pagingDesc : Nat
  elfEntry : Option Word
  data : KernelData

/-- A load that fails before it makes a task. -/
structure FailedLoad where
  res : Int
  data : KernelData
  negative : res < 0

/-- `process_get_free_slot`: the first slot that is free, or a new one. -/
def processGetFreeSlot (vector : List Nat) : Nat × List Nat :=
  match vector.findIdx? (· = 0) with
  | some slot => (slot, vector)
  | none => (vector.length, vector ++ [0])

/-- `process_load_for_slot` from `task_new` on: `*process` if it is assigned. The error of `task_new` is looked for in
the low half of the pointer, and only zero is taken for one. -/
def processLoadForSlot (s : TaskSystem) (loaded : LoadedProcess) (slot : Nat) : Option Nat × TaskSystem :=
  let made := taskNew s.list loaded.allocated loaded.process loaded.elfEntry
  let task := match made.1 with
    | .ok task => task
    | .error res => toWord res
  let s := { s with
    list := made.2
    data := loaded.data
    tasksMade := if loaded.allocated = 0 then s.tasksMade else loaded.allocated :: s.tasksMade
    processesMade := loaded.process :: s.processesMade }
  let entry : ProcessTask := { id := slot % 2 ^ 16, task := task, pagingDesc := loaded.pagingDesc }
  if toInt32 task = 0 then (none, { s with processes := put s.processes loaded.process { entry with task := 0 } })
  else
    (some loaded.process,
      { s with
        processes := put s.processes loaded.process entry
        processVector := s.processVector.set slot loaded.process })

/-- `process_load_switch` with a process that is `NULL` before: the result and the process. -/
def processLoadSwitch (s : TaskSystem) (load : Except FailedLoad LoadedProcess) : Int × Nat × TaskSystem :=
  match load with
  | .error failed => (failed.res, 0, { s with data := failed.data })
  | .ok loaded =>
      let free := processGetFreeSlot s.processVector
      let result := { s with processVector := free.2 }.processLoadForSlot loaded free.1
      let process := result.1.getD 0
      (0, process, { result.2 with currentProcess := process })

end TaskSystem

/-! ### The commands -/

/-- The commands of `isr80h_register_commands`. -/
inductive SystemCommand where
  | sum | print | getkey | putchar | malloc | free | processLoadStart | invokeSystemCommand
  | getProgramArguments | exit | fopen | fclose | fread | fseek | fstat | realloc | windowCreate
  | sysoutToWindow | getWindowEvent | windowGraphicsGet | graphicsPixelsBufferGet | windowRedraw
  | graphicsCreate | windowRedrawRegion | updateWindow | udelay
deriving DecidableEq

/-- `isr80h_commands`, as `isr80h_register_commands` fills it. -/
def isr80hCommands : List SystemCommand :=
  [.sum, .print, .getkey, .putchar, .malloc, .free, .processLoadStart, .invokeSystemCommand, .getProgramArguments,
    .exit, .fopen, .fclose, .fread, .fseek, .fstat, .realloc, .windowCreate, .sysoutToWindow, .getWindowEvent,
    .windowGraphicsGet, .graphicsPixelsBufferGet, .windowRedraw, .graphicsCreate, .windowRedrawRegion, .updateWindow,
    .udelay]

/-- `PEACHOS_MAX_ISR80H_COMMANDS`. -/
def peachosMaxIsr80hCommands : Int := 1024

/-- The command that a number stands for. -/
def commandOf (command : Int) : Option SystemCommand :=
  if command < 0 ∨ command ≥ peachosMaxIsr80hCommands then none else isr80hCommands[command.toNat]?

/-- `sizeof(struct file_stat)`. -/
abbrev sizeofFileStat : Nat := 8

/-- What a system call is given: the items of the user stack, the time, and what the rest of the kernel computes.
`prepared` is the result of what a command does before it loads a program, `injected` of
`process_inject_arguments`; `result` and `data` are those of the functions that are not modelled. -/
structure CallInput where
  item : Nat → Nat
  now : Nat
  times : List Nat
  fuel : Nat
  prepared : Int
  load : Except TaskSystem.FailedLoad TaskSystem.LoadedProcess
  injected : Int
  result : Int
  data : KernelData

namespace TaskSystem

variable (s : TaskSystem) (input : CallInput)

/-- `task_current()->process`. -/
def caller : Nat := s.taskProcess s.list.currentTask

/-- A command that does nothing to tasks. -/
def servesData : Outcome := .returns input.result { s with data := input.data }

/-- `isr80h_command6_process_load_start`. -/
def isr80hCommand6ProcessLoadStart : Outcome :=
  if input.prepared < 0 then .returns 0 s
  else
    let loaded := s.processLoadSwitch input.load
    if loaded.1 < 0 then .returns 0 loaded.2.2
    else
      let task := (loaded.2.2.processes loaded.2.1).task
      .resumes task (loaded.2.2.taskSwitch task)

/-- `isr80h_command7_invoke_system_command`; injecting the arguments leaves `data`. -/
def isr80hCommand7InvokeSystemCommand : Outcome :=
  if input.prepared < 0 then .returns einvarg s
  else
    let loaded := s.processLoadSwitch input.load
    if loaded.1 < 0 then .returns loaded.1 loaded.2.2
    else
      let s := { loaded.2.2 with data := input.data }
      if input.injected < 0 then .returns input.injected s
      else
        let task := (s.processes loaded.2.1).task
        .resumes task (s.taskSwitch task)

/-- `isr80h_command9_exit`. -/
def isr80hCommand9Exit : Outcome :=
  match s.processTerminate s.caller input.data with
  | none => .stops
  | some s => s.taskNext input.fuel input.times

/-- `isr80h_command12_fread` and `process_fread`. -/
def isr80hCommand12Fread : Outcome :=
  match processFileHandleGet s.data.mem (s.data.process s.caller) (toInt32 (input.item 3)) with
  | none => .returns eio s
  | some _ =>
      match s.validateMemoryOrTerminate s.caller (input.item 0) (toWord (input.item 1 * input.item 2)) input.data with
      | none => .stops
      | some (res, s) => if res < 0 then .returns res s else s.servesData input

/-- `isr80h_command14_fstat` and `process_fstat`. -/
def isr80hCommand14Fstat : Outcome :=
  match s.validateMemoryOrTerminate s.caller (input.item 1) sizeofFileStat input.data with
  | none => .stops
  | some (res, s) => if res < 0 then .returns res s else s.servesData input

/-- `isr80h_command25_udelay`. -/
def isr80hCommand25Udelay : Outcome :=
  { s with list := taskSleep s.list s.list.currentTask input.now (input.item 0) }.taskNext input.fuel input.times

/-- The command of a number in the table. -/
def isr80hCommand : SystemCommand → Outcome
  | .processLoadStart => s.isr80hCommand6ProcessLoadStart input
  | .invokeSystemCommand => s.isr80hCommand7InvokeSystemCommand input
  | .exit => s.isr80hCommand9Exit input
  | .fread => s.isr80hCommand12Fread input
  | .fstat => s.isr80hCommand14Fstat input
  | .udelay => s.isr80hCommand25Udelay input
  | .sum | .print | .getkey | .putchar | .malloc | .free | .getProgramArguments | .fopen | .fclose | .fseek
  | .realloc | .windowCreate | .sysoutToWindow | .getWindowEvent | .windowGraphicsGet | .graphicsPixelsBufferGet
  | .windowRedraw | .graphicsCreate | .windowRedrawRegion | .updateWindow => s.servesData input

def isr80hHandleCommand (command : Int) : Outcome :=
  match commandOf command with
  | none => .returns 0 s
  | some command => s.isr80hCommand input command

/-! ### Entering and leaving the kernel -/

def taskCurrentSaveState (frame : InterruptFrame) : TaskSystem :=
  { s with list := taskSaveState s.list s.list.currentTask frame }

/-- Back to the page table of the current task. -/
def thenTaskPage : Outcome → Outcome
  | .returns result s => .returns result s.taskPage
  | other => other

/-- `isr80h_handler`, with the panic of `task_current_save_state`. -/
def isr80hHandler (command : Int) (frame : InterruptFrame) : Outcome :=
  if s.list.currentTask = 0 then .stops
  else thenTaskPage ((s.kernelPage.taskCurrentSaveState frame).isr80hHandleCommand input command)

end TaskSystem

/-- What `idt_init` and the drivers register for an interrupt: exceptions panic, the timer has `idt_clock`, devices
have handlers that do nothing to tasks, and the others have no handler. -/
inductive InterruptCallback where
  | exception | clock | device | nothing
deriving DecidableEq

namespace TaskSystem

/-- `interrupt_handler`. -/
def interruptHandler (s : TaskSystem) (input : CallInput) (callback : InterruptCallback) (frame : InterruptFrame) :
    Outcome :=
  let saved := if s.list.currentTask ≠ 0 then s.kernelPage.taskCurrentSaveState frame else s.kernelPage
  let leave := fun s : TaskSystem => if s.list.currentTask ≠ 0 then Outcome.returns 0 s.taskPage else .returns 0 s
  match callback with
  | .exception => .stops
  | .clock => if saved.list.currentTask = 0 then leave saved else saved.taskNext input.fuel input.times
  | .device => leave { saved with data := input.data }
  | .nothing => leave s.kernelPage

end TaskSystem

/-! ### The machine -/

/-- The kernel with the task whose frame user code was resumed from, `none` before the first one. -/
structure UserMachine where
  system : TaskSystem
  running : Option Nat

/-- What happens: the kernel loads the first process and starts it, user code computes, a system call or another
interrupt. -/
inductive UserEvent where
  | load (loaded : TaskSystem.LoadedProcess)
  | first
  | compute (data : KernelData)
  | systemCall (command : Int) (frame : InterruptFrame) (input : CallInput)
  | interrupt (callback : InterruptCallback) (frame : InterruptFrame) (input : CallInput)

/-- Where the machine is when the kernel is left: a return resumes the frame of the interrupted task, `task_return` that
of the task it is given. -/
def Outcome.resume (running : Option Nat) : Outcome → Option UserMachine
  | .returns _ s => some { system := s, running := running }
  | .resumes task s => some { system := s, running := some task }
  | .stops => none

namespace UserMachine

/-- The machine after an event, `none` when it stops. -/
def after (m : UserMachine) : UserEvent → Option UserMachine
  | .load loaded => some { system := (m.system.processLoadSwitch (.ok loaded)).2.2, running := none }
  | .first =>
      if m.system.list.currentTask = 0 then none
      else some { system := m.system.taskSwitch m.system.list.taskHead, running := some m.system.list.taskHead }
  | .compute data => some { m with system := { m.system with data := data } }
  | .systemCall command frame input => (m.system.isr80hHandler input command frame).resume m.running
  | .interrupt callback frame input => (m.system.interruptHandler input callback frame).resume m.running

/-- The process that an event loads. -/
def loads : UserEvent → Option TaskSystem.LoadedProcess
  | .load loaded => some loaded
  | .systemCall _ _ input => input.load.toOption
  | _ => none

/-- The memory of a new process and of its task has not been that of another one before, since `kfree` does nothing. -/
def FreshMemory (m : UserMachine) (event : UserEvent) : Prop :=
  ∀ loaded, loads event = some loaded →
    loaded.process ∉ m.system.processesMade ∧ (loaded.allocated = 0 ∨ loaded.allocated ∉ m.system.tasksMade)

/-- **A step**: the kernel loads the first processes before user code runs. -/
def step (m : UserMachine) (event : UserEvent) (m' : UserMachine) : Prop :=
  (match event with
    | .load _ | .first => m.running = none
    | _ => m.running ≠ none) ∧ m.FreshMemory event ∧ m.after event = some m'

/-- After `process_system_init`. -/
def starts (m : UserMachine) : Prop :=
  m.running = none ∧ m.system.list.taskHead = 0 ∧ m.system.list.taskTail = 0 ∧ m.system.list.currentTask = 0 ∧
    m.system.processVector = [] ∧ m.system.currentProcess = 0 ∧ m.system.terminated = [] ∧ m.system.tasksMade = [] ∧
    m.system.processesMade = []

end UserMachine

end PeachOS
