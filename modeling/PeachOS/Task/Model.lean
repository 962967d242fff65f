/-
**Tasks: `task/task.c`.**

A task is a `struct task` in kernel memory, named by its address; zero is `NULL`. `TaskList` holds what
the addresses stand for and the three global pointers. What `kzalloc` returns for a new task is a
parameter of `taskNew`, and `kfree` leaves the memory as it is.

* `taskNew`, `taskFree` and `taskListRemove` edit the list;
* `taskGetNextNonSleepingTask` picks the task to run next;
* `taskSaveState` keeps the registers of an interrupted task.
-/

import PeachOS.Machine

namespace PeachOS

open ByteStore

/-- A 64-bit register. -/
abbrev Word := BitVec 64

/-- `struct registers`. -/
structure Registers where
  rdi : Word
  rsi : Word
  rbp : Word
  rbx : Word
  rdx : Word
  rcx : Word
  rax : Word
  ip : Word
  cs : Word
  flags : Word
  rsp : Word
  ss : Word
deriving DecidableEq

/-- `struct task`. -/
structure Task where
  registers : Registers
  process : Nat
  sleepUntilMicroseconds : Nat
  next : Nat
  prev : Nat
deriving DecidableEq

/-- `USER_DATA_SEGMENT`. -/
def userDataSegment : Word := 0x33#64

/-- `USER_CODE_SEGMENT`. -/
def userCodeSegment : Word := 0x2B#64

/-- `PEACHOS_PROGRAM_VIRTUAL_ADDRESS`. -/
def peachosProgramVirtualAddress : Word := 0x400000#64

/-- `PEACHOS_PROGRAM_VIRTUAL_STACK_ADDRESS_START`. -/
def taskInitialStackPointer : Word := 0x3FF000#64

/-- The tasks in memory and the pointers `task_head`, `task_tail` and `current_task`. -/
structure TaskList where
  tasks : Store Task
  taskHead : Nat
  taskTail : Nat
  currentTask : Nat

namespace TaskList

/-- Assign a task. -/
def setTask (s : TaskList) (task : Nat) (value : Task) : TaskList := { s with tasks := put s.tasks task value }

/-- Assign the `next` pointer of a task. -/
def setNext (s : TaskList) (task next : Nat) : TaskList := s.setTask task { s.tasks task with next := next }

/-- Assign the `prev` pointer of a task. -/
def setPrev (s : TaskList) (task prev : Nat) : TaskList := s.setTask task { s.tasks task with prev := prev }

end TaskList

/-! ### The list -/

/-- `task_init` of a process, with the entry point of its ELF file if it has one. -/
def taskInit (process : Nat) (elfEntry : Option Word) : Task :=
  { registers :=
      { rdi := 0, rsi := 0, rbp := 0, rbx := 0, rdx := 0, rcx := 0, rax := 0
        ip := elfEntry.getD peachosProgramVirtualAddress
        cs := userCodeSegment
        flags := 0
        rsp := taskInitialStackPointer
        ss := userDataSegment }
    process := process
    sleepUntilMicroseconds := 0
    next := 0
    prev := 0 }

def taskGetNext (s : TaskList) : Nat :=
  if (s.tasks s.currentTask).next = 0 then s.taskHead else (s.tasks s.currentTask).next

def taskListRemove (s : TaskList) (task : Nat) : TaskList :=
  let s := if (s.tasks task).prev ≠ 0 then s.setNext (s.tasks task).prev (s.tasks task).next else s
  let s := if task = s.taskHead then { s with taskHead := (s.tasks task).next } else s
  let s := if task = s.taskTail then { s with taskTail := (s.tasks task).prev } else s
  if task = s.currentTask then { s with currentTask := taskGetNext s } else s

/-- Removing a task writes one `next` pointer at most. -/
theorem taskListRemove_tasks (s : TaskList) (task : Nat) : (taskListRemove s task).tasks =
    if (s.tasks task).prev ≠ 0 then (s.setNext (s.tasks task).prev (s.tasks task).next).tasks else s.tasks := by
  simp only [taskListRemove, apply_ite TaskList.tasks, ite_self]

/-- **Removing a task assigns no `prev` pointer.** -/
theorem taskListRemove_prev (s : TaskList) (task other : Nat) :
    ((taskListRemove s task).tasks other).prev = (s.tasks other).prev := by
  rw [taskListRemove_tasks]
  split
  · by_cases same : other = (s.tasks task).prev
    · subst same
      show (put s.tasks (s.tasks task).prev _ (s.tasks task).prev).prev = _
      rw [put_same]
    · exact congrArg Task.prev (put_other _ same _)
  · rfl

def taskFree (s : TaskList) (task : Nat) : TaskList := taskListRemove s task

/-- `task_new`, with the result of its `kzalloc`. Without memory it frees `NULL`. -/
def taskNew (s : TaskList) (allocated process : Nat) (elfEntry : Option Word) : Except Int Nat × TaskList :=
  if allocated = 0 then (.error enomem, taskFree s 0)
  else
    let s := s.setTask allocated (taskInit process elfEntry)
    if s.taskHead = 0 then
      (.ok allocated, { s with taskHead := allocated, taskTail := allocated, currentTask := allocated })
    else
      let s := s.setNext s.taskTail allocated
      let s := s.setPrev allocated s.taskTail
      (.ok allocated, { s with taskTail := allocated })

/-! ### Scheduling -/

def taskAsleep (task : Task) (tscMicroseconds : Nat) : Bool := task.sleepUntilMicroseconds > tscMicroseconds

/-- The loop of `task_get_next_non_sleeping_task` with `fuel` passes left: the result and `*task_out`. The
`continue` behind a sleeping task goes to the condition of the loop. -/
def taskGetNextNonSleepingTaskLoop (s : TaskList) (tscMicroseconds : Nat) : (fuel current : Nat) → Option (Int × Nat)
  | 0, _ => none
  | fuel + 1, current =>
      let current := if current = 0 then s.taskHead else current
      if current = 0 then some (eio, 0)
      else if taskAsleep (s.tasks current) tscMicroseconds then
        let current := (s.tasks current).next
        if current ≠ 0 then taskGetNextNonSleepingTaskLoop s tscMicroseconds fuel current else some (0, current)
      else some (0, current)

def taskGetNextNonSleepingTask (s : TaskList) (tscMicroseconds fuel : Nat) : Option (Int × Nat) :=
  taskGetNextNonSleepingTaskLoop s tscMicroseconds fuel
    (if s.currentTask ≠ 0 then (s.tasks s.currentTask).next else s.taskHead)

def taskSleep (s : TaskList) (task tscMicroseconds microseconds : Nat) : TaskList :=
  s.setTask task { s.tasks task with sleepUntilMicroseconds := toWord (tscMicroseconds + microseconds) }

/-! ### Saved registers -/

/-- `struct interrupt_frame`. -/
structure InterruptFrame where
  rdi : Word
  rsi : Word
  rbp : Word
  reserved : Word
  rbx : Word
  rdx : Word
  rcx : Word
  rax : Word
  ip : Word
  cs : Word
  flags : Word
  rsp : Word
  ss : Word
deriving DecidableEq

/-- The registers that `task_save_state` keeps of a frame. -/
def InterruptFrame.registers (frame : InterruptFrame) : Registers :=
  { ip := frame.ip
    cs := frame.cs
    flags := frame.flags
    rsp := frame.rsp
    ss := frame.ss
    rax := frame.rax
    rbp := frame.rbp
    rbx := frame.rbx
    rcx := frame.rcx
    rdi := frame.rdi
    rdx := frame.rdx
    rsi := frame.rsi }

def taskSaveState (s : TaskList) (task : Nat) (frame : InterruptFrame) : TaskList :=
  s.setTask task { s.tasks task with registers := frame.registers }

end PeachOS
