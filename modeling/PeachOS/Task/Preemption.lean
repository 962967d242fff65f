/-
**Preemption: what a task finds in its registers when it runs again.**

A timer interrupt saves the registers of the current task, other tasks run, and `task_return` restores
them. The registers `r8` to `r15` are neither pushed by `pushad_macro` nor part of `struct registers`:

* `interruptFrame_registers` — what is saved, and `taskReturnCpu_reg` — what is restored;
* `registers_kept` — nobody else writes the saved registers;
* `preemption_transparent_iff` — the register file is the same exactly when `r8` to `r15` happen to be;
* `preemption_loses_r12` — a program that is resumed with another `r12`.
-/

import PeachOS.Idt.Model
import PeachOS.Lib.StepRun

namespace PeachOS

open ByteStore StepRun

/-! ### Saving and restoring -/

/-- The registers that no structure has a field for. -/
def unsavedRegisters : List Register := [.r8, .r9, .r10, .r11, .r12, .r13, .r14, .r15]

/-- **What an interrupt saves.** -/
theorem interruptFrame_registers (cpu : Cpu) (kernelStack : Word) :
    (interruptFrame cpu kernelStack).registers =
      { rdi := cpu.reg .rdi, rsi := cpu.reg .rsi, rbp := cpu.reg .rbp, rbx := cpu.reg .rbx
        rdx := cpu.reg .rdx, rcx := cpu.reg .rcx, rax := cpu.reg .rax
        ip := cpu.ip, cs := cpu.cs, flags := cpu.flags, rsp := cpu.reg .rsp, ss := cpu.ss } := rfl

/-- The registers that `task_return` restores. -/
def Registers.restored (regs : Registers) (left : Cpu) : Register → Word
  | .rax => regs.rax
  | .rcx => regs.rcx
  | .rdx => regs.rdx
  | .rbx => regs.rbx
  | .rsp => regs.rsp
  | .rbp => regs.rbp
  | .rsi => regs.rsi
  | .rdi => regs.rdi
  | other => left.reg other

/-- **What `task_return` restores.** -/
theorem taskReturnCpu_reg (regs : Registers) (left : Cpu) (register : Register) :
    (taskReturnCpu regs left).reg register = regs.restored left register := by
  cases register <;> rfl

theorem taskReturnCpu_ip (regs : Registers) (left : Cpu) : (taskReturnCpu regs left).ip = regs.ip := rfl

theorem taskReturnCpu_flags (regs : Registers) (left : Cpu) :
    (taskReturnCpu regs left).flags = regs.flags ||| interruptFlag := rfl

/-! ### What the others do -/

/-- Memory for a new task is not that of the given one. -/
def TaskEffect.spares (task : Nat) : TaskEffect → Prop
  | .create allocated _ _ => allocated ≠ task
  | .free _ => True
  | .sleep _ _ _ => True

/-- The steps in which a task neither runs nor is resumed. -/
def Without (task : Nat) (m : Machine) : MachineStep → Prop
  | .compute _ => m.tasks.currentTask ≠ task
  | .timer _ => m.tasks.currentTask ≠ task
  | .serve _ effects _ => m.tasks.currentTask ≠ task ∧ ∀ effect ∈ effects, effect.spares task
  | .giveUp _ effects => m.tasks.currentTask ≠ task ∧ ∀ effect ∈ effects, effect.spares task
  | .resume next _ => next ≠ task

section Kept

variable {s : TaskList} {task : Nat}

/-- Assigning a task with the registers it has. -/
theorem registers_setTask {other : Nat} {value : Task} (same : value.registers = (s.tasks other).registers) :
    ((s.setTask other value).tasks task).registers = (s.tasks task).registers := by
  by_cases here : task = other
  · subst here
    show (put s.tasks task value task).registers = _
    rw [put_same, same]
  · exact congrArg Task.registers (put_other _ here _)

theorem registers_setNext (s : TaskList) (task other next : Nat) :
    ((s.setNext other next).tasks task).registers = (s.tasks task).registers := registers_setTask rfl

theorem registers_setPrev (s : TaskList) (task other prev : Nat) :
    ((s.setPrev other prev).tasks task).registers = (s.tasks task).registers := registers_setTask rfl

theorem registers_taskListRemove (s : TaskList) (task other : Nat) :
    ((taskListRemove s other).tasks task).registers = (s.tasks task).registers := by
  rw [taskListRemove_tasks]
  split
  · exact registers_setTask rfl
  · rfl

/-- **A system call writes no saved registers**, except those of a task it creates. -/
theorem registers_effect {effect : TaskEffect} (spares : effect.spares task) :
    ((effect.apply s).tasks task).registers = (s.tasks task).registers := by
  cases effect with
  | create allocated process elfEntry =>
      have elsewhere : ((s.setTask allocated (taskInit process elfEntry)).tasks task).registers =
          (s.tasks task).registers := congrArg Task.registers (put_other _ (Ne.symm spares) _)
      show ((taskNew s allocated process elfEntry).2.tasks task).registers = _
      unfold taskNew
      split
      · exact registers_taskListRemove s task 0
      · dsimp only
        split
        · exact elsewhere
        · exact ((registers_setPrev _ task _ _).trans (registers_setNext _ task _ _)).trans elsewhere
  | free other => exact registers_taskListRemove s task other
  | sleep other now microseconds => exact registers_setTask rfl

theorem registers_effects {effects : List TaskEffect} (spare : ∀ effect ∈ effects, effect.spares task) :
    ((effects.foldl TaskEffect.apply s).tasks task).registers = (s.tasks task).registers := by
  induction effects generalizing s with
  | nil => rfl
  | cons effect rest ih =>
      rw [List.foldl_cons, ih fun other member => spare other (List.mem_cons_of_mem _ member)]
      exact registers_effect (spare effect List.mem_cons_self)

/-- Saving the state of the current task writes no other one. -/
theorem registers_saveState {m : Machine} (kernelStack : Word) (other : m.tasks.currentTask ≠ task) :
    ((m.saveState kernelStack).tasks task).registers = (m.tasks.tasks task).registers :=
  congrArg Task.registers (put_other _ (Ne.symm other) _)

/-- One step. -/
theorem registers_step {m : Machine} {label : MachineStep} (without : Without task m label) :
    ((m.after label).tasks.tasks task).registers = (m.tasks.tasks task).registers := by
  cases label with
  | compute cpu => rfl
  | timer kernelStack => exact registers_saveState kernelStack without
  | serve kernelStack effects cpu =>
      exact (registers_effects without.2).trans (registers_saveState kernelStack without.1)
  | giveUp kernelStack effects =>
      exact (registers_effects without.2).trans (registers_saveState kernelStack without.1)
  | resume next left => rfl

/-- **The saved registers of a task are kept while it does not run.** -/
theorem registers_kept {start m : Machine}
    (reached : Reachable (Guarded (Without task) Machine.step) (fun m => m = start) m) :
    (m.tasks.tasks task).registers = (start.tasks.tasks task).registers := by
  refine reached.invariant (fun m => (m.tasks.tasks task).registers = (start.tasks.tasks task).registers) ?_ ?_
  · rintro _ rfl
    rfl
  · rintro m label m' kept ⟨without, _, rfl⟩
    rw [registers_step without, kept]

end Kept

/-! ### Preemption -/

/-- The register file that a task is to find: the one it was interrupted with, the interrupt flag set. -/
def Cpu.interrupted (cpu : Cpu) : UserRegisters :=
  { cpu.userRegisters with flags := cpu.flags ||| interruptFlag }

/-- **When preemption is transparent**: exactly when `task_return` is called with the values of the
interrupted task in `r8` to `r15`. -/
theorem preemption_transparent_iff (m : Machine) (task : Nat) (kernelStack : Word) (m' : Machine) (left : Cpu)
    (running : m.tasks.currentTask = task)
    (others : Reachable (Guarded (Without task) Machine.step) (fun start => start = m.after (.timer kernelStack)) m') :
    (m'.after (.resume task left)).cpu.userRegisters = m.cpu.interrupted ↔
      ∀ register ∈ unsavedRegisters, left.reg register = m.cpu.reg register := by
  have saved : (m'.tasks.tasks task).registers = (interruptFrame m.cpu kernelStack).registers := by
    rw [registers_kept others, ← running]
    exact congrArg Task.registers (put_same _ _ _)
  have resumed : (m'.after (.resume task left)).cpu =
      taskReturnCpu (interruptFrame m.cpu kernelStack).registers left := by
    rw [← saved]
    rfl
  rw [resumed, interruptFrame_registers]
  constructor
  · intro same register member
    have atRegister := congrFun (congrArg UserRegisters.reg same) register
    change (taskReturnCpu _ left).reg register = m.cpu.reg register at atRegister
    rw [taskReturnCpu_reg] at atRegister
    simp only [unsavedRegisters, List.mem_cons, List.not_mem_nil, or_false] at member
    rcases member with rfl | rfl | rfl | rfl | rfl | rfl | rfl | rfl <;> exact atRegister
  · intro same
    have registers : ∀ register, (taskReturnCpu
        { rdi := m.cpu.reg .rdi, rsi := m.cpu.reg .rsi, rbp := m.cpu.reg .rbp, rbx := m.cpu.reg .rbx
          rdx := m.cpu.reg .rdx, rcx := m.cpu.reg .rcx, rax := m.cpu.reg .rax
          ip := m.cpu.ip, cs := m.cpu.cs, flags := m.cpu.flags, rsp := m.cpu.reg .rsp, ss := m.cpu.ss }
        left).reg register = m.cpu.reg register := by
      intro register
      rw [taskReturnCpu_reg]
      cases register <;> first | rfl | exact same _ (by decide)
    unfold Cpu.userRegisters Cpu.interrupted
    rw [taskReturnCpu_ip, taskReturnCpu_flags, funext registers]
    rfl

/-- A program that keeps a value in `r12`. -/
def programCpu : Cpu :=
  { reg := fun register => if register = .r12 then 7#64 else 0#64
    ip := 0x400000#64
    flags := 0x202#64
    cs := userCodeSegment
    ss := userDataSegment }

/-- A program that has cleared its registers. -/
def clearedCpu : Cpu := { programCpu with reg := fun _ => 0#64 }

/-- The program runs, with a second task behind it. -/
def programMachine : Machine :=
  { userMode := true
    cpu := programCpu
    tasks :=
      { tasks := fun _ => taskInit 0x5000 none
        taskHead := 0x1000
        taskTail := 0x2000
        currentTask := 0x1000 } }

/-- The machine after the other task has run: it has cleared its registers and was interrupted in its turn. -/
def otherTaskMachine : Machine :=
  (((programMachine.after (.timer 0x8000#64)).after (.resume 0x2000 programCpu)).after
    (.compute clearedCpu)).after (.timer 0x8000#64)

theorem otherTaskMachine_reached : Reachable (Guarded (Without 0x1000) Machine.step)
    (fun start => start = programMachine.after (.timer 0x8000#64)) otherTaskMachine := by
  have different : (0x2000 : Nat) ≠ 0x1000 := by decide
  refine .next (.timer 0x8000#64) (.next (.compute clearedCpu) (.next (.resume 0x2000 programCpu) (.start rfl)
    ⟨?_, rfl, rfl⟩) ⟨?_, rfl, rfl⟩) ⟨?_, rfl, rfl⟩ <;> exact different

/-- Preemption by the other task, if the kernel gets hold of the registers of the program again. -/
theorem preemption_transparent_otherTask :
    (otherTaskMachine.after (.resume 0x1000 programCpu)).cpu.userRegisters = programMachine.cpu.interrupted ↔
      ∀ register ∈ unsavedRegisters, programCpu.reg register = programMachine.cpu.reg register :=
  preemption_transparent_iff programMachine 0x1000 0x8000#64 otherTaskMachine programCpu rfl otherTaskMachine_reached

/-- **The program loses its `r12`**: it is resumed with what the other task has left there. -/
theorem preemption_loses_r12 :
    Reachable Machine.step (fun start => start = programMachine.after (.timer 0x8000#64)) otherTaskMachine ∧
      (otherTaskMachine.after (.resume 0x1000 clearedCpu)).cpu.userRegisters ≠ programMachine.cpu.interrupted := by
  refine ⟨otherTaskMachine_reached.of_guarded, fun same => ?_⟩
  have atR12 : (0#64 : Word) = 7#64 := congrFun (congrArg UserRegisters.reg same) .r12
  exact absurd atR12 (by decide)

end PeachOS
