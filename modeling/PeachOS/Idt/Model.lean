/-
**Entering and leaving the kernel: `idt/idt.asm` and `task/task.asm`.**

The general-purpose registers are `Register`; the kernel stack is the list of the words on it, the top
first. `exec` runs the instructions that the assembly uses to save and to restore registers, and the
sequences `pushadMacro` and `taskReturn` are those of the source, offset by offset. A structure laid over
memory is read in the order of its fields, eight bytes each.

`Machine` is the processor with the tasks, in user mode or in the kernel between two tasks. Its steps are

* user code that computes, a timer interrupt, a system call that returns or that gives up the processor;
* `task_return` to a task. The registers that nobody has saved are then what the kernel has left in them.
-/

import PeachOS.Task.Model

namespace PeachOS

/-! ### The processor -/

/-- The sixteen general-purpose registers. -/
inductive Register where
  | rax | rcx | rdx | rbx | rsp | rbp | rsi | rdi
  | r8 | r9 | r10 | r11 | r12 | r13 | r14 | r15
deriving DecidableEq

/-- The registers of the processor that the kernel deals with. -/
structure Cpu where
  reg : Register → Word
  ip : Word
  flags : Word
  cs : Word
  ss : Word

/-- **The register file of a user program.** -/
structure UserRegisters where
  reg : Register → Word
  ip : Word
  flags : Word

/-- What a user program sees of the processor. -/
def Cpu.userRegisters (cpu : Cpu) : UserRegisters := { reg := cpu.reg, ip := cpu.ip, flags := cpu.flags }

/-- The interrupt flag. -/
def interruptFlag : Word := 0x200#64

/-- The processor with one register assigned. -/
def Cpu.setReg (cpu : Cpu) (register : Register) (value : Word) : Cpu :=
  { cpu with reg := fun other => if other = register then value else cpu.reg other }

/-- The processor, the kernel stack and the variable `temp_rsp_storage`. -/
structure KernelMode where
  cpu : Cpu
  stack : List Word
  tempRspStorage : Word

/-- Push a word on the kernel stack. -/
def KernelMode.pushWord (m : KernelMode) (value : Word) : KernelMode :=
  { m with stack := value :: m.stack, cpu := m.cpu.setReg .rsp (m.cpu.reg .rsp - 8#64) }

/-! ### Structures over memory -/

/-- The fields of `struct registers` in their order. -/
def Registers.layout (regs : Registers) : List Word :=
  [regs.rdi, regs.rsi, regs.rbp, regs.rbx, regs.rdx, regs.rcx, regs.rax, regs.ip, regs.cs, regs.flags,
    regs.rsp, regs.ss]

/-- The word of `struct registers` at an offset. -/
def Registers.at (regs : Registers) (offset : Nat) : Word := regs.layout.getD (offset / 8) 0

/-- `struct interrupt_frame` laid over the stack. -/
def InterruptFrame.ofStack (stack : List Word) : InterruptFrame :=
  { rdi := stack.getD 0 0
    rsi := stack.getD 1 0
    rbp := stack.getD 2 0
    reserved := stack.getD 3 0
    rbx := stack.getD 4 0
    rdx := stack.getD 5 0
    rcx := stack.getD 6 0
    rax := stack.getD 7 0
    ip := stack.getD 8 0
    cs := stack.getD 9 0
    flags := stack.getD 10 0
    rsp := stack.getD 11 0
    ss := stack.getD 12 0 }

/-! ### Instructions -/

/-- The instructions of the sequences below; `rdi` points to a `struct registers` in those that read it. -/
inductive Instruction where
  /-- `mov qword [temp_rsp_storage], rsp` -/
  | storeRsp
  /-- `push register` -/
  | push (register : Register)
  /-- `push qword [temp_rsp_storage]` -/
  | pushStored
  /-- `push qword [rdi+offset]` -/
  | pushAt (offset : Nat)
  /-- `push qword value` -/
  | pushValue (value : Word)
  /-- `mov register, [rdi+offset]` -/
  | load (register : Register) (offset : Nat)
  /-- `or register, value` -/
  | orValue (register : Register) (value : Word)

/-- One instruction. -/
def exec (regs : Registers) (m : KernelMode) : Instruction → KernelMode
  | .storeRsp => { m with tempRspStorage := m.cpu.reg .rsp }
  | .push register => m.pushWord (m.cpu.reg register)
  | .pushStored => m.pushWord m.tempRspStorage
  | .pushAt offset => m.pushWord (regs.at offset)
  | .pushValue value => m.pushWord value
  | .load register offset => { m with cpu := m.cpu.setReg register (regs.at offset) }
  | .orValue register value => { m with cpu := m.cpu.setReg register (m.cpu.reg register ||| value) }

/-- `pushad_macro`. -/
def pushadMacro : List Instruction :=
  [.storeRsp, .push .rax, .push .rcx, .push .rdx, .push .rbx, .pushStored, .push .rbp, .push .rsi, .push .rdi]

/-- `restore_general_purpose_registers`. -/
def restoreGeneralPurposeRegisters : List Instruction :=
  [.load .rsi 8, .load .rbp 16, .load .rbx 24, .load .rdx 32, .load .rcx 40, .load .rax 48, .load .rdi 0]

/-- `task_return` up to its `iretq`. -/
def taskReturn : List Instruction :=
  [.pushAt 88, .pushAt 80, .load .rax 72, .orValue .rax interruptFlag, .push .rax, .pushValue 0x2B#64,
    .pushAt 56] ++ restoreGeneralPurposeRegisters

/-- `iretq`. -/
def iretq (m : KernelMode) : Cpu :=
  { m.cpu.setReg .rsp (m.stack.getD 3 0) with
    ip := m.stack.getD 0 0
    cs := m.stack.getD 1 0
    flags := m.stack.getD 2 0
    ss := m.stack.getD 4 0 }

/-- An interrupt in user mode: the processor takes the kernel stack and pushes five words on it. -/
def interruptEntry (cpu : Cpu) (kernelStack : Word) : KernelMode :=
  { cpu := { cpu.setReg .rsp (kernelStack - 40#64) with flags := cpu.flags &&& ~~~interruptFlag }
    stack := [cpu.ip, cpu.cs, cpu.flags, cpu.reg .rsp, cpu.ss]
    tempRspStorage := 0 }

/-- The frame that the entry code of an interrupt hands to C. -/
def interruptFrame (cpu : Cpu) (kernelStack : Word) : InterruptFrame :=
  .ofStack (pushadMacro.foldl (exec default) (interruptEntry cpu kernelStack)).stack
where
  /-- No instruction of `pushad_macro` reads a `struct registers`. -/
  default : Registers := (taskInit 0 none).registers

/-- The processor after `task_return(&regs)`, which starts with the registers as the kernel has left them. -/
def taskReturnCpu (regs : Registers) (left : Cpu) : Cpu :=
  iretq (taskReturn.foldl (exec regs) { cpu := left, stack := [], tempRspStorage := 0 })

/-! ### The machine -/

/-- The processor and the tasks, in user mode or in the kernel between two tasks. -/
structure Machine where
  userMode : Bool
  cpu : Cpu
  tasks : TaskList

/-- What a system call does to the tasks. -/
inductive TaskEffect where
  | create (allocated process : Nat) (elfEntry : Option Word)
  | free (task : Nat)
  | sleep (task tscMicroseconds microseconds : Nat)

def TaskEffect.apply (s : TaskList) : TaskEffect → TaskList
  | .create allocated process elfEntry => (taskNew s allocated process elfEntry).2
  | .free task => taskFree s task
  | .sleep task tscMicroseconds microseconds => taskSleep s task tscMicroseconds microseconds

/-- A step of the machine. -/
inductive MachineStep where
  /-- User code computes. -/
  | compute (cpu : Cpu)
  /-- The timer interrupts user code. -/
  | timer (kernelStack : Word)
  /-- A system call, or another interrupt, that returns to user code. -/
  | serve (kernelStack : Word) (effects : List TaskEffect) (cpu : Cpu)
  /-- A system call that gives up the processor. -/
  | giveUp (kernelStack : Word) (effects : List TaskEffect)
  /-- `task_switch` and `task_return`. -/
  | resume (task : Nat) (left : Cpu)

namespace Machine

/-- `task_current_save_state`. -/
def saveState (m : Machine) (kernelStack : Word) : TaskList :=
  taskSaveState m.tasks m.tasks.currentTask (interruptFrame m.cpu kernelStack)

/-- The machine after a step. -/
def after (m : Machine) : MachineStep → Machine
  | .compute cpu => { m with cpu := cpu }
  | .timer kernelStack => { m with userMode := false, tasks := m.saveState kernelStack }
  | .serve kernelStack effects cpu =>
      { m with cpu := cpu, tasks := effects.foldl TaskEffect.apply (m.saveState kernelStack) }
  | .giveUp kernelStack effects =>
      { m with userMode := false, tasks := effects.foldl TaskEffect.apply (m.saveState kernelStack) }
  | .resume task left =>
      { userMode := true
        cpu := taskReturnCpu (m.tasks.tasks task).registers left
        tasks := { m.tasks with currentTask := task } }

/-- **A step**: user code runs in user mode, the kernel resumes a task between two tasks. -/
def step (m : Machine) (label : MachineStep) (m' : Machine) : Prop :=
  (match label with
    | .resume _ _ => m.userMode = false
    | _ => m.userMode = true) ∧ m' = m.after label

end Machine

end PeachOS
