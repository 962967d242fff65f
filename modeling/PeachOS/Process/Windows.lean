/-
**The windows of a process: `task/process.c`, `isr80h/window.c`, `isr80h/graphics.c`.**

A process has a vector of its windows, one window that it prints to, and userland pointers to graphics. The user may
close a window at any time.

* `processWindowCreate`, `isr80hCommand17SysoutToWindow`, `isr80hCommand19WindowGraphicsGet`,
  `isr80hCommand20GraphicsPixelsGet`, `isr80hCommand22GraphicsCreate` — what the process calls;
* `closeWindow` — what the user does;
* `Follows` — what each call dereferences.

What is drawn, printed and mapped is left out, and so are titles and events. The graphics of a window have memory for
pushes and temporary elements.
-/

import PeachOS.Process.UserlandPtr
import PeachOS.Window.Parts

namespace PeachOS

open GraphicsStore WindowSystem

/-- `struct process_window`. -/
structure ProcessWindow where
  userWin : Nat
  kernelWin : Nat

/-- `struct userland_graphics`, less the pixels, which nothing sets. -/
structure UserlandGraphics where
  x : BitVec 64
  y : BitVec 64
  width : BitVec 64
  height : BitVec 64
  userlandPtr : Nat

/-- What a process has of windows, and the windows and userland pointers of all. -/
structure ProcessWindows where
  process : Nat
  desktop : WindowSystem
  pointers : UserlandPointers
  /-- `windows` of the process. -/
  windows : List Nat
  /-- The `struct process_window` at an address. -/
  processWindow : Nat → ProcessWindow
  /-- The addresses of those that are allocated. -/
  live : List Nat
  sysoutWin : Nat

/-- What the allocations of a `process_window_create` return, and whether the push succeeds. -/
structure ProcessWindowMemory where
  processWindow : Nat
  window : WindowMemory
  userWin : Nat
  pushed : Bool

/-- What the allocations for the metadata of a graphics return, and whether the push succeeds. -/
structure MetadataMemory where
  userlandPtr : Nat
  pushed : Bool
  metadata : Bool

namespace ProcessWindows

/-! ### Looking up -/

/-- `process_window_get_from_user_window`. -/
def processWindowGetFromUserWindow (σ : ProcessWindows) (userWin : Nat) : Nat :=
  (σ.windows.find? fun win => win ≠ 0 && (σ.processWindow win).userWin == userWin).getD 0

/-- `process_window_get_from_kernel_window`. -/
def processWindowGetFromKernelWindow (σ : ProcessWindows) (kernWin : Nat) : Nat :=
  (σ.windows.find? fun win => win ≠ 0 && (σ.processWindow win).kernelWin == kernWin).getD 0

/-- `isr80h_window_from_process_window_virt`. -/
def isr80hWindowFromProcessWindowVirt (σ : ProcessWindows) (userWin : Nat) : Nat :=
  let procWin := σ.processWindowGetFromUserWindow userWin
  if procWin = 0 then 0 else (σ.processWindow procWin).kernelWin

/-! ### The calls -/

/-- `process_window_create`, for a body that is not empty: the process window, or 0. -/
def processWindowCreate (fuel : Nat) (σ : ProcessWindows) (memory : ProcessWindowMemory)
    (width height flags : BitVec 32) : Option (Nat × ProcessWindows) :=
  if memory.processWindow = 0 then some (0, σ)
  else
    let screen := (σ.desktop.store.nodes σ.desktop.store.screen).info
    let absX := (screen.width / 2 - width.sdiv 2).setWidth 64
    let absY := (screen.height / 2 - height.sdiv 2).setWidth 64
    let (kernelWin, desktop) := σ.desktop.windowCreate memory.window σ.desktop.store.screen absX absY
      (width.signExtend 64) (height.signExtend 64) flags
    if kernelWin = 0 then some (0, { σ with desktop := desktop })
    else if memory.userWin = 0 then
      (desktop.windowClose fuel kernelWin).map fun desktop => (0, { σ with desktop := desktop })
    else
      some (memory.processWindow,
        { σ with
          desktop := desktop
          windows := if memory.pushed then σ.windows ++ [memory.processWindow] else σ.windows
          processWindow := Function.update σ.processWindow memory.processWindow ⟨memory.userWin, kernelWin⟩
          live := memory.processWindow :: σ.live })

/-- `isr80h_command17_sysout_to_window`, with `process_set_sysout_window`. -/
def isr80hCommand17SysoutToWindow (σ : ProcessWindows) (userWin : Nat) : ProcessWindows :=
  if userWin = 0 then σ
  else
    let procWin := σ.processWindowGetFromUserWindow userWin
    if procWin = 0 then σ else { σ with sysoutWin := procWin }

/-- `isr80h_graphics_make_userland_metadata`. The pointer stays when there is no memory for the metadata. -/
def isr80hGraphicsMakeUserlandMetadata (σ : ProcessWindows) (graphics : Nat) (memory : MetadataMemory) :
    Option UserlandGraphics × ProcessWindows :=
  let (userlandPtr, pointers) :=
    σ.pointers.processUserlandPointerCreate σ.process graphics memory.userlandPtr memory.pushed
  let σ := { σ with pointers := pointers }
  if userlandPtr = 0 then (none, σ)
  else if memory.metadata = false then (none, σ)
  else
    let node := σ.desktop.store.nodes graphics
    (some
      { x := node.relativeX.setWidth 64
        y := node.relativeY.setWidth 64
        width := node.info.width.setWidth 64
        height := node.info.height.setWidth 64
        userlandPtr := userlandPtr }, σ)

/-- `isr80h_command19_window_graphics_get`. -/
def isr80hCommand19WindowGraphicsGet (σ : ProcessWindows) (userWin : Nat) (memory : MetadataMemory) :
    Option UserlandGraphics × ProcessWindows :=
  if userWin = 0 then (none, σ)
  else
    let window := σ.isr80hWindowFromProcessWindowVirt userWin
    if window = 0 then (none, σ)
    else σ.isr80hGraphicsMakeUserlandMetadata (σ.desktop.windows window).graphics memory

/-- `isr80h_command20_graphics_pixels_get`: the pixels that it maps into the process. The pointer is one that the process
has written. -/
def isr80hCommand20GraphicsPixelsGet (σ : ProcessWindows) (userlandPtr : Nat) : List FramebufferPixel :=
  let graphics := σ.pointers.processUserlandPointerKernelPtr σ.process userlandPtr
  if graphics = 0 then [] else (σ.desktop.store.nodes graphics).info.pixels

/-- `isr80h_command22_graphics_create`, which ends like `isr80h_graphics_make_userland_metadata`. -/
def isr80hCommand22GraphicsCreate (σ : ProcessWindows) (userlandPtr newGraphics : Nat) (x y width height : BitVec 64)
    (memory : MetadataMemory) : Option UserlandGraphics × ProcessWindows :=
  let graphics := σ.pointers.processUserlandPointerKernelPtr σ.process userlandPtr
  if graphics = 0 then (none, σ)
  else
    let (child, store) := σ.desktop.store.graphicsInfoCreateRelative newGraphics graphics x y width height 0
    let σ := { σ with desktop := { σ.desktop with store := store } }
    if child = 0 then (none, σ) else σ.isr80hGraphicsMakeUserlandMetadata child memory

/-- The window whose terminal `process_print` and `process_print_char` write to. -/
def printingWindow (σ : ProcessWindows) : Nat := (σ.processWindow σ.sysoutWin).kernelWin

/-! ### Closing -/

/-- `process_window_closed`. The result of `vector_pop_element` is not looked at; `memory` says whether there is memory
for its temporary element. -/
def processWindowClosed (σ : ProcessWindows) (procWin : Nat) (memory : Bool) : ProcessWindows :=
  { σ with
    windows := (vectorPopElement memory σ.windows procWin).2
    live := σ.live.erase procWin }

/-- `window_close` of a window of the process: `process_window_event_handler_event_close`, and then `window_free`. -/
def closeWindow (fuel : Nat) (σ : ProcessWindows) (window : Nat) (memory : Bool) : Option ProcessWindows :=
  let procWin := σ.processWindowGetFromKernelWindow window
  let σ := if procWin = 0 then σ else σ.processWindowClosed procWin memory
  (σ.desktop.windowClose fuel window).map fun desktop => { σ with desktop := desktop }

end ProcessWindows

/-! ### Runs -/

/-- A call of the process, or something that the user does. `redraw` stands for the calls that redraw a window and that
change its title. -/
inductive ProcessWindowCall where
  | create (memory : ProcessWindowMemory) (width height flags : BitVec 32)
  | sysout (userWin : Nat)
  | graphicsGet (userWin : Nat) (memory : MetadataMemory)
  | pixelsGet (userlandPtr : Nat)
  | graphicsCreate (userlandPtr newGraphics : Nat) (x y width height : BitVec 64) (memory : MetadataMemory)
  | print
  | redraw (userWin : Nat)
  | focus (window : Nat)
  | close (window : Nat) (memory : Bool)

/-- Something in the memory of the kernel. The terminals of a window go with it. -/
inductive KernelObject where
  | processWindow (address : Nat)
  | window (address : Nat)
  | userlandPtr (address : Nat)
  | graphics (address : Nat)

/-- The user window whose window a call uses. -/
def ProcessWindowCall.userWindow : ProcessWindowCall → Option Nat
  | .graphicsGet userWin _ | .redraw userWin => some userWin
  | _ => none

/-- The userland pointer that a call is given. -/
def ProcessWindowCall.pointer : ProcessWindowCall → Option Nat
  | .pixelsGet userlandPtr | .graphicsCreate userlandPtr _ _ _ _ _ _ => some userlandPtr
  | _ => none

namespace ProcessWindows

variable {σ σ' : ProcessWindows}

/-- The object is allocated. -/
def Live (σ : ProcessWindows) : KernelObject → Prop
  | .processWindow address => address ∈ σ.live
  | .window address => address ∈ σ.desktop.liveWindows
  | .userlandPtr address => address ∈ σ.pointers.live
  | .graphics address => address ∈ σ.desktop.store.live

/-- **What a call of the process may dereference**, besides what it has just created. -/
inductive Follows (σ : ProcessWindows) : ProcessWindowCall → KernelObject → Prop
  /-- User windows and the windows of events are looked up among all process windows. -/
  | lookUp {call : ProcessWindowCall} {win : Nat} (isIn : win ∈ σ.windows) : Follows σ call (.processWindow win)
  /-- The window that was found. -/
  | window {call : ProcessWindowCall} {userWin : Nat} (uses : call.userWindow = some userWin)
      (found : σ.isr80hWindowFromProcessWindowVirt userWin ≠ 0) :
      Follows σ call (.window (σ.isr80hWindowFromProcessWindowVirt userWin))
  /-- Its graphics. -/
  | part {call : ProcessWindowCall} {userWin part : Nat} (uses : call.userWindow = some userWin)
      (found : σ.isr80hWindowFromProcessWindowVirt userWin ≠ 0) (nonnull : part ≠ 0)
      (isPart : let window := σ.desktop.windows (σ.isr80hWindowFromProcessWindowVirt userWin)
        part = window.rootGraphics ∨ part = window.titleBarGraphics ∨ part = window.graphics) :
      Follows σ call (.graphics part)
  /-- `process_userland_pointer_kernel_ptr` reads a pointer that is registered. -/
  | pointer {call : ProcessWindowCall} {userlandPtr : Nat} (given : call.pointer = some userlandPtr)
      (registered : σ.pointers.processUserlandPointerRegistered σ.process userlandPtr = true) :
      Follows σ call (.userlandPtr userlandPtr)
  /-- The graphics that it points to. -/
  | kernelPtr {call : ProcessWindowCall} {userlandPtr : Nat} (given : call.pointer = some userlandPtr)
      (nonnull : σ.pointers.processUserlandPointerKernelPtr σ.process userlandPtr ≠ 0) :
      Follows σ call (.graphics (σ.pointers.processUserlandPointerKernelPtr σ.process userlandPtr))
  /-- A new child is sorted with the others. -/
  | sibling {call : ProcessWindowCall} {userlandPtr child : Nat} (given : call.pointer = some userlandPtr)
      (nonnull : σ.pointers.processUserlandPointerKernelPtr σ.process userlandPtr ≠ 0)
      (isChild : child ∈
        (σ.desktop.store.nodes (σ.pointers.processUserlandPointerKernelPtr σ.process userlandPtr)).children) :
      Follows σ call (.graphics child)
  /-- `process_print`, when there is a window for it. -/
  | printing (nonnull : σ.sysoutWin ≠ 0) : Follows σ .print (.processWindow σ.sysoutWin)
  | printed (nonnull : σ.sysoutWin ≠ 0) : Follows σ .print (.window σ.printingWindow)
  | terminal (nonnull : σ.sysoutWin ≠ 0) :
      Follows σ .print (.graphics (σ.desktop.windows σ.printingWindow).graphics)
  /-- A new window is sorted with the others. -/
  | sorted {memory : ProcessWindowMemory} {width height flags : BitVec 32} {window : Nat}
      (inVector : window ∈ σ.desktop.windowsVector) : Follows σ (.create memory width height flags) (.window window)
  /-- It takes the focus from the one that has it. -/
  | unfocused {memory : ProcessWindowMemory} {width height flags : BitVec 32} (nonnull : σ.desktop.focusedWindow ≠ 0) :
      Follows σ (.create memory width height flags) (.window σ.desktop.focusedWindow)
  /-- All graphics of the screen are drawn, or those of a region. -/
  | drawn {call : ProcessWindowCall} {graphics : Nat}
      (onScreen : Below σ.desktop.store σ.desktop.store.screen graphics) : Follows σ call (.graphics graphics)

/-- **One call**, or the user focuses or closes a window. Memory that is given out is not in use. -/
def step (σ : ProcessWindows) (call : ProcessWindowCall) (σ' : ProcessWindows) : Prop :=
  match call with
  | .create memory width height flags =>
      memory.processWindow ∉ σ.live ∧ memory.window.window ∉ σ.desktop.liveWindows ∧
        NewMemory σ.desktop.store memory.window.graphics ∧
        ∃ fuel win, σ.processWindowCreate fuel memory width height flags = some (win, σ')
  | .sysout userWin => σ' = σ.isr80hCommand17SysoutToWindow userWin
  | .graphicsGet userWin memory =>
      memory.userlandPtr ∉ σ.pointers.live ∧ σ' = (σ.isr80hCommand19WindowGraphicsGet userWin memory).2
  | .graphicsCreate userlandPtr newGraphics x y width height memory =>
      memory.userlandPtr ∉ σ.pointers.live ∧ newGraphics ∉ σ.desktop.store.live ∧
        σ' = (σ.isr80hCommand22GraphicsCreate userlandPtr newGraphics x y width height memory).2
  | .pixelsGet _ | .print | .redraw _ => σ' = σ
  | .focus window =>
      window ∈ σ.desktop.windowsVector ∧ σ' = { σ with desktop := σ.desktop.windowFocus window }
  | .close window memory =>
      (∃ win ∈ σ.windows, (σ.processWindow win).kernelWin = window) ∧ ∃ fuel, σ.closeWindow fuel window memory = some σ'

end ProcessWindows

end PeachOS
