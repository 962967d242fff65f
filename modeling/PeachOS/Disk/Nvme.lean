/-
**Reads of the NVMe driver: `disk/drivers/nvme.c`.**

A read is cut into commands of at most sixteen sectors. A command names its buffer by two entries of a physical region page
(PRP): the buffer's address and, when the buffer leaves its page, the next page. A third page would need a list of pages; the
driver then shortens the command, rounded up to a sector, but goes on as if it had read all of it.

The controller is not part of the kernel. `nvmeTransfer` is what a read command makes it do (pages of 4096 bytes); a device
answers each command with a status, or not in time, and does that transfer when the status is zero.

* `nvmeTransfer` — the places and the bytes of a read command;
* `nvmeDiskDriverRead` — the driver's read, command by command.
-/

import PeachOS.Lib.Scatter
import PeachOS.Machine

namespace PeachOS

open ByteStore

/-- `-ETIMEOUT`. -/
def etimeout : Int := -12

/-- `NVME_SECTOR_SIZE`. -/
abbrev nvmeSectorSize : Nat := 512

/-- `NVME_OPCODE_READ`. -/
def nvmeOpcodeRead : Nat := 0x02

/-! ### Commands -/

/-- `struct nvme_submission_queue_entry`, as far as the driver fills it in. -/
structure NvmeCommand where
  command : Nat
  nsid : Nat
  dataPtr1 : Nat
  dataPtr2 : Nat
  dataPtr3 : Nat
  dataPtr4 : Nat
  commandCdw0 : Nat
  commandCdw1 : Nat
  commandCdw2 : Nat
deriving DecidableEq

/-- `NVME_COMMAND_BITS_BUILD`. -/
def nvmeCommandBitsBuild (opcode fused psdt iden : Nat) : Nat :=
  opcode % 2 ^ 8 ||| (fused % 2 ^ 2) <<< 8 ||| (psdt % 2 ^ 2) <<< 14 ||| (iden % 2 ^ 12) <<< 16

/-- The part of the buffer in its first page. -/
def nvmeFirstSpan (nlb buf : Nat) : Nat := min (4096 - buf % 4096) (nlb * nvmeSectorSize)

/-- The second entry, and the number of blocks when two pages are not enough for all of them. -/
def nvmeSecondPage (nlb buf : Nat) : Nat × Nat :=
  let bytes := nlb * nvmeSectorSize
  let firstSpan := nvmeFirstSpan nlb buf
  if bytes > firstSpan then
    let remain := min (bytes - firstSpan) 4096
    let described := firstSpan + remain
    (toWord (buf + firstSpan), (described + nvmeSectorSize - 1) / nvmeSectorSize)
  else (0, nlb)

/-- The command of `nvme_io_submit_and_poll`. -/
def nvmeIoCommand (opcode nsid lba nlb buf : Nat) : NvmeCommand :=
  let (prp2, nlb) := nvmeSecondPage nlb buf
  { command := nvmeCommandBitsBuild opcode 0 0 0
    nsid := nsid
    dataPtr1 := buf % 2 ^ 32
    dataPtr2 := buf / 2 ^ 32
    dataPtr3 := prp2 % 2 ^ 32
    dataPtr4 := prp2 / 2 ^ 32
    commandCdw0 := lba % 2 ^ 32
    commandCdw1 := lba / 2 ^ 32
    commandCdw2 := toUInt32 (nlb - 1) }

/-! ### The controller -/

/-- Bytes that a command writes, each with its place in memory. -/
structure Transfer where
  length : Nat
  place : Nat → Nat
  value : Nat → Byte

namespace NvmeCommand

def prp1 (cmd : NvmeCommand) : Nat := cmd.dataPtr1 + 2 ^ 32 * cmd.dataPtr2

def prp2 (cmd : NvmeCommand) : Nat := cmd.dataPtr3 + 2 ^ 32 * cmd.dataPtr4

def slba (cmd : NvmeCommand) : Nat := cmd.commandCdw0 + 2 ^ 32 * cmd.commandCdw1

/-- The number of blocks: sixteen bits, counted from zero. -/
def blocks (cmd : NvmeCommand) : Nat := cmd.commandCdw2 % 2 ^ 16 + 1

end NvmeCommand

/-- The page that an entry behind the first points to. -/
def prpPage (entry : Nat) : Nat := entry - entry % 4096

/-- **The place of each byte of a command's data.** The first entry points anywhere into its page, at a dword. The second is
the second page, or a list of the pages from there on when two are not enough. -/
def nvmePlace (cmd : NvmeCommand) (mem : Memory) (i : Nat) : Nat :=
  let start := cmd.prp1 - cmd.prp1 % 4
  let first := 4096 - start % 4096
  if i < first then start + i
  else if cmd.blocks * nvmeSectorSize ≤ first + 4096 then prpPage cmd.prp2 + (i - first)
  else prpPage (readWord mem (cmd.prp2 + 8 * ((i - first) / 4096)) 8) + (i - first) % 4096

/-- **What a read command transfers.** -/
def nvmeTransfer (disk : Nat → Byte) (cmd : NvmeCommand) (mem : Memory) : Transfer where
  length := cmd.blocks * nvmeSectorSize
  place := nvmePlace cmd mem
  value i := disk (cmd.slba * nvmeSectorSize + i)

/-- The answer to a command: its status, `none` when it does not come in time, and the data that was written by then. -/
structure NvmeResponse where
  status : Option Nat
  transfer : Transfer

/-- A device answers its `n`-th command. -/
abbrev NvmeDevice := (n : Nat) → NvmeCommand → Memory → NvmeResponse

/-- **A device that executes read commands as they are specified.** An entry whose two low bits are set may be refused, and
is taken without them otherwise. -/
def NvmeDevice.Executes (device : NvmeDevice) (disk : Nat → Byte) : Prop :=
  ∀ n cmd mem, (device n cmd mem).status = some 0 → (device n cmd mem).transfer = nvmeTransfer disk cmd mem

/-! ### The driver -/

/-- Memory, and the transfers that changed it. -/
structure NvmeState where
  mem : Memory
  transfers : List Transfer

def NvmeState.transfer (σ : NvmeState) (transfer : Transfer) : NvmeState where
  mem := scatter σ.mem transfer.place transfer.value transfer.length
  transfers := σ.transfers ++ [transfer]

/-- `nvme_io_submit_and_poll`, on the device's answer. -/
def nvmeIoSubmitAndPoll (device : NvmeDevice) (nsid opcode lba nlb buf : Nat) (σ : NvmeState) : Int × NvmeState :=
  let response := device σ.transfers.length (nvmeIoCommand opcode nsid lba nlb buf) σ.mem
  let σ := σ.transfer response.transfer
  match response.status with
  | none => (etimeout, σ)
  | some status => (if status = 0 then 0 else eio, σ)

/-- The loop of `nvme_disk_driver_read`. -/
def nvmeReadLoop (device : NvmeDevice) (nsid slba p : Nat) (σ : NvmeState) (remaining : Nat) : Int × NvmeState :=
  if remaining = 0 then (0, σ)
  else
    let nlb := min remaining 16
    let (rc, σ) := nvmeIoSubmitAndPoll device nsid nvmeOpcodeRead slba nlb p σ
    if rc < 0 then (rc, σ)
    else nvmeReadLoop device nsid (toWord (slba + nlb)) (toWord (p + nlb * nvmeSectorSize)) σ (remaining - nlb)
termination_by remaining

/-- `nvme_disk_driver_read`, on the hardware disk. -/
def nvmeDiskDriverRead (device : NvmeDevice) (nsid lba : Nat) (totalSectors : Int) (bufOut : Nat) (mem : Memory) :
    Int × NvmeState :=
  nvmeReadLoop device nsid lba bufOut ⟨mem, []⟩ totalSectors.toNat

end PeachOS
