/-
**Files: `fs/file.c` and `fs/pparser.c`, as far as `fopen`.**

* `pathparserParse` splits a path into a drive and its parts;
* `fileNewDescriptor` takes a free slot of the table of descriptors;
* `fopen` opens a file with the callbacks of a filesystem, of which the calls are recorded;
* `fat16Open` is the `open` callback of `fat16.c`.

The objects of the heap are known by their addresses. Which allocations of the parser succeed is a parameter, and the
address that `kzalloc` returns for a descriptor. `none` is for a null pointer that is followed.
-/

import PeachOS.Fat16.Model
import PeachOS.Fs.Errors
import PeachOS.Process.Model

namespace PeachOS

/-- `-ERDONLY`. -/
def erdonly : Int := -6

/-- `FILE_MODE`. -/
inductive FileMode where
  | read
  | write
  | append
  | invalid
deriving DecidableEq

/-- `file_get_mode_by_string`. -/
def fileGetModeByString (str : CString) : FileMode :=
  match str.bytes.headD 0x00#8 with
  | 0x72#8 => .read
  | 0x77#8 => .write
  | 0x61#8 => .append
  | _ => .invalid

/-! ### Paths -/

/-- `isdigit`. -/
def isdigit (c : Byte) : Bool := 48 ≤ c.toNat ∧ c.toNat ≤ 57

/-- `tonumericdigit`, of a digit. -/
def tonumericdigit (c : Byte) : Nat := c.toNat - 48

/-- `pathparser_path_valid_format`. -/
def pathparserPathValidFormat (filename : CString) : Bool :=
  3 ≤ min filename.bytes.length peachosMaxPath ∧
    (isdigit (filename.bytes.getD 0 0x00#8) ∨ filename.bytes.getD 0 0x00#8 = 0x40#8) ∧
    filename.bytes.getD 1 0x00#8 = 0x3A#8 ∧ filename.bytes.getD 2 0x00#8 = 0x2F#8

/-- `pathparser_get_drive_by_path`: the drive. `primaryFsDisk` is the id of the disk of the primary filesystem. -/
def pathparserGetDriveByPath (primaryFsDisk : Option Nat) (path : CString) : Option Nat :=
  if !pathparserPathValidFormat path then none
  else if path.bytes.getD 0 0x00#8 = 0x40#8 then primaryFsDisk
  else some (tonumericdigit (path.bytes.getD 0 0x00#8))

/-- The bytes in front of the next slash. -/
def CString.part (path : CString) : CString where
  bytes := path.bytes.takeWhile fun byte => byte ≠ 0x2F#8
  noZero isByte := path.noZero ((List.takeWhile_prefix _).subset isByte)

/-- Some bytes less. -/
def CString.drop (path : CString) (count : Nat) : CString where
  bytes := path.bytes.drop count
  noZero isByte := path.noZero (List.mem_of_mem_drop isByte)

/-- The parts of `pathparser_parse`, with the number of the next allocation. It ends at a part that is empty or cannot
be allocated. -/
def pathparserParseParts (memory : Nat → Bool) : (fuel : Nat) → (allocation : Nat) → (path : CString) → List CString
  | 0, _, _ => []
  | fuel + 1, allocation, path =>
      if !memory allocation then []
      else if path.part.bytes = [] then []
      else if !memory (allocation + 1) then []
      else path.part :: pathparserParseParts memory fuel (allocation + 2) (path.drop (path.part.bytes.length + 1))

/-- `struct path_root`. -/
structure PathRoot where
  driveNo : Nat
  first : List CString

/-- `pathparser_parse`. A path has no more parts than bytes. -/
def pathparserParse (primaryFsDisk : Option Nat) (memory : Nat → Bool) (path : CString) : Option PathRoot :=
  if path.bytes.length > peachosMaxPath then none
  else
    match pathparserGetDriveByPath primaryFsDisk path with
    | none => none
    | some driveNo =>
        if !memory 0 then none
        else
          let parts := pathparserParseParts memory path.bytes.length 1 (path.drop 3)
          if parts = [] then none else some { driveNo := driveNo, first := parts }

/-! ### Descriptors -/

/-- `struct filesystem`, with the callback that `fopen` calls for a result. -/
structure Filesystem where
  openFunction : (disk : Nat) → (path : CString) → (nextParts : List CString) → FileMode → ErrorReturn

/-- `struct file_descriptor`. The filesystem is that of the disk. -/
structure FileDescriptor where
  index : Nat
  privateData : Nat
  disk : Nat

/-- The disks with their filesystems, the table of descriptors, and the descriptors at their addresses. -/
structure FileSystemState where
  disks : List (Option Filesystem)
  primaryFsDisk : Option Nat
  fileDescriptors : FileDescriptors
  descriptor : Nat → FileDescriptor

/-- What `fopen` calls. -/
inductive FileEvent where
  | opened (returned : Nat)
  | newDescriptor
  | closed (descriptorPrivateData : Nat)
deriving DecidableEq

/-- The result of `fopen`, what it has called, and the state then. -/
structure FileOpen where
  res : Int
  events : List FileEvent
  state : FileSystemState

/-- The first free slot of the table. -/
def freeSlot (fileDescriptors : FileDescriptors) : Option Nat :=
  (List.range peachosMaxFileDescriptors.toNat).find? fun i => fileDescriptors i = 0

/-- `file_new_descriptor`: an error, or the address of the descriptor, which is not checked. -/
def fileNewDescriptor (s : FileSystemState) (allocated : Nat) : Option (Except Int (Nat × FileSystemState)) :=
  match freeSlot s.fileDescriptors with
  | none => some (.error enomem)
  | some i =>
      if allocated = 0 then none
      else
        some (.ok (allocated,
          { s with
            fileDescriptors := fun j => if j = i then allocated else s.fileDescriptors j
            descriptor := fun address => if address = allocated then ⟨i + 1, 0, 0⟩ else s.descriptor address }))

/-- The end of `fopen`: on an error, what the `open` callback has returned is closed if it is not null. -/
def fopenOut (res : Int) (descriptorPrivateData : Nat) (events : List FileEvent) (s : FileSystemState) : FileOpen :=
  if res < 0 then
    { res := 0
      events := events ++ if descriptorPrivateData ≠ 0 then [.closed descriptorPrivateData] else []
      state := s }
  else { res := res, events := events, state := s }

/-- `fopen`. Before the `open` callback is called, there is nothing to close. -/
def fopen (s : FileSystemState) (memory : Nat → Bool) (allocated : Nat) (filename modeStr : CString) : Option FileOpen :=
  match pathparserParse s.primaryFsDisk memory filename with
  | none => some (fopenOut einvarg 0 [] s)
  | some root =>
      match root.first with
      | [] => some (fopenOut einvarg 0 [] s)
      | path :: nextParts =>
          match s.disks[root.driveNo]?.join with
          | none => some (fopenOut eio 0 [] s)
          | some filesystem =>
              let mode := fileGetModeByString modeStr
              if mode = .invalid then some (fopenOut einvarg 0 [] s)
              else
                let descriptorPrivateData := (filesystem.openFunction root.driveNo path nextParts mode).encode
                if iserr descriptorPrivateData then
                  some (fopenOut (errorI descriptorPrivateData) descriptorPrivateData [.opened descriptorPrivateData] s)
                else
                  match fileNewDescriptor s allocated with
                  | none => none
                  | some (.error res) =>
                      some (fopenOut res descriptorPrivateData [.opened descriptorPrivateData, .newDescriptor] s)
                  | some (.ok (desc, s')) =>
                      some (fopenOut (s'.descriptor desc).index descriptorPrivateData
                        [.opened descriptorPrivateData, .newDescriptor]
                        { s' with
                          descriptor := fun address =>
                            if address = desc then ⟨(s'.descriptor desc).index, descriptorPrivateData, root.driveNo⟩
                            else s'.descriptor address })

/-! ### FAT16 -/

/-- `fat16_open`, with the address that `kzalloc` returns for its descriptor. -/
def fat16Open (v : FatVolume) (memory : Nat → FatMemory) (descriptor : Nat) (path : CString) (nextParts : List CString)
    (mode : FileMode) : Option ErrorReturn :=
  if mode ≠ .read then some (.error erdonly)
  else if descriptor = 0 then some (.error enomem)
  else
    match (fat16GetDirectoryEntry v memory path nextParts).2 with
    | none => none
    | some none => some (.error eio)
    | some (some _) => some (.pointer descriptor)

end PeachOS
