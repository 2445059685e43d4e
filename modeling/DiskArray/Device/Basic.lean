import DiskArray.Backing.Basic
import DiskArray.Device.Operation
import DiskArray.Log
import DiskArray.Signature.Table

/-!
# The device

Sixteen disks behind one set of commands. The device remembers whether it is mounted, a write
permission of its own, and a cursor: the disk and the block that the next transfer goes to. A transfer
moves the cursor to the next block, which may be one past the last; a seek brings it back.

`Device.operate` carries out one code. It counts the command, also when that fails, and a command that
fails changes nothing else.
-/

namespace DiskArray

/-- The device over a backing disk. -/
structure Device (β : Type) where
  backing : β
  mounted : Bool := false
  writable : Bool := false
  disk : Fin diskCount := 0
  /-- The block on that disk, or one past the last. -/
  block : Nat := 0
  signatures : SignatureTable := .empty
  tally : Tally := .zero

/-- What an operation gives back: its result, the caller's buffer and the device afterwards, and the
records it made. -/
structure Reply (δ : Type) where
  result : Except DeviceError Unit
  buffer : Option Block
  device : δ
  log : List Log.Record

/-- Anything that carries out operation codes. -/
class Controller (δ : Type) where
  operate : δ → UInt32 → Option Block → Reply δ

namespace Device

variable {β : Type}

/-- A record of the device. -/
def record (level : Log.Level) (message : String) : Log.Record :=
  ⟨level, "jbod_mdadm::disk::jbod", message⟩

/-- The record of a call to the backing disk that failed. -/
def backingRecord (call : String) (id : Nat) (purpose : String) (e : DiskError) : Log.Record :=
  record .error
    ("backing " ++ call ++ " of block " ++ toString id ++ purpose ++ " failed: " ++ e.message)

/-- The block the cursor is on; past the last one there is none. -/
def cursor? (d : Device β) : Option BlockId :=
  if d.block < blocksPerDisk then some ⟨d.disk, d.block⟩ else none

/-- The reply of an operation that changes nothing. -/
def refuse (d : Device β) (buffer : Option Block) (e : DeviceError) (log : List Log.Record := []) :
    Reply (Device β) :=
  { result := .error e, buffer, device := d, log }

/-- The reply of an operation that succeeds. -/
def accept (d : Device β) (buffer : Option Block) : Reply (Device β) :=
  { result := .ok (), buffer, device := d, log := [] }

variable [Backing β]

/-- Reads the block under the cursor into the buffer and moves on. A read that fails is taken to leave the buffer as it
was; a file that ends within the block may in truth have filled the buffer's front, which no caller looks at then. -/
def readAtCursor (d : Device β) (buffer : Option Block) : Reply (Device β) :=
  match buffer, d.cursor? with
  | none, _ => d.refuse buffer .badRead
  | some _, none => d.refuse buffer .badBlockNumber
  | some _, some id =>
    match Backing.readBlock d.backing id.flat with
    | (.ok data, backing) => accept { d with backing, block := d.block + 1 } (some data)
    | (.error e, backing) =>
      refuse { d with backing } buffer .badRead [backingRecord "read" id.flat "" e]

/-- Writes the buffer to the block under the cursor and moves on. -/
def writeAtCursor (d : Device β) (buffer : Option Block) : Reply (Device β) :=
  match buffer, d.cursor? with
  | none, _ => d.refuse buffer .badWrite
  | some _, none => d.refuse buffer .badBlockNumber
  | some data, some id =>
    match Backing.writeBlock d.backing id.flat data with
    | (.ok _, backing) => accept { d with backing, block := d.block + 1 } buffer
    | (.error e, backing) =>
      refuse { d with backing } buffer .badWrite [backingRecord "write" id.flat "" e]

/-- Signs the block under the cursor, which stays where it is. -/
def signAtCursor (d : Device β) (buffer : Option Block) : Reply (Device β) :=
  match d.cursor? with
  | none => d.refuse buffer .badBlockNumber
  | some id =>
    match Backing.readBlock d.backing id.flat with
    | (.ok data, backing) =>
      let signatures := d.signatures.sign (UInt8.ofNat id.disk) (UInt8.ofNat id.block) data
      accept { d with backing, signatures } buffer
    | (.error e, backing) =>
      refuse { d with backing } buffer .badRead [backingRecord "read" id.flat " for signing" e]

/-- Carries out an operation. Only mounting is possible while the device is unmounted. -/
def execute (d : Device β) (op : Operation) (buffer : Option Block) : Reply (Device β) :=
  match op.command, d.mounted with
  | .mount, false => accept { d with mounted := true } buffer
  | .mount, true => d.refuse buffer .alreadyMounted
  | .unmount, true => accept { d with mounted := false } buffer
  | .unmount, false => d.refuse buffer .alreadyUnmounted
  | _, false => d.refuse buffer .unmounted
  | .seekToDisk, true => accept { d with disk := op.disk } buffer
  | .seekToBlock, true => accept { d with block := op.block } buffer
  | .readBlock, true => d.readAtCursor buffer
  | .writeBlock, true => d.writeAtCursor buffer
  | .signBlock, true => d.signAtCursor buffer
  | .writePermission, true =>
    if d.writable then d.refuse buffer .writePermissionAlreadyGranted
    else accept { d with writable := true } buffer
  | .revokeWritePermission, true =>
    if d.writable then accept { d with writable := false } buffer
    else d.refuse buffer .writePermissionAlreadyRevoked
  | .reserved, true => d.refuse buffer .badCommand

/-- The record of an operation that failed. -/
def failureRecord (op : Operation) (e : DeviceError) : Log.Record :=
  record .debug
    (op.command.name ++ " (disk " ++ toString op.disk.val ++ ", block " ++ toString op.block.val ++
      ") failed: " ++ e.message)

/-- Carries out an operation code. -/
def operate (d : Device β) (code : UInt32) (buffer : Option Block) : Reply (Device β) :=
  match Operation.decode code with
  | .error e => d.refuse buffer e
  | .ok op =>
    let reply := execute { d with tally := d.tally.bump op.command } op buffer
    match reply.result with
    | .ok _ => reply
    | .error e => { reply with log := reply.log ++ [failureRecord op e] }

instance : Controller (Device β) := ⟨operate⟩

end Device

end DiskArray
