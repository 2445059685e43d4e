import DiskArray.Device.Command
import DiskArray.Device.Error
import DiskArray.Geometry

/-!
# Operation codes

An operation is a command with a disk and a block number, packed into one 32-bit code: the disk in the
lowest four bits, the block in the next eight, the command above. The fields cannot hold a disk or a
block that the array does not have, so a code decodes as soon as its command is known.
-/

namespace DiskArray

/-- A command with its two arguments. -/
structure Operation where
  command : Command
  disk : Fin diskCount
  block : Fin blocksPerDisk
deriving DecidableEq, Repr

namespace Operation

/-- The operation with these arguments, each cut to the bits of its field. -/
def of (command : Command) (disk block : Nat) : Operation :=
  ⟨command, Fin.ofNat diskCount disk, Fin.ofNat blocksPerDisk block⟩

/-- A command that needs no arguments. -/
def bare (command : Command) : Operation := of command 0 0

/-- The code of an operation. -/
def encode (op : Operation) : UInt32 :=
  UInt32.ofNat (op.command.code.val <<< 12 + op.block.val <<< 4 + op.disk)

/-- The operation with a code. -/
def decode (code : UInt32) : Except DeviceError Operation :=
  match Command.ofCode? (code.toNat >>> 12) with
  | some command => .ok (of command code.toNat (code.toNat >>> 4))
  | none => .error .badCommand

end Operation

end DiskArray
