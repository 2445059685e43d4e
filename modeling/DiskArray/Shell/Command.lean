import DiskArray.Cache.Basic

/-!
# Shell commands

What a user can ask for. The arguments are as wide as their fields: addresses and lengths have 32 bits,
disks, blocks and fill bytes have 8.
-/

namespace DiskArray.Shell

/-- What a cache command asks for. -/
inductive CacheCommand where
  | create (capacity : UInt64)
  | resize (capacity : UInt64)
  | destroy
  | stats
deriving DecidableEq, Repr

/-- A command of the shell. -/
inductive Command where
  | help
  | mount
  | unmount
  | grant
  | revoke
  | status
  | read (address length : UInt32)
  | write (address : UInt32) (data : List UInt8)
  | fill (address length : UInt32) (byte : UInt8)
  | sign (disk block : UInt8)
  | cache (command : CacheCommand)
  | format
  | exit
deriving DecidableEq, Repr

end DiskArray.Shell
