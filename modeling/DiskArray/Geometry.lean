/-!
# The shape of the array

Sixteen disks of 256 blocks of 256 bytes, seen as one linear address space of 1 MiB. A byte's address
splits into a disk, a block of that disk and an offset in that block (`Location.ofAddress`), and the
blocks of all disks are numbered through (`BlockId.flat`).
-/

namespace DiskArray

/-- Number of disks. -/
abbrev diskCount : Nat := 16

/-- Blocks on one disk. -/
abbrev blocksPerDisk : Nat := 256

/-- Bytes in one block, the unit in which the device reads and writes. -/
abbrev blockSize : Nat := 256

/-- Bytes on one disk. -/
abbrev diskSize : Nat := 65536

/-- Blocks in the whole array. -/
abbrev blockCount : Nat := 4096

/-- Bytes in the whole array. -/
abbrev totalSize : Nat := 1048576

/-- Longest transfer of one request, in bytes. -/
abbrev maxTransfer : Nat := 1024

-- There is a disk and a block, so that every number can be cut to the number of one.
instance : @NeZero Nat ⟨0⟩ diskCount := ⟨Nat.succ_ne_zero _⟩

instance : @NeZero Nat ⟨0⟩ blocksPerDisk := ⟨Nat.succ_ne_zero _⟩

/-- A block, named by its disk and its number on that disk. -/
structure BlockId where
  disk : Nat
  block : Nat
deriving DecidableEq, Repr, Inhabited

/-- The block's number when the blocks of all disks are counted through. -/
def BlockId.flat (id : BlockId) : Nat := id.disk * blocksPerDisk + id.block

/-- A byte: the block that holds it and its place in that block. -/
structure Location where
  disk : Nat
  block : Nat
  offset : Nat
deriving DecidableEq, Repr, Inhabited

namespace Location

/-- Where the byte at a linear address lies. -/
def ofAddress (address : Nat) : Location :=
  { disk := address / diskSize
    block := address % diskSize / blockSize
    offset := address % blockSize }

/-- The block that holds the byte. -/
def blockId (loc : Location) : BlockId := ⟨loc.disk, loc.block⟩

end Location

end DiskArray
