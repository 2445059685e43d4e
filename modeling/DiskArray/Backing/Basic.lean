import DiskArray.Block

/-!
# What holds the blocks

The array keeps its blocks on a backing disk, which reads and writes whole blocks by their flat number
and may fail. A failed call leaves the blocks as they were.
-/

namespace DiskArray

/-- Why a backing disk refuses a call. -/
inductive DiskError where
  /-- The disk has no block of this number. -/
  | outOfRange (block : Nat)
  /-- The disk ends before the block does. -/
  | unexpectedEnd
  /-- The call was made to fail. -/
  | injected
deriving DecidableEq, Repr

def DiskError.message : DiskError → String
  | .outOfRange block => "block " ++ toString block ++ " out of range"
  | .unexpectedEnd => "failed to fill whole buffer"
  | .injected => "injected"

/-- A disk that holds blocks. Both calls also give the disk after the call. -/
class Backing (β : Type) where
  readBlock : β → Nat → Except DiskError Block × β
  writeBlock : β → Nat → Block → Except DiskError Unit × β

end DiskArray
