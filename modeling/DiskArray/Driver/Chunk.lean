import DiskArray.Geometry

/-!
# Chunks

A transfer goes block by block. Its range is cut at the block boundaries into chunks, each inside one
block; only the first can start, and only the last can end, in the middle of a block.
-/

namespace DiskArray

/-- The part of a transfer that lies in one block. -/
structure Chunk where
  address : Nat
  size : Nat
deriving DecidableEq, Repr

namespace Chunk

/-- Where the chunk starts. -/
def location (c : Chunk) : Location := .ofAddress c.address

/-- The chunk is all of its block. -/
def isWhole (c : Chunk) : Bool := c.size == blockSize

end Chunk

/-- The chunks of `length` bytes from an address on. -/
def chunks (start length : Nat) : List Chunk :=
  if _h : length = 0 then []
  else
    let size := min length (blockSize - start % blockSize)
    ⟨start, size⟩ :: chunks (start + size) (length - size)
termination_by length
decreasing_by
  simp only [blockSize]
  omega

end DiskArray
