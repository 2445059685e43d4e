import DiskArray.Backing.Basic

/-!
# Disks in memory

All blocks of the array, zero at first. The bytes of a block are found by its number, with 64-bit words for their places,
and a call is refused if they do not lie inside the disk.

For numbers near the end of the words the places do not fit: a program that is built with checks stops there, and one
without them goes on with what is left of the number in 64 bits (`Overflow`). Calls have no answer where the program
stops. The device asks for blocks of the array alone, for which no call stops.
-/

namespace DiskArray

/-- What becomes of a number that does not fit into 64 bits. -/
inductive Overflow where
  /-- The program stops. -/
  | stops
  /-- The number is cut to its lowest 64 bits. -/
  | wraps
deriving DecidableEq, Repr

/-- A number as a word of 64 bits. -/
def Overflow.word? (mode : Overflow) (n : Nat) : Option Nat :=
  if n < UInt64.size then some n
  else
    match mode with
    | .stops => none
    | .wraps => some (n % UInt64.size)

/-- The blocks, in the order of their flat numbers. -/
structure MemoryDisk where
  blocks : Vector Block blockCount

namespace MemoryDisk

/-- A disk of zeros. -/
def blank : MemoryDisk := ⟨Vector.replicate blockCount Block.zero⟩

instance : Inhabited MemoryDisk := ⟨blank⟩

/-- The block whose bytes lie between two places; `i` is the number it was asked for by. -/
def blockBetween? (i start stop : Nat) : Option (Except DiskError (Fin blockCount)) :=
  if totalSize < stop then some (.error (.outOfRange i))
  else if h : start < totalSize then
    some (.ok ⟨start / blockSize, by
      simp only [totalSize, blockSize, blockCount] at h ⊢
      omega⟩)
  -- only an end that was cut lies inside the disk without its start; the program stops, for it lies before its start
  else none

/-- The block that a number stands for. -/
def locate? (mode : Overflow) (i : Nat) : Option (Except DiskError (Fin blockCount)) := do
  let start ← mode.word? (i * blockSize)
  let stop ← mode.word? (start + blockSize)
  blockBetween? i start stop

/-- Reads a block. -/
def readBlock? (mode : Overflow) (m : MemoryDisk) (i : Nat) : Option (Except DiskError Block) :=
  (locate? mode i).map fun found => found.map fun k => m.blocks[k]

/-- Reads a block into a caller's buffer, which is kept if the disk refuses. -/
def readInto? (mode : Overflow) (m : MemoryDisk) (i : Nat) (buffer : Block) : Option (Except DiskError Unit × Block) :=
  (m.readBlock? mode i).map fun answer =>
    match answer with
    | .ok b => (.ok (), b)
    | .error e => (.error e, buffer)

/-- Writes a block; a disk that refuses is as it was. -/
def writeBlock? (mode : Overflow) (m : MemoryDisk) (i : Nat) (b : Block) :
    Option (Except DiskError Unit × MemoryDisk) :=
  (locate? mode i).map fun found =>
    match found with
    | .ok k => (.ok (), ⟨m.blocks.set k b⟩)
    | .error e => (.error e, m)

/-- The byte at a linear address, zero past the end. -/
def byte (m : MemoryDisk) (address : Nat) : UInt8 :=
  match m.blocks[address / blockSize]? with
  | some b => b.get ⟨address % blockSize, Nat.mod_lt _ (by decide)⟩
  | none => 0

/-- Bytes from an address on. -/
def bytes (m : MemoryDisk) (address size : Nat) : List UInt8 :=
  (List.range size).map fun i => m.byte (address + i)

instance : Backing MemoryDisk where
  readBlock m i := ((m.readBlock? .stops i).getD (.error (.outOfRange i)), m)
  writeBlock m i b := (m.writeBlock? .stops i b).getD (.error (.outOfRange i), m)

end MemoryDisk

end DiskArray
