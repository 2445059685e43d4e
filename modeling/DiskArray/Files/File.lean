import DiskArray.Block

/-!
# Files as growable byte arrays

A file is a length and the blocks that cover it. The bytes of the last block that lie past the end are
zero, so that a file that grows shows zeros there; this is part of the type. Blocks are read and
written whole: a block can be read if it lies inside the file, and a write behind the end fills the gap
with zeros.
-/

namespace DiskArray

/-- A file's content. -/
structure File where
  size : Nat
  blocks : Array Block
  /-- Just enough blocks to hold every byte. -/
  covers : blocks.size = (size + 255) / 256
  /-- Zeros past the end. -/
  clear : ∀ i (hi : i < blocks.size) j (hj : j < 256), size ≤ 256 * i + j → (blocks[i])[j] = 0

namespace File

/-- The file of no bytes. -/
def empty : File :=
  { size := 0, blocks := #[], covers := rfl, clear := fun _ hi => absurd hi (Nat.not_lt_zero _) }

instance : Inhabited File := ⟨empty⟩

/-- The byte at a position, zero past the end. -/
def byte (f : File) (i : Nat) : UInt8 :=
  match f.blocks[i / 256]? with
  | some b => b.get ⟨i % 256, Nat.mod_lt _ (by decide)⟩
  | none => 0

/-- All bytes, in order. -/
def bytes (f : File) : List UInt8 := (f.blocks.toList.flatMap (·.toList)).take f.size

/-! ### Whole blocks -/

/-- The block with a number, if all of it lies inside the file. -/
def readBlock? (f : File) (i : Nat) : Option Block :=
  if 256 * (i + 1) ≤ f.size then f.blocks[i]? else none

/-- The file with a block replaced; it grows as far as that takes. -/
def writeBlock (f : File) (i : Nat) (b : Block) : File where
  size := max f.size (256 * (i + 1))
  blocks := (f.blocks ++ Array.replicate (i + 1 - f.blocks.size) Block.zero).setIfInBounds i b
  covers := by
    have := f.covers
    simp only [Array.size_setIfInBounds, Array.size_append, Array.size_replicate]
    omega
  clear := by
    intro k hk j hj h
    have hik : i ≠ k := by omega
    rw [Array.getElem_setIfInBounds (by simpa using hk), if_neg hik, Array.getElem_append]
    split
    · exact f.clear _ _ _ hj (by omega)
    · simp

/-! ### Length -/

/-- The file cut, or grown with zeros, to `n` bytes. -/
def resize (f : File) (n : Nat) : File where
  size := n
  blocks :=
    (f.blocks.extract 0 ((n + 255) / 256) ++
      Array.replicate ((n + 255) / 256 - f.blocks.size) Block.zero).modify (n / 256) (·.clearFrom (n % 256))
  covers := by
    simp only [Array.size_modify, Array.size_append, Array.size_extract, Array.size_replicate]
    omega
  clear := by
    intro i hi j hj h
    simp only [Array.size_modify, Array.size_append, Array.size_extract, Array.size_replicate] at hi
    have hin : n / 256 = i := by omega
    rw [Array.getElem_modify, if_pos hin, Block.getElem_clearFrom, if_neg (by omega)]

/-! ### Bytes to files -/

/-- Bytes in blocks, the last one filled up with zeros. -/
def toBlocks (bytes : List UInt8) : List Block :=
  if _h : bytes = [] then []
  else Block.ofBytes (bytes.take 256) :: toBlocks (bytes.drop 256)
termination_by bytes.length
decreasing_by
  have := List.length_pos_iff.2 _h
  simp only [List.length_drop]
  omega

theorem length_toBlocks (bytes : List UInt8) : (toBlocks bytes).length = (bytes.length + 255) / 256 := by
  fun_induction toBlocks bytes with
  | case1 => rfl
  | case2 bytes h ih =>
    have := List.length_pos_iff.2 h
    simp only [List.length_cons, ih, List.length_drop]
    omega

theorem getElem_toBlocks (bytes : List UInt8) (i : Nat) (hi : i < (toBlocks bytes).length)
    (j : Nat) (hj : j < 256) : ((toBlocks bytes)[i])[j] = (bytes[256 * i + j]?).getD 0 := by
  fun_induction toBlocks bytes generalizing i with
  | case1 => simp at hi
  | case2 bytes h ih =>
    cases i with
    | zero =>
      simp only [List.getElem_cons_zero, Block.getElem_ofBytes]
      rw [List.getElem?_take_of_lt hj]
      simp
    | succ i =>
      simp only [List.getElem_cons_succ]
      rw [ih]
      rw [List.getElem?_drop]
      congr 2
      omega

/-- The file that holds these bytes. -/
def ofBytes (bytes : List UInt8) : File where
  size := bytes.length
  blocks := (toBlocks bytes).toArray
  covers := by simp [length_toBlocks]
  clear := by
    intro i hi j hj h
    simp only [List.getElem_toArray]
    rw [getElem_toBlocks _ _ _ _ hj, List.getElem?_eq_none h]
    rfl

end File

end DiskArray
