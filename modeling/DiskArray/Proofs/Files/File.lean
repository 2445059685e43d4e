import DiskArray.Files.File
import DiskArray.Proofs.Flat
import Mathlib.Tactic.SplitIfs

/-!
# The bytes of a file

A file is the row of its bytes: there are as many as its size says, they lie in its blocks one block after the other,
and every row of bytes is a file. Reading and writing blocks is reading and writing such a row, which grows as far as it
has to (`readBlock?_eq_some_iff`, `bytes_writeBlock`).
-/

namespace DiskArray.File

theorem length_bytes (f : File) : f.bytes.length = f.size := by
  have hcovers := f.covers
  rw [bytes, List.length_take, length_flatMap_of_length (n := 256) (fun b => Vector.length_toList),
    Array.length_toList]
  omega

theorem getElem?_bytes (f : File) {i : Nat} (hi : i < f.size) : f.bytes[i]? = some (f.byte i) := by
  have hmod : i % 256 < 256 := Nat.mod_lt i (by decide)
  have hdiv : i / 256 < f.blocks.size := by
    rw [f.covers]
    omega
  have hrow := getElem?_flatMap (g := Vector.toList) (fun b : Block => Vector.length_toList) f.blocks.toList hdiv hmod
  rw [Nat.div_add_mod] at hrow
  rw [bytes, List.getElem?_take_of_lt hi, hrow, Array.getElem_toList, Vector.getElem?_toList,
    Vector.getElem?_eq_getElem hmod, byte, Array.getElem?_eq_getElem hdiv]
  rfl

/-- The block with a number; past the end of the file there are zeros. -/
def blockAt (f : File) (i : Nat) : Block := f.blocks[i]?.getD Block.zero

theorem byte_eq (f : File) : f.byte = FlatArray.ofBlocks f.blockAt := by
  funext a
  have hmod := mod_blockSize_lt a
  rw [FlatArray.ofBlocks_eq _ hmod, byte]
  split
  · rename_i b hb
    have hb : f.blocks[a / blockSize]? = some b := hb
    simp only [blockAt, hb]
    rfl
  · rename_i hnone
    have hnone : f.blocks[a / blockSize]? = none := hnone
    simp only [blockAt, hnone, Option.getD_none, Block.getElem_zero]

theorem take_bytes (f : File) {n : Nat} (hn : n ≤ f.size) : f.bytes.take n = FlatArray.slice f.byte 0 n := by
  apply List.ext_getElem?
  intro i
  by_cases hi : i < n
  · rw [List.getElem?_take_of_lt hi, f.getElem?_bytes (Nat.lt_of_lt_of_le hi hn), FlatArray.getElem?_slice hi,
      Nat.zero_add]
  · have hlength : (f.bytes.take n).length = n := by rw [List.length_take, f.length_bytes, Nat.min_eq_left hn]
    rw [List.getElem?_eq_none (by omega), List.getElem?_eq_none (by rw [FlatArray.length_slice]; omega)]

theorem bytes_eq_slice (f : File) : f.bytes = FlatArray.slice f.byte 0 f.size := by
  rw [← f.take_bytes (Nat.le_refl _), List.take_of_length_le (Nat.le_of_eq f.length_bytes)]

theorem byte_of_le (f : File) {a : Nat} (h : f.size ≤ a) : f.byte a = 0 := by
  have hmod : a % 256 < 256 := Nat.mod_lt a (by decide)
  rw [byte]
  split
  · rename_i b hb
    obtain ⟨hlt, rfl⟩ := Array.getElem?_eq_some_iff.1 hb
    exact f.clear (a / 256) hlt (a % 256) hmod (by rwa [Nat.div_add_mod])
  · rfl

theorem getD_bytes (f : File) (a : Nat) : f.bytes[a]?.getD 0 = f.byte a := by
  by_cases ha : a < f.size
  · rw [f.getElem?_bytes ha, Option.getD_some]
  · rw [List.getElem?_eq_none (by rw [f.length_bytes]; exact Nat.le_of_not_lt ha), Option.getD_none,
      f.byte_of_le (Nat.le_of_not_lt ha)]

theorem bytes_ofBytes (bytes : List UInt8) : (ofBytes bytes).bytes = bytes := by
  have hsize : (ofBytes bytes).size = bytes.length := rfl
  apply List.ext_getElem?
  intro i
  by_cases hi : i < bytes.length
  · have hmod : i % 256 < 256 := Nat.mod_lt i (by decide)
    have hblock : i / 256 < (toBlocks bytes).length := by
      rw [length_toBlocks]
      omega
    have hbyte := getElem_toBlocks bytes (i / 256) hblock (i % 256) hmod
    rw [Nat.div_add_mod, List.getElem?_eq_getElem hi, Option.getD_some] at hbyte
    have hblocks : (ofBytes bytes).blocks[i / 256]? = some (toBlocks bytes)[i / 256] :=
      List.getElem?_toArray.trans (List.getElem?_eq_getElem hblock)
    rw [getElem?_bytes _ hi, List.getElem?_eq_getElem hi, ← hbyte, byte, hblocks]
    rfl
  · rw [List.getElem?_eq_none (by rw [length_bytes]; omega), List.getElem?_eq_none (by omega)]

/-! ### Whole blocks -/

/-- A block can be read exactly if all of it lies in the file. -/
theorem readBlock?_eq_some_iff {f : File} {i : Nat} {b : Block} :
    f.readBlock? i = some b ↔ 256 * (i + 1) ≤ f.bytes.length ∧ b.toList = (f.bytes.drop (256 * i)).take 256 := by
  rw [f.length_bytes, readBlock?]
  by_cases hsize : 256 * (i + 1) ≤ f.size
  · have hi : i < f.blocks.size := by
      rw [f.covers]
      omega
    have hslice : (f.bytes.drop (256 * i)).take 256 = f.blocks[i].toList := by
      have hblock := FlatArray.toList_eq_slice f.blockAt i
      rw [blockAt, Array.getElem?_eq_getElem hi, Option.getD_some] at hblock
      rw [f.bytes_eq_slice, FlatArray.drop_slice, FlatArray.take_slice (by omega), Nat.zero_add, hblock, byte_eq]
    rw [if_pos hsize, Array.getElem?_eq_getElem hi, hslice, Option.some_inj, Vector.toList_inj]
    exact ⟨fun h => ⟨hsize, h.symm⟩, fun h => h.2.symm⟩
  · rw [if_neg hsize]
    exact ⟨nofun, fun h => absurd h.1 hsize⟩

theorem blockAt_writeBlock (f : File) (i : Nat) (b : Block) :
    (f.writeBlock i b).blockAt = Function.update f.blockAt i b := by
  have hblocks : (f.writeBlock i b).blocks =
      (f.blocks ++ Array.replicate (i + 1 - f.blocks.size) Block.zero).setIfInBounds i b := rfl
  funext j
  rw [blockAt, hblocks, Array.getElem?_setIfInBounds]
  by_cases hj : j = i
  · subst hj
    rw [if_pos rfl, if_pos (by simp; omega), Function.update_self, Option.getD_some]
  · rw [if_neg (Ne.symm hj), Function.update_of_ne hj, blockAt, Array.getElem?_append]
    split_ifs with hlt
    · rfl
    · -- the block is past the end: it was none, or it lies in the gap that is filled
      rw [Array.getElem?_replicate, Array.getElem?_eq_none (Nat.le_of_not_lt hlt)]
      split_ifs <;> rfl

/-- A block that is written lies in the file afterwards, which is as long as that takes. A gap before it is filled with
zeros, and no other byte changes. -/
theorem bytes_writeBlock (f : File) (i : Nat) (b : Block) :
    (f.writeBlock i b).bytes.length = max f.bytes.length (256 * (i + 1)) ∧
      ((f.writeBlock i b).bytes.drop (256 * i)).take 256 = b.toList ∧
      ∀ a < (f.writeBlock i b).bytes.length, a < 256 * i ∨ 256 * (i + 1) ≤ a →
        (f.writeBlock i b).bytes[a]? = some (f.bytes[a]?.getD 0) := by
  have hsize : (f.writeBlock i b).size = max f.size (256 * (i + 1)) := rfl
  have hbyte : (f.writeBlock i b).byte = FlatArray.ofBlocks (Function.update f.blockAt i b) := by
    rw [byte_eq, blockAt_writeBlock]
  obtain ⟨hblock, hother⟩ := FlatArray.ofBlocks_update_block f.blockAt i b
  rw [length_bytes, length_bytes]
  refine ⟨hsize, ?_, fun a ha hout => ?_⟩
  · rw [bytes_eq_slice, FlatArray.drop_slice, FlatArray.take_slice (by omega), Nat.zero_add, hbyte]
    exact hblock
  · have hne : a / 256 ≠ i := by omega
    rw [getElem?_bytes _ ha, getD_bytes, hbyte, hother a hne, byte_eq]

/-! ### Growing -/

theorem byte_resize (f : File) {n a : Nat} (ha : a < n) : (f.resize n).byte a = f.byte a := by
  have hmod : a % 256 < 256 := Nat.mod_lt a (by decide)
  have hblocks : (f.resize n).blocks = (f.blocks.extract 0 ((n + 255) / 256) ++
      Array.replicate ((n + 255) / 256 - f.blocks.size) Block.zero).modify (n / 256) (·.clearFrom (n % 256)) := rfl
  -- the block is kept, or it is one of the zeros that fill the file up
  have hcovered : (f.blocks.extract 0 ((n + 255) / 256) ++
      Array.replicate ((n + 255) / 256 - f.blocks.size) Block.zero)[a / 256]? = some (f.blockAt (a / 256)) := by
    have hlt : a / 256 < (n + 255) / 256 := by omega
    rw [Array.getElem?_append, Array.size_extract, Nat.sub_zero, Array.getElem?_extract, Array.getElem?_replicate,
      Nat.zero_add, blockAt]
    by_cases hold : a / 256 < f.blocks.size
    · rw [if_pos (by omega), if_pos (by omega), Array.getElem?_eq_getElem hold, Option.getD_some]
    · rw [if_neg (by omega), if_pos (by omega), Array.getElem?_eq_none (Nat.le_of_not_lt hold), Option.getD_none]
  have hlast : (f.resize n).blockAt (a / 256) =
      if n / 256 = a / 256 then (f.blockAt (a / 256)).clearFrom (n % 256) else f.blockAt (a / 256) := by
    rw [blockAt, hblocks, Array.getElem?_modify, hcovered]
    split_ifs <;> rfl
  have hbyte : ((f.resize n).blockAt (a / 256))[a % 256] = (f.blockAt (a / 256))[a % 256] := by
    rw [hlast]
    split_ifs
    · exact (Block.getElem_clearFrom _ _ _ hmod).trans (if_pos (by omega))
    · rfl
  rw [byte_eq, byte_eq, FlatArray.ofBlocks_eq _ hmod, FlatArray.ofBlocks_eq _ hmod]
  exact hbyte

theorem bytes_resize (f : File) {n : Nat} (h : f.size ≤ n) :
    (f.resize n).bytes = f.bytes ++ List.replicate (n - f.size) 0 := by
  have hsize : (f.resize n).size = n := rfl
  apply List.ext_getElem?
  intro a
  by_cases ha : a < n
  · rw [getElem?_bytes _ ha, f.byte_resize ha]
    by_cases hold : a < f.size
    · rw [List.getElem?_append_left (by rwa [length_bytes]), f.getElem?_bytes hold]
    · rw [List.getElem?_append_right (by rw [length_bytes]; omega), length_bytes, List.getElem?_replicate,
        if_pos (by omega), f.byte_of_le (Nat.le_of_not_lt hold)]
  · rw [List.getElem?_eq_none (by rw [length_bytes]; omega), List.getElem?_eq_none]
    rw [List.length_append, length_bytes, List.length_replicate]
    omega

end DiskArray.File
