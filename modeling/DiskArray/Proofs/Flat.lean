import DiskArray.Block
import Mathlib.Logic.Function.Basic

/-!
# Flat arrays

The blocks of an array as one row of bytes (`FlatArray.ofBlocks`), with the two operations that a transfer is to
have: taking bytes from an address on and laying bytes over. Both go chunk by chunk, and inside one block they
are the operations on blocks (`slice_ofBlocks`, `ofBlocks_update`). Parts of one length that are put end to end are
found again by their numbers (`take_drop_flatMap`).
-/

namespace DiskArray

/-! ### Rows of equal parts -/

section Rows
variable {α β : Type} {g : α → List β} {n : Nat}

theorem length_flatMap_of_length (hg : ∀ a, (g a).length = n) (l : List α) :
    (l.flatMap g).length = n * l.length := by
  induction l with
  | nil => rfl
  | cons a l ih => rw [List.flatMap_cons, List.length_append, hg, ih, List.length_cons, Nat.mul_succ, Nat.add_comm]

/-- Of parts of one length that are put end to end, each is found at its place. -/
theorem take_drop_flatMap (hg : ∀ a, (g a).length = n) (l : List α) (i : Nat) (hi : i < l.length) :
    ((l.flatMap g).drop (n * i)).take n = g l[i] := by
  induction l generalizing i with
  | nil => exact absurd hi (Nat.not_lt_zero i)
  | cons a l ih =>
    rw [List.flatMap_cons]
    cases i with
    | zero => rw [Nat.mul_zero, List.drop_zero, List.take_left' (hg a), List.getElem_cons_zero]
    | succ i =>
      have hlength : n * (i + 1) = (g a).length + n * i := by rw [hg, Nat.mul_succ, Nat.add_comm]
      rw [hlength, List.drop_length_add_append, List.getElem_cons_succ]
      exact ih i (Nat.lt_of_succ_lt_succ hi)

theorem getElem?_flatMap (hg : ∀ a, (g a).length = n) (l : List α) {i r : Nat} (hi : i < l.length) (hr : r < n) :
    (l.flatMap g)[n * i + r]? = (g l[i])[r]? := by
  rw [← take_drop_flatMap hg l i hi, List.getElem?_take_of_lt hr, List.getElem?_drop]

end Rows

theorem mod_blockSize_lt (a : Nat) : a % blockSize < blockSize := Nat.mod_lt a (by decide)

/-- The bytes of an array, by their addresses. -/
abbrev FlatArray := Nat → UInt8

namespace FlatArray

/-- The array of zeros. -/
def zero : FlatArray := fun _ => 0

/-- The bytes from an address on. -/
def slice (m : FlatArray) (start size : Nat) : List UInt8 := (List.range size).map fun i => m (start + i)

/-- The array with bytes laid over it from an address on. -/
def overlay (m : FlatArray) (start : Nat) (data : List UInt8) : FlatArray := fun a =>
  if start ≤ a then data[a - start]?.getD (m a) else m a

/-- The bytes of the blocks, one block after the other. -/
def ofBlocks (blocks : Nat → Block) : FlatArray := fun a =>
  (blocks (a / blockSize)).get ⟨a % blockSize, mod_blockSize_lt a⟩

variable {m : FlatArray} {blocks : Nat → Block} {start size a : Nat} {data : List UInt8}

theorem ofBlocks_eq (blocks : Nat → Block) {a : Nat} (h : a % blockSize < blockSize) :
    ofBlocks blocks a = (blocks (a / blockSize))[a % blockSize] := rfl

@[simp] theorem length_slice : (m.slice start size).length = size := by simp [slice]

theorem slice_add (n k : Nat) : m.slice start (n + k) = m.slice start n ++ m.slice (start + n) k := by
  simp only [slice, List.range_add, List.map_append, List.map_map]
  congr 2
  funext i
  simp only [Function.comp_apply, Nat.add_assoc]

theorem getElem?_slice {i : Nat} (h : i < size) : (m.slice start size)[i]? = some (m (start + i)) := by
  rw [slice, List.getElem?_map, List.getElem?_range h, Option.map_some]

theorem drop_slice (n : Nat) : (m.slice start size).drop n = m.slice (start + n) (size - n) := by
  rcases Nat.le_total n size with hle | hle
  · obtain ⟨k, rfl⟩ := Nat.exists_eq_add_of_le hle
    rw [slice_add, List.drop_left' length_slice, Nat.add_sub_cancel_left]
  · rw [List.drop_eq_nil_of_le (by rwa [length_slice]), Nat.sub_eq_zero_of_le hle]
    rfl

theorem take_slice {n : Nat} (h : n ≤ size) : (m.slice start size).take n = m.slice start n := by
  obtain ⟨k, rfl⟩ := Nat.exists_eq_add_of_le h
  rw [slice_add, List.take_left' length_slice]

theorem slice_inj {m' : FlatArray} :
    m.slice start size = m'.slice start size ↔ ∀ i < size, m (start + i) = m' (start + i) := by
  simp only [slice, List.map_inj_left, List.mem_range]

@[simp] theorem overlay_nil : m.overlay start [] = m := by
  funext a
  simp [overlay]

theorem overlay_append (first rest : List UInt8) :
    m.overlay start (first ++ rest) = (m.overlay start first).overlay (start + first.length) rest := by
  funext a
  simp only [overlay]
  by_cases hstart : start ≤ a
  · rw [if_pos hstart, if_pos hstart]
    by_cases hfirst : a - start < first.length
    · rw [List.getElem?_append_left hfirst, if_neg (by omega)]
    · rw [List.getElem?_append_right (by omega), if_pos (by omega), List.getElem?_eq_none (l := first) (by omega),
        Nat.sub_sub, Option.getD_none]
  · rw [if_neg hstart, if_neg hstart, if_neg (by omega)]

/-! ### Inside one block -/

theorem slice_ofBlocks (blocks : Nat → Block) {start size : Nat} (h : start % blockSize + size ≤ blockSize) :
    (blocks (start / blockSize)).slice (start % blockSize) size = (ofBlocks blocks).slice start size := by
  have h256 : start % 256 + size ≤ 256 := h
  apply List.ext_getElem
  · simp [Block.slice, slice]
    omega
  · intro i _ hi
    rw [length_slice] at hi
    have hdiv : (start + i) / 256 = start / 256 := by omega
    have hmod : (start + i) % 256 = start % 256 + i := by omega
    simp only [Block.slice, slice, ofBlocks_eq blocks (mod_blockSize_lt _), List.getElem_take, List.getElem_drop,
      List.getElem_map, List.getElem_range, Vector.getElem_toList, hdiv, hmod]

theorem toList_eq_slice (blocks : Nat → Block) (i : Nat) :
    (blocks i).toList = (ofBlocks blocks).slice (blockSize * i) blockSize := by
  have hslice : (blocks (blockSize * i / blockSize)).slice (blockSize * i % blockSize) blockSize =
      (ofBlocks blocks).slice (blockSize * i) blockSize :=
    slice_ofBlocks blocks (Nat.le_of_eq (by rw [Nat.mul_mod_right, Nat.zero_add]))
  rw [Nat.mul_mod_right, Nat.mul_div_cancel_left _ (by decide)] at hslice
  rw [← hslice, Block.slice, List.drop_zero, List.take_of_length_le (Nat.le_of_eq Vector.length_toList)]

theorem block_eq_of_ofBlocks {blocks' : Nat → Block} {i : Nat}
    (h : ∀ a, a / blockSize = i → ofBlocks blocks a = ofBlocks blocks' a) : blocks i = blocks' i := by
  apply Vector.toList_inj.1
  rw [toList_eq_slice, toList_eq_slice, slice_inj]
  intro k hk
  have hk : k < 256 := hk
  exact h _ (show (256 * i + k) / 256 = i by omega)

theorem ofBlocks_update_block (blocks : Nat → Block) (i : Nat) (b : Block) :
    (ofBlocks (Function.update blocks i b)).slice (blockSize * i) blockSize = b.toList ∧
      ∀ a, a / blockSize ≠ i → ofBlocks (Function.update blocks i b) a = ofBlocks blocks a := by
  refine ⟨?_, fun a ha => ?_⟩
  · rw [← toList_eq_slice, Function.update_self]
  · rw [ofBlocks, ofBlocks, Function.update_of_ne ha]

/-- Laying bytes over a block lays them over the array. -/
theorem ofBlocks_update (h : start % blockSize + data.length ≤ blockSize) :
    ofBlocks (Function.update blocks (start / blockSize)
      ((blocks (start / blockSize)).overlay (start % blockSize) data)) = (ofBlocks blocks).overlay start data := by
  have h256 : start % 256 + data.length ≤ 256 := h
  funext a
  have hmod := mod_blockSize_lt a
  by_cases ha : a / blockSize = start / blockSize
  · have hdiv : a / 256 = start / 256 := ha
    simp only [ofBlocks_eq _ hmod, overlay, ha, Function.update_self, Block.getElem_overlay]
    by_cases hle : start ≤ a
    · rw [if_pos (by show start % 256 ≤ a % 256; omega), if_pos hle]
      rw [show a % 256 - start % 256 = a - start by omega]
    · rw [if_neg (by show ¬ start % 256 ≤ a % 256; omega), if_neg hle]
  · have hdiv : ¬ a / 256 = start / 256 := ha
    simp only [ofBlocks_eq _ hmod, overlay, Function.update_of_ne ha]
    by_cases hle : start ≤ a
    · rw [if_pos hle, List.getElem?_eq_none (by omega), Option.getD_none]
    · rw [if_neg hle]

end FlatArray

theorem Block.zero_overlay (data : List UInt8) : Block.zero.overlay 0 data = Block.ofBytes data := by
  apply Vector.ext
  intro i hi
  rw [Block.getElem_overlay, Block.getElem_ofBytes, if_pos (Nat.zero_le _), Nat.sub_zero, Block.getElem_zero]

theorem Block.overlay_whole (b b' : Block) {data : List UInt8} (h : data.length = blockSize) :
    b.overlay 0 data = b'.overlay 0 data := by
  apply Vector.ext
  intro i hi
  rw [Block.getElem_overlay, Block.getElem_overlay, if_pos (Nat.zero_le _), if_pos (Nat.zero_le _), Nat.sub_zero,
    List.getElem?_eq_getElem (h ▸ hi), Option.getD_some, Option.getD_some]

end DiskArray
