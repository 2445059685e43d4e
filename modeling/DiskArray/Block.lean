import DiskArray.Geometry

/-!
# Blocks

A block is exactly 256 bytes; its length is part of its type. Transfers read a slice of a block or lay
bytes over a part of it.
-/

namespace DiskArray

/-- One block of data. -/
abbrev Block := Vector UInt8 blockSize

namespace Block

/-- The block of zeros. -/
def zero : Block := Vector.replicate blockSize 0

/-- The bytes of a block from `offset` on, `size` of them at most. -/
def slice (b : Block) (offset size : Nat) : List UInt8 := (b.toList.drop offset).take size

/-- The block with `bytes` laid over it from `offset` on; bytes past its end are dropped. -/
def overlay (b : Block) (offset : Nat) : List UInt8 → Block
  | [] => b
  | x :: xs => overlay (b.setIfInBounds offset x) (offset + 1) xs

theorem getElem_overlay (b : Block) (offset : Nat) (xs : List UInt8) (j : Nat) (hj : j < blockSize) :
    (b.overlay offset xs)[j] = if offset ≤ j then (xs[j - offset]?).getD b[j] else b[j] := by
  induction xs generalizing b offset with
  | nil => simp [overlay]
  | cons x xs ih =>
    rw [overlay, ih]
    rcases Nat.lt_trichotomy offset j with h | h | h
    · obtain ⟨k, rfl⟩ := Nat.exists_eq_add_of_lt h
      rw [Vector.getElem_setIfInBounds, if_neg (Nat.ne_of_lt h), if_pos (by omega), if_pos (by omega)]
      rw [show offset + k + 1 - offset = k + 1 by omega, show offset + k + 1 - (offset + 1) = k by omega]
      rfl
    · subst h
      rw [Vector.getElem_setIfInBounds, if_neg (by omega)]
      simp
    · rw [Vector.getElem_setIfInBounds, if_neg (by omega), if_neg (by omega), if_neg (by omega)]

@[simp] theorem getElem_zero (j : Nat) (hj : j < blockSize) : zero[j] = 0 := by simp [zero]

/-- The block that starts with `bytes` and goes on with zeros. -/
def ofBytes (bytes : List UInt8) : Block := zero.overlay 0 bytes

theorem getElem_ofBytes (bytes : List UInt8) (j : Nat) (hj : j < blockSize) :
    (ofBytes bytes)[j] = (bytes[j]?).getD 0 := by
  simp [ofBytes, getElem_overlay]

/-- The block with zeros from `start` on. -/
def clearFrom (b : Block) (start : Nat) : Block :=
  Vector.ofFn fun i : Fin blockSize => if i.val < start then b[i] else 0

theorem getElem_clearFrom (b : Block) (start j : Nat) (hj : j < blockSize) :
    (b.clearFrom start)[j] = if j < start then b[j] else 0 := by
  simp [clearFrom]

end Block

end DiskArray
