import DiskArray.Backing.Faulty
import DiskArray.Proofs.Backing.Memory
import DiskArray.Proofs.Flat
import Mathlib.Tactic.SplitIfs

/-!
# Lawful backing disks

The blocks of a backing disk as a function of their flat numbers (`BlockView.blockAt`), and what its calls do
to them. A lawful disk may fail at any call, but a call that fails changes nothing (`LawfulBacking`). A
reliable disk never fails on the blocks of the array while it is ready (`ReliableBacking`).
-/

namespace DiskArray

/-- The blocks that a backing disk holds, by their flat numbers. -/
class BlockView (β : Type) where
  blockAt : β → Nat → Block

export BlockView (blockAt)

/-- A read that succeeds gives the block, a write that succeeds replaces it, and nothing else changes. -/
class LawfulBacking (β : Type) [Backing β] [BlockView β] : Prop where
  eq_of_readBlock {m : β} {i : Nat} {b : Block} :
    (Backing.readBlock m i).1 = .ok b → b = blockAt m i
  blockAt_readBlock (m : β) (i : Nat) : blockAt (Backing.readBlock m i).2 = blockAt m
  blockAt_writeBlock {m : β} {i : Nat} {b : Block} :
    (Backing.writeBlock m i b).1 = .ok () →
      blockAt (Backing.writeBlock m i b).2 = Function.update (blockAt m) i b
  blockAt_writeBlock_error {m : β} {i : Nat} {b : Block} {e : DiskError} :
    (Backing.writeBlock m i b).1 = .error e → blockAt (Backing.writeBlock m i b).2 = blockAt m

/-- While it is ready, the disk reads and writes every block of the array. -/
class ReliableBacking (β : Type) [Backing β] [BlockView β] where
  Ready : β → Prop
  readBlock_eq {m : β} {i : Nat} : Ready m → i < blockCount → Backing.readBlock m i = (.ok (blockAt m i), m)
  writeBlock_eq {m : β} {i : Nat} (b : Block) : Ready m → i < blockCount →
    ∃ m', Backing.writeBlock m i b = (.ok (), m') ∧ Ready m' ∧ blockAt m' = Function.update (blockAt m) i b

/-! ### Disks in memory -/

namespace MemoryDisk

/-- Blocks past the end count as zero. -/
instance : BlockView MemoryDisk := ⟨fun m i => m.blocks[i]?.getD Block.zero⟩

theorem blockAt_of_lt {m : MemoryDisk} {i : Nat} (h : i < blockCount) : blockAt m i = m.blocks[i] := by
  simp [blockAt, h]

theorem blockAt_set {m : MemoryDisk} {i : Nat} (h : i < blockCount) (b : Block) :
    blockAt (⟨m.blocks.set i b⟩ : MemoryDisk) = Function.update (blockAt m) i b := by
  funext j
  by_cases hj : j = i
  · subst hj
    simp [blockAt, h]
  · simp [blockAt, Function.update_of_ne hj, Vector.getElem?_set_ne h (Ne.symm hj)]

instance : LawfulBacking MemoryDisk where
  eq_of_readBlock {m i b} h := by
    rcases Nat.lt_or_ge i blockCount with hi | hi
    · rw [(backing_of_lt hi m b).1] at h
      rw [blockAt_of_lt hi]
      exact (Except.ok.inj h).symm
    · rw [(backing_of_le hi m b).1] at h
      cases h
  blockAt_readBlock _ _ := rfl
  blockAt_writeBlock {m i b} h := by
    rcases Nat.lt_or_ge i blockCount with hi | hi
    · rw [(backing_of_lt hi m b).2]
      exact blockAt_set hi b
    · rw [(backing_of_le hi m b).2] at h
      cases h
  blockAt_writeBlock_error {m i b e} h := by
    rcases Nat.lt_or_ge i blockCount with hi | hi
    · rw [(backing_of_lt hi m b).2] at h
      cases h
    · rw [(backing_of_le hi m b).2]

instance : ReliableBacking MemoryDisk where
  Ready _ := True
  readBlock_eq {m i} _ hi := by rw [(backing_of_lt hi m Block.zero).1, blockAt_of_lt hi]
  writeBlock_eq {m i} b _ hi := ⟨_, (backing_of_lt hi m b).2, trivial, blockAt_set hi b⟩

theorem byte_eq (m : MemoryDisk) : m.byte = FlatArray.ofBlocks (blockAt m) := by
  funext address
  simp only [byte]
  split
  · rename_i b hb
    simp only [FlatArray.ofBlocks, blockAt, hb]
    rfl
  · rename_i hnone
    have hmod := mod_blockSize_lt address
    simp [FlatArray.ofBlocks_eq _ hmod, blockAt, hnone]

theorem blockAt_blank (i : Nat) : blockAt blank i = Block.zero := by
  simp only [blockAt, blank]
  by_cases hi : i < blockCount
  · simp [hi]
  · simp [Vector.getElem?_eq_none (Nat.le_of_not_lt hi)]

end MemoryDisk

/-! ### Disks that fail as planned -/

section Faulty
variable {β : Type} [Backing β] [BlockView β]

instance : BlockView (FaultyDisk β) := ⟨fun f => blockAt f.disk⟩

instance [LawfulBacking β] : LawfulBacking (FaultyDisk β) where
  eq_of_readBlock {m i b} h := by
    simp only [Backing.readBlock] at h
    split at h
    · cases h
    · exact LawfulBacking.eq_of_readBlock (m := m.disk) h
  blockAt_readBlock m i := by
    simp only [Backing.readBlock]
    split
    · rfl
    · exact LawfulBacking.blockAt_readBlock m.disk i
  blockAt_writeBlock {m i b} h := by
    simp only [Backing.writeBlock] at h ⊢
    split at h
    · cases h
    · exact LawfulBacking.blockAt_writeBlock (m := m.disk) h
  blockAt_writeBlock_error {m i b e} h := by
    simp only [Backing.writeBlock] at h ⊢
    split at h
    · rfl
    · exact LawfulBacking.blockAt_writeBlock_error (m := m.disk) h

end Faulty

end DiskArray
