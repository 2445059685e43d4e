import DiskArray.Backing.Image
import DiskArray.Proofs.Backing.Lawful
import DiskArray.Proofs.Files.File
import DiskArray.Proofs.Files.Path

/-!
# Reliable images

An image that is as long as the array reads and writes every block of it. What is done to its blocks is
done to its own file alone, which stays as long as it was and keeps the bytes past the array (`Image.Later`,
`Image.SameBeyond`). A shorter image grows as far as a block that is written takes it (`Image.Written`).
-/

namespace DiskArray

theorem File.readBlock?_of_le {f : File} {i : Nat} (hsize : totalSize ≤ f.size) (hi : i < blockCount) :
    f.readBlock? i = some (f.blockAt i) := by
  have hsize : 1048576 ≤ f.size := hsize
  have hi : i < 4096 := hi
  have hlt : i < f.blocks.size := by
    rw [f.covers]
    omega
  rw [readBlock?, if_pos (by omega), blockAt, Array.getElem?_eq_getElem hlt, Option.getD_some]

namespace Image

/-- Blocks past the end of the file count as zero. -/
instance : BlockView Image := ⟨fun m i => m.file.blocks[i]?.getD Block.zero⟩

variable {m m' : Image}

theorem blockAt_eq (m : Image) : blockAt m = m.file.blockAt := rfl

theorem readBlock_state (m : Image) (i : Nat) : (Backing.readBlock m i).2 = m := by
  simp only [Backing.readBlock]
  split <;> rfl

theorem file_writeBlock (i : Nat) (b : Block) : (Backing.writeBlock m i b).2.file = m.file.writeBlock i b :=
  Store.content_modify _

theorem blockAt_writeBlock (i : Nat) (b : Block) :
    blockAt (Backing.writeBlock m i b).2 = Function.update (blockAt m) i b := by
  rw [blockAt_eq, blockAt_eq, file_writeBlock, File.blockAt_writeBlock]

/-- Whatever its length, an image keeps all blocks but those that are written. -/
instance : LawfulBacking Image where
  eq_of_readBlock {m i b} h := by
    simp only [Backing.readBlock] at h
    split at h
    · rename_i data hdata
      obtain rfl := Except.ok.inj h
      unfold File.readBlock? at hdata
      split at hdata
      · rw [blockAt_eq, File.blockAt, hdata, Option.getD_some]
      · cases hdata
    · cases h
  blockAt_readBlock m i := by rw [readBlock_state]
  blockAt_writeBlock {m i b} _ := m.blockAt_writeBlock i b
  blockAt_writeBlock_error h := by cases h

instance : ReliableBacking Image where
  Ready m := totalSize ≤ m.file.size
  readBlock_eq {m i} h hi := by
    simp only [Backing.readBlock, File.readBlock?_of_le h hi]
    rfl
  writeBlock_eq {m i} b h _ := by
    refine ⟨(Backing.writeBlock m i b).2, rfl, ?_, blockAt_writeBlock i b⟩
    rw [file_writeBlock]
    exact Nat.le_trans h (Nat.le_max_left _ _)

/-! ### An image and its file -/

theorem file_of_node? {f : File} (h : m.store.node? m.place = some (.file f)) : m.file = f := by
  simp only [file, Store.content, h]

theorem isFile_put {s : Store} {place : Files.Place} (f : File) :
    Image.file ⟨s.put place (.file f), place⟩ = f ∧
      (s.put place (.file f)).node? place = some (.file (Image.file ⟨s.put place (.file f), place⟩)) := by
  have hfile : Image.file ⟨s.put place (.file f), place⟩ = f := Store.content_put f
  refine ⟨hfile, ?_⟩
  rw [hfile, Store.node?_put]

theorem isFile_modify (change : File → File) :
    (m.store.modify m.place change).node? m.place =
      some (.file (Image.file { m with store := m.store.modify m.place change })) :=
  (isFile_put _).2

theorem readBlock_eq_ok_iff {i : Nat} {b : Block} :
    (Backing.readBlock m i).1 = .ok b ↔
      256 * (i + 1) ≤ m.file.bytes.length ∧ b.toList = (m.file.bytes.drop (256 * i)).take 256 := by
  rw [← File.readBlock?_eq_some_iff]
  simp only [Backing.readBlock]
  cases m.file.readBlock? i with
  | none => exact ⟨nofun, nofun⟩
  | some data => rw [Except.ok.injEq, Option.some_inj]

theorem exists_readBlock_iff {i : Nat} :
    (∃ b, (Backing.readBlock m i).1 = .ok b) ↔ 256 * (i + 1) ≤ m.file.bytes.length := by
  constructor
  · rintro ⟨b, hb⟩
    exact (readBlock_eq_ok_iff.1 hb).1
  · intro h
    have hlength : ((m.file.bytes.drop (256 * i)).take 256).length = 256 := by
      rw [List.length_take, List.length_drop]
      omega
    exact ⟨⟨((m.file.bytes.drop (256 * i)).take 256).toArray, hlength⟩, readBlock_eq_ok_iff.2 ⟨h, rfl⟩⟩

/-- The image after a block was written. Its file is as long as that takes, with zeros in a gap before the block; its
other bytes and all other files are as they were. -/
structure Written (m : Image) (i : Nat) (b : Block) (m' : Image) : Prop where
  place : m'.place = m.place
  files : Store.AgreeBut m.place m.store m'.store
  isFile : m'.store.node? m'.place = some (.file m'.file)
  length : m'.file.bytes.length = max m.file.bytes.length (256 * (i + 1))
  block : (m'.file.bytes.drop (256 * i)).take 256 = b.toList
  others : ∀ a < m'.file.bytes.length, a < 256 * i ∨ 256 * (i + 1) ≤ a →
    m'.file.bytes[a]? = some (m.file.bytes[a]?.getD 0)

theorem written_writeBlock (h : m.store.node? m.place = some (.file m.file)) (i : Nat) (b : Block) :
    m.Written i b (Backing.writeBlock m i b).2 := by
  have hfile := m.file_writeBlock i b
  obtain ⟨hlength, hblock, hothers⟩ := m.file.bytes_writeBlock i b
  refine ⟨rfl, Store.agreeBut_put (Or.inr ⟨_, h⟩) _, isFile_modify (m := m) (·.writeBlock i b), ?_, ?_, ?_⟩
  · rw [hfile, hlength]
  · rw [hfile, hblock]
  · rw [hfile]
    exact hothers

/-! ### What calls leave -/

/-- The image later on. Its blocks may have been written, and no other file was. -/
structure Later (m m' : Image) : Prop where
  place : m'.place = m.place
  files : Store.AgreeBut m.place m.store m'.store
  isFile : m'.store.node? m.place = some (.file m'.file)
  size : m'.file.size = m.file.size

namespace Later

theorem refl (h : m.store.node? m.place = some (.file m.file)) : m.Later m := ⟨rfl, .refl _ _, h, rfl⟩

theorem writeBlock (h : m.Later m') (hsize : totalSize ≤ m.file.size) {i : Nat} (hi : i < blockCount) (b : Block) :
    m.Later (Backing.writeBlock m' i b).2 := by
  obtain ⟨store, place⟩ := m'
  obtain ⟨hplace, hfiles, hfile, hsame⟩ := h
  obtain rfl : place = m.place := hplace
  have hwritten := written_writeBlock (m := ⟨store, m.place⟩) hfile i b
  refine ⟨rfl, hfiles.trans hwritten.files, hwritten.isFile, ?_⟩
  have hlength := hwritten.length
  rw [File.length_bytes, File.length_bytes, hsame] at hlength
  -- the block lies inside the file, which therefore does not grow
  have hi : i < 4096 := hi
  have hsize : 1048576 ≤ m.file.size := hsize
  rw [hlength]
  exact Nat.max_eq_left (by omega)

end Later

/-- The blocks past the array are the same. -/
def SameBeyond (m m' : Image) : Prop := ∀ i, blockCount ≤ i → blockAt m' i = blockAt m i

theorem SameBeyond.writeBlock (h : m.SameBeyond m') {i : Nat} (hi : i < blockCount) (b : Block) :
    m.SameBeyond (Backing.writeBlock m' i b).2 := by
  intro j hj
  rw [blockAt_writeBlock, Function.update_of_ne (Nat.ne_of_gt (Nat.lt_of_lt_of_le hi hj)), h j hj]

theorem SameBeyond.drop_bytes (h : m.SameBeyond m') (hsize : m'.file.size = m.file.size) :
    m'.file.bytes.drop totalSize = m.file.bytes.drop totalSize := by
  rw [File.bytes_eq_slice, File.bytes_eq_slice, FlatArray.drop_slice, FlatArray.drop_slice, hsize, FlatArray.slice_inj]
  intro k _
  have hblock : blockCount ≤ (0 + totalSize + k) / blockSize := by
    show 4096 ≤ (0 + 1048576 + k) / 256
    omega
  rw [File.byte_eq, File.byte_eq, FlatArray.ofBlocks, FlatArray.ofBlocks, ← blockAt_eq, ← blockAt_eq, h _ hblock]

theorem take_bytes (hsize : totalSize ≤ m.file.size) :
    m.file.bytes.take totalSize = (FlatArray.ofBlocks (blockAt m)).slice 0 totalSize := by
  rw [File.take_bytes _ hsize, File.byte_eq, blockAt_eq]

theorem getElem?_bytes (hsize : totalSize ≤ m.file.size) {a : Nat} (ha : a < totalSize) :
    m.file.bytes[a]? = some (FlatArray.ofBlocks (blockAt m) a) := by
  rw [m.file.getElem?_bytes (Nat.lt_of_lt_of_le ha hsize), File.byte_eq, blockAt_eq]

end Image

end DiskArray
