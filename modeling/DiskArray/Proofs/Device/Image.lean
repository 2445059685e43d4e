import DiskArray.Proofs.Backing.Image
import DiskArray.Proofs.Device.Mirror

/-!
# A device over an image

Whatever a device is told, its image stays in its file, which keeps its length and its bytes past the array
(`callAll_leaves`). Over an image that is long enough the device mirrors the one over a disk in memory that holds the same
array (`image_mirrors_memory`).
-/

namespace DiskArray.Image

variable {m : Image} {memory : MemoryDisk}

/-- What the calls of a device leave of its image. -/
theorem callAll_leaves {d : Device Image} (hfile : d.backing.store.node? d.backing.place = some (.file d.backing.file))
    (hsize : totalSize ≤ d.backing.file.size) (calls : List (UInt32 × Option Block)) :
    d.backing.Later (callAll d calls).backing ∧ d.backing.SameBeyond (callAll d calls).backing := by
  refine callAll_keeps (P := fun x : Device Image => d.backing.Later x.backing ∧ d.backing.SameBeyond x.backing) ?_
    ⟨.refl hfile, fun i _ => rfl⟩ calls
  intro x code buffer hx
  refine Device.keeps_backing (Q := fun m => d.backing.Later m ∧ d.backing.SameBeyond m) ?_ ?_ x code buffer hx
  · intro m i hm _
    rwa [readBlock_state]
  · rintro m i b ⟨hlater, hbeyond⟩ hi
    exact ⟨hlater.writeBlock hsize hi b, hbeyond.writeBlock hi b⟩

/-! ### An image and a disk in memory -/

theorem sameArray_iff (hsize : totalSize ≤ m.file.size) :
    Device.SameArray m memory ↔ m.file.bytes.take totalSize = memory.bytes 0 totalSize := by
  have hbytes : memory.bytes 0 totalSize = (FlatArray.ofBlocks (blockAt memory)).slice 0 totalSize := by
    rw [← MemoryDisk.byte_eq]
    rfl
  rw [take_bytes hsize, hbytes, FlatArray.slice_inj]
  constructor
  · intro h a ha
    have ha : a < 1048576 := ha
    have hblock := h.blocks ((0 + a) / blockSize) (show (0 + a) / 256 < 4096 by omega)
    rw [FlatArray.ofBlocks, FlatArray.ofBlocks, hblock]
  · intro h
    refine ⟨hsize, trivial, ?_⟩
    intro i hi
    apply FlatArray.block_eq_of_ofBlocks
    intro a ha
    have hi : i < 4096 := hi
    have ha : a / 256 = i := ha
    have hbyte := h a (show a < 1048576 by omega)
    rw [Nat.zero_add] at hbyte
    exact hbyte.symm

theorem exists_sameArray (hsize : totalSize ≤ m.file.size) :
    ∃ memory : MemoryDisk, Device.SameArray m memory := by
  refine ⟨⟨Vector.ofFn fun i : Fin blockCount => blockAt m i⟩, hsize, trivial, ?_⟩
  intro i hi
  rw [MemoryDisk.blockAt_of_lt hi, Vector.getElem_ofFn]

/-- An image reads the blocks that lie in its file and writes every block, at the file's expense alone. The device over
an image that is long enough answers as the device over a disk in memory does that holds the same array; they stay the
same, and the rest of the file stays as it is. -/
theorem image_mirrors_memory {m : Image} (hfile : m.store.node? m.place = some (.file m.file)) :
    (∀ i, ((∃ b, (Backing.readBlock m i).1 = .ok b) ↔ 256 * (i + 1) ≤ m.file.bytes.length) ∧
      (∀ b, (Backing.readBlock m i).1 = .ok b → b.toList = (m.file.bytes.drop (256 * i)).take 256) ∧
      (Backing.readBlock m i).2 = m) ∧
    (∀ i b, ∃ m', Backing.writeBlock m i b = (.ok (), m') ∧ m.Written i b m') ∧
    ∀ (memory : MemoryDisk) (signatures : SignatureTable) (calls : List (UInt32 × Option Block)),
      totalSize ≤ m.file.bytes.length → m.file.bytes.take totalSize = memory.bytes 0 totalSize →
        let onFile : Device Image := { backing := m, signatures }
        let inMemory : Device MemoryDisk := { backing := memory, signatures }
        let onFile' := callAll onFile calls
        let inMemory' := callAll inMemory calls
        replies onFile calls = replies inMemory calls ∧
          onFile'.mounted = inMemory'.mounted ∧
          onFile'.tally = inMemory'.tally ∧
          onFile'.signatures = inMemory'.signatures ∧
          m.Later onFile'.backing ∧
          onFile'.backing.file.bytes.take totalSize = inMemory'.backing.bytes 0 totalSize ∧
          onFile'.backing.file.bytes.drop totalSize = m.file.bytes.drop totalSize ∧
          onFile'.backing.file.bytes.length = m.file.bytes.length := by
  refine ⟨fun i => ⟨exists_readBlock_iff, fun b hb => (readBlock_eq_ok_iff.1 hb).2, m.readBlock_state i⟩,
    fun i b => ⟨_, rfl, written_writeBlock hfile i b⟩, ?_⟩
  intro memory signatures calls hsize hbytes onFile inMemory onFile' inMemory'
  rw [File.length_bytes] at hsize
  have hsame := (sameArray_iff hsize).2 hbytes
  have hmirrors : onFile.Mirrors inMemory := ⟨memory, rfl, hsame⟩
  obtain ⟨hreplies, later, hlater, hsame'⟩ := hmirrors.callAll calls
  have hinMemory : inMemory' = onFile'.withDisk later := hlater
  obtain ⟨hfile', hbeyond⟩ := callAll_leaves (d := onFile) hfile hsize calls
  refine ⟨hreplies.symm, ?_, ?_, ?_, hfile', ?_, hbeyond.drop_bytes hfile'.size, ?_⟩
  · rw [hinMemory, Device.withDisk]
  · rw [hinMemory, Device.withDisk]
  · rw [hinMemory, Device.withDisk]
  · rw [hinMemory]
    exact (sameArray_iff hsame'.ready).1 hsame'
  · rw [File.length_bytes, File.length_bytes, hfile'.size]

/-- A block of an image that is five bytes too long is written, read and signed. -/
theorem image_mirrors_memory_of_write :
    ∃ (m : Image) (memory : MemoryDisk),
      m.store.node? m.place = some (.file m.file) ∧
      totalSize ≤ m.file.bytes.length ∧
      m.file.bytes.take totalSize = memory.bytes 0 totalSize ∧
      let calls : List (UInt32 × Option Block) :=
        [(Operation.encode (.bare .mount), none), (Operation.encode (.of .seekToDisk 15 0), none),
          (Operation.encode (.of .seekToBlock 0 255), none), (Operation.encode (.bare .readBlock), some .zero),
          (Operation.encode (.bare .readBlock), some .zero), (Operation.encode (.of .seekToBlock 0 255), none),
          (Operation.encode (.bare .writeBlock), some .zero), (Operation.encode (.of .seekToBlock 0 255), none),
          (Operation.encode (.bare .signBlock), none), (0xf000, none)]
      let onFile : Device Image := { backing := m }
      let inMemory : Device MemoryDisk := { backing := memory }
      replies onFile calls = replies inMemory calls ∧
        (callAll onFile calls).signatures = (callAll inMemory calls).signatures ∧
        (callAll onFile calls).backing.file.bytes.take totalSize = (callAll inMemory calls).backing.bytes 0 totalSize ∧
        (callAll onFile calls).backing.file.bytes.drop totalSize = [7, 7, 7, 7, 7] := by
  have hput := @isFile_put .empty ["home", "jbod.img"]
    (.ofBytes (List.replicate (totalSize + 5) 7))
  obtain ⟨m, hfile, hisFile⟩ : ∃ m : Image, m.file = .ofBytes (List.replicate (totalSize + 5) 7) ∧
      m.store.node? m.place = some (.file m.file) := ⟨_, hput⟩
  have hbytes : m.file.bytes = List.replicate (totalSize + 5) 7 := by rw [hfile, File.bytes_ofBytes]
  have hlength : totalSize ≤ m.file.bytes.length := by
    rw [hbytes, List.length_replicate]
    exact Nat.le_add_right _ _
  have hsize := hlength
  rw [File.length_bytes] at hsize
  obtain ⟨memory, hsame⟩ := exists_sameArray hsize
  have hmemory := (sameArray_iff hsize).1 hsame
  refine ⟨m, memory, hisFile, hlength, hmemory, ?_⟩
  intro calls onFile inMemory
  obtain ⟨hreplies, -, -, hsignatures, -, htake, hdrop, -⟩ :=
    (image_mirrors_memory hisFile).2.2 memory .empty calls hlength hmemory
  refine ⟨hreplies, hsignatures, htake, ?_⟩
  rw [hdrop, hbytes, List.drop_replicate, Nat.add_sub_cancel_left]
  rfl

end DiskArray.Image
