import DiskArray.Proofs.Driver.Reliable
import DiskArray.Proofs.Driver.Transfer

/-!
# What requests change

Over a disk that never fails a request that is not refused is carried out as a whole. Reading, and mounting, unmounting
and signing, leave every byte of the array as it is; writing lays the data over the array (`write_becomes`). So a byte
changes only in the range of a write, and only while the array is mounted and may be written (`Alters`, `write_alters`).
-/

namespace DiskArray.Driver

variable {β : Type} {d d' d'' : Driver (Device β)} {start length : Nat}

/-- The driver of the same array, with the same permission to write. -/
structure LeavesArray (d d' : Driver (Device β)) : Prop where
  backing : d'.device.backing = d.device.backing
  writable : d'.writable = d.writable

theorem LeavesArray.refl (d : Driver (Device β)) : d.LeavesArray d := ⟨rfl, rfl⟩

section Array
variable [BlockView β]

/-- The bytes of the array on its disk. -/
def array (d : Driver (Device β)) : FlatArray := .ofBlocks (blockAt d.device.backing)

theorem LeavesArray.array_eq (h : d.LeavesArray d') : d'.array = d.array := by rw [array, array, h.backing]

end Array

variable [Backing β] [BlockView β] [ReliableBacking β]

/-! ### Transfers -/

theorem Becomes.refl (h : d.Ready) : d.Becomes d.device.backing d.costs d := ⟨h, rfl, rfl, rfl, rfl, rfl⟩

theorem Becomes.trans {backing backing' : β} {c c' : Costs} (h : d.Becomes backing c d')
    (h' : d'.Becomes backing' c' d'') : d.Becomes backing' c' d'' :=
  ⟨h'.ready, h'.backing, h'.costs, h'.signatures.trans h.signatures, h'.mounted.trans h.mounted,
    h'.writable.trans h.writable⟩

theorem readChunks_becomes (h : d.Ready) (hm : d.mounted) (hrange : start + length ≤ totalSize) (done : Nat) :
    (d.readChunks done (chunks start length)).2.result = .ok () ∧
      (d.readChunks done (chunks start length)).1 = d.array.slice start length ∧
      ∃ costs, d.Becomes d.device.backing costs (d.readChunks done (chunks start length)).2.state := by
  induction start, length using chunks_induction generalizing d done with
  | done start =>
    rw [chunks_zero]
    exact ⟨rfl, rfl, d.costs, .refl h⟩
  | chunk start size rest hpos hfit hnext hchunks ih =>
    have hid : (Location.ofAddress start).blockId.InArray := Location.inArray_ofAddress (by omega)
    obtain ⟨hok, hd⟩ := load_becomes h hm hid done
    obtain ⟨hrest, hbytes, costs, hd'⟩ := ih hd.ready (hd.mounted.trans hm) (by omega) (done + size)
    have hslice := FlatArray.slice_ofBlocks (blockAt d.device.backing) hfit
    rw [Location.flat_blockId_ofAddress] at hok
    rw [array, hd.backing] at hbytes
    rw [hd.backing] at hd'
    rw [hchunks]
    simp only [readChunks, Chunk.location, Outcome.result_logged, Outcome.state_logged, hok]
    refine ⟨hrest, ?_, costs, hd.trans hd'⟩
    rw [FlatArray.slice_add, hbytes, array, ← hslice]
    rfl

/-- The new block is the old one with the chunk's data laid over it, also where the old one is not read. -/
theorem prepare_becomes {size : Nat} {data : List UInt8} (h : d.Ready) (hm : d.mounted) (hrange : start < totalSize)
    (hfit : start % blockSize + size ≤ blockSize) (hdata : data.length = size) (done : Nat) :
    (d.prepare ⟨start, size⟩ data done).result =
        .ok ((blockAt d.device.backing (start / blockSize)).overlay (start % blockSize) data) ∧
      ∃ costs, d.Becomes d.device.backing costs (d.prepare ⟨start, size⟩ data done).state := by
  unfold prepare
  by_cases hwhole : Chunk.isWhole ⟨start, size⟩
  · have hsize : size = 256 := by simpa [Chunk.isWhole] using hwhole
    have hfit : start % 256 + size ≤ 256 := hfit
    have hoffset : start % 256 = 0 := by omega
    rw [if_pos hwhole]
    refine ⟨?_, d.costs, .refl h⟩
    show Except.ok (Block.zero.overlay (start % 256) data) =
      .ok ((blockAt d.device.backing (start / 256)).overlay (start % 256) data)
    rw [hoffset, Block.overlay_whole _ (blockAt d.device.backing (start / 256)) (hdata.trans hsize)]
  · have hid := Location.inArray_ofAddress hrange
    obtain ⟨hok, hd⟩ := load_becomes h hm hid done
    rw [Location.flat_blockId_ofAddress] at hok
    have hload : (d.load (Chunk.location ⟨start, size⟩).blockId done).result = _ := hok
    rw [if_neg hwhole, Outcome.result_andThen hload, Outcome.state_andThen hload]
    exact ⟨rfl, _, hd⟩

theorem store_array (h : d.Ready) (hm : d.mounted) {id : BlockId} (hid : id.InArray) (block : Block) (done : Nat) :
    (d.store id block done).result = .ok () ∧
      ∃ backing costs, d.Becomes backing costs (d.store id block done).state ∧
        blockAt backing = Function.update (blockAt d.device.backing) id.flat block := by
  obtain ⟨hok, hd⟩ := store_becomes h hm hid block done
  obtain ⟨backing, hwrite, -, hblocks⟩ := ReliableBacking.writeBlock_eq block h.backing hid.flat_lt
  rw [hwrite] at hd
  exact ⟨hok, backing, _, hd, hblocks⟩

theorem writeChunks_becomes {data : List UInt8} (h : d.Ready) (hm : d.mounted)
    (hrange : start + length ≤ totalSize ∨ length = 0) (hdata : length ≤ data.length) (done : Nat) :
    (d.writeChunks done data (chunks start length)).result = .ok () ∧
      ∃ backing costs, d.Becomes backing costs (d.writeChunks done data (chunks start length)).state ∧
        .ofBlocks (blockAt backing) = d.array.overlay start (data.take length) := by
  induction start, length using chunks_induction generalizing d data done with
  | done start =>
    rw [chunks_zero, List.take_zero, FlatArray.overlay_nil]
    exact ⟨rfl, _, _, .refl h, rfl⟩
  | chunk start size rest hpos hfit hnext hchunks ih =>
    have hstart : start < totalSize := by omega
    have hlength : (data.take size).length = size := by rw [List.length_take]; omega
    have hlater : rest ≤ (data.drop size).length := by rw [List.length_drop]; omega
    -- the chunk's block is prepared and stored, and the rest is written after that
    obtain ⟨hok₁, costs₁, hd₁⟩ := prepare_becomes h hm hstart hfit hlength done
    rw [hchunks, writeChunks, Outcome.result_logged, Outcome.state_logged, Outcome.result_andThen hok₁,
      Outcome.state_andThen hok₁]
    generalize (d.prepare ⟨start, size⟩ (data.take size) done).state = d₁ at hd₁ ⊢
    have hm₁ := hd₁.mounted.trans hm
    obtain ⟨hok₂, backing₂, costs₂, hd₂, hblocks⟩ := store_array hd₁.ready hm₁ (Location.inArray_ofAddress hstart)
      ((blockAt d.device.backing (start / blockSize)).overlay (start % blockSize) (data.take size)) done
    have hstore : (d₁.store (Chunk.location ⟨start, size⟩).blockId _ done).result = _ := hok₂
    rw [Outcome.result_andThen hstore, Outcome.state_andThen hstore]
    have hfirst : FlatArray.ofBlocks (blockAt backing₂) = d.array.overlay start (data.take size) := by
      rw [hblocks, hd₁.backing, Location.flat_blockId_ofAddress]
      exact FlatArray.ofBlocks_update (by omega)
    obtain ⟨hok₃, backing₃, costs₃, hd₃, hbytes⟩ :=
      ih hd₂.ready (hd₂.mounted.trans hm₁) (by omega) hlater (done + size)
    refine ⟨hok₃, backing₃, costs₃, (hd₁.trans hd₂).trans hd₃, ?_⟩
    rw [hbytes, array, hd₂.backing, hfirst, List.take_add, FlatArray.overlay_append, hlength]

/-! ### Requests -/

theorem read_becomes (h : d.Ready) (start length : Nat) (buffer : Option (List UInt8)) :
    ∃ costs, d.Becomes d.device.backing costs (d.read start length buffer).state := by
  unfold read
  cases hrefuse : d.refuseRead? start length buffer with
  | some e => exact ⟨d.costs, .refl h⟩
  | none =>
    obtain ⟨hm, hrange, -⟩ := refuseRead?_eq_none hrefuse
    obtain ⟨hok, -, costs, hd⟩ := readChunks_becomes h hm hrange 0
    dsimp only
    rw [Outcome.state_andThen hok]
    exact ⟨costs, hd⟩

theorem read_array {buffer : Option (List UInt8)} (h : d.Ready) (hrefuse : d.refuseRead? start length buffer = none) :
    (d.read start length buffer).result = .ok length ∧
      (d.read start length buffer).buffer = buffer.map fun old => d.array.slice start length ++ old.drop length := by
  obtain ⟨hm, hrange, -⟩ := refuseRead?_eq_none hrefuse
  obtain ⟨hok, hbytes, -⟩ := readChunks_becomes h hm hrange 0
  simp only [read, hrefuse]
  rw [Outcome.result_andThen hok, hbytes, FlatArray.length_slice]
  exact ⟨rfl, rfl⟩

/-- A write that is not refused lays all its data over the array. -/
theorem write_becomes {data : Option (List UInt8)} (h : d.Ready) (hrefuse : d.refuseWrite? start length data = none) :
    (d.write start length data).result = .ok length ∧
      ∃ backing costs, d.Becomes backing costs (d.write start length data).state ∧
        .ofBlocks (blockAt backing) = d.array.overlay start ((data.getD []).take length) := by
  obtain ⟨hm, hrange, hsmall⟩ := refuseWrite?_eq_none hrefuse
  obtain ⟨hok, hd⟩ := writeChunks_becomes h hm hrange (le_length_of_bufferTooSmall hsmall) 0
  simp only [write, hrefuse]
  rw [Outcome.result_andThen hok, Outcome.state_andThen hok]
  exact ⟨rfl, hd⟩

/-! ### What may change -/

theorem leavesArray_read (h : d.Ready) (start length : Nat) (buffer : Option (List UInt8)) :
    d.LeavesArray (d.read start length buffer).state := by
  obtain ⟨costs, hd⟩ := read_becomes h start length buffer
  exact ⟨hd.backing, hd.writable⟩

theorem leavesArray_mount (h : d.Ready) : d.LeavesArray d.mount.state := by
  unfold mount
  by_cases hm : d.mounted
  · rw [if_pos hm]
    exact .refl d
  · rw [if_neg hm, issue_mount (h.mounted.trans (by simpa using hm)), Outcome.done_andThen]
    exact ⟨rfl, rfl⟩

theorem leavesArray_unmount (h : d.Ready) : d.LeavesArray d.unmount.state := by
  by_cases hm : d.mounted
  · rw [unmount_eq h hm]
    exact ⟨rfl, rfl⟩
  · rw [unmount, if_neg hm]
    exact .refl d

theorem leavesArray_sign (h : d.Ready) (disk block : UInt8) : d.LeavesArray (d.sign disk block).state := by
  unfold sign
  split_ifs with hmounted hdisk
  · exact .refl d
  · exact .refl d
  · have hm : d.mounted := by simpa using hmounted
    rw [seek_eq (h.mounted.trans hm), Outcome.done_andThen,
      issue_signBlock h hm ⟨Nat.lt_of_not_le hdisk, block.toNat_lt⟩]
    exact ⟨rfl, rfl⟩

/-- Another driver is ready, with the same flags. Its array differs only where `P` holds, and only if the first driver was
mounted and might write. -/
structure Alters (d : Driver (Device β)) (P : Nat → Prop) (d' : Driver (Device β)) : Prop where
  ready : d'.Ready
  mounted : d'.mounted = d.mounted
  writable : d'.writable = d.writable
  allowed : ∀ a, d'.array a ≠ d.array a → d.mounted ∧ d.writable ∧ P a

variable {P : Nat → Prop}

theorem Alters.refl (h : d.Ready) : d.Alters P d := ⟨h, rfl, rfl, fun _ hne => absurd rfl hne⟩

theorem Alters.trans (h : d.Alters P d') (h' : d'.Alters P d'') : d.Alters P d'' := by
  refine ⟨h'.ready, h'.mounted.trans h.mounted, h'.writable.trans h.writable, ?_⟩
  intro a hne
  by_cases hfirst : d'.array a = d.array a
  · obtain ⟨hm, hw, ha⟩ := h'.allowed a (hfirst ▸ hne)
    exact ⟨h.mounted ▸ hm, h.writable ▸ hw, ha⟩
  · exact h.allowed a hfirst

theorem Alters.mono {Q : Nat → Prop} (h : d.Alters P d') (hPQ : ∀ a, P a → Q a) : d.Alters Q d' := by
  refine ⟨h.ready, h.mounted, h.writable, ?_⟩
  intro a hne
  obtain ⟨hm, hw, ha⟩ := h.allowed a hne
  exact ⟨hm, hw, hPQ a ha⟩

/-- A byte changes only in the range of the write. -/
theorem write_alters (h : d.Ready) (start length : Nat) (data : Option (List UInt8)) :
    d.Alters (fun a => start ≤ a ∧ a < start + length) (d.write start length data).state := by
  cases hrefuse : d.refuseWrite? start length data with
  | some e =>
    simp only [write, hrefuse]
    exact .refl h
  | none =>
    obtain ⟨-, backing, costs, hd, hbytes⟩ := write_becomes h hrefuse
    refine ⟨hd.ready, hd.mounted, hd.writable, ?_⟩
    intro a hne
    refine ⟨(refuseWrite?_eq_none hrefuse).1, writable_of_refuseWrite? hrefuse, ?_⟩
    rw [array, hd.backing, hbytes] at hne
    unfold FlatArray.overlay at hne
    split_ifs at hne with hle
    · refine ⟨hle, ?_⟩
      by_contra hout
      rw [List.getElem?_eq_none (by rw [List.length_take]; omega), Option.getD_none] at hne
      exact hne rfl
    · exact absurd rfl hne

end DiskArray.Driver
