import DiskArray.Proofs.Driver.Access

/-!
# Transfers

Reading and writing as operations on the flat array. Both go through the chunks of a range from the first to the
last (`chunks_induction`), and where the device fails they stop between two chunks (`StopsAt`): what was done up
to there stays, and nothing else is done.
-/

namespace DiskArray

/-! ### Chunks -/

theorem chunks_zero (start : Nat) : chunks start 0 = [] := by rw [chunks, dif_pos rfl]

/-- A proof for all ranges goes chunk by chunk. -/
theorem chunks_induction {motive : Nat → Nat → Prop}
    (done : ∀ start, motive start 0)
    (chunk : ∀ start size rest, 0 < size → start % blockSize + size ≤ blockSize →
      (rest = 0 ∨ (start + size) % blockSize = 0) →
      chunks start (size + rest) = ⟨start, size⟩ :: chunks (start + size) rest →
      motive (start + size) rest → motive start (size + rest))
    (start length : Nat) : motive start length := by
  induction length using Nat.strongRecOn generalizing start with
  | ind length ih =>
    by_cases hlength : length = 0
    · subst hlength
      exact done start
    · obtain ⟨size, hsize⟩ : ∃ size, size = min length (256 - start % 256) := ⟨_, rfl⟩
      have hmod : start % 256 < 256 := Nat.mod_lt _ (by decide)
      obtain ⟨rest, rfl⟩ : ∃ rest, length = size + rest := ⟨length - size, by omega⟩
      refine chunk start size rest (by omega) (by show start % 256 + size ≤ 256; omega)
        (by show rest = 0 ∨ (start + size) % 256 = 0; omega) ?_ (ih rest (by omega) _)
      rw [chunks, dif_neg hlength]
      show ⟨start, min _ (256 - start % 256)⟩ :: chunks (start + min _ (256 - start % 256))
        (size + rest - min _ (256 - start % 256)) = _
      rw [← hsize, Nat.add_sub_cancel_left]

theorem chunks_blocks (n k : Nat) :
    chunks (blockSize * n) (blockSize * (k + 1)) =
      ⟨blockSize * n, blockSize⟩ :: chunks (blockSize * (n + 1)) (blockSize * k) := by
  have hsize : min (256 * (k + 1)) (256 - 256 * n % 256) = 256 := by omega
  have hnext : 256 * n + 256 = 256 * (n + 1) := by omega
  have hrest : 256 * (k + 1) - 256 = 256 * k := by omega
  rw [chunks, dif_neg (by show 256 * (k + 1) ≠ 0; omega)]
  show ⟨256 * n, min (256 * (k + 1)) (256 - 256 * n % 256)⟩ ::
    chunks (256 * n + min (256 * (k + 1)) (256 - 256 * n % 256))
      (256 * (k + 1) - min (256 * (k + 1)) (256 - 256 * n % 256)) = _
  rw [hsize, hnext, hrest]

/-- A transfer may stop after `t` bytes: between two of its chunks. -/
def StopsAt (start length t : Nat) : Prop := t < length ∧ (t = 0 ∨ (start + t) % blockSize = 0)

theorem StopsAt.zero {start length : Nat} (h : 0 < length) : StopsAt start length 0 := ⟨h, Or.inl rfl⟩

theorem StopsAt.add {start size rest t : Nat} (h : StopsAt (start + size) rest t)
    (hnext : rest = 0 ∨ (start + size) % blockSize = 0) : StopsAt start (size + rest) (size + t) := by
  obtain ⟨hlt, hstop⟩ := h
  refine ⟨Nat.add_lt_add_left hlt _, Or.inr ?_⟩
  rw [← Nat.add_assoc]
  rcases hstop with rfl | hmod
  · exact hnext.resolve_left (by omega)
  · exact hmod

theorem Location.flat_blockId_ofAddress (address : Nat) :
    (Location.ofAddress address).blockId.flat = address / blockSize := by
  show address / 65536 * 256 + address % 65536 / 256 = address / 256
  omega

theorem Location.flat_blockId_block (n : Nat) : (Location.ofAddress (blockSize * n)).blockId.flat = n := by
  rw [flat_blockId_ofAddress, Nat.mul_div_cancel_left n (by decide)]

theorem Location.inArray_ofAddress {address : Nat} (h : address < totalSize) :
    (Location.ofAddress address).blockId.InArray := by
  have hlt : address < 1048576 := h
  show address / 65536 < 16 ∧ address % 65536 / 256 < 256
  omega

namespace Driver

variable {δ : Type} {d : Driver δ} {start length : Nat}

/-! ### Refusals -/

theorem le_length_of_bufferTooSmall {data : Option (List UInt8)} (h : bufferTooSmall data length = false) :
    length ≤ (data.getD []).length := by
  cases data with
  | some bytes => simpa [bufferTooSmall] using h
  | none => simpa [bufferTooSmall] using h

theorem not_deviceFailed_of_refuseRead? {buffer : Option (List UInt8)} {e : DriverError} {done : Nat}
    (h : d.refuseRead? start length buffer = some e) : ¬ e.DeviceFailed done := by
  rintro ⟨command, source, rfl⟩
  unfold refuseRead? at h
  split_ifs at h <;> cases h

theorem not_deviceFailed_of_refuseWrite? {data : Option (List UInt8)} {e : DriverError} {done : Nat}
    (h : d.refuseWrite? start length data = some e) : ¬ e.DeviceFailed done := by
  rintro ⟨command, source, rfl⟩
  unfold refuseWrite? at h
  split_ifs at h <;> cases h

theorem refuseRead?_eq_none {buffer : Option (List UInt8)} (h : d.refuseRead? start length buffer = none) :
    d.mounted ∧ start + length ≤ totalSize ∧ bufferTooSmall buffer length = false := by
  unfold refuseRead? at h
  split_ifs at h with hmounted hlong hsmall hrange
  exact ⟨by simpa using hmounted, Nat.le_of_not_lt hrange, by simpa using hsmall⟩

theorem refuseWrite?_eq_none {data : Option (List UInt8)} (h : d.refuseWrite? start length data = none) :
    d.mounted ∧ (start + length ≤ totalSize ∨ length = 0) ∧ bufferTooSmall data length = false := by
  unfold refuseWrite? at h
  split_ifs at h with hmounted hwritable hlong hsmall hrange
  refine ⟨by simpa using hmounted, ?_, by simpa using hsmall⟩
  simp only [Bool.and_eq_true, decide_eq_true_eq, not_and] at hrange
  omega

theorem writable_of_refuseWrite? {data : Option (List UInt8)} (h : d.refuseWrite? start length data = none) :
    d.writable := by
  unfold refuseWrite? at h
  split_ifs at h with hmounted hwritable
  simpa using hwritable

theorem refuseRead?_congr {d' : Driver δ} (h : d.mounted = d'.mounted) (start length : Nat)
    (buffer : Option (List UInt8)) : d.refuseRead? start length buffer = d'.refuseRead? start length buffer := by
  rw [refuseRead?, refuseRead?, h]

theorem refuseWrite?_congr {d' : Driver δ} (hm : d.mounted = d'.mounted) (hw : d.writable = d'.writable)
    (start length : Nat) (data : Option (List UInt8)) :
    d.refuseWrite? start length data = d'.refuseWrite? start length data := by
  rw [refuseWrite?, refuseWrite?, hm, hw]

theorem refuseRead?_ne_badBuffer {buffer : List UInt8} (h : min length maxTransfer ≤ buffer.length) :
    d.refuseRead? start length (some buffer) ≠ some .badBuffer := by
  intro he
  unfold refuseRead? at he
  split_ifs at he with hmounted hlong hsmall
  · cases he
  · cases he
  · have hlt : buffer.length < length := by simpa [bufferTooSmall] using hsmall
    omega
  · cases he

theorem refuseWrite?_ne_badBuffer {data : List UInt8} (h : min length maxTransfer ≤ data.length) :
    d.refuseWrite? start length (some data) ≠ some .badBuffer := by
  intro he
  unfold refuseWrite? at he
  split_ifs at he with hmounted hwritable hlong hsmall
  · cases he
  · cases he
  · cases he
  · have hlt : data.length < length := by simpa [bufferTooSmall] using hsmall
    omega
  · cases he

theorem refuseRead?_of_long (buffer : Option (List UInt8)) (h : maxTransfer < length) :
    d.refuseRead? start length buffer = some (if !d.mounted then .notMounted else .lengthTooLarge length) := by
  rw [refuseRead?, if_pos h]
  split_ifs
  · rfl
  · rfl

theorem refuseWrite?_of_long (data : Option (List UInt8)) (h : maxTransfer < length) :
    d.refuseWrite? start length data =
      some (if !d.mounted then .notMounted else if !d.writable then .permissionDenied else .lengthTooLarge length) := by
  rw [refuseWrite?, if_pos h]
  split_ifs
  · rfl
  · rfl
  · rfl

variable [Controller δ] [LawfulController δ]

/-- The bytes of the array. -/
def bytes (d : Driver δ) : FlatArray := .ofBlocks d.view.blocks

theorem LeadsTo.bytes {d' : Driver δ} (h : d.LeadsTo d.view.blocks d') : d'.bytes = d.bytes :=
  congrArg FlatArray.ofBlocks h.blocks

/-! ### Reading -/

theorem readChunks_ensures (h : d.Sound) (hrange : start + length ≤ totalSize) (done : Nat) :
    (d.readChunks done (chunks start length)).2.Ensures
      (fun d' _ => (d.readChunks done (chunks start length)).1 = d.bytes.slice start length ∧
        d.LeadsTo d.view.blocks d')
      (fun d' e => ∃ t, StopsAt start length t ∧ e.DeviceFailed (done + t) ∧
        (d.readChunks done (chunks start length)).1 = d.bytes.slice start t ∧ d.LeadsTo d.view.blocks d') := by
  induction start, length using chunks_induction generalizing d done with
  | done start =>
    rw [chunks_zero]
    exact ⟨rfl, h.leadsTo⟩
  | chunk start size rest hpos hfit hnext hchunks ih =>
    have hid : (Location.ofAddress start).blockId.InArray := Location.inArray_ofAddress (by omega)
    have hload := load_ensures h hid done
    have hslice := FlatArray.slice_ofBlocks d.view.blocks hfit
    rw [Location.flat_blockId_ofAddress] at hload
    rw [hchunks]
    unfold Outcome.Ensures at hload
    cases hr : (d.load (Location.ofAddress start).blockId done).result with
    | error e =>
      rw [hr] at hload
      obtain ⟨he, hleads⟩ := hload
      simp only [readChunks, Chunk.location, Outcome.result_logged, hr]
      exact ⟨0, .zero (by omega), he, rfl, hleads⟩
    | ok block =>
      rw [hr] at hload
      obtain ⟨rfl, hleads⟩ := hload
      have hrest := ih hleads.sound (by omega) (done + size)
      rw [hleads.bytes, hleads.blocks] at hrest
      simp only [readChunks, Chunk.location, Outcome.result_logged, Outcome.state_logged, hr,
        Outcome.ensures_logged]
      refine hrest.mono (fun d' _ hdone => ?_) fun d' e hfail => ?_
      · obtain ⟨hread, hd'⟩ := hdone
        refine ⟨?_, hleads.trans hd'⟩
        rw [FlatArray.slice_add, ← hread, bytes, ← hslice]
        rfl
      · obtain ⟨t, hstop, he, hread, hd'⟩ := hfail
        refine ⟨size + t, hstop.add hnext, Nat.add_assoc _ _ _ ▸ he, ?_, hleads.trans hd'⟩
        rw [FlatArray.slice_add, ← hread, bytes, ← hslice]
        rfl

/-- What a read does: all of its bytes are put into the buffer, or those before the place where it stopped, or
it is refused. -/
theorem read_ensures (h : d.Sound) (start length : Nat) (buffer : Option (List UInt8)) :
    (d.read start length buffer).toOutcome.Ensures
      (fun d' n => n = length ∧ start + length ≤ totalSize ∧ bufferTooSmall buffer length = false ∧
        (d.read start length buffer).buffer =
          buffer.map (fun old => d.bytes.slice start length ++ old.drop length) ∧
        d.LeadsTo d.view.blocks d')
      (fun d' e => d.LeadsTo d.view.blocks d' ∧
        ((∃ t, StopsAt start length t ∧ e.DeviceFailed t ∧ start + length ≤ totalSize ∧
          bufferTooSmall buffer length = false ∧ (d.read start length buffer).buffer =
            buffer.map (fun old => d.bytes.slice start t ++ old.drop t)) ∨
        (d.refuseRead? start length buffer = some e ∧ (d.read start length buffer).buffer = buffer))) := by
  unfold read
  cases hrefuse : d.refuseRead? start length buffer with
  | some e => exact ⟨h.leadsTo, Or.inr ⟨rfl, rfl⟩⟩
  | none =>
    obtain ⟨-, hrange, hsmall⟩ := refuseRead?_eq_none hrefuse
    have hread := readChunks_ensures h hrange 0
    dsimp only
    refine hread.andThen (fun d' _ ⟨hbytes, hd'⟩ => ?_) fun d' e ⟨t, hstop, he, hbytes, hd'⟩ => ?_
    · refine ⟨rfl, hrange, hsmall, ?_, hd'⟩
      simp only [hbytes, FlatArray.length_slice]
    · rw [Nat.zero_add] at he
      refine ⟨hd', Or.inl ⟨t, hstop, he, hrange, hsmall, ?_⟩⟩
      simp only [hbytes, FlatArray.length_slice]

/-! ### Writing -/

/-- The new block is the old one with the chunk's data laid over it, also where the old one is not read. -/
theorem prepare_ensures {size : Nat} {data : List UInt8} (h : d.Sound) (hrange : start < totalSize)
    (hfit : start % blockSize + size ≤ blockSize) (hdata : data.length = size) (done : Nat) :
    (d.prepare ⟨start, size⟩ data done).Ensures
      (fun d' b => b = (d.view.blocks (start / blockSize)).overlay (start % blockSize) data ∧
        d.LeadsTo d.view.blocks d')
      (fun d' e => e.DeviceFailed done ∧ d.LeadsTo d.view.blocks d') := by
  unfold prepare
  by_cases hwhole : Chunk.isWhole ⟨start, size⟩
  · have hsize : size = 256 := by simpa [Chunk.isWhole] using hwhole
    have hoffset : start % 256 = 0 := by
      have hfit256 : start % 256 + size ≤ 256 := hfit
      omega
    rw [if_pos hwhole, Outcome.ensures_done]
    refine ⟨?_, h.leadsTo⟩
    show Block.zero.overlay (start % 256) data = (d.view.blocks (start / 256)).overlay (start % 256) data
    rw [hoffset]
    exact Block.overlay_whole _ _ (hdata.trans hsize)
  · rw [if_neg hwhole]
    have hid := Location.inArray_ofAddress hrange
    have hload := load_ensures h hid done
    rw [Location.flat_blockId_ofAddress] at hload
    refine hload.andThen (fun d' b ⟨hb, hd'⟩ => ?_) fun d' e he => he
    rw [Outcome.ensures_done, hb]
    exact ⟨rfl, hd'⟩

theorem writeChunks_ensures {data : List UInt8} (h : d.Sound) (hrange : start + length ≤ totalSize ∨ length = 0)
    (hdata : length ≤ data.length) (done : Nat) :
    (d.writeChunks done data (chunks start length)).Ensures
      (fun d' _ => d.LeadsTo d'.view.blocks d' ∧ d'.bytes = d.bytes.overlay start (data.take length))
      (fun d' e => ∃ t, StopsAt start length t ∧ e.DeviceFailed (done + t) ∧
        d.LeadsTo d'.view.blocks d' ∧ d'.bytes = d.bytes.overlay start (data.take t)) := by
  induction start, length using chunks_induction generalizing d data done with
  | done start =>
    rw [chunks_zero]
    refine ⟨h.leadsTo, ?_⟩
    rw [List.take_zero, FlatArray.overlay_nil]
    rfl
  | chunk start size rest hpos hfit hnext hchunks ih =>
    have hstart : start < totalSize := by omega
    have hid := Location.inArray_ofAddress hstart
    have hlength : (data.take size).length = size := by rw [List.length_take]; omega
    rw [hchunks, writeChunks, Outcome.ensures_logged]
    have hstopped (d' : Driver δ) (e : DriverError) (he : e.DeviceFailed done)
        (hd' : d.LeadsTo d.view.blocks d') : ∃ t, StopsAt start (size + rest) t ∧ e.DeviceFailed (done + t) ∧
          d.LeadsTo d'.view.blocks d' ∧ d'.bytes = d.bytes.overlay start (data.take t) := by
      refine ⟨0, .zero (by omega), he, hd'.blocks.symm ▸ hd', ?_⟩
      rw [List.take_zero, FlatArray.overlay_nil]
      exact hd'.bytes
    refine (prepare_ensures h hstart hfit hlength done).andThen (fun d₁ b ⟨hb, hd₁⟩ => ?_)
      fun d₁ e ⟨he, hd₁⟩ => ?_
    · have hstore := store_ensures hd₁.sound hid b done
      rw [hd₁.blocks] at hstore
      refine hstore.andThen (fun d₂ _ hd₂ => ?_) fun d₂ e ⟨he, hd₂⟩ => ?_
      · have hfirst : d₂.bytes = d.bytes.overlay start (data.take size) := by
          rw [bytes, hd₂.blocks, hb, Location.flat_blockId_ofAddress, FlatArray.ofBlocks_update (by omega)]
          rfl
        have htake (t : Nat) : d₂.bytes.overlay (start + size) ((data.drop size).take t) =
            d.bytes.overlay start (data.take (size + t)) := by
          rw [List.take_add, FlatArray.overlay_append, hfirst, hlength]
        have hlater : rest ≤ (data.drop size).length := by rw [List.length_drop]; omega
        have hrest := ih hd₂.sound (by omega) hlater (done + size)
        refine hrest.mono (fun d₃ _ ⟨hd₃, hbytes⟩ => ?_) fun d₃ e ⟨t, hstop, he, hd₃, hbytes⟩ => ?_
        · exact ⟨(hd₁.trans hd₂).trans hd₃, hbytes.trans (htake rest)⟩
        · exact ⟨size + t, hstop.add hnext, Nat.add_assoc _ _ _ ▸ he, (hd₁.trans hd₂).trans hd₃,
            hbytes.trans (htake t)⟩
      · exact hstopped d₂ e he (hd₁.trans hd₂)
    · exact hstopped d₁ e he hd₁

/-- What a write does: all of its data are laid over the array, or those before the place where it stopped, or
it is refused. -/
theorem write_ensures (h : d.Sound) (start length : Nat) (data : Option (List UInt8)) :
    (d.write start length data).Ensures
      (fun d' n => n = length ∧ (start + length ≤ totalSize ∨ length = 0) ∧ bufferTooSmall data length = false ∧
        d.LeadsTo d'.view.blocks d' ∧ d'.bytes = d.bytes.overlay start ((data.getD []).take length))
      (fun d' e => d.LeadsTo d'.view.blocks d' ∧
        ((∃ t, StopsAt start length t ∧ e.DeviceFailed t ∧ start + length ≤ totalSize ∧
          bufferTooSmall data length = false ∧ d'.bytes = d.bytes.overlay start ((data.getD []).take t)) ∨
        (d.refuseWrite? start length data = some e ∧ d'.bytes = d.bytes))) := by
  unfold write
  cases hrefuse : d.refuseWrite? start length data with
  | some e => exact ⟨h.leadsTo, Or.inr ⟨rfl, rfl⟩⟩
  | none =>
    obtain ⟨-, hrange, hsmall⟩ := refuseWrite?_eq_none hrefuse
    refine (writeChunks_ensures h hrange (le_length_of_bufferTooSmall hsmall) 0).andThen
      (fun d' _ ⟨hd', hbytes⟩ => ?_) fun d' e ⟨t, hstop, he, hd', hbytes⟩ => ?_
    · exact ⟨rfl, hrange, hsmall, hd', hbytes⟩
    · rw [Nat.zero_add] at he
      have hlength : length ≠ 0 := Nat.ne_of_gt (Nat.zero_lt_of_lt hstop.1)
      exact ⟨hd', Or.inl ⟨t, hstop, he, hrange.resolve_right hlength, hsmall, hbytes⟩⟩

end Driver

end DiskArray
