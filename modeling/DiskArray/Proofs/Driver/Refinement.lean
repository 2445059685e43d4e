import DiskArray.Proofs.Driver.Run
import DiskArray.Proofs.Driver.Transfer

/-!
# The driver refines a flat array

A flat array is all that a user of the driver sees of the device, the cache and their failures: it changes only
as the answers to writes say (`FlatArray.after`), and it explains every answer (`FlatArray.Allows`). One step of a
run keeps the driver sound and its array in step with the flat one (`Holds.serve`), so that a whole run does,
from a driver over a blank disk and under every plan of failures.
-/

namespace DiskArray

open Driver

namespace FlatArray

/-- The array after a request that was answered so. -/
def after (m : FlatArray) : Request → Answer → FlatArray
  | .write start length data, .transfer (.ok _) _ => m.overlay start ((data.getD []).take length)
  | .write start _ data, .transfer (.error (.device _ _ t)) _ => m.overlay start ((data.getD []).take t)
  | _, _ => m

/-- The range of a transfer lies in the array, and the buffer is large enough for it. -/
def Fits (start length : Nat) (buffer : Option (List UInt8)) : Prop :=
  (start + length ≤ totalSize ∨ length = 0) ∧ length ≤ (buffer.getD []).length

/-- The answers to a request that the array explains. A transfer that the device stopped was done up to the
boundary between two blocks; one that was refused left the buffer as it was. -/
def Allows (m : FlatArray) : Request → Answer → Prop
  | .read start length buffer, .transfer (.ok n) out =>
    n = length ∧ Fits start length buffer ∧ out = buffer.map fun old => m.slice start length ++ old.drop length
  | .read start length buffer, .transfer (.error (.device _ _ t)) out =>
    StopsAt start length t ∧ Fits start length buffer ∧
      out = buffer.map fun old => m.slice start t ++ old.drop t
  | .read _ _ buffer, .transfer (.error _) out => out = buffer
  | .write start length data, .transfer (.ok n) out => n = length ∧ Fits start length data ∧ out = data
  | .write start length data, .transfer (.error (.device _ _ t)) out =>
    StopsAt start length t ∧ Fits start length data ∧ out = data
  | .write _ _ data, .transfer (.error _) out => out = data
  | .read _ _ _, .state _ => False
  | .write _ _ _, .state _ => False
  | _, .transfer _ _ => False
  | _, .state _ => True

/-- The array after all requests of a run. -/
def replay (m : FlatArray) : List (Request × Answer) → FlatArray
  | [] => m
  | (r, a) :: rest => (m.after r a).replay rest

/-- Every answer of a run is explained by the array as it was when the request was made. -/
def Explains (m : FlatArray) : List (Request × Answer) → Prop
  | [] => True
  | (r, a) :: rest => m.Allows r a ∧ (m.after r a).Explains rest

end FlatArray

namespace Driver

section Lawful
variable {δ : Type} [Controller δ] [LawfulController δ] {d d' : Driver δ} {m : FlatArray}

/-- The driver is sound, and its array holds the bytes of `m`. -/
structure Holds (d : Driver δ) (m : FlatArray) : Prop where
  sound : d.Sound
  bytes : d.bytes = m

/-! ### The state of the array -/

theorem Holds.of_device (h : d.Holds m) (hd : d' = { d with device := d'.device })
    (hblocks : d'.view.blocks = d.view.blocks) : d'.Holds m := by
  have hcache : d'.cache = d.cache := by rw [hd]
  refine ⟨?_, ?_⟩
  · rw [Sound, hcache, hblocks]
    exact h.sound
  · rw [Driver.bytes, hblocks]
    exact h.bytes

theorem Holds.issue (h : d.Holds m) {op : Operation} (hop : op.command ≠ .writeBlock) (buffer : Option Block)
    (done : Nat) : (d.issue op buffer done).Ensures (fun d' _ => d'.Holds m) (fun d' _ => d'.Holds m) :=
  (d.issue_ensures op buffer done).mono (fun _ _ ⟨hd', hv⟩ => h.of_device hd' (hv.blocks_eq hop))
    fun _ _ ⟨hd', hv, _⟩ => h.of_device hd' (by rw [hv])

theorem Holds.mount (h : d.Holds m) :
    d.mount.Ensures (fun d' _ => d'.Holds m) (fun d' _ => d'.Holds m) := by
  unfold Driver.mount
  split_ifs with hmounted
  · exact h
  · refine (h.issue (by decide) none 0).andThen (fun d' _ hd' => ?_) fun _ _ hd' => hd'
    exact ⟨hd'.sound, hd'.bytes⟩

theorem Holds.unmount (h : d.Holds m) :
    d.unmount.Ensures (fun d' _ => d'.Holds m) (fun d' _ => d'.Holds m) := by
  unfold Driver.unmount
  split_ifs with hmounted
  · refine (h.issue (by decide) none 0).andThen (fun d' _ hd' => ?_) fun _ _ hd' => hd'
    exact ⟨hd'.sound, hd'.bytes⟩
  · exact h

theorem Holds.sign (h : d.Holds m) (disk block : UInt8) :
    (d.sign disk block).Ensures (fun d' _ => d'.Holds m) (fun d' _ => d'.Holds m) := by
  unfold Driver.sign
  split_ifs with hmounted hrange
  · exact h
  · exact h
  · refine seek_issue_ensures h.sound _ 0 (fun d' _ hd' hperforms => ?_) fun d' _ _ hleads => ?_
    · exact h.of_device hd' (hperforms.blocks_eq (by decide))
    · exact ⟨hleads.sound, hleads.bytes.trans h.bytes⟩

/-! ### One step -/

theorem fits_of_bufferTooSmall {start length : Nat} {buffer : Option (List UInt8)}
    (hrange : start + length ≤ totalSize ∨ length = 0) (hbuffer : bufferTooSmall buffer length = false) :
    FlatArray.Fits start length buffer :=
  ⟨hrange, le_length_of_bufferTooSmall hbuffer⟩

theorem Holds.read (h : d.Holds m) (start length : Nat) (buffer : Option (List UInt8)) :
    m.Allows (.read start length buffer) (d.serve (.read start length buffer)).1 ∧
      (d.serve (.read start length buffer)).2.Holds m := by
  have hread := read_ensures h.sound start length buffer
  obtain rfl := h.bytes
  unfold Outcome.Ensures at hread
  simp only [serve]
  cases hr : (d.read start length buffer).result with
  | ok n =>
    rw [hr] at hread
    obtain ⟨hn, hrange, hsmall, hbuffer, hd'⟩ := hread
    exact ⟨⟨hn, fits_of_bufferTooSmall (Or.inl hrange) hsmall, hbuffer⟩, hd'.sound, hd'.bytes⟩
  | error e =>
    rw [hr] at hread
    obtain ⟨hd', hstopped | ⟨hrefuse, hbuffer⟩⟩ := hread
    · obtain ⟨t, hstop, ⟨command, source, rfl⟩, hrange, hsmall, hbuffer⟩ := hstopped
      exact ⟨⟨hstop, fits_of_bufferTooSmall (Or.inl hrange) hsmall, hbuffer⟩, hd'.sound, hd'.bytes⟩
    · refine ⟨?_, hd'.sound, hd'.bytes⟩
      cases e with
      | device command source t => exact absurd ⟨command, source, rfl⟩ (not_deviceFailed_of_refuseRead? hrefuse)
      | _ => exact hbuffer

theorem Holds.write (h : d.Holds m) (start length : Nat) (data : Option (List UInt8)) :
    m.Allows (.write start length data) (d.serve (.write start length data)).1 ∧
      (d.serve (.write start length data)).2.Holds
        (m.after (.write start length data) (d.serve (.write start length data)).1) := by
  have hwrite := write_ensures h.sound start length data
  obtain rfl := h.bytes
  unfold Outcome.Ensures at hwrite
  simp only [serve]
  cases hr : (d.write start length data).result with
  | ok n =>
    rw [hr] at hwrite
    obtain ⟨hn, hrange, hsmall, hd', hbytes⟩ := hwrite
    exact ⟨⟨hn, fits_of_bufferTooSmall hrange hsmall, rfl⟩, hd'.sound, hbytes⟩
  | error e =>
    rw [hr] at hwrite
    obtain ⟨hd', hstopped | ⟨hrefuse, hbytes⟩⟩ := hwrite
    · obtain ⟨t, hstop, ⟨command, source, rfl⟩, hrange, hsmall, hbytes⟩ := hstopped
      exact ⟨⟨hstop, fits_of_bufferTooSmall (Or.inl hrange) hsmall, rfl⟩, hd'.sound, hbytes⟩
    · cases e with
      | device command source t => exact absurd ⟨command, source, rfl⟩ (not_deviceFailed_of_refuseWrite? hrefuse)
      | _ => exact ⟨rfl, hd'.sound, hbytes⟩

/-- A request is answered as the array explains, and changes it as the answer says. -/
theorem Holds.serve (h : d.Holds m) (r : Request) :
    m.Allows r (d.serve r).1 ∧ (d.serve r).2.Holds (m.after r (d.serve r).1) := by
  cases r with
  | mount => exact ⟨trivial, h.mount.state⟩
  | unmount => exact ⟨trivial, h.unmount.state⟩
  | grant => exact ⟨trivial, h.sound, h.bytes⟩
  | revoke => exact ⟨trivial, h.sound, h.bytes⟩
  | read start length buffer =>
    obtain ⟨hallows, hd'⟩ := h.read start length buffer
    exact ⟨hallows, hd'⟩
  | write start length data => exact h.write start length data
  | sign disk block => exact ⟨trivial, (h.sign disk block).state⟩

theorem Holds.serveCache (h : d.Holds m) (r : Cache.Request) : (d.serveCache r).state.Holds m :=
  ⟨Cache.Coherent.serve h.sound r, h.bytes⟩

theorem Holds.lookup (h : d.Holds m) (id : BlockId) : (d.lookup id).Holds m := by
  unfold Driver.lookup
  split
  · rename_i b cache hl
    exact ⟨Cache.Coherent.lookup h.sound hl, h.bytes⟩
  · exact h

/-! ### Runs -/

/-- A whole run is explained by the array, and leaves the driver holding what the array was changed to. -/
theorem Holds.run (h : d.Holds m) (steps : List Step) :
    m.Explains (d.run steps).1 ∧ (d.run steps).2.Holds (m.replay (d.run steps).1) := by
  induction steps generalizing d m with
  | nil => exact ⟨trivial, h⟩
  | cons step steps ih =>
    cases step with
    | request r =>
      obtain ⟨hallows, hd'⟩ := h.serve r
      obtain ⟨hexplains, hlast⟩ := ih hd'
      exact ⟨⟨hallows, hexplains⟩, hlast⟩
    | cache r => exact ih (h.serveCache r)
    | lookup id => exact ih (h.lookup id)

end Lawful

/-! ### Planned failures -/

/-- A new driver over a blank disk. The calls of the device and those of the disk fail as planned. -/
def scripted (policy : EvictionPolicy) (devicePlan : Fault.Plan Command DeviceError)
    (diskPlan : Fault.Plan Access DiskError) : Driver (FaultyDevice (Device (FaultyDisk MemoryDisk))) where
  device := { device := { backing := { disk := .blank, plan := diskPlan } }, plan := devicePlan }
  cache := .unused policy

/-- The disk of such a driver. -/
def disk (d : Driver (FaultyDevice (Device (FaultyDisk MemoryDisk)))) : MemoryDisk :=
  d.device.device.backing.disk

variable (policy : EvictionPolicy) (devicePlan : Fault.Plan Command DeviceError)
  (diskPlan : Fault.Plan Access DiskError) (steps : List Step)

theorem bytes_eq_disk (d : Driver (FaultyDevice (Device (FaultyDisk MemoryDisk)))) : d.bytes = d.disk.byte :=
  (MemoryDisk.byte_eq d.disk).symm

theorem holds_scripted : (scripted policy devicePlan diskPlan).Holds .zero where
  sound := .unused policy _
  bytes := by
    funext a
    show FlatArray.ofBlocks (blockAt MemoryDisk.blank) a = 0
    have hmod := mod_blockSize_lt a
    rw [FlatArray.ofBlocks_eq _ hmod, MemoryDisk.blockAt_blank, Block.getElem_zero]

/-- Whatever is asked of a driver and whichever calls fail, each answer is explained by a flat array that changes
only as the answers to writes say, and the disk holds the bytes of that array. -/
theorem run_refines_flatArray :
    FlatArray.zero.Explains ((scripted policy devicePlan diskPlan).run steps).1 ∧
      ((scripted policy devicePlan diskPlan).run steps).2.disk.byte =
        FlatArray.zero.replay ((scripted policy devicePlan diskPlan).run steps).1 := by
  obtain ⟨hexplains, hholds⟩ := (holds_scripted policy devicePlan diskPlan).run steps
  refine ⟨hexplains, ?_⟩
  rw [← bytes_eq_disk]
  exact hholds.bytes

/-- Whatever is asked of a driver and whichever calls fail, the cache holds blocks of the array alone, and of each
the bytes that the disk holds there. -/
theorem cached_block_eq_disk {e : Cache.Entry}
    (he : some e ∈ ((scripted policy devicePlan diskPlan).run steps).2.cache.slots) :
    e.id.disk < diskCount ∧ e.id.block < blocksPerDisk ∧
      e.block.toList = ((scripted policy devicePlan diskPlan).run steps).2.disk.bytes
        (diskSize * e.id.disk + blockSize * e.id.block) blockSize := by
  obtain ⟨-, hholds⟩ := (holds_scripted policy devicePlan diskPlan).run steps
  have hmem := Cache.mem_entries.2 he
  obtain ⟨hdisk, hblock⟩ := hholds.sound.inArray e hmem
  refine ⟨hdisk, hblock, ?_⟩
  have hcached := hholds.sound.block_eq e hmem
  have haddress : 65536 * e.id.disk + 256 * e.id.block = e.id.flat * 256 := by
    show _ = (e.id.disk * 256 + e.id.block) * 256
    omega
  have hwhole : e.id.flat * blockSize % blockSize + blockSize ≤ blockSize := by
    refine Nat.le_of_eq ?_
    rw [Nat.mul_mod_left, Nat.zero_add]
  have hslice := FlatArray.slice_ofBlocks ((scripted policy devicePlan diskPlan).run steps).2.view.blocks hwhole
  rw [Nat.mul_mod_left, Nat.mul_div_cancel _ (by decide), ← hcached, ← bytes, bytes_eq_disk] at hslice
  show e.block.toList = FlatArray.slice _ (65536 * e.id.disk + 256 * e.id.block) blockSize
  rw [haddress, ← hslice, Block.slice, List.drop_zero, List.take_of_length_le (by simp)]

/-- A block that was written in part is in the cache as a whole. -/
theorem cached_block_eq_disk_of_write :
    ∃ d, d = ((scripted .leastRecent [] []).run
        [.cache (.create 2), .request .mount, .request .grant, .request (.write 0 1 (some [7]))]).2 ∧
      some ⟨⟨0, 0⟩, Block.ofBytes [7], 2⟩ ∈ d.cache.slots ∧
      (Block.ofBytes [7]).toList = d.disk.bytes 0 blockSize := by
  refine ⟨_, rfl, ?_⟩
  have hchunks : chunks 0 1 = [⟨0, 1⟩] := by decide +kernel
  have hmem : some ⟨⟨0, 0⟩, Block.ofBytes [7], 2⟩ ∈ ((scripted .leastRecent [] []).run
      [.cache (.create 2), .request .mount, .request .grant, .request (.write 0 1 (some [7]))]).2.cache.slots := by
    rw [← Block.zero_overlay]
    simp only [run, serve, Driver.write, hchunks]
    exact List.mem_cons_self
  exact ⟨hmem, (cached_block_eq_disk .leastRecent [] [] _ hmem).2.2⟩

end Driver

end DiskArray
