import DiskArray.Proofs.Device.Calls
import DiskArray.Proofs.Device.Effect

/-!
# Devices that mirror each other

The same device over two disks, which may be of different kinds. As long as both disks are reliable and hold the same
array, no call tells them apart: the devices answer the same, and afterwards they are again the same over disks that
hold the same (`Mirrors.operate`, `Mirrors.callAll`).
-/

namespace DiskArray

/-- What calls answer, one after the other: the results, with the callers' buffers. -/
def replies {δ : Type} [Controller δ] (x : δ) :
    List (UInt32 × Option Block) → List (Except DeviceError Unit × Option Block)
  | [] => []
  | (code, buffer) :: rest =>
    let reply := Controller.operate x code buffer
    (reply.result, reply.buffer) :: replies reply.device rest

namespace Device

variable {β γ : Type}

/-- The device over another disk. -/
def withDisk (d : Device β) (m : γ) : Device γ :=
  { backing := m
    mounted := d.mounted
    writable := d.writable
    disk := d.disk
    block := d.block
    signatures := d.signatures
    tally := d.tally }

variable [Backing β] [BlockView β] [ReliableBacking β] [Backing γ] [BlockView γ] [ReliableBacking γ]

/-- Two disks that hold the same array and never fail. -/
structure SameArray (m : β) (m' : γ) : Prop where
  ready : ReliableBacking.Ready m
  ready' : ReliableBacking.Ready m'
  blocks : ∀ i < blockCount, blockAt m' i = blockAt m i

/-- The second device is the first one over another disk, which holds the same. -/
def Mirrors (d : Device β) (d' : Device γ) : Prop := ∃ m', d' = d.withDisk m' ∧ SameArray d.backing m'

/-- Two replies that the caller cannot tell apart. -/
structure SameReply (r : Reply (Device β)) (r' : Reply (Device γ)) : Prop where
  result : r'.result = r.result
  buffer : r'.buffer = r.buffer
  mirrors : r.device.Mirrors r'.device

variable {m : β} {m' : γ} {d : Device β} {d' : Device γ} {i : Nat}

theorem SameArray.readBlock (h : SameArray m m') (hi : i < blockCount) :
    Backing.readBlock m i = (.ok (blockAt m i), m) ∧ Backing.readBlock m' i = (.ok (blockAt m i), m') := by
  refine ⟨ReliableBacking.readBlock_eq h.ready hi, ?_⟩
  rw [← h.blocks i hi]
  exact ReliableBacking.readBlock_eq h.ready' hi

theorem SameArray.writeBlock (h : SameArray m m') (hi : i < blockCount) (b : Block) :
    ∃ n n', Backing.writeBlock m i b = (.ok (), n) ∧ Backing.writeBlock m' i b = (.ok (), n') ∧ SameArray n n' := by
  obtain ⟨n, hwrite, hready, hblocks⟩ := ReliableBacking.writeBlock_eq b h.ready hi
  obtain ⟨n', hwrite', hready', hblocks'⟩ := ReliableBacking.writeBlock_eq b h.ready' hi
  refine ⟨n, n', hwrite, hwrite', hready, hready', ?_⟩
  intro j hj
  rw [hblocks, hblocks']
  by_cases hji : j = i
  · rw [hji, Function.update_self, Function.update_self]
  · rw [Function.update_of_ne hji, Function.update_of_ne hji, h.blocks j hj]

/-! ### One call -/

theorem sameReply_refuse (h : SameArray d.backing m') (buffer : Option Block) (e : DeviceError) :
    SameReply (d.refuse buffer e) ((d.withDisk m').refuse buffer e) := ⟨rfl, rfl, m', rfl, h⟩

theorem sameReply_readAtCursor (h : SameArray d.backing m') (buffer : Option Block) :
    SameReply (d.readAtCursor buffer) ((d.withDisk m').readAtCursor buffer) := by
  have hcursor : (d.withDisk m').cursor? = d.cursor? := rfl
  cases buffer with
  | none => exact sameReply_refuse h none .badRead
  | some old =>
    unfold readAtCursor
    rw [hcursor]
    by_cases hlt : d.block < blocksPerDisk
    · obtain ⟨hread, hread'⟩ := h.readBlock (flat_lt hlt)
      simp only [cursor?_of_lt hlt, withDisk, hread, hread']
      exact ⟨rfl, rfl, m', rfl, h⟩
    · have hnone : d.cursor? = none := if_neg hlt
      rw [hnone]
      exact sameReply_refuse h (some old) .badBlockNumber

theorem sameReply_writeAtCursor (h : SameArray d.backing m') (buffer : Option Block) :
    SameReply (d.writeAtCursor buffer) ((d.withDisk m').writeAtCursor buffer) := by
  have hcursor : (d.withDisk m').cursor? = d.cursor? := rfl
  cases buffer with
  | none => exact sameReply_refuse h none .badWrite
  | some data =>
    unfold writeAtCursor
    rw [hcursor]
    by_cases hlt : d.block < blocksPerDisk
    · obtain ⟨n, n', hwrite, hwrite', hsame⟩ := h.writeBlock (flat_lt hlt) data
      simp only [cursor?_of_lt hlt, withDisk, hwrite, hwrite']
      exact ⟨rfl, rfl, n', rfl, hsame⟩
    · have hnone : d.cursor? = none := if_neg hlt
      rw [hnone]
      exact sameReply_refuse h (some data) .badBlockNumber

theorem sameReply_signAtCursor (h : SameArray d.backing m') (buffer : Option Block) :
    SameReply (d.signAtCursor buffer) ((d.withDisk m').signAtCursor buffer) := by
  have hcursor : (d.withDisk m').cursor? = d.cursor? := rfl
  unfold signAtCursor
  rw [hcursor]
  by_cases hlt : d.block < blocksPerDisk
  · obtain ⟨hread, hread'⟩ := h.readBlock (flat_lt hlt)
    simp only [cursor?_of_lt hlt, withDisk, hread, hread']
    exact ⟨rfl, rfl, m', rfl, h⟩
  · have hnone : d.cursor? = none := if_neg hlt
    rw [hnone]
    exact sameReply_refuse h buffer .badBlockNumber

theorem sameReply_execute (h : SameArray d.backing m') (op : Operation) (buffer : Option Block) :
    SameReply (d.execute op buffer) ((d.withDisk m').execute op buffer) := by
  obtain ⟨command, disk, block⟩ := op
  obtain ⟨backing, mounted, writable, atDisk, atBlock, signatures, tally⟩ := d
  cases mounted with
  | false =>
    -- only mounting does anything, and it does without the disk
    cases command <;> exact ⟨rfl, rfl, m', rfl, h⟩
  | true =>
    cases command with
    | readBlock => exact sameReply_readAtCursor h buffer
    | writeBlock => exact sameReply_writeAtCursor h buffer
    | signBlock => exact sameReply_signAtCursor h buffer
    | writePermission => cases writable <;> exact ⟨rfl, rfl, m', rfl, h⟩
    | revokeWritePermission => cases writable <;> exact ⟨rfl, rfl, m', rfl, h⟩
    | _ => exact ⟨rfl, rfl, m', rfl, h⟩

theorem Mirrors.operate (h : d.Mirrors d') (code : UInt32) (buffer : Option Block) :
    SameReply (Controller.operate d code buffer) (Controller.operate d' code buffer) := by
  obtain ⟨m', rfl, hsame⟩ := h
  show SameReply (d.operate code buffer) ((d.withDisk m').operate code buffer)
  cases hop : Operation.decode code with
  | error e =>
    rw [operate_of_decode_error hop, operate_of_decode_error hop]
    exact sameReply_refuse hsame buffer e
  | ok op =>
    obtain ⟨hresult, hbuffer, hdevice⟩ := operate_of_decode hop d buffer
    obtain ⟨hresult', hbuffer', hdevice'⟩ := operate_of_decode hop (d.withDisk m') buffer
    have hreply := sameReply_execute (d := { d with tally := d.tally.bump op.command }) hsame op buffer
    refine ⟨?_, ?_, ?_⟩
    · rw [hresult, hresult']
      exact hreply.result
    · rw [hbuffer, hbuffer']
      exact hreply.buffer
    · rw [hdevice, hdevice']
      exact hreply.mirrors

/-! ### Calls in a row -/

/-- No calls tell the devices apart. -/
theorem Mirrors.callAll (h : d.Mirrors d') (calls : List (UInt32 × Option Block)) :
    replies d' calls = replies d calls ∧ (DiskArray.callAll d calls).Mirrors (DiskArray.callAll d' calls) := by
  induction calls generalizing d d' with
  | nil => exact ⟨rfl, h⟩
  | cons call calls ih =>
    obtain ⟨code, buffer⟩ := call
    obtain ⟨hresult, hbuffer, hmirrors⟩ := h.operate code buffer
    obtain ⟨hreplies, hlater⟩ := ih hmirrors
    refine ⟨?_, hlater⟩
    simp only [replies, hresult, hbuffer, hreplies]

end Device

end DiskArray
