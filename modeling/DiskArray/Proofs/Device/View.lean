import DiskArray.Device.Faulty
import DiskArray.Proofs.Backing.Lawful
import DiskArray.Proofs.Device.Effect

/-!
# What the device does

The state of a device without its counters and without the way its disk keeps the blocks (`Device.View`),
and the effect of each command on it (`View.Performs`). An operation that succeeds has that effect, and one
that fails has none (`View.Yields`). This holds of the device over every lawful disk (`Device.operate_yields`)
and behind every controller that passes calls on or fails them, such as a device whose calls fail as planned
(`LawfulController`).
-/

namespace DiskArray

namespace Operation

theorem toNat_encode (op : Operation) :
    op.encode.toNat = op.command.code.val <<< 12 + op.block.val <<< 4 + op.disk := by
  have hcode := op.command.code.isLt
  have hblock : op.block.val < 256 := op.block.isLt
  have hdisk : op.disk.val < 16 := op.disk.isLt
  rw [encode, UInt32.toNat_ofNat', Nat.mod_eq_of_lt]
  simp only [Nat.shiftLeft_eq]
  omega

theorem decode_encode (op : Operation) : decode op.encode = .ok op := by
  have hcode := op.command.code.isLt
  have hblock : op.block.val < 256 := op.block.isLt
  have hdisk : op.disk.val < 16 := op.disk.isLt
  have hnat := toNat_encode op
  simp only [Nat.shiftLeft_eq] at hnat
  have hcommand : op.encode.toNat >>> 12 = op.command.code := by
    rw [Nat.shiftRight_eq_div_pow]
    omega
  have hdisk' : Fin.ofNat diskCount op.encode.toNat = op.disk := by
    apply Fin.ext
    show op.encode.toNat % 16 = op.disk
    omega
  have hblock' : Fin.ofNat blocksPerDisk (op.encode.toNat >>> 4) = op.block := by
    apply Fin.ext
    show op.encode.toNat >>> 4 % 256 = op.block
    rw [Nat.shiftRight_eq_div_pow]
    omega
  rw [decode, hcommand, Command.ofCode?_code]
  simp only [of, hdisk', hblock']

end Operation

namespace Device

/-- The state of a device that its commands are about. -/
@[ext] structure View where
  blocks : Nat → Block
  mounted : Bool
  writable : Bool
  disk : Fin diskCount
  block : Nat
  signatures : SignatureTable

namespace View

/-- The flat number of the block under the cursor. -/
def cursor (v : View) : Nat := BlockId.flat ⟨v.disk, v.block⟩

/-- What a command does that succeeds: the state and the buffer before and afterwards. -/
def Performs (v : View) (op : Operation) (buffer : Option Block) (v' : View) (buffer' : Option Block) : Prop :=
  match op.command with
  | .mount => v' = { v with mounted := true } ∧ buffer' = buffer
  | .unmount => v' = { v with mounted := false } ∧ buffer' = buffer
  | .seekToDisk => v' = { v with disk := op.disk } ∧ buffer' = buffer
  | .seekToBlock => v' = { v with block := op.block } ∧ buffer' = buffer
  | .readBlock =>
    v.block < blocksPerDisk ∧ v' = { v with block := v.block + 1 } ∧
      buffer.isSome ∧ buffer' = some (v.blocks v.cursor)
  | .writeBlock =>
    v.block < blocksPerDisk ∧ buffer' = buffer ∧
      ∃ b, buffer = some b ∧
        v' = { v with blocks := Function.update v.blocks v.cursor b, block := v.block + 1 }
  | .signBlock =>
    v.block < blocksPerDisk ∧ buffer' = buffer ∧
      v' = { v with
        signatures := v.signatures.sign (.ofNat v.disk) (.ofNat v.block) (v.blocks v.cursor) }
  | .writePermission => v' = { v with writable := true } ∧ buffer' = buffer
  | .revokeWritePermission => v' = { v with writable := false } ∧ buffer' = buffer
  | .reserved => False

theorem Performs.blocks_eq {v v' : View} {op : Operation} {buffer buffer' : Option Block}
    (h : v.Performs op buffer v' buffer') (hop : op.command ≠ .writeBlock) : v'.blocks = v.blocks := by
  obtain ⟨command, disk, block⟩ := op
  cases command with
  | writeBlock => exact absurd rfl hop
  | reserved => exact h.elim
  | readBlock =>
    obtain ⟨_, rfl, _⟩ := h
    rfl
  | signBlock =>
    obtain ⟨_, _, rfl⟩ := h
    rfl
  | _ =>
    obtain ⟨rfl, _⟩ := h
    rfl

theorem Performs.signatures_eq {v v' : View} {op : Operation} {buffer buffer' : Option Block}
    (h : v.Performs op buffer v' buffer') (hop : op.command ≠ .signBlock) : v'.signatures = v.signatures := by
  obtain ⟨command, disk, block⟩ := op
  cases command with
  | signBlock => exact absurd rfl hop
  | reserved => exact h.elim
  | readBlock =>
    obtain ⟨_, rfl, _⟩ := h
    rfl
  | writeBlock =>
    obtain ⟨_, _, b, _, rfl⟩ := h
    rfl
  | _ =>
    obtain ⟨rfl, _⟩ := h
    rfl

/-- What an operation leads to: the effect of its command if it succeeds, and nothing if it fails. -/
def Yields (v : View) (op : Operation) (buffer : Option Block) (result : Except DeviceError Unit) (v' : View)
    (buffer' : Option Block) : Prop :=
  match result with
  | .ok _ => v.Performs op buffer v' buffer'
  | .error _ => v' = v ∧ buffer' = buffer

end View

section Lawful
variable {β : Type}

theorem cursor?_eq_some {d : Device β} {id : BlockId} (h : d.cursor? = some id) :
    d.block < blocksPerDisk ∧ id = ⟨d.disk, d.block⟩ := by
  rw [cursor?] at h
  split_ifs at h with hlt
  exact ⟨hlt, (Option.some.inj h).symm⟩

variable [BlockView β]

/-- What a device shows of its state. -/
def view (d : Device β) : View :=
  { blocks := blockAt d.backing
    mounted := d.mounted
    writable := d.writable
    disk := d.disk
    block := d.block
    signatures := d.signatures }

variable [Backing β] [LawfulBacking β] (d : Device β) {op : Operation} (buffer : Option Block)

/-! ### Transfers -/

theorem readAtCursor_yields (hop : op.command = .readBlock) :
    d.view.Yields op buffer (d.readAtCursor buffer).result (d.readAtCursor buffer).device.view
      (d.readAtCursor buffer).buffer := by
  unfold readAtCursor
  split
  · exact ⟨rfl, rfl⟩
  · exact ⟨rfl, rfl⟩
  · rename_i b id hid
    obtain ⟨hlt, rfl⟩ := cursor?_eq_some hid
    have hblocks := LawfulBacking.blockAt_readBlock d.backing (BlockId.flat ⟨d.disk, d.block⟩)
    split
    · rename_i data backing hread
      rw [hread] at hblocks
      have hdata := LawfulBacking.eq_of_readBlock (congrArg Prod.fst hread)
      simp only [View.Yields, accept, View.Performs, hop]
      exact ⟨hlt, View.ext hblocks rfl rfl rfl rfl rfl, rfl, congrArg some hdata⟩
    · rename_i err backing hread
      rw [hread] at hblocks
      exact ⟨View.ext hblocks rfl rfl rfl rfl rfl, rfl⟩

theorem writeAtCursor_yields (hop : op.command = .writeBlock) :
    d.view.Yields op buffer (d.writeAtCursor buffer).result (d.writeAtCursor buffer).device.view
      (d.writeAtCursor buffer).buffer := by
  unfold writeAtCursor
  split
  · exact ⟨rfl, rfl⟩
  · exact ⟨rfl, rfl⟩
  · rename_i b id hid
    obtain ⟨hlt, rfl⟩ := cursor?_eq_some hid
    split
    · rename_i backing hwrite
      have hblocks := LawfulBacking.blockAt_writeBlock (congrArg Prod.fst hwrite)
      rw [hwrite] at hblocks
      simp only [View.Yields, accept, View.Performs, hop]
      exact ⟨hlt, trivial, b, rfl, View.ext hblocks rfl rfl rfl rfl rfl⟩
    · rename_i err backing hwrite
      have hblocks := LawfulBacking.blockAt_writeBlock_error (congrArg Prod.fst hwrite)
      rw [hwrite] at hblocks
      exact ⟨View.ext hblocks rfl rfl rfl rfl rfl, rfl⟩

theorem signAtCursor_yields (hop : op.command = .signBlock) :
    d.view.Yields op buffer (d.signAtCursor buffer).result (d.signAtCursor buffer).device.view
      (d.signAtCursor buffer).buffer := by
  unfold signAtCursor
  split
  · exact ⟨rfl, rfl⟩
  · rename_i id hid
    obtain ⟨hlt, rfl⟩ := cursor?_eq_some hid
    have hblocks := LawfulBacking.blockAt_readBlock d.backing (BlockId.flat ⟨d.disk, d.block⟩)
    split
    · rename_i data backing hread
      rw [hread] at hblocks
      have hdata := LawfulBacking.eq_of_readBlock (congrArg Prod.fst hread)
      simp only [View.Yields, accept, View.Performs, hop]
      refine ⟨hlt, trivial, View.ext hblocks rfl rfl rfl rfl ?_⟩
      rw [hdata]
      rfl
    · rename_i err backing hread
      rw [hread] at hblocks
      exact ⟨View.ext hblocks rfl rfl rfl rfl rfl, rfl⟩

/-! ### Operations -/

theorem execute_yields (op : Operation) :
    d.view.Yields op buffer (d.execute op buffer).result (d.execute op buffer).device.view
      (d.execute op buffer).buffer := by
  obtain ⟨command, disk, block⟩ := op
  cases hm : d.mounted with
  | false =>
    cases command <;> simp [execute, hm, accept, refuse, View.Yields, View.Performs, view]
  | true =>
    cases command with
    | readBlock =>
      have hyields : d.view.Yields ⟨.readBlock, disk, block⟩ buffer _ _ _ := d.readAtCursor_yields buffer rfl
      simpa only [execute, hm] using hyields
    | writeBlock =>
      have hyields : d.view.Yields ⟨.writeBlock, disk, block⟩ buffer _ _ _ := d.writeAtCursor_yields buffer rfl
      simpa only [execute, hm] using hyields
    | signBlock =>
      have hyields : d.view.Yields ⟨.signBlock, disk, block⟩ buffer _ _ _ := d.signAtCursor_yields buffer rfl
      simpa only [execute, hm] using hyields
    | writePermission =>
      cases hw : d.writable <;> simp [execute, hm, hw, accept, refuse, View.Yields, View.Performs, view]
    | revokeWritePermission =>
      cases hw : d.writable <;> simp [execute, hm, hw, accept, refuse, View.Yields, View.Performs, view]
    | _ => simp [execute, hm, accept, refuse, View.Yields, View.Performs, view]

theorem operate_yields {code : UInt32} (hop : Operation.decode code = .ok op) :
    d.view.Yields op buffer (d.operate code buffer).result (d.operate code buffer).device.view
      (d.operate code buffer).buffer := by
  obtain ⟨hresult, hbuffer, hdevice⟩ := operate_of_decode hop d buffer
  rw [hresult, hbuffer, hdevice]
  exact execute_yields { d with tally := d.tally.bump op.command } buffer op

end Lawful

end Device

/-! ### Controllers -/

/-- A controller with a state that its operations change as a device's would, unless they fail. -/
class LawfulController (δ : Type) [Controller δ] where
  view : δ → Device.View
  operate_yields (f : δ) (op : Operation) (buffer : Option Block) :
    (view f).Yields op buffer (Controller.operate f op.encode buffer).result
      (view (Controller.operate f op.encode buffer).device) (Controller.operate f op.encode buffer).buffer

instance {β : Type} [Backing β] [BlockView β] [LawfulBacking β] : LawfulController (Device β) where
  view := Device.view
  operate_yields d op buffer := d.operate_yields buffer (Operation.decode_encode op)

instance {δ : Type} [Controller δ] [LawfulController δ] : LawfulController (FaultyDevice δ) where
  view f := LawfulController.view f.device
  operate_yields f op buffer := by
    show (LawfulController.view f.device).Yields op buffer (f.operate op.encode buffer).result
      (LawfulController.view (f.operate op.encode buffer).device.device) (f.operate op.encode buffer).buffer
    unfold FaultyDevice.operate
    rw [Operation.decode_encode]
    dsimp only
    split
    · exact ⟨rfl, rfl⟩
    · exact LawfulController.operate_yields f.device op buffer

end DiskArray
