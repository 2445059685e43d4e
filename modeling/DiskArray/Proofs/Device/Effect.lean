import DiskArray.Backing.Faulty
import DiskArray.Device.Basic
import Mathlib.Tactic.SplitIfs

/-!
# What one call may do

All that can come of a call (`Device.Effect`), read off the code once: it is refused, or changes one field, or goes to
the disk for the block under the cursor, which answers as it likes. Nothing is assumed of the disk. Facts about calls in
which nothing is known about the disk follow by cases.
-/

namespace DiskArray

/-- How a command with a buffer accesses the disk. -/
def Command.access? : Command → Option Block → Option Access
  | .readBlock, some _ => some .read
  | .writeBlock, some _ => some .write
  | .signBlock, _ => some .read
  | _, _ => none

namespace Device

variable {β : Type} [Backing β]

/-- The flat number of the block under the cursor. -/
def here (d : Device β) : Nat := BlockId.flat ⟨d.disk, d.block⟩

/-- The device goes to the disk for the block under its cursor. -/
structure Accesses (d : Device β) (op : Operation) (buffer : Option Block) (kind : Access) : Prop where
  mounted : d.mounted
  block_lt : d.block < blocksPerDisk
  access : op.command.access? buffer = some kind

theorem Accesses.here_lt {β : Type} {d : Device β} {op : Operation} {buffer : Option Block} {kind : Access}
    (h : d.Accesses op buffer kind) : d.here < blockCount := by
  have hdisk : d.disk.val < 16 := d.disk.isLt
  have hblock : d.block < 256 := h.block_lt
  show d.disk.val * 256 + d.block < 4096
  omega

/-- What can come of an operation: its result, the buffer and the device afterwards. -/
inductive Effect (d : Device β) (buffer : Option Block) :
    Operation → Except DeviceError Unit → Option Block → Device β → Prop where
  /-- It does without the disk, or there is no block under the cursor. -/
  | refused {op : Operation} (e : DeviceError)
      (h : d.mounted → (op.command.access? buffer).isSome → blocksPerDisk ≤ d.block ∧ e = .badBlockNumber) :
      Effect d buffer op (.error e) buffer d
  | unread {op : Operation} {e : DiskError} {m : β} (h : d.Accesses op buffer .read)
      (hm : Backing.readBlock d.backing d.here = (.error e, m)) :
      Effect d buffer op (.error .badRead) buffer { d with backing := m }
  | unwritten {op : Operation} {e : DiskError} {m : β} {data : Block} (h : d.Accesses op buffer .write)
      (hbuffer : buffer = some data) (hm : Backing.writeBlock d.backing d.here data = (.error e, m)) :
      Effect d buffer op (.error .badWrite) buffer { d with backing := m }
  | read {disk : Fin diskCount} {block : Fin blocksPerDisk} {data : Block} {m : β}
      (h : d.Accesses ⟨.readBlock, disk, block⟩ buffer .read)
      (hm : Backing.readBlock d.backing d.here = (.ok data, m)) :
      Effect d buffer ⟨.readBlock, disk, block⟩ (.ok ()) (some data) { d with backing := m, block := d.block + 1 }
  | written {disk : Fin diskCount} {block : Fin blocksPerDisk} {data : Block} {m : β}
      (h : d.Accesses ⟨.writeBlock, disk, block⟩ buffer .write) (hbuffer : buffer = some data)
      (hm : Backing.writeBlock d.backing d.here data = (.ok (), m)) :
      Effect d buffer ⟨.writeBlock, disk, block⟩ (.ok ()) buffer { d with backing := m, block := d.block + 1 }
  | signed {disk : Fin diskCount} {block : Fin blocksPerDisk} {data : Block} {m : β}
      (h : d.Accesses ⟨.signBlock, disk, block⟩ buffer .read)
      (hm : Backing.readBlock d.backing d.here = (.ok data, m)) :
      Effect d buffer ⟨.signBlock, disk, block⟩ (.ok ()) buffer
        { d with backing := m, signatures := d.signatures.sign (.ofNat d.disk) (.ofNat d.block) data }
  | mounted {disk : Fin diskCount} {block : Fin blocksPerDisk} (h : d.mounted = false) :
      Effect d buffer ⟨.mount, disk, block⟩ (.ok ()) buffer { d with mounted := true }
  | unmounted {disk : Fin diskCount} {block : Fin blocksPerDisk} (h : d.mounted) :
      Effect d buffer ⟨.unmount, disk, block⟩ (.ok ()) buffer { d with mounted := false }
  | onDisk {disk : Fin diskCount} {block : Fin blocksPerDisk} (h : d.mounted) :
      Effect d buffer ⟨.seekToDisk, disk, block⟩ (.ok ()) buffer { d with disk }
  | onBlock {disk : Fin diskCount} {block : Fin blocksPerDisk} (h : d.mounted) :
      Effect d buffer ⟨.seekToBlock, disk, block⟩ (.ok ()) buffer { d with block }
  | permitted {disk : Fin diskCount} {block : Fin blocksPerDisk} (h : d.mounted) (hw : d.writable = false) :
      Effect d buffer ⟨.writePermission, disk, block⟩ (.ok ()) buffer { d with writable := true }
  | forbidden {disk : Fin diskCount} {block : Fin blocksPerDisk} (h : d.mounted) (hw : d.writable) :
      Effect d buffer ⟨.revokeWritePermission, disk, block⟩ (.ok ()) buffer { d with writable := false }

/-- The effect that a reply tells of. -/
abbrev HasEffect (d : Device β) (op : Operation) (buffer : Option Block) (reply : Reply (Device β)) : Prop :=
  d.Effect buffer op reply.result reply.buffer reply.device

variable {d : Device β} {disk : Fin diskCount} {block : Fin blocksPerDisk}

theorem effect_refused {op : Operation} {buffer : Option Block} (e : DeviceError)
    (h : d.mounted = false ∨ op.command.access? buffer = none) : d.Effect buffer op (.error e) buffer d := by
  refine .refused e fun hm ha => ?_
  rcases h with h | h
  · rw [h] at hm
    cases hm
  · rw [h] at ha
    cases ha

theorem readAtCursor_effect (hm : d.mounted) (buffer : Option Block) :
    d.HasEffect ⟨.readBlock, disk, block⟩ buffer (d.readAtCursor buffer) := by
  cases buffer with
  | none => exact effect_refused _ (Or.inr rfl)
  | some old =>
    unfold readAtCursor cursor?
    split_ifs with hlt
    · dsimp only
      split
      · rename_i hread
        exact .read ⟨hm, hlt, rfl⟩ hread
      · rename_i hread
        exact .unread ⟨hm, hlt, rfl⟩ hread
    · exact .refused _ fun _ _ => ⟨Nat.le_of_not_lt hlt, rfl⟩

theorem writeAtCursor_effect (hm : d.mounted) (buffer : Option Block) :
    d.HasEffect ⟨.writeBlock, disk, block⟩ buffer (d.writeAtCursor buffer) := by
  cases buffer with
  | none => exact effect_refused _ (Or.inr rfl)
  | some data =>
    unfold writeAtCursor cursor?
    split_ifs with hlt
    · dsimp only
      split
      · rename_i hwrite
        exact .written ⟨hm, hlt, rfl⟩ rfl hwrite
      · rename_i hwrite
        exact .unwritten ⟨hm, hlt, rfl⟩ rfl hwrite
    · exact .refused _ fun _ _ => ⟨Nat.le_of_not_lt hlt, rfl⟩

theorem signAtCursor_effect (hm : d.mounted) (buffer : Option Block) :
    d.HasEffect ⟨.signBlock, disk, block⟩ buffer (d.signAtCursor buffer) := by
  unfold signAtCursor cursor?
  split_ifs with hlt
  · dsimp only
    split
    · rename_i hread
      exact .signed ⟨hm, hlt, rfl⟩ hread
    · rename_i hread
      exact .unread ⟨hm, hlt, rfl⟩ hread
  · exact .refused _ fun _ _ => ⟨Nat.le_of_not_lt hlt, rfl⟩

theorem execute_effect (d : Device β) (op : Operation) (buffer : Option Block) :
    d.HasEffect op buffer (d.execute op buffer) := by
  obtain ⟨command, disk, block⟩ := op
  obtain ⟨backing, mounted, writable, atDisk, atBlock, signatures, tally⟩ := d
  cases mounted with
  | false =>
    cases command with
    | mount => exact .mounted rfl
    | _ => exact effect_refused _ (Or.inl rfl)
  | true =>
    cases command with
    | mount => exact effect_refused _ (Or.inr rfl)
    | unmount => exact .unmounted rfl
    | seekToDisk => exact .onDisk rfl
    | seekToBlock => exact .onBlock rfl
    | readBlock => exact readAtCursor_effect rfl buffer
    | writeBlock => exact writeAtCursor_effect rfl buffer
    | signBlock => exact signAtCursor_effect rfl buffer
    | reserved => exact effect_refused _ (Or.inr rfl)
    | writePermission =>
      cases writable with
      | true => exact effect_refused _ (Or.inr rfl)
      | false => exact .permitted rfl rfl
    | revokeWritePermission =>
      cases writable with
      | true => exact .forbidden rfl rfl
      | false => exact effect_refused _ (Or.inr rfl)

theorem operate_of_decode {code : UInt32} {op : Operation} (h : Operation.decode code = .ok op) (d : Device β)
    (buffer : Option Block) :
    (d.operate code buffer).result = (execute { d with tally := d.tally.bump op.command } op buffer).result ∧
      (d.operate code buffer).buffer = (execute { d with tally := d.tally.bump op.command } op buffer).buffer ∧
      (d.operate code buffer).device = (execute { d with tally := d.tally.bump op.command } op buffer).device := by
  unfold operate
  rw [h]
  dsimp only
  split
  · exact ⟨rfl, rfl, rfl⟩
  · exact ⟨rfl, rfl, rfl⟩

theorem operate_effect {code : UInt32} {op : Operation} (h : Operation.decode code = .ok op) (d : Device β)
    (buffer : Option Block) :
    HasEffect { d with tally := d.tally.bump op.command } op buffer (d.operate code buffer) := by
  obtain ⟨hresult, hbuffer, hdevice⟩ := operate_of_decode h d buffer
  rw [HasEffect, hresult, hbuffer, hdevice]
  exact execute_effect _ op buffer

theorem operate_of_decode_error {code : UInt32} {e : DeviceError} (h : Operation.decode code = .error e) (d : Device β)
    (buffer : Option Block) : d.operate code buffer = d.refuse buffer e := by
  rw [operate, h]

/-! ### What calls keep -/

theorem Effect.backing {op : Operation} {buffer buffer' : Option Block} {result : Except DeviceError Unit}
    {d' : Device β} (h : d.Effect buffer op result buffer' d') :
    d'.backing = d.backing ∨
      (∃ i < blockCount, d'.backing = (Backing.readBlock d.backing i).2) ∨
      ∃ i < blockCount, ∃ b, d'.backing = (Backing.writeBlock d.backing i b).2 := by
  cases h with
  | unread h hm => exact Or.inr (Or.inl ⟨_, h.here_lt, (congrArg Prod.snd hm).symm⟩)
  | read h hm => exact Or.inr (Or.inl ⟨_, h.here_lt, (congrArg Prod.snd hm).symm⟩)
  | signed h hm => exact Or.inr (Or.inl ⟨_, h.here_lt, (congrArg Prod.snd hm).symm⟩)
  | unwritten h _ hm => exact Or.inr (Or.inr ⟨_, h.here_lt, _, (congrArg Prod.snd hm).symm⟩)
  | written h _ hm => exact Or.inr (Or.inr ⟨_, h.here_lt, _, (congrArg Prod.snd hm).symm⟩)
  | _ => exact Or.inl rfl

theorem Effect.signatures {op : Operation} {buffer buffer' : Option Block} {result : Except DeviceError Unit}
    {d' : Device β} (h : d.Effect buffer op result buffer' d') :
    d'.signatures = d.signatures ∨ ∃ disk block data, d'.signatures = d.signatures.sign disk block data := by
  cases h with
  | signed => exact Or.inr ⟨_, _, _, rfl⟩
  | _ => exact Or.inl rfl

theorem Effect.tally {op : Operation} {buffer buffer' : Option Block} {result : Except DeviceError Unit}
    {d' : Device β} (h : d.Effect buffer op result buffer' d') : d'.tally = d.tally := by
  cases h <;> rfl

theorem tally_operate_of_decode {code : UInt32} {op : Operation} (h : Operation.decode code = .ok op) (d : Device β)
    (buffer : Option Block) : (d.operate code buffer).device.tally = d.tally.bump op.command :=
  (operate_effect h d buffer).tally

theorem Effect.stored {op : Operation} {buffer buffer' : Option Block} {result : Except DeviceError Unit}
    {d' : Device β} (h : d.Effect buffer op result buffer' d') (hop : op.command.access? buffer = none) :
    d'.backing = d.backing ∧ d'.signatures = d.signatures := by
  cases h with
  | unread h => exact absurd h.access (by simp [hop])
  | unwritten h => exact absurd h.access (by simp [hop])
  | read h => exact absurd h.access (by simp [hop])
  | written h => exact absurd h.access (by simp [hop])
  | signed h => exact absurd h.access (by simp [hop])
  | _ => exact ⟨rfl, rfl⟩

theorem keeps_backing {Q : β → Prop} (hread : ∀ m i, Q m → i < blockCount → Q (Backing.readBlock m i).2)
    (hwrite : ∀ m i b, Q m → i < blockCount → Q (Backing.writeBlock m i b).2) (d : Device β) (code : UInt32)
    (buffer : Option Block) (h : Q d.backing) : Q (Controller.operate d code buffer).device.backing := by
  show Q (d.operate code buffer).device.backing
  cases hop : Operation.decode code with
  | error e =>
    rw [operate_of_decode_error hop]
    exact h
  | ok op =>
    rcases (operate_effect hop d buffer).backing with hsame | ⟨i, hi, hi'⟩ | ⟨i, hi, b, hb⟩
    · rw [hsame]
      exact h
    · rw [hi']
      exact hread _ i h hi
    · rw [hb]
      exact hwrite _ i b h hi

theorem keeps_signatures {Q : SignatureTable → Prop} (hsign : ∀ t disk block data, Q t → Q (t.sign disk block data))
    (d : Device β) (code : UInt32) (buffer : Option Block) (h : Q d.signatures) :
    Q (Controller.operate d code buffer).device.signatures := by
  show Q (d.operate code buffer).device.signatures
  cases hop : Operation.decode code with
  | error e =>
    rw [operate_of_decode_error hop]
    exact h
  | ok op =>
    rcases (operate_effect hop d buffer).signatures with hsame | ⟨disk, block, data, hdata⟩
    · rw [hsame]
      exact h
    · rw [hdata]
      exact hsign _ disk block data h

end Device

end DiskArray
