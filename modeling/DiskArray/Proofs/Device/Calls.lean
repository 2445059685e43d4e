import DiskArray.Proofs.Device.View

/-!
# Calls in turn

A device that is called in turn (`Device.Admits`: mounted or not as the command needs it, the cursor on a block
before a transfer, with a buffer where one is used) refuses nothing: the only calls that fail are transfers whose
disk failed, each with the one error of its command (`Command.fault?`). Nothing is assumed of the disk, which may
fail at any call and give any data.

`DeviceHost` are the controllers that pass every call on to a device, such as the `Recorder`, which keeps a list
of the calls and of what they answered.
-/

namespace DiskArray

/-- The error of a command whose disk fails. The other commands do without the disk. -/
def Command.fault? : Command → Option DeviceError
  | .readBlock => some .badRead
  | .writeBlock => some .badWrite
  | .signBlock => some .badRead
  | _ => none

theorem Command.fault?_eq_some_iff {c : Command} {e : DeviceError} :
    c.fault? = some e ↔
      (c, e) ∈ [(Command.readBlock, DeviceError.badRead), (.writeBlock, .badWrite), (.signBlock, .badRead)] := by
  cases c <;> cases e <;> decide

/-! ### Disks that never fail -/

/-- No call for a block of the array fails, now or after other such calls. -/
def Backing.NeverFails {β : Type} [Backing β] (m : β) : Prop :=
  ∃ S : β → Prop, S m ∧ ∀ m i, S m → i < blockCount →
    (∃ b, (Backing.readBlock m i).1 = .ok b) ∧ S (Backing.readBlock m i).2 ∧
      ∀ b, (Backing.writeBlock m i b).1 = .ok () ∧ S (Backing.writeBlock m i b).2

namespace Backing

variable {β : Type} [Backing β] {m : β} {i : Nat}

theorem NeverFails.readBlock (h : NeverFails m) (hi : i < blockCount) :
    (∃ b, (Backing.readBlock m i).1 = .ok b) ∧ NeverFails (Backing.readBlock m i).2 := by
  obtain ⟨S, hm, hS⟩ := h
  obtain ⟨hread, hlater, -⟩ := hS m i hm hi
  exact ⟨hread, S, hlater, hS⟩

theorem NeverFails.writeBlock (h : NeverFails m) (hi : i < blockCount) (b : Block) :
    (Backing.writeBlock m i b).1 = .ok () ∧ NeverFails (Backing.writeBlock m i b).2 := by
  obtain ⟨S, hm, hS⟩ := h
  obtain ⟨-, -, hwrite⟩ := hS m i hm hi
  exact ⟨(hwrite b).1, S, (hwrite b).2, hS⟩

theorem neverFails_of_ready [BlockView β] [ReliableBacking β] (h : ReliableBacking.Ready m) : NeverFails m := by
  refine ⟨ReliableBacking.Ready, h, fun m i hm hi => ?_⟩
  have hread := ReliableBacking.readBlock_eq hm hi
  rw [hread]
  refine ⟨⟨_, rfl⟩, hm, fun b => ?_⟩
  obtain ⟨m', hwrite, hready, -⟩ := ReliableBacking.writeBlock_eq b hm hi
  rw [hwrite]
  exact ⟨rfl, hready⟩

theorem neverFails_memoryDisk (m : MemoryDisk) : NeverFails m := neverFails_of_ready trivial

end Backing

/-! ### One call -/

namespace Device

variable {β : Type}

/-- The device is in the state that a command needs. -/
def Admits (dev : Device β) (command : Command) (buffer : Option Block) : Prop :=
  match command with
  | .mount => dev.mounted = false
  | .unmount => dev.mounted = true
  | .seekToDisk => dev.mounted = true
  | .seekToBlock => dev.mounted = true
  | .readBlock => dev.mounted = true ∧ dev.block < blocksPerDisk ∧ buffer.isSome
  | .writeBlock => dev.mounted = true ∧ dev.block < blocksPerDisk ∧ buffer.isSome
  | .signBlock => dev.mounted = true ∧ dev.block < blocksPerDisk
  | _ => False

/-- Whether a device is mounted after a command. -/
def mountedAfter (mounted : Bool) : Command → Bool
  | .mount => true
  | .unmount => false
  | _ => mounted

variable {dev dev' : Device β} {op : Operation} {buffer : Option Block}

theorem cursor?_of_lt (h : dev.block < blocksPerDisk) : dev.cursor? = some ⟨dev.disk, dev.block⟩ := if_pos h

theorem flat_lt (h : dev.block < blocksPerDisk) : BlockId.flat ⟨dev.disk, dev.block⟩ < blockCount := by
  have hblock : dev.block < 256 := h
  have hdisk : dev.disk.val < 16 := dev.disk.isLt
  show dev.disk.val * 256 + dev.block < 4096
  omega

variable [Backing β]

/-- What a command that succeeds leaves behind. -/
structure Obeys (dev : Device β) (command : Command) (dev' : Device β) : Prop where
  mounted : dev'.mounted = mountedAfter dev.mounted command
  placed : command = .seekToBlock → dev'.block < blocksPerDisk
  neverFails : Backing.NeverFails dev.backing → Backing.NeverFails dev'.backing

/-- What a command that fails leaves behind: its disk failed. -/
structure Faults (dev : Device β) (command : Command) (e : DeviceError) (dev' : Device β) : Prop where
  fault : command.fault? = some e
  mounted : dev'.mounted = dev.mounted
  disk : ¬ Backing.NeverFails dev.backing

/-- The command succeeds, or its disk fails. -/
def Replies (dev : Device β) (command : Command) (reply : Reply (Device β)) : Prop :=
  match reply.result with
  | .ok _ => dev.Obeys command reply.device
  | .error e => dev.Faults command e reply.device

theorem readAtCursor_replies (h : dev.block < blocksPerDisk) (hbuffer : buffer.isSome) :
    dev.Replies .readBlock (dev.readAtCursor buffer) := by
  obtain ⟨old, rfl⟩ := Option.isSome_iff_exists.1 hbuffer
  have hlt := flat_lt h
  unfold readAtCursor
  rw [cursor?_of_lt h]
  dsimp only
  split
  · rename_i data backing hread
    refine ⟨rfl, nofun, fun hnever => ?_⟩
    have hlater := (hnever.readBlock hlt).2
    rwa [hread] at hlater
  · rename_i e backing hread
    refine ⟨rfl, rfl, fun hnever => ?_⟩
    obtain ⟨b, hb⟩ := (hnever.readBlock hlt).1
    rw [hread] at hb
    cases hb

theorem writeAtCursor_replies (h : dev.block < blocksPerDisk) (hbuffer : buffer.isSome) :
    dev.Replies .writeBlock (dev.writeAtCursor buffer) := by
  obtain ⟨data, rfl⟩ := Option.isSome_iff_exists.1 hbuffer
  have hlt := flat_lt h
  unfold writeAtCursor
  rw [cursor?_of_lt h]
  dsimp only
  split
  · rename_i backing hwrite
    refine ⟨rfl, nofun, fun hnever => ?_⟩
    have hlater := (hnever.writeBlock hlt data).2
    rwa [hwrite] at hlater
  · rename_i e backing hwrite
    refine ⟨rfl, rfl, fun hnever => ?_⟩
    have hok := (hnever.writeBlock hlt data).1
    rw [hwrite] at hok
    cases hok

theorem signAtCursor_replies (h : dev.block < blocksPerDisk) :
    dev.Replies .signBlock (dev.signAtCursor buffer) := by
  have hlt := flat_lt h
  unfold signAtCursor
  rw [cursor?_of_lt h]
  dsimp only
  split
  · rename_i data backing hread
    refine ⟨rfl, nofun, fun hnever => ?_⟩
    have hlater := (hnever.readBlock hlt).2
    rwa [hread] at hlater
  · rename_i e backing hread
    refine ⟨rfl, rfl, fun hnever => ?_⟩
    obtain ⟨b, hb⟩ := (hnever.readBlock hlt).1
    rw [hread] at hb
    cases hb

theorem execute_replies (h : dev.Admits op.command buffer) : dev.Replies op.command (dev.execute op buffer) := by
  obtain ⟨command, disk, block⟩ := op
  cases command with
  | mount =>
    have hm : dev.mounted = false := h
    simp only [execute, hm]
    exact ⟨rfl, fun hseek => absurd hseek (by decide), id⟩
  | unmount =>
    have hm : dev.mounted = true := h
    simp only [execute, hm]
    exact ⟨rfl, fun hseek => absurd hseek (by decide), id⟩
  | seekToDisk =>
    have hm : dev.mounted = true := h
    simp only [execute, hm]
    exact ⟨hm.symm, fun hseek => absurd hseek (by decide), id⟩
  | seekToBlock =>
    have hm : dev.mounted = true := h
    simp only [execute, hm]
    exact ⟨hm.symm, fun _ => block.isLt, id⟩
  | readBlock =>
    obtain ⟨hm, hlt, hbuffer⟩ := h
    simp only [execute, hm]
    exact readAtCursor_replies hlt hbuffer
  | writeBlock =>
    obtain ⟨hm, hlt, hbuffer⟩ := h
    simp only [execute, hm]
    exact writeAtCursor_replies hlt hbuffer
  | signBlock =>
    obtain ⟨hm, hlt⟩ := h
    simp only [execute, hm]
    exact signAtCursor_replies hlt
  | reserved => exact h.elim
  | writePermission => exact h.elim
  | revokeWritePermission => exact h.elim

theorem Replies.of_tally {tally : Tally} {command : Command} {reply : Reply (Device β)}
    (h : Replies { dev with tally } command reply) : dev.Replies command reply := by
  unfold Replies at *
  cases hr : reply.result with
  | ok _ =>
    rw [hr] at h
    exact ⟨h.mounted, h.placed, h.neverFails⟩
  | error e =>
    rw [hr] at h
    exact ⟨h.fault, h.mounted, h.disk⟩

theorem operate_replies (h : dev.Admits op.command buffer) :
    dev.Replies op.command (dev.operate op.encode buffer) := by
  -- a call is counted before it is carried out
  have hadmits : Admits { dev with tally := dev.tally.bump op.command } op.command buffer := h
  have hexecute := (execute_replies hadmits).of_tally
  obtain ⟨hresult, -, hdevice⟩ := operate_of_decode op.decode_encode dev buffer
  rwa [Replies, hresult, hdevice]

end Device

/-! ### Controllers that pass calls on -/

/-- Calls a controller, one call after the other. -/
def callAll {δ : Type} [Controller δ] (x : δ) : List (UInt32 × Option Block) → δ
  | [] => x
  | (code, buffer) :: rest => callAll (Controller.operate x code buffer).device rest

theorem callAll_append {δ : Type} [Controller δ] (x : δ) (calls later : List (UInt32 × Option Block)) :
    callAll x (calls ++ later) = callAll (callAll x calls) later := by
  induction calls generalizing x with
  | nil => rfl
  | cons call calls ih => exact ih _

theorem callAll_keeps {δ : Type} [Controller δ] {P : δ → Prop}
    (hP : ∀ x code buffer, P x → P (Controller.operate x code buffer).device) {x : δ} (hx : P x)
    (calls : List (UInt32 × Option Block)) : P (callAll x calls) := by
  induction calls generalizing x with
  | nil => exact hx
  | cons call calls ih => exact ih (hP x call.1 call.2 hx)

/-- A controller that passes every call on to a device. It may take note of the answers; it is clean as long as the
only calls that failed are transfers whose disk failed. -/
class DeviceHost (δ : Type) (β : outParam Type) [Backing β] [Controller δ] where
  device : δ → Device β
  Clean : δ → Prop
  result_eq (x : δ) (code : UInt32) (buffer : Option Block) :
    (Controller.operate x code buffer).result = ((device x).operate code buffer).result
  device_eq (x : δ) (code : UInt32) (buffer : Option Block) :
    device (Controller.operate x code buffer).device = ((device x).operate code buffer).device
  clean_operate {x : δ} {op : Operation} {buffer : Option Block} :
    Clean x → (∀ e, (Controller.operate x op.encode buffer).result = .error e → op.command.fault? = some e) →
      Clean (Controller.operate x op.encode buffer).device

instance {β : Type} [Backing β] : DeviceHost (Device β) β where
  device := id
  Clean _ := True
  result_eq _ _ _ := rfl
  device_eq _ _ _ := rfl
  clean_operate _ _ := trivial

/-- A device with a list of its calls, the latest first, each with what it answered. -/
structure Recorder (δ : Type) where
  device : δ
  calls : List (UInt32 × Except DeviceError Unit) := []

instance {δ : Type} [Controller δ] : Controller (Recorder δ) where
  operate r code buffer :=
    let reply := Controller.operate r.device code buffer
    { reply with device := { device := reply.device, calls := (code, reply.result) :: r.calls } }

instance {β : Type} [Backing β] : DeviceHost (Recorder (Device β)) β where
  device r := r.device
  Clean r := ∀ code e, (code, .error e) ∈ r.calls →
    ∃ op, Operation.decode code = .ok op ∧ op.command.fault? = some e
  result_eq _ _ _ := rfl
  device_eq _ _ _ := rfl
  clean_operate {r op buffer} hr hfault code e hcall := by
    rcases List.mem_cons.1 hcall with hlast | hearlier
    · obtain ⟨rfl, hresult⟩ := Prod.mk.inj hlast
      exact ⟨op, op.decode_encode, hfault e hresult.symm⟩
    · exact hr code e hearlier

end DiskArray
