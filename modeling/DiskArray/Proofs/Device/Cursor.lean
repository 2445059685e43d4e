import DiskArray.Proofs.Device.Calls
import DiskArray.Proofs.Device.Effect
import Mathlib.Tactic.MkIffOfInductiveProp

/-!
# The cursor and the calls before

Where the next transfer goes is a function of the calls that succeeded so far (`lastDisk`, `nextBlock`): the disk of
the last seek to a disk, and the block of the last seek to a block moved on by the transfers since. Nothing is assumed
of the disk behind the device; a `Watched` one keeps a list of the accesses to it, so that a call can be said to touch
one block or none (`cursor_of_calls`).
-/

namespace DiskArray

/-- A backing disk with a list of the accesses to it, the latest first. -/
structure Watched (β : Type) where
  disk : β
  accesses : List (Access × Nat) := []

instance {β : Type} [Backing β] : Backing (Watched β) where
  readBlock w i :=
    let (answer, disk) := Backing.readBlock w.disk i
    (answer, { disk, accesses := (.read, i) :: w.accesses })
  writeBlock w i b :=
    let (answer, disk) := Backing.writeBlock w.disk i b
    (answer, { disk, accesses := (.write, i) :: w.accesses })

/-- A command that moves on to the next block. -/
def Command.isTransfer : Command → Bool
  | .readBlock => true
  | .writeBlock => true
  | _ => false

/-! ### What the calls tell -/

/-- The operations that succeeded, of a list of calls with their results. -/
def succeeded (calls : List (UInt32 × Except DeviceError Unit)) : List Operation :=
  calls.filterMap fun (code, result) =>
    match result with
    | .ok _ => (Operation.decode code).toOption
    | .error _ => none

/-- The disk of the last seek to a disk; the operations come the latest first. -/
def lastDisk (ops : List Operation) : Nat :=
  match ops.find? (·.command = .seekToDisk) with
  | some op => op.disk
  | none => 0

/-- The block of the last seek to a block, moved on by the transfers since. -/
def nextBlock (ops : List Operation) : Nat :=
  let base := match ops.find? (·.command = .seekToBlock) with
    | some op => op.block.val
    | none => 0
  base + (ops.takeWhile (·.command ≠ .seekToBlock)).countP (·.command.isTransfer)

theorem succeeded_cons_ok {code : UInt32} {op : Operation} (h : Operation.decode code = .ok op) (u : Unit)
    (calls : List (UInt32 × Except DeviceError Unit)) :
    succeeded ((code, .ok u) :: calls) = op :: succeeded calls := by
  simp [succeeded, h, Except.toOption]

theorem succeeded_cons_error (code : UInt32) (e : DeviceError) (calls : List (UInt32 × Except DeviceError Unit)) :
    succeeded ((code, .error e) :: calls) = succeeded calls := by
  simp [succeeded]

theorem lastDisk_cons (op : Operation) (ops : List Operation) :
    lastDisk (op :: ops) = if op.command = .seekToDisk then op.disk.val else lastDisk ops := by
  unfold lastDisk
  by_cases h : op.command = .seekToDisk
  · rw [List.find?_cons_of_pos (by simpa using h), if_pos h]
  · rw [List.find?_cons_of_neg (by simpa using h), if_neg h]

theorem nextBlock_cons (op : Operation) (ops : List Operation) :
    nextBlock (op :: ops) =
      if op.command = .seekToBlock then op.block.val
      else nextBlock ops + if op.command.isTransfer then 1 else 0 := by
  unfold nextBlock
  by_cases h : op.command = .seekToBlock
  · rw [List.find?_cons_of_pos (by simpa using h), List.takeWhile_cons_of_neg (by simpa using h), if_pos h]
    rfl
  · rw [List.find?_cons_of_neg (by simpa using h), List.takeWhile_cons_of_pos (by simpa using h), if_neg h,
      List.countP_cons, Nat.add_assoc]

namespace Device

variable {β : Type} {d d' : Device β} {w w' : Device (Watched β)} {op : Operation} {code : UInt32}
  {buffer buffer' : Option Block} {result : Except DeviceError Unit}

/-! ### One call -/

/-- Where the cursor is after an operation that succeeded. -/
@[mk_iff] structure Moves (d : Device β) (op : Operation) (d' : Device β) : Prop where
  disk : d'.disk = if op.command = .seekToDisk then op.disk else d.disk
  block : d'.block =
    if op.command = .seekToBlock then op.block.val else d.block + if op.command.isTransfer then 1 else 0
  transfer : op.command.isTransfer → d.block < blocksPerDisk

/-- How a call accesses the disk. The device has to be mounted for that. -/
def access? (d : Device β) (code : UInt32) (buffer : Option Block) : Option Access :=
  match Operation.decode code with
  | .ok op => if d.mounted then op.command.access? buffer else none
  | .error _ => none

/-- A call for an access makes one, to the block under the cursor; if there is none, it is refused. Another call makes
none. -/
def Touches (w : Device (Watched β)) (kind? : Option Access) (result : Except DeviceError Unit)
    (w' : Device (Watched β)) : Prop :=
  match kind? with
  | some kind =>
    if w.block < blocksPerDisk then w'.backing.accesses = (kind, w.here) :: w.backing.accesses
    else result = .error .badBlockNumber ∧ w'.backing.accesses = w.backing.accesses
  | none => w'.backing.accesses = w.backing.accesses

theorem Accesses.touches {kind : Access} (h : w.Accesses op buffer kind)
    (hw' : w'.backing.accesses = (kind, w.here) :: w.backing.accesses) :
    w.Touches (if w.mounted then op.command.access? buffer else none) result w' := by
  rw [if_pos h.mounted, h.access, Touches, if_pos h.block_lt]
  exact hw'

variable [Backing β]

theorem Effect.moves {u : Unit} (h : d.Effect buffer op (.ok u) buffer' d') : d.Moves op d' := by
  cases h with
  | read h => exact ⟨rfl, rfl, fun _ => h.block_lt⟩
  | written h => exact ⟨rfl, rfl, fun _ => h.block_lt⟩
  | _ => simp [moves_iff, Command.isTransfer]

theorem Effect.stays {e : DeviceError} (h : d.Effect buffer op (.error e) buffer' d') :
    d'.disk = d.disk ∧ d'.block = d.block := by
  cases h with
  | _ => exact ⟨rfl, rfl⟩

theorem operate_ok {u : Unit} (h : (d.operate code buffer).result = .ok u) :
    ∃ op, Operation.decode code = .ok op ∧ d.Moves op (d.operate code buffer).device := by
  cases hop : Operation.decode code with
  | error e =>
    rw [operate_of_decode_error hop] at h
    cases h
  | ok op =>
    have heffect := operate_effect hop d buffer
    rw [HasEffect, h] at heffect
    obtain ⟨hdisk, hblock, htransfer⟩ := heffect.moves
    exact ⟨op, rfl, hdisk, hblock, htransfer⟩

theorem operate_error {e : DeviceError} (h : (d.operate code buffer).result = .error e) :
    (d.operate code buffer).device.disk = d.disk ∧ (d.operate code buffer).device.block = d.block := by
  cases hop : Operation.decode code with
  | error e =>
    rw [operate_of_decode_error hop]
    exact ⟨rfl, rfl⟩
  | ok op =>
    have heffect := operate_effect hop d buffer
    rw [HasEffect, h] at heffect
    exact heffect.stays

theorem Effect.touches (h : w.Effect buffer op result buffer' w') :
    w.Touches (if w.mounted then op.command.access? buffer else none) result w' := by
  cases h with
  | refused e h =>
    split_ifs with hm
    · cases ha : op.command.access? buffer with
      | none => rfl
      | some kind =>
        obtain ⟨hle, rfl⟩ := h hm (by rw [ha]; rfl)
        rw [Touches, if_neg (Nat.not_lt.2 hle)]
        exact ⟨rfl, rfl⟩
    · rfl
  | unread h hm => exact h.touches (congrArg (Watched.accesses ∘ Prod.snd) hm).symm
  | unwritten h _ hm => exact h.touches (congrArg (Watched.accesses ∘ Prod.snd) hm).symm
  | read h hm => exact h.touches (congrArg (Watched.accesses ∘ Prod.snd) hm).symm
  | written h _ hm => exact h.touches (congrArg (Watched.accesses ∘ Prod.snd) hm).symm
  | signed h hm => exact h.touches (congrArg (Watched.accesses ∘ Prod.snd) hm).symm
  | _ => split_ifs <;> rfl

theorem operate_touches (w : Device (Watched β)) (code : UInt32) (buffer : Option Block) :
    w.Touches (w.access? code buffer) (w.operate code buffer).result (w.operate code buffer).device := by
  unfold access?
  cases hop : Operation.decode code with
  | error e =>
    rw [operate_of_decode_error hop]
    rfl
  | ok op => exact (operate_effect hop w buffer).touches

end Device

/-! ### All calls -/

namespace Recorder

variable {β : Type} [Backing β] {r : Recorder (Device (Watched β))}

/-- The cursor is where the calls so far have put it, and all accesses were to blocks of the array. -/
structure Tracks (r : Recorder (Device (Watched β))) : Prop where
  disk : r.device.disk.val = lastDisk (succeeded r.calls)
  block : r.device.block = nextBlock (succeeded r.calls)
  block_le : r.device.block ≤ blocksPerDisk
  accesses : ∀ access ∈ r.device.backing.accesses, access.2 < blockCount

theorem Tracks.accesses_operate (h : r.Tracks) (code : UInt32) (buffer : Option Block) :
    ∀ access ∈ (r.device.operate code buffer).device.backing.accesses, access.2 < blockCount := by
  have htouches := Device.operate_touches r.device code buffer
  intro access hmem
  unfold Device.Touches at htouches
  split at htouches
  · split_ifs at htouches with hlt
    · rw [htouches] at hmem
      rcases List.mem_cons.1 hmem with rfl | hmem
      · exact Device.flat_lt hlt
      · exact h.accesses access hmem
    · rw [htouches.2] at hmem
      exact h.accesses access hmem
  · rw [htouches] at hmem
    exact h.accesses access hmem

theorem Tracks.operate (h : r.Tracks) (code : UInt32) (buffer : Option Block) :
    (Controller.operate r code buffer).device.Tracks := by
  have hcalls : (Controller.operate r code buffer).device.calls =
      (code, (r.device.operate code buffer).result) :: r.calls := rfl
  have hdevice : (Controller.operate r code buffer).device.device = (r.device.operate code buffer).device := rfl
  have haccesses := h.accesses_operate code buffer
  cases hr : (r.device.operate code buffer).result with
  | error e =>
    obtain ⟨hdisk, hblock⟩ := Device.operate_error hr
    rw [← hdevice] at hdisk hblock
    refine ⟨?_, ?_, hblock ▸ h.block_le, haccesses⟩
    · rw [hcalls, hr, succeeded_cons_error, hdisk, h.disk]
    · rw [hcalls, hr, succeeded_cons_error, hblock, h.block]
  | ok u =>
    obtain ⟨op, hop, hmoves⟩ := Device.operate_ok hr
    rw [← hdevice] at hmoves
    refine ⟨?_, ?_, ?_, haccesses⟩
    · rw [hcalls, hr, succeeded_cons_ok hop, lastDisk_cons, hmoves.disk, ← h.disk]
      split <;> rfl
    · rw [hcalls, hr, succeeded_cons_ok hop, nextBlock_cons, hmoves.block, ← h.block]
    · rw [hmoves.block]
      split_ifs with hseek htransfer
      · exact Nat.le_of_lt op.block.isLt
      · exact hmoves.transfer htransfer
      · exact h.block_le

theorem Tracks.callAll (h : r.Tracks) (calls : List (UInt32 × Option Block)) : (callAll r calls).Tracks := by
  induction calls generalizing r with
  | nil => exact h
  | cons call calls ih => exact ih (h.operate call.1 call.2)

/-- However a new device is called and however its disk answers, its cursor is on the disk of the last seek to a disk,
and on the block of the last seek to a block moved on by the transfers since, or one past the last. A call that reads,
writes or signs on a mounted device accesses that block and no other one, which is always on that disk; past the last
block it is refused and accesses nothing. A call that fails leaves the cursor, and so does one that is neither a seek
nor a transfer. -/
theorem cursor_of_calls (disk : β) (signatures : SignatureTable) (calls : List (UInt32 × Option Block)) (code : UInt32)
    (buffer : Option Block) :
    let r : Recorder (Device (Watched β)) :=
      DiskArray.callAll { device := { backing := { disk }, signatures } } calls
    let d := lastDisk (succeeded r.calls)
    let c := nextBlock (succeeded r.calls)
    let reply := r.device.operate code buffer
    let before := r.device.backing.accesses
    let after := reply.device.backing.accesses
    r.device.disk.val = d ∧ r.device.block = c ∧ c ≤ 256 ∧
    (∀ kind, r.device.access? code buffer = some kind →
      (c < 256 → after = (kind, 256 * d + c) :: before ∧ (256 * d + c) / 256 = d) ∧
      (c = 256 → reply.result = .error .badBlockNumber ∧ after = before)) ∧
    (r.device.access? code buffer = none → after = before) ∧
    (∀ e, reply.result = .error e → reply.device.disk.val = d ∧ reply.device.block = c) ∧
    (∀ op, Operation.decode code = .ok op → op.command ≠ .seekToBlock → op.command.isTransfer = false →
      reply.device.block = c) ∧
    ∀ access ∈ after, access.2 < 4096 := by
  intro r d c reply before after
  have hnew : Tracks ({ device := { backing := { disk }, signatures } } : Recorder (Device (Watched β))) :=
    ⟨rfl, rfl, Nat.zero_le _, fun _ hmem => absurd hmem List.not_mem_nil⟩
  have hr : r.Tracks := hnew.callAll calls
  have hblock : r.device.block = c := hr.block
  have hdisk : r.device.disk.val = d := hr.disk
  have htouches := Device.operate_touches r.device code buffer
  refine ⟨hdisk, hblock, hblock ▸ hr.block_le, ?_, ?_, ?_, ?_, hr.accesses_operate code buffer⟩
  · intro kind hkind
    rw [hkind, Device.Touches, hblock] at htouches
    constructor
    · intro hlt
      have hflat : r.device.here = 256 * d + c := by
        rw [← hdisk, ← hblock, Nat.mul_comm]
        rfl
      rw [if_pos hlt, hflat] at htouches
      exact ⟨htouches, by omega⟩
    · intro hpast
      rwa [if_neg (Nat.not_lt.2 (Nat.le_of_eq hpast.symm))] at htouches
  · intro hkind
    rw [hkind] at htouches
    exact htouches
  · intro e he
    obtain ⟨hdisk', hblock'⟩ := Device.operate_error he
    exact ⟨(congrArg Fin.val hdisk').trans hdisk, hblock'.trans hblock⟩
  · intro op hop hseek htransfer
    cases he : reply.result with
    | error e => exact (Device.operate_error he).2.trans hblock
    | ok u =>
      obtain ⟨op', hop', hmoves⟩ := Device.operate_ok he
      obtain rfl := Except.ok.inj (hop.symm.trans hop')
      have hblock' := hmoves.block
      rw [if_neg hseek, htransfer] at hblock'
      exact hblock'.trans hblock

/-- Once the last block of a disk was read, signing is refused, and there is no access to the next disk. -/
theorem cursor_of_calls_of_read :
    let r : Recorder (Device (Watched MemoryDisk)) := DiskArray.callAll { device := { backing := { disk := .blank } } }
      [(Operation.encode (.bare .mount), none), (Operation.encode (.of .seekToDisk 3 0), none),
        (Operation.encode (.of .seekToBlock 0 255), none), (Operation.encode (.bare .readBlock), some .zero)]
    let reply := r.device.operate (Operation.encode (.bare .signBlock)) none
    lastDisk (succeeded r.calls) = 3 ∧ nextBlock (succeeded r.calls) = 256 ∧
      reply.result = .error .badBlockNumber ∧ reply.device.backing.accesses = r.device.backing.accesses ∧
      reply.device.block = 256 := by
  intro r reply
  have hdisk : lastDisk (succeeded r.calls) = 3 := by decide +kernel
  have hblock : nextBlock (succeeded r.calls) = 256 := by decide +kernel
  have haccess : r.device.access? (Operation.encode (.bare .signBlock)) none = some .read := by decide +kernel
  obtain ⟨-, -, -, hsign, -, herror, -⟩ := cursor_of_calls MemoryDisk.blank .empty
    [(Operation.encode (.bare .mount), none), (Operation.encode (.of .seekToDisk 3 0), none),
      (Operation.encode (.of .seekToBlock 0 255), none), (Operation.encode (.bare .readBlock), some .zero)]
    (Operation.encode (.bare .signBlock)) none
  obtain ⟨hresult, haccesses⟩ := (hsign .read haccess).2 hblock
  exact ⟨hdisk, hblock, hresult, haccesses, (herror _ hresult).2.trans hblock⟩

end Recorder

end DiskArray
