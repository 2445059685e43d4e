import DiskArray.Proofs.Device.Calls
import DiskArray.Proofs.Signature.Table

/-!
# What a call leaves alone

What a device shows, with its caller's buffer, cut into parts (`Device.Part`), and the parts that each command may
change (`Device.Changes`). A call that succeeds leaves every other part as it was, and one that fails leaves all of them,
whatever its disk does (`operate_frame`). The counters are apart: they count every code that decodes, also when the call
fails (`of_tally_callAll`).
-/

namespace DiskArray

namespace Device

/-- A part of what a device shows, or the caller's buffer. -/
inductive Part where
  | mounted | writable | disk | block
  | signature (onDisk onBlock : UInt8)
  | byte (address : Nat)
  | buffer

/-- What a command may change: the field it is about, the buffer it reads into, and the bytes and the signature of the
block under the cursor. -/
inductive Changes (v : View) : Command → Part → Prop where
  | mount : Changes v .mount .mounted
  | unmount : Changes v .unmount .mounted
  | seekToDisk : Changes v .seekToDisk .disk
  | seekToBlock : Changes v .seekToBlock .block
  | intoBuffer : Changes v .readBlock .buffer
  | pastRead : Changes v .readBlock .block
  | write {address : Nat} (h : address / blockSize = v.cursor) : Changes v .writeBlock (.byte address)
  | pastWritten : Changes v .writeBlock .block
  | sign : Changes v .signBlock (.signature (.ofNat v.disk) (.ofNat v.block))
  | permit : Changes v .writePermission .writable
  | forbid : Changes v .revokeWritePermission .writable

variable {v v' : View} {op : Operation} {buffer buffer' : Option Block} {p : Part}

/-- A part is the same before and after a call. -/
def Part.Same (p : Part) (v : View) (buffer : Option Block) (v' : View) (buffer' : Option Block) : Prop :=
  match p with
  | .mounted => v'.mounted = v.mounted
  | .writable => v'.writable = v.writable
  | .disk => v'.disk = v.disk
  | .block => v'.block = v.block
  | .signature onDisk onBlock => v'.signatures.get? onDisk onBlock = v.signatures.get? onDisk onBlock
  | .byte address => FlatArray.ofBlocks v'.blocks address = FlatArray.ofBlocks v.blocks address
  | .buffer => buffer' = buffer

theorem Part.Same.refl (p : Part) : p.Same v buffer v buffer := by
  cases p <;> rfl

/-! ### One command -/

theorem View.Performs.same_of_readBlock (h : v.Performs op buffer v' buffer') (hop : op.command = .readBlock)
    (hp : ¬ Changes v .readBlock p) : p.Same v buffer v' buffer' := by
  rw [Performs, hop] at h
  obtain ⟨-, rfl, -, rfl⟩ := h
  cases p with
  | block => exact absurd .pastRead hp
  | buffer => exact absurd .intoBuffer hp
  | _ => rfl

theorem View.Performs.same_of_writeBlock (h : v.Performs op buffer v' buffer') (hop : op.command = .writeBlock)
    (hp : ¬ Changes v .writeBlock p) : p.Same v buffer v' buffer' := by
  rw [Performs, hop] at h
  obtain ⟨-, rfl, b, -, rfl⟩ := h
  cases p with
  | block => exact absurd .pastWritten hp
  | byte address => exact (FlatArray.ofBlocks_update_block v.blocks v.cursor b).2 address fun h => hp (.write h)
  | _ => rfl

theorem View.Performs.same_of_signBlock (h : v.Performs op buffer v' buffer') (hop : op.command = .signBlock)
    (hp : ¬ Changes v .signBlock p) : p.Same v buffer v' buffer' := by
  rw [Performs, hop] at h
  obtain ⟨-, rfl, rfl⟩ := h
  cases p with
  | signature onDisk onBlock =>
    refine (SignatureTable.get?_sign _ _ _ _ onDisk onBlock).trans (if_neg ?_)
    rintro ⟨rfl, rfl⟩
    exact hp .sign
  | _ => rfl

theorem View.Performs.same (h : v.Performs op buffer v' buffer') (hp : ¬ Changes v op.command p) :
    p.Same v buffer v' buffer' := by
  obtain ⟨command, disk, block⟩ := op
  cases command with
  | readBlock => exact h.same_of_readBlock rfl hp
  | writeBlock => exact h.same_of_writeBlock rfl hp
  | signBlock => exact h.same_of_signBlock rfl hp
  | reserved => exact h.elim
  | mount =>
    obtain ⟨rfl, rfl⟩ := h
    cases p with
    | mounted => exact absurd .mount hp
    | _ => rfl
  | unmount =>
    obtain ⟨rfl, rfl⟩ := h
    cases p with
    | mounted => exact absurd .unmount hp
    | _ => rfl
  | seekToDisk =>
    obtain ⟨rfl, rfl⟩ := h
    cases p with
    | disk => exact absurd .seekToDisk hp
    | _ => rfl
  | seekToBlock =>
    obtain ⟨rfl, rfl⟩ := h
    cases p with
    | block => exact absurd .seekToBlock hp
    | _ => rfl
  | writePermission =>
    obtain ⟨rfl, rfl⟩ := h
    cases p with
    | writable => exact absurd .permit hp
    | _ => rfl
  | revokeWritePermission =>
    obtain ⟨rfl, rfl⟩ := h
    cases p with
    | writable => exact absurd .forbid hp
    | _ => rfl

section Lawful
variable {β : Type} [Backing β] [BlockView β] [LawfulBacking β]

theorem operate_failed {d : Device β} {code : UInt32} {e : DeviceError}
    (h : (d.operate code buffer).result = .error e) :
    (d.operate code buffer).device.view = d.view ∧ (d.operate code buffer).buffer = buffer := by
  cases hop : Operation.decode code with
  | error e =>
    rw [operate_of_decode_error hop]
    exact ⟨rfl, rfl⟩
  | ok op =>
    have hyields := d.operate_yields buffer hop
    rwa [h] at hyields

/-- A call that fails leaves every part as it was, and one that succeeds every part that its command is not about. -/
theorem operate_same {code : UInt32} (hop : Operation.decode code = .ok op) (d : Device β) (buffer : Option Block)
    (hp : ∀ u, (d.operate code buffer).result = .ok u → ¬ Changes d.view op.command p) :
    p.Same d.view buffer (d.operate code buffer).device.view (d.operate code buffer).buffer := by
  cases hr : (d.operate code buffer).result with
  | ok u =>
    have hyields := d.operate_yields buffer hop
    rw [hr] at hyields
    exact View.Performs.same hyields (hp u hr)
  | error e =>
    obtain ⟨hview, hbuffer⟩ := operate_failed hr
    rw [hview, hbuffer]
    exact .refl p

end Lawful

/-! ### The counters -/

/-- Whether a code is one of a command. -/
def isCodeOf (c : Command) (code : UInt32) : Bool := (Operation.decode code).toOption.any (·.command = c)

section Counters
variable {β : Type} [Backing β]

theorem tally_operate_error {code : UInt32} {e : DeviceError} (h : Operation.decode code = .error e) (d : Device β)
    (buffer : Option Block) : (d.operate code buffer).device.tally = d.tally := by
  rw [operate_of_decode_error h, refuse]

theorem of_tally_operate (d : Device β) (code : UInt32) (buffer : Option Block) (c : Command) :
    (d.operate code buffer).device.tally.of c = d.tally.of c + if isCodeOf c code then 1 else 0 := by
  cases hop : Operation.decode code with
  | error e => simp [tally_operate_error hop, isCodeOf, hop, Except.toOption]
  | ok op =>
    rw [tally_operate_of_decode hop, Tally.of_bump]
    by_cases hc : op.command = c <;> simp [isCodeOf, hop, Except.toOption, hc]

/-- The counters of a device tell how often it was called with each command, successfully or not. -/
theorem of_tally_callAll (d : Device β) (calls : List (UInt32 × Option Block)) (c : Command) :
    (callAll d calls).tally.of c = d.tally.of c + (calls.map Prod.fst).countP (isCodeOf c) := by
  induction calls generalizing d with
  | nil => rfl
  | cons call calls ih =>
    have hfirst := of_tally_operate d call.1 call.2 c
    rw [callAll, ih, List.map_cons, List.countP_cons]
    show (d.operate call.1 call.2).device.tally.of c + _ = _
    omega

end Counters

/-- Whatever state a device in memory is in, whatever it is told and however its disk fails: a call that fails leaves
the flags, the cursor, the signatures, all bytes and the buffer as they were, and one that succeeds changes only the
parts that its command is about. The counter of the command rises by one in either case, and no other counter changes; a
code without a command changes none. -/
theorem operate_frame (d : Device (FaultyDisk MemoryDisk)) (code : UInt32) (buffer : Option Block) :
    let reply := d.operate code buffer
    let d' := reply.device
    (∀ e, reply.result = .error e →
      d'.mounted = d.mounted ∧ d'.writable = d.writable ∧ d'.disk = d.disk ∧ d'.block = d.block ∧
        d'.signatures = d.signatures ∧ d'.backing.disk.byte = d.backing.disk.byte ∧ reply.buffer = buffer) ∧
    (∀ e, Operation.decode code = .error e → reply.result = .error e ∧ d'.tally = d.tally) ∧
    ∀ op, Operation.decode code = .ok op →
      (∀ c, d'.tally.of c = d.tally.of c + if op.command = c then 1 else 0) ∧
      ∀ u, reply.result = .ok u → ∀ p : Part, ¬ Changes d.view op.command p →
        p.Same d.view buffer d'.view reply.buffer := by
  intro reply d'
  refine ⟨fun e he => ?_, fun e he => ?_, fun op hop => ⟨fun c => ?_, fun u hu p hp => ?_⟩⟩
  · obtain ⟨hview, hbuffer⟩ := operate_failed he
    have hbyte : d'.backing.disk.byte = d.backing.disk.byte := by
      rw [MemoryDisk.byte_eq, MemoryDisk.byte_eq]
      exact congrArg (FlatArray.ofBlocks ∘ View.blocks) hview
    exact ⟨congrArg View.mounted hview, congrArg View.writable hview, congrArg View.disk hview,
      congrArg View.block hview, congrArg View.signatures hview, hbyte, hbuffer⟩
  · refine ⟨?_, tally_operate_error he d buffer⟩
    show (d.operate code buffer).result = _
    rw [operate_of_decode_error he, refuse]
  · show (d.operate code buffer).device.tally.of c = _
    rw [tally_operate_of_decode hop, Tally.of_bump]
    split <;> rfl
  · exact operate_same hop d buffer fun _ _ => hp

end Device

end DiskArray
