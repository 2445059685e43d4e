import DiskArray.Proofs.Device.Calls
import DiskArray.Proofs.Driver.Access
import Mathlib.Algebra.Group.Nat.Defs
import Mathlib.Logic.Function.Basic

/-!
# The codes of operations

A code is that of one operation or of none: those below 40960 are codes, and each is the code of what it decodes to
(`Operation.decode_eq_ok_iff`). An operation is made of a disk and a block by cutting the disk to four bits. Nothing is
cut where a driver seeks: the codes it sends for an address of the array are those of the disk and the block of the
address (`Operation.codec`).
-/

namespace DiskArray

namespace Command

theorem ofCode?_eq_some_iff {n : Nat} {c : Command} : ofCode? n = some c ↔ n = c.code.val := by
  constructor
  · intro h
    obtain ⟨hn, -⟩ := List.getElem?_eq_some_iff.1 h
    have hcodes : ∀ n : Fin 10, ∀ c ∈ all, ofCode? n = some c → n = c.code := by decide
    exact congrArg Fin.val (hcodes ⟨n, hn⟩ c (List.mem_of_getElem? h) h)
  · rintro rfl
    exact ofCode?_code c

theorem ofCode?_eq_none_iff {n : Nat} : ofCode? n = none ↔ 10 ≤ n := List.getElem?_eq_none_iff

end Command

namespace Operation

variable {code : UInt32} {op : Operation}

theorem fields_encode (op : Operation) :
    op.encode.toNat / 2 ^ 12 = op.command.code ∧ op.encode.toNat / 2 ^ 4 % 2 ^ 8 = op.block ∧
      op.encode.toNat % 2 ^ 4 = op.disk := by
  have hblock : op.block.val < 256 := op.block.isLt
  have hdisk : op.disk.val < 16 := op.disk.isLt
  have hnat := toNat_encode op
  simp only [Nat.shiftLeft_eq] at hnat
  omega

theorem encode_eq (hcommand : op.command.code = code.toNat / 2 ^ 12) (hblock : op.block = code.toNat / 2 ^ 4 % 2 ^ 8)
    (hdisk : op.disk = code.toNat % 2 ^ 4) : op.encode = code := by
  have hnat := toNat_encode op
  simp only [Nat.shiftLeft_eq] at hnat
  rw [← UInt32.toNat_inj]
  omega

theorem decode_eq_ok_iff : decode code = .ok op ↔ op.encode = code := by
  constructor
  · intro h
    unfold decode at h
    cases hcommand : Command.ofCode? (code.toNat >>> 12) with
    | none =>
      rw [hcommand] at h
      cases h
    | some command =>
      rw [hcommand] at h
      obtain rfl := Except.ok.inj h
      have hcode := Command.ofCode?_eq_some_iff.1 hcommand
      rw [Nat.shiftRight_eq_div_pow] at hcode
      refine encode_eq hcode.symm ?_ rfl
      exact congrArg (· % 256) (Nat.shiftRight_eq_div_pow code.toNat 4)
  · rintro rfl
    exact decode_encode op

theorem encode_injective : Function.Injective encode := by
  intro op op' h
  exact Except.ok.inj ((decode_encode op).symm.trans ((congrArg decode h).trans (decode_encode op')))

theorem decode_of_le (h : ¬ code < 0xA000) : decode code = .error .badCommand := by
  have hle : 40960 ≤ code.toNat := UInt32.le_iff_toNat_le.1 (UInt32.not_lt.1 h)
  have hnone : Command.ofCode? (code.toNat >>> 12) = none := by
    rw [Command.ofCode?_eq_none_iff, Nat.shiftRight_eq_div_pow]
    omega
  rw [decode, hnone]

theorem exists_decode_iff : (∃ op, decode code = .ok op) ↔ code < 0xA000 := by
  constructor
  · rintro ⟨op, h⟩
    by_contra hle
    rw [decode_of_le hle] at h
    cases h
  · intro h
    have hlt : code.toNat < 40960 := UInt32.lt_iff_toNat_lt.1 h
    cases hcommand : Command.ofCode? (code.toNat >>> 12) with
    | none =>
      rw [Command.ofCode?_eq_none_iff, Nat.shiftRight_eq_div_pow] at hcommand
      omega
    | some command =>
      unfold decode
      rw [hcommand]
      exact ⟨_, rfl⟩

theorem of_bytes (command : Command) (disk block : UInt8) :
    (of command disk.toNat block.toNat).disk = disk.toNat % 16 ∧
      (of command disk.toNat block.toNat).block = block.toNat :=
  ⟨rfl, Nat.mod_eq_of_lt block.toNat_lt⟩

theorem of_ofAddress {address : Nat} (h : address < totalSize) :
    (∀ command, (of command (Location.ofAddress address).blockId.disk 0).disk = address / 65536) ∧
      ∀ command, (of command 0 (Location.ofAddress address).blockId.block).block = address % 65536 / 256 := by
  have h : address < 1048576 := h
  have hdisk : address / 65536 < 16 := by omega
  have hblock : address % 65536 / 256 < 256 := by omega
  exact ⟨fun _ => Nat.mod_eq_of_lt hdisk, fun _ => Nat.mod_eq_of_lt hblock⟩

end Operation

/-! ### What a driver sends -/

namespace Driver

variable {δ : Type}

/-- The codes that were sent to the device, each with what it answered, the first one first. -/
def sent (d : Driver (Recorder δ)) : List (UInt32 × Except DeviceError Unit) := d.device.calls.reverse

variable [Controller δ]

theorem sent_issue (d : Driver (Recorder δ)) (op : Operation) (buffer : Option Block) (done : Nat) :
    (d.issue op buffer done).Ensures (fun d' _ => d'.sent = d.sent ++ [(op.encode, .ok ())])
      fun d' _ => ∃ e, d'.sent = d.sent ++ [(op.encode, .error e)] := by
  -- the recorder keeps the answer that it gives
  have hcalls : (Controller.operate d.device op.encode buffer).device.calls =
      (op.encode, (Controller.operate d.device op.encode buffer).result) :: d.device.calls := rfl
  unfold issue Outcome.Ensures
  dsimp only
  cases hr : (Controller.operate d.device op.encode buffer).result with
  | ok _ =>
    rw [hr] at hcalls
    show (Controller.operate d.device op.encode buffer).device.calls.reverse = _
    rw [hcalls, List.reverse_cons]
    rfl
  | error e =>
    rw [hr] at hcalls
    refine ⟨e, ?_⟩
    show (Controller.operate d.device op.encode buffer).device.calls.reverse = _
    rw [hcalls, List.reverse_cons]
    rfl

/-- A seek sends the disk, and then the block unless the first call failed. It succeeds if both calls do. -/
theorem sent_seek (d : Driver (Recorder δ)) (id : BlockId) (done : Nat) :
    let first := (Operation.of .seekToDisk id.disk 0).encode
    let second := (Operation.of .seekToBlock 0 id.block).encode
    (d.seek id done).Ensures (fun d' _ => d'.sent = d.sent ++ [(first, .ok ()), (second, .ok ())])
      fun d' _ => ∃ e, d'.sent = d.sent ++ [(first, .error e)] ∨
        d'.sent = d.sent ++ [(first, .ok ()), (second, .error e)] := by
  intro first second
  refine (d.sent_issue _ none done).andThen (fun d₁ _ h₁ => ?_) fun d₁ _ ⟨e, h₁⟩ => ⟨e, Or.inl h₁⟩
  refine (d₁.sent_issue _ none done).andThen (fun d₂ _ h₂ => ?_) fun d₂ _ ⟨e, h₂⟩ => ⟨e, Or.inr ?_⟩
  · show d₂.sent = _
    rw [h₂, h₁, List.append_assoc]
    rfl
  · rw [h₂, h₁, List.append_assoc]
    rfl

end Driver

namespace Operation

/-- The codes below 40960 are those of operations, each of the one it decodes to, and the others are refused. Different
operations have different codes, where every field has bits of its own. What a driver sends to put the cursor on an
address of the array is the disk and the block of this address, with no bit cut off. -/
theorem codec :
    (∀ code : UInt32, ((∃ op, decode code = .ok op) ↔ code < 0xA000) ∧
      (¬ code < 0xA000 → decode code = .error .badCommand) ∧ ∀ op, decode code = .ok op → op.encode = code) ∧
    (∀ (command : Command) (disk block : UInt8), ∃ op, decode (of command disk.toNat block.toNat).encode = .ok op ∧
      op.command = command ∧ op.disk = disk.toNat % 16 ∧ op.block = block.toNat) ∧
    Function.Injective encode ∧
    (∀ op : Operation, op.encode.toNat / 2 ^ 12 = op.command.code ∧ op.encode.toNat / 2 ^ 4 % 2 ^ 8 = op.block ∧
      op.encode.toNat % 2 ^ 4 = op.disk) ∧
    ∀ (δ : Type) [Controller δ] (d : Driver (Recorder δ)) (address done : Nat), address < 2 ^ 20 →
      ∃ toDisk toBlock, (toDisk.command = .seekToDisk ∧ toDisk.disk = address / 65536 ∧ toDisk.block = 0) ∧
        (toBlock.command = .seekToBlock ∧ toBlock.disk = 0 ∧ toBlock.block = address % 65536 / 256) ∧
        ∃ first second, decode first = .ok toDisk ∧ decode second = .ok toBlock ∧
          (d.seek (Location.ofAddress address).blockId done).Ensures
            (fun d' _ => d'.sent = d.sent ++ [(first, .ok ()), (second, .ok ())])
            fun d' _ => ∃ e, d'.sent = d.sent ++ [(first, .error e)] ∨
              d'.sent = d.sent ++ [(first, .ok ()), (second, .error e)] := by
  refine ⟨fun code => ⟨exists_decode_iff, decode_of_le, fun _ => decode_eq_ok_iff.1⟩, ?_, encode_injective,
    fields_encode, ?_⟩
  · intro command disk block
    exact ⟨_, decode_encode _, rfl, of_bytes command disk block⟩
  · intro δ _ d address done h
    obtain ⟨hdisk, hblock⟩ := of_ofAddress h
    exact ⟨_, _, ⟨rfl, hdisk .seekToDisk, rfl⟩, ⟨rfl, rfl, hblock .seekToBlock⟩, _, _, decode_encode _, decode_encode _,
      d.sent_seek _ done⟩

/-- The largest code is one of the last disk and the last block, and the last address is on these. -/
theorem codec_of_last_address :
    let d : Driver (Recorder (Device MemoryDisk)) :=
      { device := { device := { backing := .blank, mounted := true } }, cache := .unused .mostRecent }
    (∃ op, decode 0x9FFF = .ok op ∧ op.encode = 0x9FFF) ∧ decode 0xA000 = .error .badCommand ∧
      ∃ first second, decode first = .ok ⟨.seekToDisk, 15, 0⟩ ∧ decode second = .ok ⟨.seekToBlock, 0, 255⟩ ∧
        (d.seek (Location.ofAddress 0xFFFFF).blockId 0).state.sent = [(first, .ok ()), (second, .ok ())] := by
  intro d
  obtain ⟨hcodes, -, -, -, hseeks⟩ := codec
  obtain ⟨op, hop⟩ := (hcodes 0x9FFF).1.2 (by decide)
  obtain ⟨⟨_, disk, _⟩, ⟨_, _, block⟩, ⟨rfl, hdisk, rfl⟩, ⟨rfl, rfl, hblock⟩, first, second, hfirst, hsecond, hsent⟩ :=
    hseeks _ d 0xFFFFF 0 (by decide)
  have hok : (d.seek (Location.ofAddress 0xFFFFF).blockId 0).result = .ok () := by decide +kernel
  obtain rfl : disk = 15 := Fin.ext hdisk
  obtain rfl : block = 255 := Fin.ext hblock
  rw [Outcome.Ensures, hok] at hsent
  exact ⟨⟨op, hop, (hcodes 0x9FFF).2.2 op hop⟩, (hcodes 0xA000).2.1 (by decide), first, second, hfirst, hsecond, hsent⟩

end Operation

end DiskArray
