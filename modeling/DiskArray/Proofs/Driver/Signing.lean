import DiskArray.Proofs.Driver.Refinement
import DiskArray.Proofs.Signature.Table

/-!
# What signatures certify

A signature is the digest of the bytes that its block held when it was last signed with success. A step of a run
changes the table only if it is such a signing, and then for the block that is signed alone (`signature_after`);
over a run, the last signing of each block counts (`signature_run`).
-/

namespace DiskArray.Driver

section Steps
variable {δ : Type} [Controller δ]

/-- The driver after a step. -/
def after (d : Driver δ) (step : Step) : Driver δ := (d.run [step]).2

theorem run_cons (d : Driver δ) (step : Step) (steps : List Step) :
    (d.run (step :: steps)).2 = ((d.after step).run steps).2 := by
  cases step <;> rfl

/-- The step signs the block, with success. -/
def signs (d : Driver δ) (disk block : UInt8) (step : Step) : Bool :=
  step == .request (.sign disk block) && (d.sign disk block).result.isOk

/-- The driver as it was when the block was signed with success for the last time in a run. -/
def lastSigning? (d : Driver δ) (disk block : UInt8) : List Step → Option (Driver δ)
  | [] => none
  | step :: steps =>
    match (d.after step).lastSigning? disk block steps with
    | some s => some s
    | none => if d.signs disk block step then some d else none

end Steps

section Lawful
variable {δ : Type} [Controller δ] [LawfulController δ] {d : Driver δ} {disk block : UInt8}

/-- The signatures of the array. -/
def signatures (d : Driver δ) : SignatureTable := d.view.signatures

/-! ### One request -/

theorem signatures_issue (d : Driver δ) {op : Operation} (hop : op.command ≠ .signBlock) (buffer : Option Block)
    (done : Nat) :
    (d.issue op buffer done).Ensures (fun d' _ => d'.signatures = d.signatures)
      (fun d' _ => d'.signatures = d.signatures) :=
  (d.issue_ensures op buffer done).mono (fun _ _ ⟨_, hv⟩ => hv.signatures_eq hop)
    fun _ _ ⟨_, hv, _⟩ => congrArg Device.View.signatures hv

theorem signatures_mount (d : Driver δ) :
    d.mount.Ensures (fun d' _ => d'.signatures = d.signatures) (fun d' _ => d'.signatures = d.signatures) := by
  unfold mount
  split_ifs
  · rfl
  · refine (d.signatures_issue (by decide) none 0).andThen (fun d' _ hd' => ?_) fun _ _ hd' => hd'
    exact hd'

theorem signatures_unmount (d : Driver δ) :
    d.unmount.Ensures (fun d' _ => d'.signatures = d.signatures) (fun d' _ => d'.signatures = d.signatures) := by
  unfold unmount
  split_ifs
  · refine (d.signatures_issue (by decide) none 0).andThen (fun d' _ hd' => ?_) fun _ _ hd' => hd'
    exact hd'
  · rfl

theorem signatures_read (h : d.Sound) (start length : Nat) (buffer : Option (List UInt8)) :
    (d.read start length buffer).state.signatures = d.signatures := by
  have hread := read_ensures h start length buffer
  refine Outcome.Ensures.state (p := fun d' => d'.signatures = d.signatures) (hread.mono ?_ ?_)
  · rintro d' n ⟨-, -, -, -, hd'⟩
    exact hd'.signatures
  · rintro d' e ⟨hd', -⟩
    exact hd'.signatures

theorem signatures_write (h : d.Sound) (start length : Nat) (data : Option (List UInt8)) :
    (d.write start length data).state.signatures = d.signatures := by
  have hwrite := write_ensures h start length data
  refine Outcome.Ensures.state (p := fun d' => d'.signatures = d.signatures) (hwrite.mono ?_ ?_)
  · rintro d' n ⟨-, -, -, hd', -⟩
    exact hd'.signatures
  · rintro d' e ⟨hd', -⟩
    exact hd'.signatures

/-- A block that is signed has the digest of what it holds; a signing that fails leaves the table. -/
theorem sign_ensures (h : d.Sound) (disk block : UInt8) :
    (d.sign disk block).Ensures
      (fun d' _ => d'.signatures =
        d.signatures.sign disk block (d.view.blocks (BlockId.flat ⟨disk.toNat, block.toNat⟩)))
      (fun d' _ => d'.signatures = d.signatures) := by
  unfold sign
  split_ifs with hmounted hrange
  · rfl
  · rfl
  · have hdisk := Nat.lt_of_not_le hrange
    have hid : BlockId.InArray ⟨disk.toNat, block.toNat⟩ := ⟨hdisk, block.toNat_lt⟩
    refine seek_issue_ensures h _ 0 (fun d' _ _ hperforms => ?_) fun d' _ _ hleads => hleads.signatures
    obtain ⟨-, -, hv⟩ := hperforms
    have hsigned := congrArg Device.View.signatures hv
    have hseek : UInt8.ofNat (d.view.seekTo ⟨disk.toNat, block.toNat⟩).disk = disk := by
      show UInt8.ofNat (disk.toNat % diskCount) = disk
      rw [Nat.mod_eq_of_lt hdisk, UInt8.ofNat_toNat]
    have hseek' : UInt8.ofNat (d.view.seekTo ⟨disk.toNat, block.toNat⟩).block = block := by
      show UInt8.ofNat (block.toNat % blocksPerDisk) = block
      rw [Nat.mod_eq_of_lt block.toNat_lt, UInt8.ofNat_toNat]
    dsimp only at hsigned
    rw [(Device.View.cursor_seekTo hid).2, hseek, hseek'] at hsigned
    exact hsigned

/-! ### One step -/

theorem Sound.after (h : d.Sound) (step : Step) : (d.after step).Sound :=
  (Holds.run (m := d.bytes) ⟨h, rfl⟩ [step]).2.sound

theorem signatures_of_signs {step : Step} (h : d.Sound) (hstep : d.signs disk block step) :
    (d.after step).signatures =
      d.signatures.sign disk block (d.view.blocks (BlockId.flat ⟨disk.toNat, block.toNat⟩)) := by
  simp only [signs, Bool.and_eq_true, beq_iff_eq] at hstep
  obtain ⟨rfl, hok⟩ := hstep
  have hsign := sign_ensures h disk block
  unfold Outcome.Ensures at hsign
  cases hr : (d.sign disk block).result with
  | ok u =>
    rw [hr] at hsign
    exact hsign
  | error e =>
    rw [hr] at hok
    cases hok

theorem signatures_of_not_signs {step : Step} (h : d.Sound) (hstep : ∀ disk block, d.signs disk block step = false) :
    (d.after step).signatures = d.signatures := by
  cases step with
  | cache r => rfl
  | lookup id =>
    show (d.lookup id).signatures = d.signatures
    unfold lookup
    split <;> rfl
  | request r =>
    cases r with
    | mount => exact d.signatures_mount.state
    | unmount => exact d.signatures_unmount.state
    | grant => rfl
    | revoke => rfl
    | read start length buffer => exact signatures_read h start length buffer
    | write start length data => exact signatures_write h start length data
    | sign disk block =>
      have hsign := sign_ensures h disk block
      have hfails := hstep disk block
      simp only [signs, beq_self_eq_true, Bool.true_and] at hfails
      unfold Outcome.Ensures at hsign
      cases hr : (d.sign disk block).result with
      | ok u =>
        rw [hr] at hfails
        cases hfails
      | error e =>
        rw [hr] at hsign
        exact hsign

/-- The signature of a block changes when the block is signed, and to the digest of what it holds. -/
theorem signature_after (h : d.Sound) (disk block : UInt8) (step : Step) :
    (d.after step).signatures.get? disk block =
      if d.signs disk block step then
        some (Sha256.digest (d.view.blocks (BlockId.flat ⟨disk.toNat, block.toNat⟩)).toList)
      else d.signatures.get? disk block := by
  split_ifs with hstep
  · rw [signatures_of_signs h hstep, SignatureTable.get?_sign, if_pos ⟨rfl, rfl⟩]
  · by_cases hother : ∃ disk' block', d.signs disk' block' step
    · -- another block is signed
      obtain ⟨disk', block', hstep'⟩ := hother
      have hne : ¬ (disk' = disk ∧ block' = block) := by
        rintro ⟨rfl, rfl⟩
        exact hstep hstep'
      rw [signatures_of_signs h hstep', SignatureTable.get?_sign, if_neg hne]
    · rw [signatures_of_not_signs h]
      intro disk' block'
      rw [Bool.eq_false_iff]
      exact fun hstep' => hother ⟨disk', block', hstep'⟩

/-! ### Runs -/

/-- The signature of a block is from its last signing. -/
theorem signature_run (h : d.Sound) (disk block : UInt8) (steps : List Step) :
    match d.lastSigning? disk block steps with
    | some s => s.Sound ∧ (d.run steps).2.signatures.get? disk block =
        some (Sha256.digest (s.view.blocks (BlockId.flat ⟨disk.toNat, block.toNat⟩)).toList)
    | none => (d.run steps).2.signatures.get? disk block = d.signatures.get? disk block := by
  induction steps generalizing d with
  | nil => rfl
  | cons step steps ih =>
    -- a later signing of the block counts before this one
    have hrest := ih (h.after step)
    have hfirst := signature_after h disk block step
    rw [run_cons]
    unfold lastSigning?
    cases hlast : (d.after step).lastSigning? disk block steps with
    | some s =>
      rw [hlast] at hrest
      exact hrest
    | none =>
      rw [hlast] at hrest
      dsimp only at hrest ⊢
      split_ifs at hfirst ⊢
      · exact ⟨h, hrest.trans hfirst⟩
      · exact hrest.trans hfirst

end Lawful

/-! ### Planned failures -/

/-- A new driver over a blank disk, to which signatures were loaded. Its calls fail as planned. -/
def loaded (policy : EvictionPolicy) (signatures : SignatureTable) (devicePlan : Fault.Plan Command DeviceError)
    (diskPlan : Fault.Plan Access DiskError) : Driver (FaultyDevice (Device (FaultyDisk MemoryDisk))) where
  device := { device := { backing := { disk := .blank, plan := diskPlan }, signatures }, plan := devicePlan }
  cache := .unused policy

theorem sound_loaded (policy : EvictionPolicy) (signatures : SignatureTable)
    (devicePlan : Fault.Plan Command DeviceError) (diskPlan : Fault.Plan Access DiskError) :
    (loaded policy signatures devicePlan diskPlan).Sound := .unused policy _

theorem read_block {s : Driver (FaultyDevice (Device (FaultyDisk MemoryDisk)))} (h : s.Sound) (disk block : UInt8) :
    (s.view.blocks (BlockId.flat ⟨disk.toNat, block.toNat⟩)).toList =
        s.disk.bytes (diskSize * disk.toNat + blockSize * block.toNat) blockSize ∧
      ∀ old n out, (s.serve (.read (diskSize * disk.toNat + blockSize * block.toNat) blockSize (some old))).1 =
          .transfer (.ok n) out →
        out = some
          (s.disk.bytes (diskSize * disk.toNat + blockSize * block.toNat) blockSize ++ old.drop blockSize) := by
  have haddress : blockSize * BlockId.flat ⟨disk.toNat, block.toNat⟩ =
      diskSize * disk.toNat + blockSize * block.toNat := by
    show 256 * (disk.toNat * 256 + block.toNat) = 65536 * disk.toNat + 256 * block.toNat
    omega
  refine ⟨?_, ?_⟩
  · rw [FlatArray.toList_eq_slice, haddress]
    exact congrArg (FlatArray.slice · _ _) (bytes_eq_disk s)
  · intro old n out hread
    have hallows := (Holds.serve (m := s.bytes) ⟨h, rfl⟩
      (.read (diskSize * disk.toNat + blockSize * block.toNat) blockSize (some old))).1
    rw [hread] at hallows
    rw [hallows.2.2, bytes_eq_disk]
    rfl

/-- Whatever is asked of a driver and whichever calls fail, the signature of a block is the digest of the bytes that
the disk held there when the block was last signed with success, which are the bytes that a read would then have
given; a block that was not signed in the run has the signature that was loaded. No step but a signing that succeeds
changes the table, and that one only for the block that is signed. -/
theorem signature_certifies (policy : EvictionPolicy) (signatures : SignatureTable)
    (devicePlan : Fault.Plan Command DeviceError) (diskPlan : Fault.Plan Access DiskError) (steps : List Step)
    (disk block : UInt8) :
    let d := loaded policy signatures devicePlan diskPlan
    let last := (d.run steps).2
    let address := 65536 * disk.toNat + 256 * block.toNat
    (match d.lastSigning? disk block steps with
      | some s =>
        last.device.device.signatures.get? disk block = some (Sha256.digest (s.disk.bytes address 256)) ∧
          ∀ old n out, (s.serve (.read address 256 (some old))).1 = .transfer (.ok n) out →
            out = some (s.disk.bytes address 256 ++ old.drop 256)
      | none => last.device.device.signatures.get? disk block = signatures.get? disk block) ∧
    (∀ step, (∀ disk block, last.signs disk block step = false) →
      (last.after step).device.device.signatures = last.device.device.signatures) ∧
    ∀ step, last.signs disk block step → ∀ disk' block', ¬ (disk = disk' ∧ block = block') →
      (last.after step).device.device.signatures.get? disk' block' =
        last.device.device.signatures.get? disk' block' := by
  intro d last address
  have hd : d.Sound := sound_loaded policy signatures devicePlan diskPlan
  have hlast : last.Sound := (Holds.run (m := d.bytes) ⟨hd, rfl⟩ steps).2.sound
  have hrun := signature_run hd disk block steps
  refine ⟨?_, fun step hstep => signatures_of_not_signs hlast hstep, ?_⟩
  · cases hs : d.lastSigning? disk block steps with
    | some s =>
      rw [hs] at hrun
      obtain ⟨hsound, hsignature⟩ := hrun
      obtain ⟨hbytes, hread⟩ := read_block hsound disk block
      rw [hbytes] at hsignature
      exact ⟨hsignature, hread⟩
    | none =>
      rw [hs] at hrun
      exact hrun
  · intro step hstep disk' block' hne
    have hsigned := signatures_of_signs hlast hstep
    have hget := SignatureTable.get?_sign last.signatures disk block
      (last.view.blocks (BlockId.flat ⟨disk.toNat, block.toNat⟩)) disk' block'
    rw [if_neg hne, ← hsigned] at hget
    exact hget

/-- A block is signed after the first attempt failed, and a grant leaves its signature as it is. -/
theorem signature_certifies_of_retry :
    ∃ d s last, d = loaded .leastRecent .empty [{ kind := .signBlock, on := 1, error := .badRead }] [] ∧
      last = (d.run [.request .mount, .request (.sign 3 7), .request (.sign 3 7)]).2 ∧
      d.lastSigning? 3 7 [.request .mount, .request (.sign 3 7), .request (.sign 3 7)] = some s ∧
      last.device.device.signatures.get? 3 7 = some (Sha256.digest (s.disk.bytes 198400 256)) ∧
      (last.after (.request .grant)).device.device.signatures = last.device.device.signatures := by
  have hsome : ((loaded .leastRecent .empty [{ kind := .signBlock, on := 1, error := .badRead }] []).lastSigning? 3 7
      [.request .mount, .request (.sign 3 7), .request (.sign 3 7)]).isSome := by
    decide +kernel
  obtain ⟨s, hs⟩ := Option.isSome_iff_exists.1 hsome
  obtain ⟨hsigned, hunchanged, -⟩ := signature_certifies .leastRecent .empty
    [{ kind := .signBlock, on := 1, error := .badRead }] []
    [.request .mount, .request (.sign 3 7), .request (.sign 3 7)] 3 7
  have haddress : 65536 * UInt8.toNat 3 + 256 * UInt8.toNat 7 = 198400 := rfl
  rw [haddress, hs] at hsigned
  exact ⟨_, s, _, rfl, rfl, hs, hsigned.1, hunchanged (.request .grant) fun _ _ => rfl⟩

end DiskArray.Driver
