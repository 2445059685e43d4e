import DiskArray.Proofs.Driver.InStep
import Mathlib.Algebra.Group.Nat.Defs

/-!
# Requests are checked first

A request goes through its checks in a fixed order, and the first one that fails is the answer (`Checked`). Once all
are passed, only the device can fail. Nothing is assumed of the device or of the state of the driver. A request that is
refused, and a transfer of no bytes, leave all as it was: no call reaches the device (`first_check_decides`).
-/

namespace DiskArray.Driver

/-- The buffer is missing where one is needed, or it is too short. -/
def Lacks (buffer : Option (List UInt8)) (length : Nat) : Prop :=
  (0 < length ∧ buffer = none) ∨ ∃ bytes, buffer = some bytes ∧ bytes.length < length

/-- The result of a request with these checks, each a condition to refuse it and the error: the first condition that
holds decides. If none holds the request succeeds with a value, or the device fails. -/
def Checked {α : Type} (value : α) (result : Except DriverError α) : List (Prop × DriverError) → Prop
  | [] => result = .ok value ∨ ∃ e done, e.DeviceFailed done ∧ result = .error e
  | (refused, e) :: later => (refused → result = .error e) ∧ (¬ refused → Checked value result later)

/-- A transfer of no bytes. -/
def Request.IsEmpty : Request → Prop
  | .read _ length _ => length = 0
  | .write _ length _ => length = 0
  | _ => False

/-- The caller's buffer. -/
def Request.buffer? : Request → Option (List UInt8)
  | .read _ _ buffer => buffer
  | .write _ _ data => data
  | _ => none

/-- The caller's buffer afterwards. -/
def Answer.buffer? : Answer → Option (List UInt8)
  | .transfer _ buffer => buffer
  | .state _ => none

/-- An error that is not the device's. -/
def Answer.Refused (a : Answer) : Prop := ∃ e, a.error? = some e ∧ ∀ done, ¬ e.DeviceFailed done

variable {δ α γ : Type} {d : Driver δ} {start length : Nat} {buffer data : Option (List UInt8)} {e : DriverError}

theorem bufferTooSmall_iff : bufferTooSmall buffer length = true ↔ Lacks buffer length := by
  cases buffer with
  | none => simp [bufferTooSmall, Lacks]
  | some bytes => simp [bufferTooSmall, Lacks]

/-! ### Past the checks -/

/-- A step that fails only if the device does. -/
def FailsByDevice (o : Outcome (Driver δ) DriverError α) : Prop :=
  o.Ensures (fun _ _ => True) fun _ e => ∃ done, e.DeviceFailed done

theorem failsByDevice_remember (d : Driver δ) (id : BlockId) (block : Block) :
    FailsByDevice (d.remember id block) :=
  (d.remember_ensures id block).mono (fun _ _ _ => trivial) fun _ _ hfalse => hfalse.elim

namespace FailsByDevice

variable {o : Outcome (Driver δ) DriverError α}

theorem done (d : Driver δ) (a : α) : FailsByDevice (.done d a) := trivial

theorem andThen {next : Driver δ → α → Outcome (Driver δ) DriverError γ} (ho : FailsByDevice o)
    (hnext : ∀ d a, FailsByDevice (next d a)) : FailsByDevice (o.andThen next) :=
  Outcome.Ensures.andThen ho (fun d a _ => hnext d a) fun _ _ he => he

theorem deviceFailed (ho : FailsByDevice o) (he : failure? o.result = some e) : ∃ done, e.DeviceFailed done := by
  unfold FailsByDevice Outcome.Ensures at ho
  cases hr : o.result with
  | ok a =>
    rw [hr] at he
    cases he
  | error e' =>
    rw [hr] at ho he
    obtain rfl := Option.some.inj he
    exact ho

theorem checked {value : α} (ho : FailsByDevice o) (hvalue : ∀ a, o.result = .ok a → a = value) :
    Checked value o.result [] := by
  cases hr : o.result with
  | ok a => exact Or.inl (congrArg Except.ok (hvalue a hr))
  | error e =>
    obtain ⟨done, he⟩ := ho.deviceFailed (congrArg failure? hr)
    exact Or.inr ⟨e, done, he, rfl⟩

theorem checked_andThen (ho : FailsByDevice o) (value : γ) :
    Checked value (o.andThen fun d _ => .done d value).result [] := by
  refine (ho.andThen fun d _ => done d value).checked fun a ha => ?_
  obtain ⟨result, s, log⟩ := o
  cases result with
  | ok b => exact (Except.ok.inj ha).symm
  | error e => cases ha

end FailsByDevice

section Steps
variable [Controller δ]

theorem failsByDevice_issue (d : Driver δ) (op : Operation) (buffer : Option Block) (done : Nat) :
    FailsByDevice (d.issue op buffer done) := by
  unfold issue FailsByDevice Outcome.Ensures
  dsimp only
  cases (Controller.operate d.device op.encode buffer).result with
  | ok u => trivial
  | error e => exact ⟨done, op.command, e, rfl⟩

theorem failsByDevice_seek (d : Driver δ) (id : BlockId) (done : Nat) : FailsByDevice (d.seek id done) := by
  unfold seek
  refine (d.failsByDevice_issue _ _ _).andThen fun d₁ _ => ?_
  exact (d₁.failsByDevice_issue _ _ _).andThen fun d₂ _ => .done d₂ ()

theorem failsByDevice_fetch (d : Driver δ) (id : BlockId) (done : Nat) : FailsByDevice (d.fetch id done) := by
  unfold fetch
  refine (d.failsByDevice_seek id done).andThen fun d₁ _ => ?_
  refine (d₁.failsByDevice_issue _ _ _).andThen fun d₂ buffer => ?_
  exact (d₂.failsByDevice_remember id _).andThen fun d₃ _ => .done d₃ _

theorem failsByDevice_load (d : Driver δ) (id : BlockId) (done : Nat) : FailsByDevice (d.load id done) := by
  unfold load
  split
  · exact .done _ _
  · exact failsByDevice_fetch _ id done
  · exact d.failsByDevice_fetch id done

theorem failsByDevice_store (d : Driver δ) (id : BlockId) (block : Block) (done : Nat) :
    FailsByDevice (d.store id block done) := by
  unfold store
  refine (d.failsByDevice_seek id done).andThen fun d₁ _ => ?_
  exact (d₁.failsByDevice_issue _ _ _).andThen fun d₂ buffer => d₂.failsByDevice_remember id _

theorem failsByDevice_readChunks (d : Driver δ) (done : Nat) (chunks : List Chunk) :
    FailsByDevice (d.readChunks done chunks).2 := by
  induction chunks generalizing d done with
  | nil => exact .done d ()
  | cons c rest ih =>
    have hload := d.failsByDevice_load c.location.blockId done
    unfold FailsByDevice Outcome.Ensures at hload
    cases hr : (d.load c.location.blockId done).result with
    | error e =>
      rw [hr] at hload
      simp only [readChunks, Outcome.result_logged, hr]
      exact hload
    | ok block =>
      simp only [readChunks, Outcome.result_logged, Outcome.state_logged, hr]
      exact ih _ (done + c.size)

theorem failsByDevice_prepare (d : Driver δ) (c : Chunk) (data : List UInt8) (done : Nat) :
    FailsByDevice (d.prepare c data done) := by
  unfold prepare
  dsimp only
  split_ifs
  · exact .done d _
  · exact (d.failsByDevice_load _ done).andThen fun d₁ _ => .done d₁ _

theorem failsByDevice_writeChunks (d : Driver δ) (done : Nat) (data : List UInt8) (chunks : List Chunk) :
    FailsByDevice (d.writeChunks done data chunks) := by
  induction chunks generalizing d done data with
  | nil => exact .done d ()
  | cons c rest ih =>
    rw [writeChunks]
    refine (d.failsByDevice_prepare c _ done).andThen fun d₁ block => ?_
    exact (d₁.failsByDevice_store _ block done).andThen fun d₂ _ => ih d₂ _ _

theorem failsByDevice_mount (hm : ¬ d.mounted) : FailsByDevice d.mount := by
  unfold Driver.mount
  rw [if_neg hm]
  refine (d.failsByDevice_issue _ none 0).andThen fun d₁ _ => ?_
  trivial

theorem failsByDevice_unmount (hm : d.mounted) : FailsByDevice d.unmount := by
  unfold Driver.unmount
  rw [if_pos hm]
  refine (d.failsByDevice_issue _ none 0).andThen fun d₁ _ => ?_
  trivial

theorem failsByDevice_sign {disk block : UInt8} (h : d.refuseSign? disk block = none) :
    FailsByDevice (d.sign disk block) := by
  unfold refuseSign? at h
  unfold Driver.sign
  split_ifs at h ⊢
  refine (d.failsByDevice_seek _ 0).andThen fun d₁ _ => ?_
  exact (d₁.failsByDevice_issue _ none 0).andThen fun d₂ _ => .done d₂ ()

/-! ### The checks of each request -/

theorem checked_read (d : Driver δ) (start length : Nat) (buffer : Option (List UInt8)) :
    Checked length (d.read start length buffer).result
      [(d.mounted = false, .notMounted), (maxTransfer < length, .lengthTooLarge length),
        (Lacks buffer length, .badBuffer), (totalSize < start + length, .outOfRange start length)] := by
  have hrefuse (e : DriverError) (he : d.refuseRead? start length buffer = some e) :
      (d.read start length buffer).result = .error e := by
    simp only [Driver.read, he, Outcome.fail]
  have hpass (hnone : d.refuseRead? start length buffer = none) :
      Checked length (d.read start length buffer).result [] := by
    simp only [Driver.read, hnone]
    exact (d.failsByDevice_readChunks 0 _).checked_andThen length
  unfold refuseRead? at hrefuse hpass
  rw [← bufferTooSmall_iff]
  -- each check that is passed leaves the refusals after it
  refine ⟨fun hm => hrefuse _ (if_pos (by simp [hm])), fun hm => ?_⟩
  rw [if_neg (by simp [hm])] at hrefuse hpass
  refine ⟨fun hlong => hrefuse _ (if_pos hlong), fun hlong => ?_⟩
  rw [if_neg hlong] at hrefuse hpass
  refine ⟨fun hsmall => hrefuse _ (if_pos hsmall), fun hsmall => ?_⟩
  rw [if_neg hsmall] at hrefuse hpass
  exact ⟨fun hrange => hrefuse _ (if_pos hrange), fun hrange => hpass (if_neg hrange)⟩

theorem checked_write (d : Driver δ) (start length : Nat) (data : Option (List UInt8)) :
    Checked length (d.write start length data).result
      [(d.mounted = false, .notMounted), (d.writable = false, .permissionDenied),
        (maxTransfer < length, .lengthTooLarge length), (Lacks data length, .badBuffer),
        (0 < length ∧ totalSize < start + length, .outOfRange start length)] := by
  have hrefuse (e : DriverError) (he : d.refuseWrite? start length data = some e) :
      (d.write start length data).result = .error e := by
    simp only [Driver.write, he, Outcome.fail]
  have hpass (hnone : d.refuseWrite? start length data = none) :
      Checked length (d.write start length data).result [] := by
    simp only [Driver.write, hnone]
    exact (d.failsByDevice_writeChunks 0 _ _).checked_andThen length
  unfold refuseWrite? at hrefuse hpass
  rw [← bufferTooSmall_iff]
  refine ⟨fun hm => hrefuse _ (if_pos (by simp [hm])), fun hm => ?_⟩
  rw [if_neg (by simp [hm])] at hrefuse hpass
  refine ⟨fun hw => hrefuse _ (if_pos (by simp [hw])), fun hw => ?_⟩
  rw [if_neg (by simp [hw])] at hrefuse hpass
  refine ⟨fun hlong => hrefuse _ (if_pos hlong), fun hlong => ?_⟩
  rw [if_neg hlong] at hrefuse hpass
  refine ⟨fun hsmall => hrefuse _ (if_pos hsmall), fun hsmall => ?_⟩
  rw [if_neg hsmall] at hrefuse hpass
  exact ⟨fun hrange => hrefuse _ (if_pos (by simpa using hrange)),
    fun hrange => hpass (if_neg (by simpa using hrange))⟩

theorem checked_mount (d : Driver δ) : Checked () d.mount.result [(d.mounted = true, .alreadyMounted)] := by
  refine ⟨fun hm => ?_, fun hm => (failsByDevice_mount hm).checked fun _ _ => rfl⟩
  rw [Driver.mount, if_pos hm]
  rfl

theorem checked_unmount (d : Driver δ) : Checked () d.unmount.result [(d.mounted = false, .alreadyUnmounted)] := by
  refine ⟨fun hm => ?_, fun hm => (failsByDevice_unmount (by simpa using hm)).checked fun _ _ => rfl⟩
  rw [Driver.unmount, if_neg (by simp [hm])]
  rfl

theorem checked_sign (d : Driver δ) (disk block : UInt8) :
    Checked () (d.sign disk block).result
      [(d.mounted = false, .notMounted), (diskCount ≤ disk.toNat,
        .outOfRange (disk.toNat * diskSize + block.toNat * blockSize) blockSize)] := by
  have hpass (hnone : d.refuseSign? disk block = none) : Checked () (d.sign disk block).result [] :=
    (failsByDevice_sign hnone).checked fun _ _ => rfl
  unfold refuseSign? at hpass
  refine ⟨fun hm => ?_, fun hm => ⟨fun hdisk => ?_, fun hdisk => ?_⟩⟩
  · rw [Driver.sign, if_pos (by simp [hm])]
    rfl
  · rw [Driver.sign, if_neg (by simp [hm]), if_pos hdisk]
    rfl
  · exact hpass (by rw [if_neg (by simp [hm]), if_neg hdisk])

/-! ### What a refusal leaves -/

theorem serve_of_refuse? {r : Request} (h : d.refuse? r = some e) :
    (d.serve r).2 = d ∧ (d.serve r).1.buffer? = r.buffer? := by
  cases r with
  | mount =>
    simp only [refuse?] at h
    split_ifs at h with hm
    simp only [serve, Driver.mount, if_pos hm]
    exact ⟨rfl, rfl⟩
  | unmount =>
    simp only [refuse?] at h
    split_ifs at h with hm
    simp only [serve, Driver.unmount, if_neg hm]
    exact ⟨rfl, rfl⟩
  | grant => cases h
  | revoke => cases h
  | read start length buffer =>
    have h : d.refuseRead? start length buffer = some e := h
    simp only [serve, Driver.read, h]
    exact ⟨rfl, rfl⟩
  | write start length data =>
    have h : d.refuseWrite? start length data = some e := h
    simp only [serve, Driver.write, h]
    exact ⟨rfl, rfl⟩
  | sign disk block =>
    simp only [refuse?, refuseSign?] at h
    simp only [serve, Driver.sign]
    split_ifs at h ⊢
    · exact ⟨rfl, rfl⟩
    · exact ⟨rfl, rfl⟩

theorem serve_of_not_refuse? {r : Request} (h : d.refuse? r = none) (he : (d.serve r).1.error? = some e) :
    ∃ done, e.DeviceFailed done := by
  cases r with
  | mount =>
    simp only [refuse?] at h
    split_ifs at h with hm
    exact (failsByDevice_mount hm).deviceFailed he
  | unmount =>
    simp only [refuse?] at h
    split_ifs at h with hm
    exact (failsByDevice_unmount hm).deviceFailed he
  | grant => cases he
  | revoke => cases he
  | read start length buffer =>
    have h : d.refuseRead? start length buffer = none := h
    simp only [serve, Driver.read, h] at he
    exact ((d.failsByDevice_readChunks 0 _).andThen fun d' _ => .done d' length).deviceFailed he
  | write start length data =>
    have h : d.refuseWrite? start length data = none := h
    simp only [serve, Driver.write, h] at he
    exact ((d.failsByDevice_writeChunks 0 _ _).andThen fun d' _ => .done d' length).deviceFailed he
  | sign disk block => exact (failsByDevice_sign h).deviceFailed he

theorem serve_of_isEmpty {r : Request} (hempty : r.IsEmpty) (h : d.refuse? r = none) :
    (d.serve r).2 = d ∧ (d.serve r).1.buffer? = r.buffer? := by
  cases r with
  | read start length buffer =>
    obtain rfl : length = 0 := hempty
    have h : d.refuseRead? start 0 buffer = none := h
    simp only [serve, Driver.read, h, chunks_zero, readChunks, Outcome.done_andThen]
    refine ⟨rfl, ?_⟩
    cases buffer <;> rfl
  | write start length data =>
    obtain rfl : length = 0 := hempty
    have h : d.refuseWrite? start 0 data = none := h
    simp only [serve, Driver.write, h, chunks_zero, writeChunks, Outcome.done_andThen]
    exact ⟨rfl, rfl⟩
  | _ => exact hempty.elim

/-- The first check that fails decides the answer of a request, whatever the state of the driver and its device. Ranges
are checked with exact sums, also where a 32-bit one wraps, and also for no bytes, but that a write of no bytes is
accepted anywhere. A request that is refused, and a transfer of no bytes, leave the driver, its cache, its device and
the caller's buffer as they were. -/
theorem first_check_decides (d : Driver δ) :
    (∀ start length buffer, Checked length (d.read start length buffer).result
      [(d.mounted = false, .notMounted), (1024 < length, .lengthTooLarge length),
        (Lacks buffer length, .badBuffer), (2 ^ 20 < start + length, .outOfRange start length)]) ∧
    (∀ start length data, Checked length (d.write start length data).result
      [(d.mounted = false, .notMounted), (d.writable = false, .permissionDenied),
        (1024 < length, .lengthTooLarge length), (Lacks data length, .badBuffer),
        (0 < length ∧ 2 ^ 20 < start + length, .outOfRange start length)]) ∧
    (∀ start data, d.mounted = true → d.writable = true → (d.write start 0 data).result = .ok 0) ∧
    Checked () d.mount.result [(d.mounted = true, .alreadyMounted)] ∧
    Checked () d.unmount.result [(d.mounted = false, .alreadyUnmounted)] ∧
    (∀ disk block, Checked () (d.sign disk block).result
      [(d.mounted = false, .notMounted),
        (16 ≤ disk.toNat, .outOfRange (disk.toNat * 65536 + block.toNat * 256) 256)]) ∧
    ∀ r, r.IsEmpty ∨ (d.serve r).1.Refused → (d.serve r).2 = d ∧ (d.serve r).1.buffer? = r.buffer? := by
  refine ⟨d.checked_read, d.checked_write, fun start data hm hw => ?_, d.checked_mount, d.checked_unmount,
    d.checked_sign, fun r hr => ?_⟩
  · have hnone : d.refuseWrite? start 0 data = none := by
      have hsmall : bufferTooSmall data 0 = false := by cases data <;> rfl
      simp [refuseWrite?, hm, hw, hsmall]
    simp only [Driver.write, hnone, chunks_zero, writeChunks, Outcome.done_andThen]
    rfl
  · cases hrefuse : d.refuse? r with
    | some e => exact serve_of_refuse? hrefuse
    | none =>
      rcases hr with hempty | ⟨e, he, hdevice⟩
      · exact serve_of_isEmpty hempty hrefuse
      · obtain ⟨done, hfailed⟩ := serve_of_not_refuse? hrefuse he
        exact absurd hfailed (hdevice done)

end Steps

/-- A read at the last 32-bit address, whose end wraps to zero, is out of range. A write of no bytes is accepted there. -/
theorem first_check_decides_of_wrap :
    let d : Driver (Device MemoryDisk) :=
      { device := { backing := .blank, mounted := true }, cache := .unused .leastRecent, mounted := true,
        writable := true }
    (d.read (2 ^ 32 - 1) 1 (some [7])).result = .error (.outOfRange (2 ^ 32 - 1) 1) ∧
      (d.read (2 ^ 32 - 1) 1 (some [7])).state = d ∧ (d.read (2 ^ 32 - 1) 1 (some [7])).buffer = some [7] ∧
      (d.write (2 ^ 32 - 1) 0 none).result = .ok 0 := by
  intro d
  obtain ⟨hread, -, hempty, -, -, -, hstays⟩ := d.first_check_decides
  have hfits : ¬ Lacks (some [7]) 1 := by simp [Lacks]
  have hresult := (((hread (2 ^ 32 - 1) 1 (some [7])).2 (by decide)).2 (by decide)).2 hfits
  have hrefused : (d.serve (.read (2 ^ 32 - 1) 1 (some [7]))).1.Refused := by
    refine ⟨.outOfRange (2 ^ 32 - 1) 1, congrArg failure? (hresult.1 (by decide)), ?_⟩
    rintro done ⟨command, source, h⟩
    cases h
  obtain ⟨hstate, hbuffer⟩ := hstays _ (Or.inr hrefused)
  exact ⟨hresult.1 (by decide), hstate, hbuffer, hempty _ none rfl rfl⟩

end DiskArray.Driver
