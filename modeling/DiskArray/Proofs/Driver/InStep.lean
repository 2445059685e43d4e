import DiskArray.Proofs.Device.Calls
import DiskArray.Proofs.Driver.Run
import DiskArray.Proofs.Driver.Transfer

/-!
# Driver and device in step

A driver calls its device in turn, whatever is asked of it and whichever calls of the disk fail: it takes the device
to be mounted exactly when it is, and it puts the cursor on a block before each transfer, so that no command fails
but a transfer whose disk failed. The invariant is `InStep`; the single steps keep it (`Keeps`) and fail only if the
disk does (`Fault`).
-/

namespace DiskArray

/-- The error of a transfer, or of a signature, whose disk failed. -/
def DriverError.DiskFailed (e : DriverError) : Prop :=
  ∃ command source done, e = .device command source done ∧ command.fault? = some source

namespace Driver

variable {δ α γ : Type}

def failure? : Except DriverError α → Option DriverError
  | .ok _ => none
  | .error e => some e

/-- The error in an answer. -/
def Answer.error? : Answer → Option DriverError
  | .state result => failure? result
  | .transfer result _ => failure? result

/-- Why a signature is refused. -/
def refuseSign? (d : Driver δ) (disk block : UInt8) : Option DriverError :=
  if !d.mounted then some .notMounted
  else if diskCount ≤ disk.toNat then
    some (.outOfRange (disk.toNat * diskSize + block.toNat * blockSize) blockSize)
  else none

/-- Why a request is refused before the device is called. -/
def refuse? (d : Driver δ) : Request → Option DriverError
  | .mount => if d.mounted then some .alreadyMounted else none
  | .unmount => if d.mounted then none else some .alreadyUnmounted
  | .grant => none
  | .revoke => none
  | .read start length buffer => d.refuseRead? start length buffer
  | .write start length data => d.refuseWrite? start length data
  | .sign disk block => d.refuseSign? disk block

theorem refuse?_ne_device (d : Driver δ) (r : Request) (command : Command) (source : DeviceError) (t : Nat) :
    d.refuse? r ≠ some (.device command source t) := by
  intro hr
  cases r with
  | read start length buffer => exact not_deviceFailed_of_refuseRead? hr ⟨command, source, rfl⟩
  | write start length data => exact not_deviceFailed_of_refuseWrite? hr ⟨command, source, rfl⟩
  | grant => cases hr
  | revoke => cases hr
  | mount =>
    simp only [refuse?] at hr
    split_ifs at hr
    cases hr
  | unmount =>
    simp only [refuse?] at hr
    split_ifs at hr
    cases hr
  | sign disk block =>
    simp only [refuse?, refuseSign?] at hr
    split_ifs at hr <;> cases hr

variable {β : Type} [Backing β] [Controller δ] [DeviceHost δ β] {d d' d'' : Driver δ} {e : DriverError}

/-- The device of a driver, behind what it passes its calls through. -/
def host (d : Driver δ) : Device β := DeviceHost.device d.device

/-- The disk of the driver never fails. -/
def NeverFails (d : Driver δ) : Prop := Backing.NeverFails d.host.backing

/-- The driver knows whether its device is mounted, and no call failed but transfers whose disk failed. -/
structure InStep (d : Driver δ) : Prop where
  mounted : d.host.mounted = d.mounted
  clean : DeviceHost.Clean d.device

/-- A step that leaves driver and device mounted or not as they were. -/
structure Keeps (d d' : Driver δ) : Prop where
  host : d'.host.mounted = d.host.mounted
  mounted : d'.mounted = d.mounted
  clean : DeviceHost.Clean d.device → DeviceHost.Clean d'.device
  neverFails : d.NeverFails → d'.NeverFails

/-- The disk failed, which only a disk does that may fail. -/
def Fault (d : Driver δ) (e : DriverError) : Prop := e.DiskFailed ∧ ¬ d.NeverFails

namespace Keeps

theorem refl (d : Driver δ) : d.Keeps d := ⟨rfl, rfl, id, id⟩

theorem trans (h : d.Keeps d') (h' : d'.Keeps d'') : d.Keeps d'' where
  host := h'.host.trans h.host
  mounted := h'.mounted.trans h.mounted
  clean hclean := h'.clean (h.clean hclean)
  neverFails hnever := h'.neverFails (h.neverFails hnever)

theorem fault (h : d.Keeps d') (he : d'.Fault e) : d.Fault e :=
  ⟨he.1, fun hnever => he.2 (h.neverFails hnever)⟩

theorem inStep (h : d.Keeps d') (hd : d.InStep) : d'.InStep where
  mounted := by rw [h.host, h.mounted, hd.mounted]
  clean := h.clean hd.clean

end Keeps

theorem keeps_cache (d : Driver δ) (cache : Cache) : d.Keeps { d with cache } := ⟨rfl, rfl, id, id⟩

/-- A step that keeps driver and device in step, and fails only if the disk does. -/
def Steady (d : Driver δ) (o : Outcome (Driver δ) DriverError α) : Prop :=
  o.Ensures (fun d' _ => d.Keeps d') fun d' e => d.Keeps d' ∧ d.Fault e

namespace Steady

variable {o : Outcome (Driver δ) DriverError α}

theorem of_keeps (h : d.Keeps d') (ho : d'.Steady o) : d.Steady o := by
  refine Outcome.Ensures.mono ho (fun _ _ hd' => h.trans hd') ?_
  rintro d'' e ⟨hd'', he⟩
  exact ⟨h.trans hd'', h.fault he⟩

theorem andThen {next : Driver δ → α → Outcome (Driver δ) DriverError γ} (ho : d.Steady o)
    (hnext : ∀ d' a, d.Keeps d' → d'.Steady (next d' a)) : d.Steady (o.andThen next) :=
  Outcome.Ensures.andThen ho (fun d' a hd' => of_keeps hd' (hnext d' a hd')) fun _ _ hfault => hfault

theorem done (h : d.Keeps d') (a : α) : d.Steady (.done d' a) := h

end Steady

/-! ### Calls of the device -/

theorem issue_admitted (op : Operation) (buffer : Option Block) (h : d.host.Admits op.command buffer) (done : Nat) :
    (d.issue op buffer done).Ensures
      (fun d' _ => d.host.Obeys op.command d'.host ∧ d'.mounted = d.mounted ∧
        (DeviceHost.Clean d.device → DeviceHost.Clean d'.device))
      (fun d' e => d.Keeps d' ∧ ¬ d.NeverFails ∧
        ∃ source, e = .device op.command source done ∧ op.command.fault? = some source) := by
  have hreplies : d.host.Replies op.command (d.host.operate op.encode buffer) := Device.operate_replies h
  have hresult := DeviceHost.result_eq d.device op.encode buffer
  have hdevice := DeviceHost.device_eq d.device op.encode buffer
  unfold Device.Replies host at hreplies
  -- what the device replies is what the driver gets, through whatever the call was passed
  rw [← hresult, ← hdevice] at hreplies
  unfold issue Outcome.Ensures
  dsimp only
  cases hr : (Controller.operate d.device op.encode buffer).result with
  | ok u =>
    rw [hr] at hreplies
    refine ⟨hreplies, rfl, ?_⟩
    intro hclean
    apply DeviceHost.clean_operate hclean
    intro e he
    rw [hr] at he
    cases he
  | error e =>
    rw [hr] at hreplies
    have hdisk : ¬ d.NeverFails := hreplies.disk
    refine ⟨⟨hreplies.mounted, rfl, ?_, fun hnever => absurd hnever hdisk⟩, hdisk, e, rfl, hreplies.fault⟩
    intro hclean
    apply DeviceHost.clean_operate hclean
    intro e' he'
    obtain rfl := Except.error.inj (hr.symm.trans he')
    exact hreplies.fault

theorem issue_keeps (op : Operation) (buffer : Option Block) (h : d.host.Admits op.command buffer)
    (hop : Device.mountedAfter d.host.mounted op.command = d.host.mounted) (done : Nat) :
    (d.issue op buffer done).Ensures
      (fun d' _ => d.Keeps d' ∧ (op.command = .seekToBlock → d'.host.block < blocksPerDisk))
      (fun d' e => d.Keeps d' ∧ d.Fault e) := by
  refine (issue_admitted op buffer h done).mono ?_ ?_
  · rintro d' _ ⟨hobeys, hmounted, hclean⟩
    exact ⟨⟨hobeys.mounted.trans hop, hmounted, hclean, hobeys.neverFails⟩, hobeys.placed⟩
  · rintro d' e ⟨hd', hdisk, source, he, hfault⟩
    exact ⟨hd', ⟨_, source, done, he, hfault⟩, hdisk⟩

theorem seek_keeps (hm : d.host.mounted = true) (id : BlockId) (done : Nat) :
    (d.seek id done).Ensures (fun d' _ => d.Keeps d' ∧ d'.host.block < blocksPerDisk)
      (fun d' e => d.Keeps d' ∧ d.Fault e) := by
  unfold seek
  have hdisk := issue_keeps (.of .seekToDisk id.disk 0) none hm rfl done
  refine hdisk.andThen ?_ fun _ _ hfault => hfault
  rintro d₁ _ ⟨hd₁, -⟩
  have hm₁ : d₁.host.mounted = true := hd₁.host.trans hm
  have hblock := issue_keeps (.of .seekToBlock 0 id.block) none hm₁ rfl done
  refine hblock.andThen ?_ ?_
  · rintro d₂ _ ⟨hd₂, hplaced⟩
    exact ⟨hd₁.trans hd₂, hplaced rfl⟩
  · rintro d₂ e ⟨hd₂, he⟩
    exact ⟨hd₁.trans hd₂, hd₁.fault he⟩

theorem steady_seek_issue (op : Operation) (buffer : Option Block)
    {next : Driver δ → Option Block → Outcome (Driver δ) DriverError α} (hm : d.host.mounted = true)
    (hop : ∀ dev : Device β, dev.mounted = true → dev.block < blocksPerDisk → dev.Admits op.command buffer)
    (hmounted : Device.mountedAfter true op.command = true) (id : BlockId) (done : Nat)
    (hnext : ∀ (d' : Driver δ) (buffer' : Option Block), d'.Steady (next d' buffer')) :
    d.Steady ((d.seek id done).andThen fun d _ => (d.issue op buffer done).andThen next) := by
  refine (seek_keeps hm id done).andThen ?_ fun _ _ hfault => hfault
  rintro d₁ _ ⟨hd₁, hplaced⟩
  have hm₁ : d₁.host.mounted = true := hd₁.host.trans hm
  have hissue := issue_keeps op buffer (hop _ hm₁ hplaced) (hm₁ ▸ hmounted) done
  have hsteady : d₁.Steady (d₁.issue op buffer done) := hissue.mono (fun _ _ hd₂ => hd₂.1) fun _ _ hfault => hfault
  exact Steady.of_keeps hd₁ (hsteady.andThen fun d₂ buffer' _ => hnext d₂ buffer')

/-! ### Blocks -/

theorem steady_remember (d : Driver δ) (id : BlockId) (block : Block) : d.Steady (d.remember id block) := by
  refine (d.remember_ensures id block).mono ?_ fun _ _ hfalse => hfalse.elim
  rintro d' _ rfl
  exact d.keeps_cache _

theorem steady_fetch (hm : d.host.mounted = true) (id : BlockId) (done : Nat) : d.Steady (d.fetch id done) := by
  unfold fetch
  refine steady_seek_issue (.bare .readBlock) _ hm (fun dev hdev hplaced => ⟨hdev, hplaced, rfl⟩) rfl id done ?_
  intro d₁ buffer
  exact (d₁.steady_remember id _).andThen fun d₂ _ _ => .done (.refl d₂) _

theorem steady_load (hm : d.host.mounted = true) (id : BlockId) (done : Nat) : d.Steady (d.load id done) := by
  unfold load
  split
  · exact .done (d.keeps_cache _) _
  · rename_i cache hlookup
    exact .of_keeps (d.keeps_cache cache) (steady_fetch (d := { d with cache }) hm id done)
  · exact steady_fetch hm id done

theorem steady_store (hm : d.host.mounted = true) (id : BlockId) (block : Block) (done : Nat) :
    d.Steady (d.store id block done) := by
  unfold store
  refine steady_seek_issue (.bare .writeBlock) _ hm (fun dev hdev hplaced => ⟨hdev, hplaced, rfl⟩) rfl id done ?_
  intro d₁ buffer
  exact d₁.steady_remember id _

/-! ### Transfers -/

theorem steady_readChunks (hm : d.host.mounted = true) (chunks : List Chunk) (done : Nat) :
    d.Steady (d.readChunks done chunks).2 := by
  induction chunks generalizing d done with
  | nil => exact .done (.refl d) _
  | cons c rest ih =>
    have hload := steady_load hm c.location.blockId done
    unfold Steady Outcome.Ensures at hload
    cases hr : (d.load c.location.blockId done).result with
    | error e =>
      rw [hr] at hload
      simp only [readChunks, Outcome.result_logged, hr]
      exact hload
    | ok block =>
      -- the device is still mounted, which is all that the next chunk needs of it
      rw [hr] at hload
      simp only [readChunks, Outcome.result_logged, Outcome.state_logged, hr]
      exact .of_keeps hload (ih (hload.host.trans hm) (done + c.size))

theorem steady_prepare (hm : d.host.mounted = true) (c : Chunk) (data : List UInt8) (done : Nat) :
    d.Steady (d.prepare c data done) := by
  unfold prepare
  dsimp only
  split_ifs
  · exact .done (.refl d) _
  · exact (steady_load hm _ done).andThen fun d' _ _ => .done (.refl d') _

theorem steady_writeChunks (hm : d.host.mounted = true) (chunks : List Chunk) (data : List UInt8) (done : Nat) :
    d.Steady (d.writeChunks done data chunks) := by
  induction chunks generalizing d data done with
  | nil => exact .done (.refl d) _
  | cons c rest ih =>
    rw [writeChunks]
    refine (steady_prepare hm c _ done).andThen ?_
    intro d₁ block hd₁
    have hm₁ : d₁.host.mounted = true := hd₁.host.trans hm
    refine (steady_store hm₁ c.location.blockId block done).andThen ?_
    intro d₂ _ hd₂
    exact ih (hd₂.host.trans hm₁) _ _

/-! ### Requests -/

/-- How a request is answered: it is refused, or it succeeds, or it needs the disk and that fails. -/
def Answers (d : Driver δ) (r : Request) (error? : Option DriverError) : Prop :=
  error? = d.refuse? r ∨
    d.refuse? r = none ∧ r ≠ .mount ∧ r ≠ .unmount ∧ ∃ e, error? = some e ∧ d.Fault e

/-- Another driver in step, over a disk that fails only if the first one does. -/
def Goes (d d' : Driver δ) : Prop := d'.InStep ∧ (d.NeverFails → d'.NeverFails)

theorem Keeps.goes (h : d.Keeps d') (hd : d.InStep) : d.Goes d' := ⟨h.inStep hd, h.neverFails⟩

theorem issue_ok (op : Operation) (buffer : Option Block) (h : d.host.Admits op.command buffer)
    (hop : op.command.fault? = none) (done : Nat) :
    ∃ b, (d.issue op buffer done).result = .ok b ∧ d.host.Obeys op.command (d.issue op buffer done).state.host ∧
      (DeviceHost.Clean d.device → DeviceHost.Clean (d.issue op buffer done).state.device) := by
  have hissue := issue_admitted op buffer h done
  unfold Outcome.Ensures at hissue
  cases hr : (d.issue op buffer done).result with
  | ok b =>
    rw [hr] at hissue
    exact ⟨b, rfl, hissue.1, hissue.2.2⟩
  | error e =>
    rw [hr] at hissue
    obtain ⟨-, -, source, -, hfault⟩ := hissue
    rw [hop] at hfault
    cases hfault

theorem InStep.mount (h : d.InStep) :
    d.Goes d.mount.state ∧ (Answer.state d.mount.result).error? = d.refuse? .mount := by
  unfold Driver.mount
  by_cases hm : d.mounted
  · simp only [refuse?, if_pos hm]
    exact ⟨⟨h, id⟩, rfl⟩
  · have hhost : d.host.mounted = false := h.mounted.trans (by simpa using hm)
    obtain ⟨b, hr, hobeys, hclean⟩ := issue_ok (.bare .mount) none hhost rfl 0
    simp only [refuse?, if_neg hm, Outcome.result_andThen hr, Outcome.state_andThen hr]
    exact ⟨⟨⟨hobeys.mounted, hclean h.clean⟩, hobeys.neverFails⟩, rfl⟩

theorem InStep.unmount (h : d.InStep) :
    d.Goes d.unmount.state ∧ (Answer.state d.unmount.result).error? = d.refuse? .unmount := by
  unfold Driver.unmount
  by_cases hm : d.mounted
  · have hhost : d.host.mounted = true := h.mounted.trans hm
    obtain ⟨b, hr, hobeys, hclean⟩ := issue_ok (.bare .unmount) none hhost rfl 0
    simp only [refuse?, if_pos hm, Outcome.result_andThen hr, Outcome.state_andThen hr]
    exact ⟨⟨⟨hobeys.mounted, hclean h.clean⟩, hobeys.neverFails⟩, rfl⟩
  · simp only [refuse?, if_neg hm]
    exact ⟨⟨h, id⟩, rfl⟩

theorem Steady.answers {o : Outcome (Driver δ) DriverError α} {r : Request} (ho : d.Steady o) (h : d.InStep)
    (hr : d.refuse? r = none) (hmount : r ≠ .mount) (hunmount : r ≠ .unmount) :
    d.Goes o.state ∧ d.Answers r (failure? o.result) := by
  unfold Steady Outcome.Ensures at ho
  cases hresult : o.result with
  | ok a =>
    rw [hresult] at ho
    exact ⟨ho.goes h, Or.inl hr.symm⟩
  | error e =>
    rw [hresult] at ho
    exact ⟨ho.1.goes h, Or.inr ⟨hr, hmount, hunmount, e, rfl, ho.2⟩⟩

theorem InStep.read (h : d.InStep) (start length : Nat) (buffer : Option (List UInt8)) :
    d.Goes (d.read start length buffer).state ∧
      d.Answers (.read start length buffer) (failure? (d.read start length buffer).result) := by
  unfold Driver.read
  cases hr : d.refuseRead? start length buffer with
  | some e => exact ⟨⟨h, id⟩, Or.inl hr.symm⟩
  | none =>
    obtain ⟨hm, -, -⟩ := refuseRead?_eq_none hr
    have hread := steady_readChunks (h.mounted.trans hm) (chunks start length) 0
    exact (hread.andThen fun d' _ _ => Steady.done (.refl d') length).answers h hr nofun nofun

theorem InStep.write (h : d.InStep) (start length : Nat) (data : Option (List UInt8)) :
    d.Goes (d.write start length data).state ∧
      d.Answers (.write start length data) (failure? (d.write start length data).result) := by
  unfold Driver.write
  cases hr : d.refuseWrite? start length data with
  | some e => exact ⟨⟨h, id⟩, Or.inl hr.symm⟩
  | none =>
    obtain ⟨hm, -, -⟩ := refuseWrite?_eq_none hr
    have hwrite := steady_writeChunks (h.mounted.trans hm) (chunks start length) (data.getD []) 0
    exact (hwrite.andThen fun d' _ _ => Steady.done (.refl d') length).answers h hr nofun nofun

theorem InStep.sign (h : d.InStep) (disk block : UInt8) :
    d.Goes (d.sign disk block).state ∧ d.Answers (.sign disk block) (failure? (d.sign disk block).result) := by
  have hrefuse : d.refuse? (.sign disk block) = d.refuseSign? disk block := rfl
  unfold Driver.sign
  unfold refuseSign? at hrefuse
  by_cases hm : d.mounted
  · have hnot : ¬ (!d.mounted) = true := by simp [hm]
    rw [if_neg hnot] at hrefuse ⊢
    by_cases hrange : diskCount ≤ disk.toNat
    · rw [if_pos hrange] at hrefuse ⊢
      exact ⟨⟨h, id⟩, Or.inl hrefuse.symm⟩
    · rw [if_neg hrange] at hrefuse ⊢
      refine Steady.answers ?_ h hrefuse nofun nofun
      refine steady_seek_issue (.bare .signBlock) none (h.mounted.trans hm) (fun dev hdev hplaced => ⟨hdev, hplaced⟩)
        rfl _ 0 ?_
      intro d' _
      exact .done (.refl d') ()
  · have hnot : (!d.mounted) = true := by simpa using hm
    rw [if_pos hnot] at hrefuse ⊢
    exact ⟨⟨h, id⟩, Or.inl hrefuse.symm⟩

theorem InStep.serve (h : d.InStep) (r : Request) :
    d.Goes (d.serve r).2 ∧ d.Answers r (d.serve r).1.error? := by
  cases r with
  | mount => exact h.mount.imp_right Or.inl
  | unmount => exact h.unmount.imp_right Or.inl
  | grant => exact ⟨⟨⟨h.mounted, h.clean⟩, id⟩, Or.inl rfl⟩
  | revoke => exact ⟨⟨⟨h.mounted, h.clean⟩, id⟩, Or.inl rfl⟩
  | read start length buffer => exact h.read start length buffer
  | write start length data => exact h.write start length data
  | sign disk block => exact h.sign disk block

theorem Answers.of_device {r : Request} {error? : Option DriverError} {command : Command} {source : DeviceError}
    {t : Nat} (h : d.Answers r error?) (he : error? = some (.device command source t)) :
    r ≠ .mount ∧ r ≠ .unmount ∧ command.fault? = some source := by
  subst he
  rcases h with hrefuse | ⟨-, hmount, hunmount, e, he, hfault⟩
  · exact absurd hrefuse.symm (d.refuse?_ne_device r command source t)
  · obtain rfl := Option.some.inj he
    obtain ⟨⟨_, _, _, heq, hfault⟩, -⟩ := hfault
    cases heq
    exact ⟨hmount, hunmount, hfault⟩

theorem Answers.eq_none {r : Request} {error? : Option DriverError} (h : d.Answers r error?) (hnever : d.NeverFails)
    (hr : d.refuse? r = none) : error? = none := by
  rcases h with hrefuse | ⟨-, -, -, e, -, hfault⟩
  · exact hrefuse.trans hr
  · exact absurd hnever hfault.2

theorem exists_ok_of_failure? {result : Except DriverError α} (h : failure? result = none) : ∃ a, result = .ok a := by
  cases result with
  | ok a => exact ⟨a, rfl⟩
  | error e => cases h

theorem eq_error_of_failure? {result : Except DriverError α} (h : failure? result = some e) : result = .error e := by
  cases result with
  | ok a => cases h
  | error e' => exact congrArg Except.error (Option.some.inj h)

/-! ### Runs -/

theorem InStep.lookup (h : d.InStep) (id : BlockId) : d.Goes (d.lookup id) := by
  unfold Driver.lookup
  split
  · exact (d.keeps_cache _).goes h
  · exact (Keeps.refl d).goes h

theorem InStep.run (h : d.InStep) (steps : List Step) :
    d.Goes (d.run steps).2 ∧
      ∀ r a, (r, a) ∈ (d.run steps).1 → ∀ command source t, a.error? = some (.device command source t) →
        r ≠ .mount ∧ r ≠ .unmount ∧ command.fault? = some source := by
  -- each step leaves a driver in step, over a disk that never fails if the one before never did
  induction steps generalizing d with
  | nil => exact ⟨⟨h, id⟩, fun r a hmem => absurd hmem List.not_mem_nil⟩
  | cons step steps ih =>
    cases step with
    | request r =>
      obtain ⟨⟨hstep, hnever⟩, hanswers⟩ := h.serve r
      obtain ⟨hgoes, hlater⟩ := ih hstep
      refine ⟨⟨hgoes.1, fun hd => hgoes.2 (hnever hd)⟩, ?_⟩
      intro r' a hmem command source t he
      rcases List.mem_cons.1 hmem with hfirst | hmem
      · obtain ⟨rfl, rfl⟩ := Prod.mk.inj hfirst
        exact hanswers.of_device he
      · exact hlater r' a hmem command source t he
    | cache r =>
      have hcache := (d.keeps_cache (d.cache.serve r).state).goes h
      obtain ⟨hgoes, hlater⟩ := ih hcache.1
      exact ⟨⟨hgoes.1, fun hd => hgoes.2 (hcache.2 hd)⟩, hlater⟩
    | lookup id =>
      have hlookup := h.lookup id
      obtain ⟨hgoes, hlater⟩ := ih hlookup.1
      exact ⟨⟨hgoes.1, fun hd => hgoes.2 (hlookup.2 hd)⟩, hlater⟩

/-- A new driver of a device. -/
def fresh (policy : EvictionPolicy) (device : δ) : Driver δ := { device, cache := .unused policy }

/-- Whatever is asked of a new driver over a new device, and whichever calls of its disk fail: both agree on whether
the array is mounted; a request fails on the device's side only by a read, a write or a signature whose disk failed,
and no other call of the device ever fails; and over a disk that never fails, all requests succeed but those that the
driver refuses itself. -/
theorem device_fails_only_with_disk {β : Type} [Backing β] (disk : β) (policy : EvictionPolicy) (steps : List Step) :
    let device : Device β := { backing := disk }
    let ran := (fresh policy device).run steps
    let recorded := (fresh policy ({ device } : Recorder (Device β))).run steps
    let faults : List (Command × DeviceError) :=
      [(.readBlock, .badRead), (.writeBlock, .badWrite), (.signBlock, .badRead)]
    ran.2.device.mounted = ran.2.mounted ∧
      (∀ r a, (r, a) ∈ ran.1 → ∀ command source t, a.error? = some (.device command source t) →
        r ≠ .mount ∧ r ≠ .unmount ∧ (command, source) ∈ faults) ∧
      (∀ code e, (code, .error e) ∈ recorded.2.device.calls →
        ∃ op, Operation.decode code = .ok op ∧ (op.command, e) ∈ faults) ∧
      (Backing.NeverFails disk → ∀ r, (ran.2.serve r).1.error? = ran.2.refuse? r) := by
  intro device ran recorded faults
  have hran : (fresh policy device).InStep := ⟨rfl, trivial⟩
  have hrecorded : (fresh policy ({ device } : Recorder (Device β))).InStep :=
    ⟨rfl, fun _ _ hcall => absurd hcall List.not_mem_nil⟩
  obtain ⟨⟨hlast, hnever⟩, hanswers⟩ := hran.run steps
  obtain ⟨⟨hclean, -⟩, -⟩ := hrecorded.run steps
  refine ⟨hlast.mounted, ?_, ?_, ?_⟩
  · intro r a hmem command source t he
    obtain ⟨hmount, hunmount, hfault⟩ := hanswers r a hmem command source t he
    exact ⟨hmount, hunmount, Command.fault?_eq_some_iff.1 hfault⟩
  · intro code e hcall
    obtain ⟨op, hop, hfault⟩ := hclean.clean code e hcall
    exact ⟨op, hop, Command.fault?_eq_some_iff.1 hfault⟩
  · intro hdisk r
    rcases (hlast.serve r).2 with hrefuse | ⟨-, -, -, e, -, hfault⟩
    · exact hrefuse
    · exact absurd (hnever hdisk) hfault.2

/-- A disk in memory never fails, so that a read across two blocks of a mounted array succeeds. -/
theorem device_fails_only_with_disk_of_read :
    ∃ d : Driver (Device MemoryDisk), d = ((fresh .leastRecent { backing := .blank }).run [.request .mount]).2 ∧
      Backing.NeverFails MemoryDisk.blank ∧ d.refuse? (.read 255 2 (some [0, 0])) = none ∧
      (d.serve (.read 255 2 (some [0, 0]))).1.error? = none := by
  have hblank : Backing.NeverFails MemoryDisk.blank := Backing.neverFails_memoryDisk _
  refine ⟨_, rfl, hblank, rfl, ?_⟩
  exact (device_fails_only_with_disk MemoryDisk.blank .leastRecent [.request .mount]).2.2.2 hblank _

-- The second block of a read cannot be had: one byte was read before.
example :
    let disk : FaultyDisk MemoryDisk := { disk := .blank, plan := [{ kind := .read, on := 2, error := .injected }] }
    ((fresh .leastRecent ({ backing := disk } : Device (FaultyDisk MemoryDisk))).run
      [.request .mount, .request (.read 255 2 (some [0, 0]))]).1.map (·.2.error?) =
        [none, some (.device .readBlock .badRead 1)] := by
  decide +kernel

end Driver

end DiskArray
