import DiskArray.Driver.Basic
import DiskArray.Proofs.Cache.Coherence
import DiskArray.Proofs.Device.View
import DiskArray.Proofs.Outcome

/-!
# Access to blocks

The driver's steps on single blocks over a device that may fail at any call. As long as the cache holds what
the array holds (`Driver.Sound`), `load` gives what the array holds and `store` replaces one block; a step
that fails tells that the device failed and leaves all data as they were. On every way out the cache is
coherent again.
-/

namespace DiskArray

/-- The error of a device that failed after `done` bytes of a transfer. -/
def DriverError.DeviceFailed (e : DriverError) (done : Nat) : Prop :=
  ∃ command source, e = .device command source done

/-- The state after the cursor was put on a block. -/
def Device.View.seekTo (v : Device.View) (id : BlockId) : Device.View :=
  { v with disk := .ofNat diskCount id.disk, block := id.block % blocksPerDisk }

theorem Device.View.cursor_seekTo {v : Device.View} {id : BlockId} (h : id.InArray) :
    (v.seekTo id).block < blocksPerDisk ∧ (v.seekTo id).cursor = id.flat := by
  obtain ⟨hdisk, hblock⟩ := h
  refine ⟨Nat.mod_lt _ (by decide), ?_⟩
  show id.disk % diskCount * blocksPerDisk + id.block % blocksPerDisk = id.disk * blocksPerDisk + id.block
  rw [Nat.mod_eq_of_lt hdisk, Nat.mod_eq_of_lt hblock]

namespace Driver

variable {δ : Type}

theorem remember_eq (d : Driver δ) (id : BlockId) (block : Block) :
    (d.remember id block).result = .ok () ∧
      (d.remember id block).state = { d with cache := d.cache.keep id block } := by
  have hkeep := d.cache.update?_insert id block
  unfold remember
  cases hu : d.cache.update? id block with
  | some cache =>
    simp only [hu] at hkeep
    subst hkeep
    exact ⟨rfl, rfl⟩
  | none =>
    simp only [hu] at hkeep
    cases hi : d.cache.insert id block with
    | ok cache =>
      simp only [hi] at hkeep
      subst hkeep
      exact ⟨rfl, rfl⟩
    | error e =>
      simp only [hi] at hkeep
      rw [← hkeep]
      exact ⟨rfl, rfl⟩

theorem remember_ensures (d : Driver δ) (id : BlockId) (block : Block) :
    (d.remember id block).Ensures (fun d' _ => d' = { d with cache := d.cache.keep id block })
      (fun _ _ => False) := by
  obtain ⟨hok, hstate⟩ := d.remember_eq id block
  rw [Outcome.Ensures, hok]
  exact hstate

section Load

variable [Controller δ] {d : Driver δ} {id : BlockId} {done : Nat}

theorem load_of_find? {i : Nat} {e : Cache.Entry} (h : d.cache.find? id = some (i, e)) :
    d.load id done = .done { d with cache := d.cache.access id e.block } e.block := by
  rw [load, Cache.lookup_of_find? h]

theorem load_of_find?_eq_none (h : d.cache.find? id = none) :
    d.load id done = fetch { d with cache := d.cache.sought } id done := by
  rw [load, Cache.sought]
  split_ifs with henabled
  · rw [Cache.lookup_of_find?_eq_none henabled h]
  · rw [Cache.lookup_of_not_enabled henabled]

end Load

variable [Controller δ] [LawfulController δ]

/-- What the device of a driver shows of its state. -/
def view (d : Driver δ) : Device.View := LawfulController.view d.device

/-- The cache holds what the array holds. -/
def Sound (d : Driver δ) : Prop := d.cache.Coherent d.view.blocks

/-- Another driver is sound, its array holds `blocks`, and all else but the cursor is as in `d`. -/
structure LeadsTo (d : Driver δ) (blocks : Nat → Block) (d' : Driver δ) : Prop where
  sound : d'.Sound
  blocks : d'.view.blocks = blocks
  signatures : d'.view.signatures = d.view.signatures
  mountedDevice : d'.view.mounted = d.view.mounted
  mounted : d'.mounted = d.mounted
  writable : d'.writable = d.writable

theorem Sound.leadsTo {d : Driver δ} (h : d.Sound) : d.LeadsTo d.view.blocks d :=
  ⟨h, rfl, rfl, rfl, rfl, rfl⟩

theorem LeadsTo.trans {d d' d'' : Driver δ} {b b' : Nat → Block} (h : d.LeadsTo b d')
    (h' : d'.LeadsTo b' d'') : d.LeadsTo b' d'' where
  sound := h'.sound
  blocks := h'.blocks
  signatures := h'.signatures.trans h.signatures
  mountedDevice := h'.mountedDevice.trans h.mountedDevice
  mounted := h'.mounted.trans h.mounted
  writable := h'.writable.trans h.writable

variable {d : Driver δ} {id : BlockId} {block : Block} {done : Nat}

/-! ### Calls of the device -/

theorem issue_ensures (d : Driver δ) (op : Operation) (buffer : Option Block) (done : Nat) :
    (d.issue op buffer done).Ensures
      (fun d' buffer' => d' = { d with device := d'.device } ∧ d.view.Performs op buffer d'.view buffer')
      (fun d' e => d' = { d with device := d'.device } ∧ d'.view = d.view ∧ e.DeviceFailed done) := by
  have hyields := LawfulController.operate_yields d.device op buffer
  unfold issue Outcome.Ensures
  dsimp only
  cases hr : (Controller.operate d.device op.encode buffer).result with
  | ok u =>
    rw [hr] at hyields
    exact ⟨rfl, hyields⟩
  | error e =>
    rw [hr] at hyields
    exact ⟨rfl, hyields.1, op.command, e, rfl⟩

theorem seek_ensures (d : Driver δ) (id : BlockId) (done : Nat) :
    (d.seek id done).Ensures
      (fun d' _ => d' = { d with device := d'.device } ∧ d'.view = d.view.seekTo id)
      (fun d' e => d' = { d with device := d'.device } ∧
        d'.view = { d.view with disk := d'.view.disk } ∧ e.DeviceFailed done) := by
  unfold seek
  refine (d.issue_ensures _ _ _).andThen (fun d₁ _ ⟨hd₁, hv₁, _⟩ => ?_) fun d₁ e ⟨hd₁, hv₁, he⟩ => ?_
  · refine (d₁.issue_ensures _ _ _).andThen (fun d₂ _ ⟨hd₂, hv₂, _⟩ => ?_) fun d₂ e ⟨hd₂, hv₂, he⟩ => ?_
    · rw [Outcome.ensures_done]
      rw [hd₁] at hd₂
      refine ⟨hd₂, ?_⟩
      rw [hv₂, hv₁]
      rfl
    · rw [hd₁] at hd₂
      refine ⟨hd₂, ?_, he⟩
      rw [hv₂, hv₁]
  · exact ⟨hd₁, by rw [hv₁], he⟩

/-! ### Blocks -/

/-- The device was called and the cache exchanged for one that holds what the array holds afterwards. -/
theorem LeadsTo.of_device {d' : Driver δ} {cache : Cache} {blocks : Nat → Block}
    (hd : d' = { d with device := d'.device }) (hcache : cache.Coherent blocks)
    (hblocks : d'.view.blocks = blocks) (hsignatures : d'.view.signatures = d.view.signatures)
    (hmounted : d'.view.mounted = d.view.mounted) : d.LeadsTo blocks { d' with cache } where
  sound := by
    show cache.Coherent d'.view.blocks
    rw [hblocks]
    exact hcache
  blocks := hblocks
  signatures := hsignatures
  mountedDevice := hmounted
  mounted := by rw [hd]
  writable := by rw [hd]

theorem Sound.leadsTo_of_view {d' : Driver δ} (h : d.Sound) (hd : d' = { d with device := d'.device })
    (hv : d'.view = { d.view with disk := d'.view.disk, block := d'.view.block }) :
    d.LeadsTo d.view.blocks d' := by
  have hcache : d'.cache = d.cache := by rw [hd]
  have hleads := LeadsTo.of_device hd h (by rw [hv]) (by rw [hv]) (by rw [hv])
  rw [← hcache] at hleads
  exact hleads

theorem Sound.leadsTo_cache {cache : Cache} (hcache : cache.Coherent d.view.blocks) :
    d.LeadsTo d.view.blocks { d with cache } :=
  .of_device rfl hcache rfl rfl rfl

/-- A call for a block, and what follows it. The cursor is put on the block first; where a call fails, only the cursor may
have changed. -/
theorem seek_issue_view {α : Type} {op : Operation} {buffer : Option Block}
    {next : Driver δ → Option Block → Outcome (Driver δ) DriverError α} {ok : Driver δ → α → Prop}
    {error : Driver δ → DriverError → Prop} (d : Driver δ) (id : BlockId) (done : Nat)
    (hnext : ∀ d' buffer', d' = { d with device := d'.device } →
      (d.view.seekTo id).Performs op buffer d'.view buffer' → (next d' buffer').Ensures ok error)
    (herror : ∀ d' e, e.DeviceFailed done → d' = { d with device := d'.device } →
      d'.view = { d.view with disk := d'.view.disk, block := d'.view.block } → error d' e) :
    ((d.seek id done).andThen fun d _ => (d.issue op buffer done).andThen next).Ensures ok error := by
  refine (d.seek_ensures id done).andThen (fun d₁ _ ⟨hd₁, hv₁⟩ => ?_) fun d₁ e ⟨hd₁, hv₁, he⟩ => ?_
  · refine (d₁.issue_ensures op buffer done).andThen (fun d₂ buffer' ⟨hd₂, hv₂⟩ => ?_) fun d₂ e ⟨hd₂, hv₂, he⟩ => ?_
    · rw [hd₁] at hd₂
      rw [hv₁] at hv₂
      exact hnext d₂ buffer' hd₂ hv₂
    · rw [hd₁] at hd₂
      refine herror d₂ e he hd₂ ?_
      rw [hv₂, hv₁]
      rfl
  · refine herror d₁ e he hd₁ ?_
    rw [hv₁]

theorem seek_issue_ensures {α : Type} {op : Operation} {buffer : Option Block}
    {next : Driver δ → Option Block → Outcome (Driver δ) DriverError α} {ok : Driver δ → α → Prop}
    {error : Driver δ → DriverError → Prop} (h : d.Sound) (id : BlockId) (done : Nat)
    (hnext : ∀ d' buffer', d' = { d with device := d'.device } →
      (d.view.seekTo id).Performs op buffer d'.view buffer' → (next d' buffer').Ensures ok error)
    (herror : ∀ d' e, e.DeviceFailed done → d.LeadsTo d.view.blocks d' → error d' e) :
    ((d.seek id done).andThen fun d _ => (d.issue op buffer done).andThen next).Ensures ok error :=
  d.seek_issue_view id done hnext fun d' e he hd' hv' => herror d' e he (h.leadsTo_of_view hd' hv')

theorem fetch_ensures (h : d.Sound) (hid : id.InArray) (done : Nat) :
    (d.fetch id done).Ensures
      (fun d' b => b = d.view.blocks id.flat ∧ d.LeadsTo d.view.blocks d')
      (fun d' e => e.DeviceFailed done ∧ d.LeadsTo d.view.blocks d') := by
  unfold fetch
  refine seek_issue_ensures h id done (fun d₁ buffer hd₁ hperforms => ?_) fun _ _ he hleads => ⟨he, hleads⟩
  obtain ⟨_, hv₁, _, rfl⟩ := hperforms
  have hcache : d₁.cache = d.cache := by rw [hd₁]
  rw [Option.getD_some, (Device.View.cursor_seekTo hid).2]
  refine (d₁.remember_ensures id _).andThen (fun d₂ _ hd₂ => ?_) fun _ _ hfalse => hfalse.elim
  rw [Outcome.ensures_done, hd₂, hcache]
  exact ⟨rfl, .of_device hd₁ (Cache.Coherent.keep h hid) (by rw [hv₁]; rfl) (by rw [hv₁]; rfl) (by rw [hv₁]; rfl)⟩

theorem load_ensures (h : d.Sound) (hid : id.InArray) (done : Nat) :
    (d.load id done).Ensures
      (fun d' b => b = d.view.blocks id.flat ∧ d.LeadsTo d.view.blocks d')
      (fun d' e => e.DeviceFailed done ∧ d.LeadsTo d.view.blocks d') := by
  cases hf : d.cache.find? id with
  | some v =>
    obtain ⟨-, hblock⟩ := Cache.Coherent.eq_of_find? h hf
    rw [load_of_find? hf, hblock, Outcome.ensures_done]
    exact ⟨rfl, Sound.leadsTo_cache (Cache.Coherent.access h hid)⟩
  | none =>
    rw [load_of_find?_eq_none hf]
    have hleads := Sound.leadsTo_cache (Cache.Coherent.sought h)
    exact (fetch_ensures hleads.sound hid done).mono (fun _ _ ⟨hb, hd⟩ => ⟨hb, hleads.trans hd⟩)
      fun _ _ ⟨he, hd⟩ => ⟨he, hleads.trans hd⟩

theorem store_ensures (h : d.Sound) (hid : id.InArray) (block : Block) (done : Nat) :
    (d.store id block done).Ensures
      (fun d' _ => d.LeadsTo (Function.update d.view.blocks id.flat block) d')
      (fun d' e => e.DeviceFailed done ∧ d.LeadsTo d.view.blocks d') := by
  unfold store
  refine seek_issue_ensures h id done (fun d₁ buffer hd₁ hperforms => ?_) fun _ _ he hleads => ⟨he, hleads⟩
  obtain ⟨_, rfl, b, hb, hv₁⟩ := hperforms
  obtain rfl := Option.some.inj hb
  rw [(Device.View.cursor_seekTo hid).2] at hv₁
  have hcache : d₁.cache = d.cache := by rw [hd₁]
  refine (d₁.remember_ensures id _).mono (fun d₂ _ hd₂ => ?_) fun _ _ hfalse => hfalse.elim
  rw [hd₂, Option.getD_some, hcache]
  exact .of_device hd₁ (Cache.Coherent.keep_update h hid) (by rw [hv₁]; rfl) (by rw [hv₁]; rfl) (by rw [hv₁]; rfl)

end Driver

end DiskArray
