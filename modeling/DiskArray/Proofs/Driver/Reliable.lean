import DiskArray.Proofs.Driver.Access

/-!
# A driver over a reliable disk

Over a disk that never fails, the driver's steps succeed whenever the array is mounted, and what they leave behind
can be told exactly: the disk and the signatures as the requests say, and the cache and the counts of the device's
transfers (`Costs`) as the blocks say that were loaded and stored.
-/

namespace DiskArray

/-- The cache of a driver, and how often its device read and wrote a block. -/
structure Costs where
  cache : Cache
  reads : Nat
  writes : Nat

namespace Costs

/-- A block is loaded: only one that is not held is read. -/
def load (c : Costs) (id : BlockId) (block : Block) : Costs :=
  { c with cache := c.cache.access id block, reads := c.reads + if c.cache.holds id then 0 else 1 }

/-- A block is stored, which always writes it. -/
def store (c : Costs) (id : BlockId) (block : Block) : Costs :=
  { c with cache := c.cache.keep id block, writes := c.writes + 1 }

end Costs

namespace Device

variable {β : Type}

/-- The device after the cursor was put on a block. -/
def seekTo (dev : Device β) (id : BlockId) : Device β :=
  { dev with
    disk := .ofNat diskCount id.disk
    block := id.block % blocksPerDisk
    tally := (dev.tally.bump .seekToDisk).bump .seekToBlock }

/-- The device after a transfer of the block under the cursor. -/
def moveOn (dev : Device β) (backing : β) (command : Command) : Device β :=
  { dev with backing, block := dev.block + 1, tally := dev.tally.bump command }

theorem cursor?_seekTo (dev : Device β) {id : BlockId} (h : id.InArray) : (dev.seekTo id).cursor? = some id := by
  obtain ⟨hdisk, hblock⟩ := h
  have hlt : (dev.seekTo id).block < blocksPerDisk := Nat.mod_lt _ (by decide)
  rw [cursor?, if_pos hlt]
  show some (⟨id.disk % diskCount, id.block % blocksPerDisk⟩ : BlockId) = some id
  rw [Nat.mod_eq_of_lt hdisk, Nat.mod_eq_of_lt hblock]

theorem operate_of_execute [Backing β] {dev dev' : Device β} {op : Operation} {buffer buffer' : Option Block}
    (h : execute { dev with tally := dev.tally.bump op.command } op buffer = accept dev' buffer') :
    dev.operate op.encode buffer = accept dev' buffer' := by
  simp only [operate, Operation.decode_encode, h]
  rfl

theorem execute_readBlock [Backing β] {dev : Device β} {id : BlockId} {b : Block} {op : Operation}
    (hcursor : dev.cursor? = some id) (hm : dev.mounted) (hop : op.command = .readBlock)
    (hread : Backing.readBlock dev.backing id.flat = (.ok b, dev.backing)) (old : Block) :
    dev.execute op (some old) = accept { dev with block := dev.block + 1 } (some b) := by
  simp only [execute, hop, hm, readAtCursor, hcursor, hread]

theorem execute_writeBlock [Backing β] {dev : Device β} {id : BlockId} {b : Block} {backing : β} {op : Operation}
    (hcursor : dev.cursor? = some id) (hm : dev.mounted) (hop : op.command = .writeBlock)
    (hwrite : Backing.writeBlock dev.backing id.flat b = (.ok (), backing)) :
    dev.execute op (some b) = accept { dev with backing, block := dev.block + 1 } (some b) := by
  simp only [execute, hop, hm, writeAtCursor, hcursor, hwrite]

theorem execute_signBlock [Backing β] {dev : Device β} {id : BlockId} {b : Block} {op : Operation}
    (hcursor : dev.cursor? = some id) (hm : dev.mounted) (hop : op.command = .signBlock)
    (hread : Backing.readBlock dev.backing id.flat = (.ok b, dev.backing)) (buffer : Option Block) :
    dev.execute op buffer =
      accept { dev with signatures := dev.signatures.sign (.ofNat id.disk) (.ofNat id.block) b } buffer := by
  simp only [execute, hop, hm, signAtCursor, hcursor, hread]

end Device

namespace Driver

variable {β : Type} {d : Driver (Device β)} {id : BlockId} {block : Block}

/-- The costs of a driver so far. -/
def costs (d : Driver (Device β)) : Costs :=
  { cache := d.cache, reads := d.device.tally.of .readBlock, writes := d.device.tally.of .writeBlock }

theorem costs_fetched (cache : Cache) :
    costs { d with device := (d.device.seekTo id).moveOn d.device.backing .readBlock, cache } =
      { d.costs with cache, reads := d.costs.reads + 1 } := by
  simp [costs, Device.moveOn, Device.seekTo, Tally.of_bump]

variable [Backing β]

theorem issue_of_execute {d : Driver (Device β)} {dev : Device β} {op : Operation} {buffer buffer' : Option Block}
    (h : Device.execute { d.device with tally := d.device.tally.bump op.command } op buffer =
      Device.accept dev buffer') (done : Nat) :
    d.issue op buffer done = .done { d with device := dev } buffer' := by
  have hoperate : Controller.operate d.device op.encode buffer = Device.accept dev buffer' :=
    Device.operate_of_execute h
  simp only [issue, hoperate, Device.accept]
  rfl

theorem seek_eq (hm : d.device.mounted) (done : Nat) :
    d.seek id done = .done { d with device := d.device.seekTo id } () := by
  have hdisk : d.issue (.of .seekToDisk id.disk 0) none done = .done { d with
      device := { d.device with
        disk := .ofNat diskCount id.disk
        tally := d.device.tally.bump .seekToDisk } } none :=
    issue_of_execute (by simp [Device.execute, Operation.of, hm]) done
  have hblock : issue { d with
      device := { d.device with
        disk := .ofNat diskCount id.disk
        tally := d.device.tally.bump .seekToDisk } } (.of .seekToBlock 0 id.block) none done =
      .done { d with device := d.device.seekTo id } none :=
    issue_of_execute (by simp [Device.execute, Operation.of, Device.seekTo, hm]) done
  rw [seek, hdisk]
  simp only [Outcome.done, Outcome.andThen_ok, hblock]
  rfl

theorem issue_mount (hm : d.device.mounted = false) :
    d.issue (.bare .mount) none 0 = .done { d with
      device := { d.device with mounted := true, tally := d.device.tally.bump .mount } } none :=
  issue_of_execute (by simp [Device.execute, Operation.bare, Operation.of, hm]) 0

theorem issue_unmount (hm : d.device.mounted) :
    d.issue (.bare .unmount) none 0 = .done { d with
      device := { d.device with mounted := false, tally := d.device.tally.bump .unmount } } none :=
  issue_of_execute (by simp [Device.execute, Operation.bare, Operation.of, hm]) 0

/-! ### Blocks -/

variable [BlockView β] [ReliableBacking β]

/-- The disk is ready, the device is mounted if the driver takes it to be, and the cache holds what the disk
holds. -/
structure Ready (d : Driver (Device β)) : Prop where
  backing : ReliableBacking.Ready d.device.backing
  mounted : d.device.mounted = d.mounted
  coherent : d.cache.Coherent (blockAt d.device.backing)

theorem unmount_eq (h : d.Ready) (hm : d.mounted) :
    d.unmount =
      { result := .ok ()
        state := { d with
          device := { d.device with mounted := false, tally := d.device.tally.bump .unmount }
          mounted := false }
        log := [record .info "array unmounted"] } := by
  rw [unmount, if_pos hm, issue_unmount (h.mounted.trans hm), Outcome.done_andThen]

/-- Another driver is ready, with this disk and at these costs; all else but the cursor and the other counts is as
in `d`. -/
structure Becomes (d : Driver (Device β)) (backing : β) (costs : Costs) (d' : Driver (Device β)) : Prop where
  ready : d'.Ready
  backing : d'.device.backing = backing
  costs : d'.costs = costs
  signatures : d'.device.signatures = d.device.signatures
  mounted : d'.mounted = d.mounted
  writable : d'.writable = d.writable

theorem fetch_eq (h : d.Ready) (hm : d.mounted) (hid : id.InArray) (done : Nat) :
    (d.fetch id done).result = .ok (blockAt d.device.backing id.flat) ∧
      (d.fetch id done).state =
        { d with
          device := (d.device.seekTo id).moveOn d.device.backing .readBlock
          cache := d.cache.keep id (blockAt d.device.backing id.flat) } := by
  have hm : d.device.mounted := h.mounted.trans hm
  have hread : issue { d with device := d.device.seekTo id } (.bare .readBlock) (some Block.zero) done =
      .done { d with device := (d.device.seekTo id).moveOn d.device.backing .readBlock }
        (some (blockAt d.device.backing id.flat)) := by
    have hcursor : Device.cursor? { d.device.seekTo id with
        tally := (d.device.seekTo id).tally.bump .readBlock } = some id := d.device.cursor?_seekTo hid
    refine issue_of_execute ?_ done
    exact Device.execute_readBlock hcursor hm rfl (ReliableBacking.readBlock_eq h.backing hid.flat_lt) _
  obtain ⟨hok, hstate⟩ := remember_eq { d with device := (d.device.seekTo id).moveOn d.device.backing .readBlock } id
    (blockAt d.device.backing id.flat)
  rw [fetch, seek_eq hm, Outcome.done_andThen, hread, Outcome.done_andThen, Option.getD_some]
  refine ⟨?_, ?_⟩
  · rw [Outcome.result_andThen hok]
    rfl
  · rw [Outcome.state_andThen hok]
    exact hstate

theorem becomes_fetched (h : d.Ready) (hid : id.InArray) (hholds : d.cache.holds id = false) :
    d.Becomes d.device.backing (d.costs.load id (blockAt d.device.backing id.flat))
      { d with
        device := (d.device.seekTo id).moveOn d.device.backing .readBlock
        cache := d.cache.access id (blockAt d.device.backing id.flat) } := by
  refine ⟨⟨h.backing, h.mounted, h.coherent.access hid⟩, rfl, ?_, rfl, rfl, rfl⟩
  rw [costs_fetched]
  simp [costs, Costs.load, hholds]

/-- A block that is loaded costs an access to the cache, and a read of the device if it is not held. -/
theorem load_becomes (h : d.Ready) (hm : d.mounted) (hid : id.InArray) (done : Nat) :
    (d.load id done).result = .ok (blockAt d.device.backing id.flat) ∧
      d.Becomes d.device.backing (d.costs.load id (blockAt d.device.backing id.flat)) (d.load id done).state := by
  cases hf : d.cache.find? id with
  | some v =>
    obtain ⟨-, hblock⟩ := h.coherent.eq_of_find? hf
    have hholds : d.cache.holds id := by simp [Cache.holds, hf]
    rw [load_of_find? hf, hblock]
    refine ⟨rfl, ⟨h.backing, h.mounted, h.coherent.access hid⟩, rfl, ?_, rfl, rfl, rfl⟩
    simp [Outcome.done, costs, Costs.load, hholds]
  | none =>
    have hready : Ready { d with cache := d.cache.sought } := ⟨h.backing, h.mounted, h.coherent.sought⟩
    obtain ⟨hok, hstate⟩ := fetch_eq hready hm hid done
    dsimp only at hok hstate
    rw [Cache.keep_sought hf] at hstate
    rw [load_of_find?_eq_none hf, hstate]
    exact ⟨hok, becomes_fetched h hid (by simp [Cache.holds, hf])⟩

theorem store_becomes (h : d.Ready) (hm : d.mounted) (hid : id.InArray) (block : Block) (done : Nat) :
    (d.store id block done).result = .ok () ∧
      d.Becomes (Backing.writeBlock d.device.backing id.flat block).2 (d.costs.store id block)
        (d.store id block done).state := by
  have hm : d.device.mounted := h.mounted.trans hm
  obtain ⟨backing, hwrite, hready, hblocks⟩ := ReliableBacking.writeBlock_eq block h.backing hid.flat_lt
  have hissue : issue { d with device := d.device.seekTo id } (.bare .writeBlock) (some block) done =
      .done { d with device := (d.device.seekTo id).moveOn backing .writeBlock } (some block) := by
    have hcursor : Device.cursor? { d.device.seekTo id with
        tally := (d.device.seekTo id).tally.bump .writeBlock } = some id := d.device.cursor?_seekTo hid
    refine issue_of_execute ?_ done
    exact Device.execute_writeBlock hcursor hm rfl hwrite
  obtain ⟨hok, hstate⟩ := remember_eq { d with device := (d.device.seekTo id).moveOn backing .writeBlock } id block
  rw [store, seek_eq hm, Outcome.done_andThen, hissue, Outcome.done_andThen, Option.getD_some, hwrite]
  refine ⟨hok, ?_⟩
  rw [hstate]
  refine ⟨⟨hready, h.mounted, ?_⟩, rfl, ?_, rfl, rfl, rfl⟩
  · show (d.cache.keep id block).Coherent (blockAt backing)
    rw [hblocks]
    exact h.coherent.keep_update hid
  · simp [costs, Costs.store, Device.moveOn, Device.seekTo, Tally.of_bump]

theorem issue_signBlock (h : d.Ready) (hm : d.mounted) (hid : id.InArray) :
    issue { d with device := d.device.seekTo id } (.bare .signBlock) none 0 =
      .done { d with
        device := { d.device.seekTo id with
          signatures := d.device.signatures.sign (.ofNat id.disk) (.ofNat id.block)
            (blockAt d.device.backing id.flat)
          tally := (d.device.seekTo id).tally.bump .signBlock } } none := by
  have hm : d.device.mounted := h.mounted.trans hm
  have hcursor : Device.cursor? { d.device.seekTo id with
      tally := (d.device.seekTo id).tally.bump .signBlock } = some id := d.device.cursor?_seekTo hid
  refine issue_of_execute ?_ 0
  exact Device.execute_signBlock hcursor hm rfl (ReliableBacking.readBlock_eq h.backing hid.flat_lt) none

end Driver

end DiskArray
