import DiskArray.Proofs.Cache.Calls
import DiskArray.Proofs.Device.Effect
import DiskArray.Proofs.Driver.InStep
import Mathlib.Order.Interval.Finset.Nat

/-!
# The traffic of a transfer

How often a transfer calls the device and its cache, told by the range alone. The blocks of the range count (`blocksOf`),
and of a write those that it does not cover (`cutBlocks`): a read asks for all blocks of its range, a write asks for the
blocks it cuts and stores all. Whatever the cache holds, and whichever blocks it lets go of on the way, the counts rise by
what was asked for and stored (`Spends`), chunk by chunk and so for the whole transfer (`transfers_spend`).
-/

namespace DiskArray

/-! ### The blocks of a range -/

/-- The blocks that hold a byte of a range. -/
def blocksOf (start length : Nat) : Finset Nat := (Finset.Ico start (start + length)).image (· / blockSize)

/-- Those of them that are not wholly in the range. -/
def cutBlocks (start length : Nat) : Finset Nat :=
  (blocksOf start length).filter fun b =>
    ¬ Finset.Ico (b * blockSize) ((b + 1) * blockSize) ⊆ Finset.Ico start (start + length)

section Ranges

variable {start length size rest b : Nat}

theorem mem_blocksOf : b ∈ blocksOf start length ↔ 0 < length ∧ start / 256 ≤ b ∧ b * 256 < start + length := by
  simp only [blocksOf, blockSize, Finset.mem_image, Finset.mem_Ico]
  constructor
  · rintro ⟨a, ⟨hstart, hlt⟩, rfl⟩
    omega
  · rintro ⟨hpos, hstart, hlt⟩
    exact ⟨max start (b * 256), by omega, by omega⟩

theorem mem_cutBlocks :
    b ∈ cutBlocks start length ↔ b ∈ blocksOf start length ∧ (b * 256 < start ∨ start + length < (b + 1) * 256) := by
  have hblock : b * 256 < (b + 1) * 256 := by omega
  rw [cutBlocks, Finset.mem_filter, Finset.Ico_subset_Ico_iff hblock, not_and_or, Nat.not_le, Nat.not_le]

theorem blocksOf_chunk (hpos : 0 < size) (hfit : start % 256 + size ≤ 256) (hnext : rest = 0 ∨ (start + size) % 256 = 0) :
    blocksOf start (size + rest) = insert (start / 256) (blocksOf (start + size) rest) ∧
      start / 256 ∉ blocksOf (start + size) rest := by
  refine ⟨?_, ?_⟩
  · ext b
    rw [Finset.mem_insert, mem_blocksOf, mem_blocksOf]
    omega
  · rw [mem_blocksOf]
    omega

theorem cutBlocks_chunk (hpos : 0 < size) (hfit : start % 256 + size ≤ 256)
    (hnext : rest = 0 ∨ (start + size) % 256 = 0) :
    cutBlocks start (size + rest) =
      if size = 256 then cutBlocks (start + size) rest else insert (start / 256) (cutBlocks (start + size) rest) := by
  ext b
  split_ifs with hwhole
  · rw [mem_cutBlocks, mem_cutBlocks, mem_blocksOf, mem_blocksOf]
    omega
  · rw [Finset.mem_insert, mem_cutBlocks, mem_cutBlocks, mem_blocksOf, mem_blocksOf]
    omega

theorem card_blocksOf (start length : Nat) : (blocksOf start length).card = (chunks start length).length := by
  induction start, length using chunks_induction with
  | done start => simp [chunks_zero, blocksOf]
  | chunk start size rest hpos hfit hnext hchunks ih =>
    obtain ⟨hblocks, hfirst⟩ := blocksOf_chunk hpos hfit hnext
    rw [hblocks, Finset.card_insert_of_notMem hfirst, ih, hchunks, List.length_cons]

theorem card_blocksOf_blocks (n k : Nat) : (blocksOf (blockSize * n) (blockSize * k)).card = k := by
  rw [card_blocksOf]
  induction k generalizing n with
  | zero => rw [Nat.mul_zero, chunks_zero, List.length_nil]
  | succ k ih => rw [chunks_blocks, List.length_cons, ih]

theorem card_cutBlocks (start length : Nat) :
    (cutBlocks start length).card = (chunks start length).countP fun c => !c.isWhole := by
  induction start, length using chunks_induction with
  | done start => simp [chunks_zero, cutBlocks, blocksOf]
  | chunk start size rest hpos hfit hnext hchunks ih =>
    have hfirst : start / 256 ∉ cutBlocks (start + size) rest := fun hmem =>
      (blocksOf_chunk hpos hfit hnext).2 (mem_cutBlocks.1 hmem).1
    rw [cutBlocks_chunk hpos hfit hnext, hchunks, List.countP_cons, ← ih]
    by_cases hwhole : size = 256
    · simp [hwhole, Chunk.isWhole]
    · rw [if_neg hwhole, Finset.card_insert_of_notMem hfirst]
      simp [hwhole, Chunk.isWhole]

theorem card_blocksOf_le (h : length ≤ maxTransfer) : (blocksOf start length).card ≤ 5 := by
  have hsub : blocksOf start length ⊆ Finset.Ico (start / 256) (start / 256 + 5) := by
    intro b hb
    obtain ⟨-, hstart, hlt⟩ := mem_blocksOf.1 hb
    have hlength : length ≤ 1024 := h
    rw [Finset.mem_Ico]
    omega
  refine (Finset.card_le_card hsub).trans ?_
  rw [Nat.card_Ico]
  omega

theorem card_cutBlocks_le : (cutBlocks start length).card ≤ 2 := by
  have hsub : cutBlocks start length ⊆ {start / 256, (start + length) / 256} := by
    intro b hb
    rw [mem_cutBlocks, mem_blocksOf] at hb
    rw [Finset.mem_insert, Finset.mem_singleton]
    omega
  exact (Finset.card_le_card hsub).trans Finset.card_le_two

theorem cutBlocks_of_aligned (hstart : start % blockSize = 0) (hlength : length % blockSize = 0) :
    cutBlocks start length = ∅ := by
  refine Finset.eq_empty_of_forall_notMem fun b hb => ?_
  rw [mem_cutBlocks, mem_blocksOf] at hb
  have hstart : start % 256 = 0 := hstart
  have hlength : length % 256 = 0 := hlength
  omega

end Ranges

/-! ### What is counted -/

/-- How often a command is called to read and to store some blocks: the cursor is put on each of them. -/
def Command.calls (reads stores : Nat) : Command → Nat
  | .seekToDisk => reads + stores
  | .seekToBlock => reads + stores
  | .readBlock => reads
  | .writeBlock => stores
  | _ => 0

theorem Command.calls_add (reads stores reads' stores' : Nat) (c : Command) :
    c.calls (reads + reads') (stores + stores') = c.calls reads stores + c.calls reads' stores' := by
  cases c <;> simp only [calls] <;> omega

/-- The count after a transfer of one block. -/
def Tally.transfer (t : Tally) (c : Command) : Tally := ((t.bump .seekToDisk).bump .seekToBlock).bump c

theorem Tally.of_transfer_readBlock (t : Tally) (c : Command) : (t.transfer .readBlock).of c = t.of c + c.calls 1 0 := by
  cases c <;> simp [transfer, of_bump, Command.calls]

theorem Tally.of_transfer_writeBlock (t : Tally) (c : Command) :
    (t.transfer .writeBlock).of c = t.of c + c.calls 0 1 := by
  cases c <;> simp [transfer, of_bump, Command.calls]

namespace Device

variable {β : Type} [Backing β]

theorem tally_operate (d : Device β) (op : Operation) (buffer : Option Block) :
    (Controller.operate d op.encode buffer).device.tally = d.tally.bump op.command :=
  tally_operate_of_decode (Operation.decode_encode op) d buffer

end Device

namespace Driver

variable {β : Type}

/-- What a driver has done: `asked` blocks were asked for, of which `read` were read from the device, and `stored` ones
were stored. -/
structure Spends (d : Driver (Device β)) (asked read stored : Nat) (d' : Driver (Device β)) : Prop where
  tally : ∀ c : Command, d'.device.tally.of c = d.device.tally.of c + c.calls read stored
  read_le : read ≤ asked
  isEnabled : d'.cache.isEnabled = d.cache.isEnabled
  queries : d.cache.isEnabled → d'.cache.queries = d.cache.queries + asked
  /-- What was not read was found. -/
  hits : d.cache.isEnabled → d'.cache.hits = d.cache.hits + (asked - read)
  clock : d.cache.isEnabled → d'.cache.clock = d.cache.clock + (asked + stored)
  /-- A cache that is not in use finds nothing and keeps nothing. -/
  disabled : ¬ d.cache.isEnabled → read = asked ∧ d'.cache = d.cache

variable {d d' d'' : Driver (Device β)} {asked read stored asked' read' stored' : Nat}

theorem Spends.refl (d : Driver (Device β)) : d.Spends 0 0 0 d where
  tally c := by cases c <;> rfl
  read_le := Nat.le_refl 0
  isEnabled := rfl
  queries _ := rfl
  hits _ := rfl
  clock _ := rfl
  disabled _ := ⟨rfl, rfl⟩

theorem Spends.trans (h : d.Spends asked read stored d') (h' : d'.Spends asked' read' stored' d'') :
    d.Spends (asked + asked') (read + read') (stored + stored') d'' where
  tally c := by rw [h'.tally, h.tally, Command.calls_add, Nat.add_assoc]
  read_le := Nat.add_le_add h.read_le h'.read_le
  isEnabled := h'.isEnabled.trans h.isEnabled
  queries henabled := by
    rw [h'.queries (h.isEnabled.trans henabled), h.queries henabled, Nat.add_assoc]
  hits henabled := by
    have hle := h.read_le
    have hle' := h'.read_le
    rw [h'.hits (h.isEnabled.trans henabled), h.hits henabled]
    omega
  clock henabled := by
    rw [h'.clock (h.isEnabled.trans henabled), h.clock henabled]
    omega
  disabled hfree := by
    obtain ⟨rfl, hcache⟩ := h.disabled hfree
    obtain ⟨rfl, hcache'⟩ := h'.disabled (h.isEnabled ▸ hfree)
    exact ⟨rfl, hcache'.trans hcache⟩

theorem wellFormed_of_ensures {α : Type} {o : Outcome (Driver (Device β)) DriverError α}
    (ho : o.Ensures (fun d' _ => d'.cache.WellFormed) fun d' _ => d'.cache.WellFormed) : o.state.cache.WellFormed :=
  Outcome.Ensures.state ho

/-- A step over a well-formed cache that asks for some blocks and stores some, if it succeeds. -/
def Pays {α : Type} (d : Driver (Device β)) (asked stored : Nat) (o : Outcome (Driver (Device β)) DriverError α) :
    Prop :=
  o.Ensures (fun d' _ => d'.cache.WellFormed ∧ ∃ read, d.Spends asked read stored d') fun d' _ => d'.cache.WellFormed

namespace Pays

variable {α γ : Type} {o : Outcome (Driver (Device β)) DriverError α}

theorem done (h : d.cache.WellFormed) (a : α) : d.Pays 0 0 (.done d a) := ⟨h, 0, .refl d⟩

theorem wellFormed (h : d.Pays asked stored o) : o.state.cache.WellFormed :=
  wellFormed_of_ensures (Outcome.Ensures.mono h (fun _ _ hok => hok.1) fun _ _ herror => herror)

theorem of_spends (hspent : d.Spends asked read stored d') (ho : d'.Pays asked' stored' o) :
    d.Pays (asked + asked') (stored + stored') o := by
  refine Outcome.Ensures.mono ho ?_ fun _ _ herror => herror
  rintro d'' _ ⟨hwell, read', hspent'⟩
  exact ⟨hwell, read + read', hspent.trans hspent'⟩

theorem andThen {next : Driver (Device β) → α → Outcome (Driver (Device β)) DriverError γ} (ho : d.Pays asked stored o)
    (hnext : ∀ (d' : Driver (Device β)) (a : α), d'.cache.WellFormed → d'.Pays asked' stored' (next d' a)) :
    d.Pays (asked + asked') (stored + stored') (o.andThen next) := by
  refine Outcome.Ensures.andThen ho ?_ fun _ _ herror => herror
  rintro d' a ⟨hwell, read, hspent⟩
  exact of_spends hspent (hnext d' a hwell)

end Pays

/-! ### Single blocks -/

theorem spends_access {id : BlockId} {block : Block} {read : Nat} (h : d.cache.WellFormed)
    (hread : read = if d.cache.holds id then 0 else 1) (hcache : d'.cache = d.cache.access id block)
    (htally : ∀ c : Command, d'.device.tally.of c = d.device.tally.of c + c.calls read 0) : d.Spends 1 read 0 d' where
  tally := htally
  read_le := by rw [hread]; split <;> omega
  isEnabled := by
    rw [hcache, Cache.access]
    split
    · exact Cache.isEnabled_keep
    · rfl
  queries henabled := by rw [hcache, Cache.access, if_pos henabled]
  hits henabled := by
    rw [hcache, Cache.access, if_pos henabled, hread]
    split <;> rfl
  clock henabled := by
    rw [hcache, Cache.access, if_pos henabled]
    exact h.clock_keep henabled
  disabled hfree := by
    have hholds : ¬ d.cache.holds id := fun hholds => hfree (Cache.isEnabled_of_holds hholds)
    rw [hread, if_neg hholds, hcache, Cache.access, if_neg hfree]
    exact ⟨rfl, rfl⟩

theorem spends_keep {id : BlockId} {block : Block} (h : d.cache.WellFormed) (hcache : d'.cache = d.cache.keep id block)
    (htally : ∀ c : Command, d'.device.tally.of c = d.device.tally.of c + c.calls 0 1) : d.Spends 0 0 1 d' where
  tally := htally
  read_le := Nat.le_refl 0
  isEnabled := by rw [hcache, Cache.isEnabled_keep]
  queries _ := by rw [hcache, Cache.queries_keep, Nat.add_zero]
  hits _ := by rw [hcache, Cache.hits_keep, Nat.sub_zero, Nat.add_zero]
  clock henabled := by rw [hcache, h.clock_keep henabled]
  disabled hfree := ⟨rfl, by rw [hcache, Cache.keep_of_not_enabled hfree]⟩

variable [Backing β]

theorem issue_counts (d : Driver (Device β)) (op : Operation) (buffer : Option Block) (done : Nat) :
    (d.issue op buffer done).Ensures
      (fun d' _ => d'.cache = d.cache ∧ d'.device.tally = d.device.tally.bump op.command)
      (fun d' _ => d'.cache = d.cache) := by
  have htally := d.device.tally_operate op buffer
  unfold issue Outcome.Ensures
  dsimp only
  cases (Controller.operate d.device op.encode buffer).result with
  | ok u => exact ⟨rfl, htally⟩
  | error e => rfl

theorem seek_counts (d : Driver (Device β)) (id : BlockId) (done : Nat) :
    (d.seek id done).Ensures
      (fun d' _ => d'.cache = d.cache ∧ d'.device.tally = (d.device.tally.bump .seekToDisk).bump .seekToBlock)
      (fun d' _ => d'.cache = d.cache) := by
  unfold seek
  refine (d.issue_counts _ _ _).andThen (fun d₁ _ ⟨hcache₁, htally₁⟩ => ?_) fun _ _ hcache => hcache
  refine (d₁.issue_counts _ _ _).andThen (fun d₂ _ ⟨hcache₂, htally₂⟩ => ?_) fun _ _ hcache => hcache.trans hcache₁
  refine ⟨hcache₂.trans hcache₁, ?_⟩
  show d₂.device.tally = _
  rw [htally₂, htally₁]
  rfl

theorem seek_issue_counts {α : Type} {op : Operation} {next : Driver (Device β) → Option Block →
      Outcome (Driver (Device β)) DriverError α} {ok : Driver (Device β) → α → Prop}
    {error : Driver (Device β) → DriverError → Prop} (d : Driver (Device β)) (id : BlockId) (buffer : Option Block)
    (done : Nat)
    (hnext : ∀ d' buffer', d'.cache = d.cache → d'.device.tally = d.device.tally.transfer op.command →
      (next d' buffer').Ensures ok error)
    (herror : ∀ d' e, d'.cache = d.cache → error d' e) :
    ((d.seek id done).andThen fun d _ => (d.issue op buffer done).andThen next).Ensures ok error := by
  refine (d.seek_counts id done).andThen (fun d₁ _ ⟨hcache₁, htally₁⟩ => ?_) herror
  refine (d₁.issue_counts op buffer done).andThen (fun d₂ buffer' ⟨hcache₂, htally₂⟩ => ?_) fun d₂ e hcache₂ => ?_
  · refine hnext d₂ buffer' (hcache₂.trans hcache₁) ?_
    rw [htally₂, htally₁]
    rfl
  · exact herror d₂ e (hcache₂.trans hcache₁)

theorem fetch_counts (d : Driver (Device β)) (id : BlockId) (done : Nat) :
    (d.fetch id done).Ensures
      (fun d' block => d'.cache = d.cache.keep id block ∧ d'.device.tally = d.device.tally.transfer .readBlock)
      (fun d' _ => d'.cache = d.cache) := by
  unfold fetch
  refine seek_issue_counts d id _ done (fun d₁ buffer hcache htally => ?_) fun _ _ h => h
  refine (d₁.remember_ensures id _).andThen ?_ fun _ _ hfalse => hfalse.elim
  rintro _ _ rfl
  rw [Outcome.ensures_done, ← hcache]
  exact ⟨rfl, htally⟩

theorem load_pays (h : d.cache.WellFormed) (id : BlockId) (done : Nat) : d.Pays 1 0 (d.load id done) := by
  cases hf : d.cache.find? id with
  | some v =>
    have hholds : d.cache.holds id := by simp [Cache.holds, hf]
    rw [load_of_find? hf]
    refine ⟨h.access, 0, spends_access h (if_pos hholds).symm rfl fun c => ?_⟩
    cases c <;> rfl
  | none =>
    have hholds : ¬ d.cache.holds id := by simp [Cache.holds, hf]
    rw [load_of_find?_eq_none hf]
    refine (fetch_counts { d with cache := d.cache.sought } id done).mono ?_ ?_
    · rintro d' block ⟨hcache, htally⟩
      have hcache : d'.cache = d.cache.access id block := hcache.trans (Cache.keep_sought hf)
      refine ⟨hcache ▸ h.access, 1, spends_access h (if_neg hholds).symm hcache fun c => ?_⟩
      rw [htally, Tally.of_transfer_readBlock]
    · intro d' _ hcache
      have hcache : d'.cache = d.cache.sought := hcache
      exact hcache ▸ h.sought

theorem store_pays (h : d.cache.WellFormed) (id : BlockId) (block : Block) (done : Nat) :
    d.Pays 0 1 (d.store id block done) := by
  unfold store
  refine seek_issue_counts d id _ done (fun d₁ buffer hcache htally => ?_) fun d₁ _ hcache => hcache ▸ h
  refine (d₁.remember_ensures id _).mono ?_ fun _ _ hfalse => hfalse.elim
  rintro _ _ rfl
  rw [hcache]
  refine ⟨h.keep, 0, spends_keep h rfl fun c => ?_⟩
  exact (congrArg (Tally.of · c) htally).trans (Tally.of_transfer_writeBlock _ c)

/-! ### Transfers -/

section Requests

variable {δ : Type} {d : Driver δ} {start length n : Nat} {buffer : Option (List UInt8)}

theorem le_maxTransfer_of_refuseRead? (h : d.refuseRead? start length buffer = none) : length ≤ maxTransfer := by
  unfold refuseRead? at h
  split_ifs at h with hmounted hlong
  exact Nat.le_of_not_lt hlong

theorem le_maxTransfer_of_refuseWrite? (h : d.refuseWrite? start length buffer = none) : length ≤ maxTransfer := by
  unfold refuseWrite? at h
  split_ifs at h with hmounted hwritable hlong
  exact Nat.le_of_not_lt hlong

variable [Controller δ]

theorem refuseRead?_of_ok (h : (d.read start length buffer).result = .ok n) :
    d.refuseRead? start length buffer = none := by
  unfold Driver.read at h
  cases hrefuse : d.refuseRead? start length buffer with
  | none => rfl
  | some e =>
    rw [hrefuse] at h
    cases h

theorem refuseWrite?_of_ok (h : (d.write start length buffer).result = .ok n) :
    d.refuseWrite? start length buffer = none := by
  unfold Driver.write at h
  cases hrefuse : d.refuseWrite? start length buffer with
  | none => rfl
  | some e =>
    rw [hrefuse] at h
    cases h

end Requests

theorem readChunks_pays (h : d.cache.WellFormed) (chunks : List Chunk) (done : Nat) :
    d.Pays chunks.length 0 (d.readChunks done chunks).2 := by
  induction chunks generalizing d done with
  | nil => exact .done h ()
  | cons c rest ih =>
    have hload := load_pays h c.location.blockId done
    unfold Pays Outcome.Ensures at hload
    cases hr : (d.load c.location.blockId done).result with
    | error e =>
      rw [hr] at hload
      simp only [readChunks, Outcome.result_logged, hr]
      exact hload
    | ok block =>
      rw [hr] at hload
      obtain ⟨hwell, read, hspent⟩ := hload
      simp only [readChunks, Outcome.result_logged, Outcome.state_logged, hr]
      rw [List.length_cons, Nat.add_comm]
      exact Pays.of_spends hspent (ih hwell (done + c.size))

theorem prepare_pays (h : d.cache.WellFormed) (c : Chunk) (data : List UInt8) (done : Nat) :
    d.Pays (if c.isWhole then 0 else 1) 0 (d.prepare c data done) := by
  unfold prepare
  dsimp only
  split_ifs with hwhole
  · exact .done h _
  · exact (load_pays h _ done).andThen fun _ _ hwell => .done hwell _

theorem writeChunks_pays (h : d.cache.WellFormed) (chunks : List Chunk) (data : List UInt8) (done : Nat) :
    d.Pays (chunks.countP fun c => !c.isWhole) chunks.length (d.writeChunks done data chunks) := by
  induction chunks generalizing d data done with
  | nil => exact .done h ()
  | cons c rest ih =>
    have hcount : (c :: rest).countP (fun c => !c.isWhole) =
        (if c.isWhole then 0 else 1) + (0 + rest.countP fun c => !c.isWhole) := by
      rw [List.countP_cons, Nat.add_comm, Nat.zero_add]
      cases c.isWhole <;> rfl
    have hlength : (c :: rest).length = 0 + (1 + rest.length) := by
      rw [List.length_cons, Nat.zero_add, Nat.add_comm]
    rw [hcount, hlength]
    refine (prepare_pays h c _ done).andThen fun d₁ block hwell₁ => ?_
    exact (store_pays hwell₁ _ block done).andThen fun d₂ _ hwell₂ => ih hwell₂ _ _

theorem read_pays (h : d.cache.WellFormed) (start length : Nat) (buffer : Option (List UInt8)) :
    d.Pays (blocksOf start length).card 0 (d.read start length buffer).toOutcome := by
  unfold Driver.read
  cases d.refuseRead? start length buffer with
  | some e => exact h
  | none =>
    rw [card_blocksOf]
    exact (readChunks_pays h (chunks start length) 0).andThen fun _ _ hwell => .done hwell _

theorem write_pays (h : d.cache.WellFormed) (start length : Nat) (data : Option (List UInt8)) :
    d.Pays (cutBlocks start length).card (blocksOf start length).card (d.write start length data) := by
  unfold Driver.write
  cases d.refuseWrite? start length data with
  | some e => exact h
  | none =>
    rw [card_blocksOf, card_cutBlocks]
    exact (writeChunks_pays h (chunks start length) _ 0).andThen fun _ _ hwell => .done hwell _

/-! ### Runs -/

theorem wellFormed_mount (h : d.cache.WellFormed) : d.mount.state.cache.WellFormed := by
  unfold Driver.mount
  split_ifs
  · exact h
  · refine wellFormed_of_ensures ((d.issue_counts _ _ _).andThen (fun d' _ hissue => ?_) fun d' _ hcache => hcache ▸ h)
    show d'.cache.WellFormed
    exact hissue.1 ▸ h

theorem wellFormed_unmount (h : d.cache.WellFormed) : d.unmount.state.cache.WellFormed := by
  unfold Driver.unmount
  split_ifs
  · refine wellFormed_of_ensures ((d.issue_counts _ _ _).andThen (fun d' _ hissue => ?_) fun d' _ hcache => hcache ▸ h)
    show d'.cache.WellFormed
    exact hissue.1 ▸ h
  · exact h

theorem wellFormed_sign (h : d.cache.WellFormed) (disk block : UInt8) :
    (d.sign disk block).state.cache.WellFormed := by
  unfold Driver.sign
  split_ifs
  · exact h
  · exact h
  · refine wellFormed_of_ensures (seek_issue_counts d _ _ 0 (fun d' _ hcache _ => ?_) fun d' _ hcache => hcache ▸ h)
    show d'.cache.WellFormed
    exact hcache ▸ h

theorem wellFormed_read (h : d.cache.WellFormed) (start length : Nat) (buffer : Option (List UInt8)) :
    (d.read start length buffer).state.cache.WellFormed :=
  (read_pays h start length buffer).wellFormed

theorem wellFormed_write (h : d.cache.WellFormed) (start length : Nat) (data : Option (List UInt8)) :
    (d.write start length data).state.cache.WellFormed :=
  (write_pays h start length data).wellFormed

theorem wellFormed_serve (h : d.cache.WellFormed) (r : Request) : (d.serve r).2.cache.WellFormed := by
  cases r with
  | mount => exact wellFormed_mount h
  | unmount => exact wellFormed_unmount h
  | grant => exact h
  | revoke => exact h
  | read start length buffer => exact wellFormed_read h start length buffer
  | write start length data => exact wellFormed_write h start length data
  | sign disk block => exact wellFormed_sign h disk block

theorem wellFormed_run (h : d.cache.WellFormed) (steps : List Step) : (d.run steps).2.cache.WellFormed := by
  induction steps generalizing d with
  | nil => exact h
  | cons step steps ih =>
    cases step with
    | request r => exact ih (wellFormed_serve h r)
    | cache r => exact ih (h.call (.capacity r))
    | lookup id =>
      refine ih ?_
      unfold Driver.lookup
      split
      · rename_i hlookup
        exact h.lookup hlookup
      · exact h

/-- Whatever was asked of a driver before, and whatever its cache holds: a read that succeeds asks for the blocks of its
range, five at most, and a write that succeeds asks for those that its range cuts, two at most, and stores all of them. A
write of whole blocks reads nothing. -/
theorem transfers_spend (disk : β) (policy : EvictionPolicy) (steps : List Step) (start length : Nat)
    (buffer : Option (List UInt8)) :
    let d := ((fresh policy ({ backing := disk } : Device β)).run steps).2
    let blocks := (blocksOf start length).card
    let cut := (cutBlocks start length).card
    (∀ n, (d.read start length buffer).result = .ok n →
      blocks ≤ 5 ∧ cut ≤ 2 ∧ ∃ read, d.Spends blocks read 0 (d.read start length buffer).state) ∧
    ∀ n, (d.write start length buffer).result = .ok n →
      blocks ≤ 5 ∧ cut ≤ 2 ∧ ∃ read, d.Spends cut read blocks (d.write start length buffer).state ∧
        (start % blockSize = 0 → length % blockSize = 0 → read = 0) := by
  intro d blocks cut
  have h : d.cache.WellFormed := wellFormed_run (.unused policy) steps
  refine ⟨fun n hn => ?_, fun n hn => ?_⟩
  · have hrefuse := refuseRead?_of_ok hn
    have hread := read_pays h start length buffer
    rw [Pays, Outcome.Ensures, hn] at hread
    exact ⟨card_blocksOf_le (le_maxTransfer_of_refuseRead? hrefuse), card_cutBlocks_le, hread.2⟩
  · have hrefuse := refuseWrite?_of_ok hn
    have hwrite := write_pays h start length buffer
    rw [Pays, Outcome.Ensures, hn] at hwrite
    obtain ⟨-, read, hspent⟩ := hwrite
    refine ⟨card_blocksOf_le (le_maxTransfer_of_refuseWrite? hrefuse), card_cutBlocks_le, read, hspent, ?_⟩
    intro hstart haligned
    have hle := hspent.read_le
    rwa [cutBlocks_of_aligned hstart haligned, Finset.card_empty, Nat.le_zero] at hle

/-- Two bytes in two blocks: both blocks are asked for, and a write stores both. -/
theorem transfers_spend_of_two_blocks :
    let d := ((fresh .mostRecent ({ backing := .blank } : Device MemoryDisk)).run
      [.cache (.create 2), .request .mount, .request .grant]).2
    (d.read 255 2 (some [0, 0])).result = .ok 2 ∧
      (∃ read, d.Spends 2 read 0 (d.read 255 2 (some [0, 0])).state) ∧
      (d.write 255 2 (some [7, 8])).result = .ok 2 ∧
      ∃ read, d.Spends 2 read 2 (d.write 255 2 (some [7, 8])).state := by
  intro d
  have hread : (d.read 255 2 (some [0, 0])).result = .ok 2 := by decide +kernel
  have hwrite : (d.write 255 2 (some [7, 8])).result = .ok 2 := by decide +kernel
  have hblocks : (blocksOf 255 2).card = 2 := by decide
  have hcut : (cutBlocks 255 2).card = 2 := by decide
  have hspent (buffer : Option (List UInt8)) := transfers_spend MemoryDisk.blank .mostRecent
    [.cache (.create 2), .request .mount, .request .grant] 255 2 buffer
  rw [hblocks, hcut] at hspent
  obtain ⟨-, -, hasked⟩ := (hspent (some [0, 0])).1 2 hread
  obtain ⟨-, -, read, hstored, -⟩ := (hspent (some [7, 8])).2 2 hwrite
  exact ⟨hread, hasked, hwrite, read, hstored⟩

end Driver

end DiskArray
