import DiskArray.Proofs.Driver.Run
import DiskArray.Proofs.Driver.Transfer

/-!
# Blank blocks

A driver whose first blocks are zero, on its device and where its cache holds them (`Driver.Blank`). Nothing is said of
what else the cache holds: it may be at odds with the device, and hold blocks that the array does not have. Writing zeros
over whole blocks never asks the cache, and makes one block after the other blank (`Zeroed.write`). Once the whole array
is blank, reads give zeros (`Blank.read`), and it stays so until something is written (`Blank.run`).
-/

namespace DiskArray

theorem Block.overlay_zeros (b : Block) : b.overlay 0 (List.replicate blockSize 0) = Block.zero := by
  apply Vector.ext
  intro i hi
  rw [getElem_overlay, if_pos (Nat.zero_le i), getElem_zero, Nat.sub_zero,
    List.getElem?_replicate, if_pos hi, Option.getD_some]

/-! ### Blank caches -/

namespace Cache

/-- The cache holds zeros where it holds one of the first `n` blocks of the array. -/
structure Blank (c : Cache) (n : Nat) : Prop where
  wellFormed : c.WellFormed
  zero : ∀ e ∈ c.entries, e.id.InArray → e.id.flat < n → e.block = Block.zero

namespace Blank

variable {c c' : Cache} {n i : Nat} {id : BlockId} {block : Block} {e : Entry}

theorem of_subset (h : c.Blank n) (hc : c'.WellFormed) (hsub : c'.entries ⊆ c.entries) : c'.Blank n :=
  ⟨hc, fun e he => h.zero e (hsub he)⟩

theorem keep (h : c.Blank n) (hblock : id.InArray → id.flat < n → block = Block.zero) : (c.keep id block).Blank n := by
  refine ⟨h.wellFormed.keep, fun e he => ?_⟩
  rcases mem_entries_of_mem_keep h.wellFormed he with rfl | ⟨hmem, -⟩
  · exact hblock
  · exact h.zero e hmem

theorem keep_next (h : c.Blank n) (hid : id.InArray) (hn : id.flat = n) : (c.keep id Block.zero).Blank (n + 1) := by
  refine ⟨h.wellFormed.keep, fun e he hine hlt => ?_⟩
  rcases mem_entries_of_mem_keep h.wellFormed he with rfl | ⟨hmem, hne⟩
  · rfl
  · have hflat : e.id.flat ≠ id.flat := fun heq => hne (hine.flat_inj hid heq)
    exact h.zero e hmem hine (by omega)

theorem access (h : c.Blank n) (hblock : id.InArray → id.flat < n → block = Block.zero) :
    (c.access id block).Blank n :=
  (h.keep hblock).of_subset h.wellFormed.access fun _ he => mem_entries_access.1 he

theorem sought (h : c.Blank n) : c.sought.Blank n := by
  refine h.of_subset h.wellFormed.sought ?_
  unfold Cache.sought
  split_ifs <;> exact List.Subset.refl _

theorem eq_zero_of_find? (h : c.Blank n) (hf : c.find? id = some (i, e)) :
    id.InArray → id.flat < n → e.block = Block.zero := by
  obtain ⟨hget, rfl⟩ := h.wellFormed.find?_eq_some hf
  exact h.zero e (List.mem_of_getElem? hget)

theorem lookup (h : c.Blank n) {b : Option Block} (hl : c.lookup id = .ok (b, c')) : c'.Blank n := by
  cases hf : c.find? id with
  | some v =>
    rw [lookup_of_find? hf] at hl
    cases hl
    exact h.access (h.eq_zero_of_find? hf)
  | none =>
    by_cases henabled : c.isEnabled
    · rw [lookup_of_find?_eq_none henabled hf] at hl
      cases hl
      exact h.of_subset (h.wellFormed.asked henabled) (List.Subset.refl _)
    · rw [lookup_of_not_enabled henabled] at hl
      cases hl

theorem serve (h : c.Blank n) (r : Request) : (c.serve r).state.Blank n := by
  unfold Cache.serve Outcome.ofExcept
  cases hr : c.apply r with
  | ok c' => exact h.of_subset (h.wellFormed.apply hr).1 (h.wellFormed.apply hr).2
  | error e => exact h

end Blank

end Cache

namespace Driver

variable {δ : Type} [Controller δ] [LawfulController δ] {d d' d₁ : Driver δ} {n m : Nat} {id : BlockId}

/-- The first `n` blocks are zero, on the device and where the cache holds them. -/
structure Blank (d : Driver δ) (n : Nat) : Prop where
  cache : d.cache.Blank n
  blocks : ∀ i < n, d.view.blocks i = Block.zero

/-- Another driver whose first `n` blocks are zero; all else but the cursor, the cache and the counts is as in `d`. -/
structure Zeroed (d : Driver δ) (n : Nat) (d' : Driver δ) : Prop where
  blank : d'.Blank n
  others : ∀ i, n ≤ i → d'.view.blocks i = d.view.blocks i
  signatures : d'.view.signatures = d.view.signatures
  mountedDevice : d'.view.mounted = d.view.mounted
  writableDevice : d'.view.writable = d.view.writable
  mounted : d'.mounted = d.mounted
  writable : d'.writable = d.writable

theorem Zeroed.start (h : d.cache.WellFormed) : d.Zeroed 0 d where
  blank := ⟨⟨h, fun _ _ _ hlt => absurd hlt (Nat.not_lt_zero _)⟩, fun _ hi => absurd hi (Nat.not_lt_zero _)⟩
  others _ _ := rfl
  signatures := rfl
  mountedDevice := rfl
  writableDevice := rfl
  mounted := rfl
  writable := rfl

theorem Blank.of_device (h : d.Blank n) (hd : d' = { d with device := d'.device })
    (hblocks : d'.view.blocks = d.view.blocks) : d'.Blank n := by
  have hcache : d'.cache = d.cache := by rw [hd]
  exact ⟨hcache ▸ h.cache, hblocks ▸ h.blocks⟩

theorem Zeroed.bytes_eq (h : d.Zeroed n d') (a : Nat) : d'.bytes a = if a < blockSize * n then 0 else d.bytes a := by
  have hmod := mod_blockSize_lt a
  have hblock : a / 256 < n ↔ a < 256 * n := by omega
  rw [bytes, bytes, FlatArray.ofBlocks_eq _ hmod, FlatArray.ofBlocks_eq _ hmod]
  split_ifs with hlt
  · rw [h.blank.blocks _ (hblock.2 hlt), Block.getElem_zero]
  · rw [h.others _ (Nat.le_of_not_lt fun hin => hlt (hblock.1 hin))]

/-! ### Writing zeros -/

theorem Zeroed.of_view (h : d.Zeroed n d₁) (hd : d' = { d₁ with device := d'.device })
    (hv : d'.view = { d₁.view with disk := d'.view.disk, block := d'.view.block }) : d.Zeroed n d' := by
  have hblocks : d'.view.blocks = d₁.view.blocks := by rw [hv]
  refine ⟨h.blank.of_device hd hblocks, hblocks ▸ h.others, ?_, ?_, ?_, ?_, ?_⟩
  · rw [hv, ← h.signatures]
  · rw [hv, ← h.mountedDevice]
  · rw [hv, ← h.writableDevice]
  · rw [hd, ← h.mounted]
  · rw [hd, ← h.writable]

theorem Zeroed.store (h : d.Zeroed n d₁) (hid : id.InArray) (hn : id.flat = n) (done : Nat) :
    (d₁.store id Block.zero done).Ensures (fun d' _ => d.Zeroed (n + 1) d')
      (fun d' e => e.DeviceFailed done ∧ d.Zeroed n d') := by
  unfold Driver.store
  refine d₁.seek_issue_view id done (fun d₂ buffer hd₂ hperforms => ?_) fun d₂ e he hd₂ hv₂ => ⟨he, h.of_view hd₂ hv₂⟩
  obtain ⟨-, rfl, b, hb, hv₂⟩ := hperforms
  obtain rfl := Option.some.inj hb
  have hblocks : d₂.view.blocks = Function.update d₁.view.blocks n Block.zero := by
    rw [hv₂, (Device.View.cursor_seekTo hid).2, hn]
    rfl
  have hcache : d₂.cache = d₁.cache := by rw [hd₂]
  have hmounted : d₂.mounted = d₁.mounted := by rw [hd₂]
  have hwritable : d₂.writable = d₁.writable := by rw [hd₂]
  refine (d₂.remember_ensures id _).mono ?_ fun _ _ hfalse => hfalse.elim
  rintro _ _ rfl
  refine ⟨⟨?_, fun i hi => ?_⟩, fun i hi => ?_, ?_, ?_, ?_, ?_, ?_⟩
  · show (d₂.cache.keep id Block.zero).Blank (n + 1)
    exact hcache ▸ h.blank.cache.keep_next hid hn
  · show d₂.view.blocks i = Block.zero
    rw [hblocks]
    by_cases hin : i = n
    · rw [hin, Function.update_self]
    · rw [Function.update_of_ne hin]
      exact h.blank.blocks i (by omega)
  · show d₂.view.blocks i = d.view.blocks i
    rw [hblocks, Function.update_of_ne (by omega)]
    exact h.others i (by omega)
  · show d₂.view.signatures = d.view.signatures
    rw [hv₂, ← h.signatures]
    rfl
  · show d₂.view.mounted = d.view.mounted
    rw [hv₂, ← h.mountedDevice]
    rfl
  · show d₂.view.writable = d.view.writable
    rw [hv₂, ← h.writableDevice]
    rfl
  · exact hmounted.trans h.mounted
  · exact hwritable.trans h.writable

/-- Zeros over whole blocks: all of them are blank, or those before the one at which the device failed. -/
theorem Zeroed.writeChunks (h : d.Zeroed n d₁) {k z : Nat} (hrange : n + k ≤ blockCount) (hz : blockSize * k ≤ z)
    (done : Nat) :
    (d₁.writeChunks done (List.replicate z 0) (chunks (blockSize * n) (blockSize * k))).Ensures
      (fun d' _ => d.Zeroed (n + k) d')
      (fun d' e => ∃ j < k, e.DeviceFailed (done + blockSize * j) ∧ d.Zeroed (n + j) d') := by
  induction k generalizing n d₁ z done with
  | zero =>
    rw [Nat.mul_zero, chunks_zero]
    exact h
  | succ k ih =>
    have hrange : n + (k + 1) ≤ 4096 := hrange
    have hz : 256 * (k + 1) ≤ z := hz
    have hid : (Location.ofAddress (blockSize * n)).blockId.InArray :=
      Location.inArray_ofAddress (show 256 * n < 1048576 by omega)
    have hblock : Block.zero.overlay 0 ((List.replicate z 0).take blockSize) = Block.zero := by
      rw [List.take_replicate, Nat.min_eq_left (by show 256 ≤ z; omega), Block.overlay_zeros]
    have hoffset : (Location.ofAddress (blockSize * n)).offset = 0 := Nat.mul_mod_right blockSize n
    -- a whole block needs nothing of what it held
    have hprepare : d₁.prepare ⟨blockSize * n, blockSize⟩ ((List.replicate z 0).take blockSize) done =
        .done d₁ Block.zero := by
      unfold prepare
      simp only [Chunk.isWhole, Chunk.location, beq_self_eq_true, if_true, hoffset, hblock]
    rw [chunks_blocks, Driver.writeChunks, Outcome.ensures_logged, hprepare, Outcome.done_andThen]
    refine (h.store hid (Location.flat_blockId_block n) done).andThen (fun d₂ _ hd₂ => ?_) fun d₂ e hfailed => ?_
    · have hcount (j : Nat) : n + 1 + j = n + (j + 1) := by omega
      have hdone (j : Nat) : done + blockSize + blockSize * j = done + blockSize * (j + 1) := by
        show done + 256 + 256 * j = done + 256 * (j + 1)
        omega
      rw [List.drop_replicate]
      refine (ih hd₂ (by omega) (by show 256 * k ≤ z - 256; omega) (done + blockSize)).mono (fun d₃ _ hd₃ => ?_) ?_
      · exact hcount k ▸ hd₃
      · rintro d₃ e ⟨j, hj, he, hd₃⟩
        exact ⟨j + 1, by omega, hdone j ▸ he, hcount j ▸ hd₃⟩
    · exact ⟨0, Nat.zero_lt_succ k, hfailed.1, hfailed.2⟩

theorem refuseWrite?_blocks {δ : Type} {d : Driver δ} {k : Nat} (hm : d.mounted) (hw : d.writable)
    (hrange : n + k ≤ blockCount) (hlength : blockSize * k ≤ maxTransfer) :
    d.refuseWrite? (blockSize * n) (blockSize * k) (some (List.replicate (blockSize * k) 0)) = none := by
  have hrange : n + k ≤ 4096 := hrange
  have hlt : ¬ totalSize < blockSize * n + blockSize * k := by
    show ¬ 1048576 < 256 * n + 256 * k
    omega
  simp [refuseWrite?, hm, hw, bufferTooSmall, Nat.not_lt.2 hlength, hlt]

/-- Zeros over whole blocks, as one request. -/
theorem Zeroed.write (h : d.Zeroed n d₁) {k : Nat} (hm : d.mounted) (hw : d.writable) (hrange : n + k ≤ blockCount)
    (hlength : blockSize * k ≤ maxTransfer) :
    (d₁.write (blockSize * n) (blockSize * k) (some (List.replicate (blockSize * k) 0))).Ensures
      (fun d' _ => d.Zeroed (n + k) d')
      (fun d' e => ∃ j < k, e.DeviceFailed (blockSize * j) ∧ d.Zeroed (n + j) d') := by
  unfold Driver.write
  rw [refuseWrite?_blocks (h.mounted.trans hm) (h.writable.trans hw) hrange hlength]
  refine (h.writeChunks hrange (Nat.le_refl _) 0).andThen (fun d₂ _ hd₂ => hd₂) ?_
  rintro d₂ e ⟨j, hj, he, hd₂⟩
  rw [Nat.zero_add] at he
  exact ⟨j, hj, he, hd₂⟩

/-! ### Reading zeros -/

namespace Blank

theorem fetch (h : d.Blank n) (hid : id.InArray) (hlt : id.flat < n) (done : Nat) :
    (d.fetch id done).Ensures (fun d' b => b = Block.zero ∧ d'.Blank n) (fun d' _ => d'.Blank n) := by
  unfold Driver.fetch
  refine d.seek_issue_view id done (fun d₁ buffer hd₁ hperforms => ?_) fun d₁ _ _ hd₁ hv₁ => ?_
  · obtain ⟨-, hv₁, -, rfl⟩ := hperforms
    have hcache : d₁.cache = d.cache := by rw [hd₁]
    have hzero : (d.view.seekTo id).blocks (d.view.seekTo id).cursor = Block.zero := by
      rw [(Device.View.cursor_seekTo hid).2]
      exact h.blocks id.flat hlt
    rw [Option.getD_some, hzero]
    refine (d₁.remember_ensures id _).andThen ?_ fun _ _ hfalse => hfalse.elim
    rintro _ _ rfl
    refine ⟨rfl, hcache ▸ h.cache.keep fun _ _ => rfl, ?_⟩
    show ∀ i < n, d₁.view.blocks i = Block.zero
    rw [hv₁]
    exact h.blocks
  · exact h.of_device hd₁ (by rw [hv₁])

theorem load (h : d.Blank n) (hid : id.InArray) (hlt : id.flat < n) (done : Nat) :
    (d.load id done).Ensures (fun d' b => b = Block.zero ∧ d'.Blank n) (fun d' _ => d'.Blank n) := by
  cases hf : d.cache.find? id with
  | some v =>
    have hzero := h.cache.eq_zero_of_find? hf
    rw [load_of_find? hf, Outcome.ensures_done]
    exact ⟨hzero hid hlt, h.cache.access hzero, h.blocks⟩
  | none =>
    have hsought : Blank { d with cache := d.cache.sought } n := ⟨h.cache.sought, h.blocks⟩
    rw [load_of_find?_eq_none hf]
    exact hsought.fetch hid hlt done

theorem readChunks {start length : Nat} (h : d.Blank blockCount) (hrange : start + length ≤ totalSize) (done : Nat) :
    (d.readChunks done (chunks start length)).2.Ensures
      (fun d' _ => (d.readChunks done (chunks start length)).1 = List.replicate length 0 ∧ d'.Blank blockCount)
      (fun d' _ => d'.Blank blockCount) := by
  induction start, length using chunks_induction generalizing d done with
  | done start =>
    rw [chunks_zero]
    exact ⟨rfl, h⟩
  | chunk start size rest hpos hfit hnext hchunks ih =>
    have hid : (Location.ofAddress start).blockId.InArray := Location.inArray_ofAddress (by omega)
    have hload := h.load hid hid.flat_lt done
    rw [hchunks]
    unfold Outcome.Ensures at hload
    cases hr : (d.load (Location.ofAddress start).blockId done).result with
    | error e =>
      rw [hr] at hload
      simp only [Driver.readChunks, Chunk.location, Outcome.result_logged, hr]
      exact hload
    | ok block =>
      rw [hr] at hload
      obtain ⟨rfl, hd₁⟩ := hload
      have hslice : Block.zero.slice (start % blockSize) size = List.replicate size 0 := by
        have hfit : start % 256 + size ≤ 256 := hfit
        rw [Block.slice, Block.zero, Vector.toList_replicate, List.drop_replicate, List.take_replicate,
          Nat.min_eq_left (by show size ≤ 256 - start % 256; omega)]
      simp only [Driver.readChunks, Chunk.location, Outcome.result_logged, Outcome.state_logged, hr,
        Outcome.ensures_logged]
      refine (ih hd₁ (by omega) (done + size)).mono (fun d₂ _ hd₂ => ⟨?_, hd₂.2⟩) fun _ _ hd₂ => hd₂
      rw [hd₂.1, List.replicate_add]
      exact congrArg (· ++ _) hslice

/-- A read of a blank array gives zeros. -/
theorem read (h : d.Blank blockCount) (start length : Nat) (buffer : Option (List UInt8)) :
    (d.read start length buffer).toOutcome.Ensures
      (fun d' n => n = length ∧
        (d.read start length buffer).buffer = buffer.map (fun old => List.replicate length 0 ++ old.drop length) ∧
        d'.Blank blockCount)
      (fun d' _ => d'.Blank blockCount) := by
  unfold Driver.read
  cases hrefuse : d.refuseRead? start length buffer with
  | some e => exact h
  | none =>
    obtain ⟨-, hrange, -⟩ := refuseRead?_eq_none hrefuse
    dsimp only
    refine (h.readChunks hrange 0).andThen (fun d₁ _ ⟨hbytes, hd₁⟩ => ⟨rfl, ?_, hd₁⟩) fun _ _ hd₁ => hd₁
    rw [hbytes, List.length_replicate]

/-! ### What keeps an array blank -/

theorem issue (h : d.Blank n) {op : Operation} (hop : op.command ≠ .writeBlock) (buffer : Option Block) (done : Nat) :
    (d.issue op buffer done).Ensures (fun d' _ => d'.Blank n) (fun d' _ => d'.Blank n) :=
  (d.issue_ensures op buffer done).mono (fun _ _ ⟨hd₁, hv₁⟩ => h.of_device hd₁ (hv₁.blocks_eq hop))
    fun _ _ ⟨hd₁, hv₁, _⟩ => h.of_device hd₁ (by rw [hv₁])

theorem mount (h : d.Blank n) : d.mount.state.Blank n := by
  unfold Driver.mount
  split_ifs
  · exact h
  · exact Outcome.state_andThen_of (p := (Blank · n)) (h.issue (by decide) none 0).state fun d₁ _ hd₁ =>
      ⟨hd₁.cache, hd₁.blocks⟩

theorem unmount (h : d.Blank n) : d.unmount.state.Blank n := by
  unfold Driver.unmount
  split_ifs
  · exact Outcome.state_andThen_of (p := (Blank · n)) (h.issue (by decide) none 0).state fun d₁ _ hd₁ =>
      ⟨hd₁.cache, hd₁.blocks⟩
  · exact h

theorem sign (h : d.Blank n) (disk block : UInt8) : (d.sign disk block).state.Blank n := by
  unfold Driver.sign
  split_ifs
  · exact h
  · exact h
  · refine Outcome.Ensures.state (p := (Blank · n)) ?_
    refine d.seek_issue_view _ 0 (fun d₁ _ hd₁ hperforms => ?_) fun d₁ _ _ hd₁ hv₁ => h.of_device hd₁ (by rw [hv₁])
    exact h.of_device hd₁ (hperforms.blocks_eq (by decide))

theorem lookup (h : d.Blank n) (id : BlockId) : (d.lookup id).Blank n := by
  unfold Driver.lookup
  split
  · rename_i hl
    exact ⟨h.cache.lookup hl, h.blocks⟩
  · exact h

theorem serve (h : d.Blank blockCount) {r : Request} (hr : ∀ start length data, r ≠ .write start length data) :
    (d.serve r).2.Blank blockCount := by
  cases r with
  | mount => exact h.mount
  | unmount => exact h.unmount
  | grant => exact ⟨h.cache, h.blocks⟩
  | revoke => exact ⟨h.cache, h.blocks⟩
  | read start length buffer =>
    exact Outcome.Ensures.state ((h.read start length buffer).mono (fun _ _ hd₁ => hd₁.2.2) fun _ _ hd₁ => hd₁)
  | write start length data => exact absurd rfl (hr start length data)
  | sign disk block => exact h.sign disk block

/-- A blank array stays blank until something is written. -/
theorem run (h : d.Blank blockCount) {steps : List Step}
    (hsteps : ∀ start length data, .request (.write start length data) ∉ steps) : (d.run steps).2.Blank blockCount := by
  induction steps generalizing d with
  | nil => exact h
  | cons step steps ih =>
    have hlater (start length : Nat) (data : Option (List UInt8)) : .request (.write start length data) ∉ steps :=
      fun hmem => hsteps start length data (List.mem_cons_of_mem _ hmem)
    cases step with
    | request r =>
      refine ih (h.serve fun start length data hr => ?_) hlater
      exact hsteps start length data (hr ▸ List.mem_cons_self)
    | cache r => exact ih ⟨h.cache.serve r, h.blocks⟩ hlater
    | lookup id => exact ih (h.lookup id) hlater

end Blank

end Driver

end DiskArray
