import DiskArray.Proofs.Driver.Blank
import DiskArray.Proofs.Driver.InStep
import DiskArray.Proofs.Driver.Traffic
import DiskArray.Proofs.Driver.Writing
import DiskArray.Proofs.Shell.Turns

/-!
# Formatting

A format writes zeros over the array, four blocks at a time. Nothing is assumed of the cache but what every cache in use
satisfies: the blocks are written whole, so that none is looked up, and what the cache held of them is overwritten
(`zeroAll_zeroed`). Where a write fails the ones before it are done, and of that one the bytes that it tells of
(`zeroAll_stopped`). The image of a session, which never fails, is zero byte for byte (`format_image`).
-/

namespace DiskArray.Shell

open Text

/-- The addresses of `m` writes, from the write with number `k` on. -/
def writesFrom (k m : Nat) : List Nat := (List.range' k m).map (· * maxTransfer)

theorem writesFrom_succ (k m : Nat) : writesFrom k (m + 1) = k * maxTransfer :: writesFrom (k + 1) m := by
  rw [writesFrom, List.range'_succ, List.map_cons]
  rfl

theorem formatAddresses_eq : formatAddresses = writesFrom 0 1024 := by
  rw [formatAddresses, writesFrom, List.range_eq_range']
  rfl

theorem take_formatAddresses {k : Nat} (hk : k ≤ 1024) : formatAddresses.take k = writesFrom 0 k := by
  rw [formatAddresses_eq, writesFrom, ← List.map_take, ← List.range_eq_range', List.take_range, Nat.min_eq_left hk,
    List.range_eq_range']
  rfl

theorem formatAddresses_split {done rest : List Nat} {address : Nat} (h : formatAddresses = done ++ address :: rest) :
    done = formatAddresses.take done.length ∧ address = done.length * maxTransfer ∧ done.length < 1024 := by
  have hlength : formatAddresses.length = 1024 := by
    rw [formatAddresses, List.length_map, List.length_range]
    rfl
  have hlt : done.length < formatAddresses.length := by
    rw [h, List.length_append, List.length_cons]
    omega
  have haddress : formatAddresses[done.length]? = some address := by
    rw [h, List.getElem?_append_right (Nat.le_refl _), Nat.sub_self, List.getElem?_cons_zero]
  refine ⟨?_, ?_, hlength ▸ hlt⟩
  · rw [h, List.take_left]
  · rw [List.getElem?_eq_getElem hlt] at haddress
    simp only [formatAddresses, List.getElem_map, List.getElem_range] at haddress
    exact (Option.some.inj haddress).symm

theorem mul_maxTransfer (k : Nat) : k * maxTransfer = blockSize * (4 * k) := by
  show k * 1024 = 256 * (4 * k)
  omega

theorem Effect.failure_ofOutcome {α β : Type} {answers : List Answer} {wrap : DriverError → CommandError}
    {o : Outcome (Driver (Device β)) DriverError α} {lines : Driver (Device β) → α → List Styled} :
    (Effect.ofOutcome answers wrap o lines).failure = (Driver.failure? o.result).map wrap := by
  unfold Effect.ofOutcome
  cases o.result <;> rfl

/-! ### Writing zeros -/

theorem refuseWrite?_zeros {δ : Type} {d : Driver δ} {k : Nat} (hm : d.mounted) (hw : d.writable) (hk : k < 1024) :
    d.refuseWrite? (k * maxTransfer) maxTransfer (some zeros) = none := by
  have hlength : blockSize * 4 = maxTransfer := rfl
  have hrefuse := Driver.refuseWrite?_blocks (n := 4 * k) (k := 4) hm hw (show 4 * k + 4 ≤ 4096 by omega)
    (Nat.le_of_eq hlength)
  rwa [hlength, ← mul_maxTransfer, ← zeros] at hrefuse

section Stopped
variable {δ : Type} [Controller δ] {d : Driver δ} {e : DriverError}

/-- Writing that fails does so at one of the writes, and the ones before it are done. -/
theorem zeroAll_stopped {addresses : List Nat} (h : (zeroAll d addresses).result = .error e) :
    ∃ done address rest, addresses = done ++ address :: rest ∧ (zeroAll d done).result = .ok () ∧
      ((zeroAll d done).state.write address maxTransfer (some zeros)).result = .error e ∧
      (zeroAll d addresses).state = ((zeroAll d done).state.write address maxTransfer (some zeros)).state := by
  induction addresses generalizing d with
  | nil => cases h
  | cons address rest ih =>
    cases hr : (d.write address maxTransfer (some zeros)).result with
    | ok n =>
      rw [zeroAll, Outcome.result_andThen hr] at h
      obtain ⟨done, address', rest', rfl, hdone, herror, hstate⟩ := ih h
      refine ⟨address :: done, address', rest', rfl, ?_, ?_, ?_⟩
      · rw [zeroAll, Outcome.result_andThen hr, hdone]
      · rw [zeroAll, Outcome.state_andThen hr, herror]
      · rw [zeroAll, zeroAll, Outcome.state_andThen hr, Outcome.state_andThen hr, hstate]
    | error e' =>
      have hsame : (zeroAll d (address :: rest)).result = .error e' ∧
          (zeroAll d (address :: rest)).state = (d.write address maxTransfer (some zeros)).state := by
        rw [zeroAll, Outcome.andThen, hr]
        exact ⟨rfl, rfl⟩
      obtain rfl := Except.error.inj (hsame.1.symm.trans h)
      exact ⟨[], address, rest, rfl, rfl, hr, hsame.2⟩

end Stopped

section Lawful
variable {δ : Type} [Controller δ] [LawfulController δ] {d d₁ : Driver δ} {k m : Nat}

theorem write_zeroed (h : d.Zeroed (4 * k) d₁) (hm : d.mounted) (hw : d.writable) (hk : k < 1024) :
    (d₁.write (k * maxTransfer) maxTransfer (some zeros)).Ensures (fun d' _ => d.Zeroed (4 * (k + 1)) d')
      (fun d' e => ∃ j < 4, e.DeviceFailed (blockSize * j) ∧ d.Zeroed (4 * k + j) d') := by
  have hlength : blockSize * 4 = maxTransfer := rfl
  have hwrite := h.write (k := 4) hm hw (show 4 * k + 4 ≤ 4096 by omega) (Nat.le_of_eq hlength)
  rw [hlength, ← mul_maxTransfer] at hwrite
  exact hwrite

theorem zeroAll_zeroed (h : d.Zeroed (4 * k) d₁) (hm : d.mounted) (hw : d.writable) (hk : k + m ≤ 1024) :
    (zeroAll d₁ (writesFrom k m)).Ensures (fun d' _ => d.Zeroed (4 * (k + m)) d') (fun _ _ => True) := by
  induction m generalizing k d₁ with
  | zero => exact h
  | succ m ih =>
    rw [writesFrom_succ, zeroAll]
    refine (write_zeroed h hm hw (by omega)).andThen (fun d₂ _ hd₂ => ?_) fun _ _ _ => trivial
    have hcount : k + 1 + m = k + (m + 1) := by omega
    exact hcount ▸ ih hd₂ (by omega)

/-- Where the device fails in one of the writes, the ones before it are done, and of that one the bytes that the error
tells of. -/
theorem zeroAll_deviceFailed {command : DiskArray.Command} {source : DeviceError} {t : Nat} (h : d.Zeroed 0 d)
    (hm : d.mounted) (hw : d.writable)
    (herror : (zeroAll d formatAddresses).result = .error (.device command source t)) :
    ∃ k < 1024, ∃ j < 4, t = blockSize * j ∧ d.Zeroed (4 * k + j) (zeroAll d formatAddresses).state ∧
      (zeroAll d (formatAddresses.take k)).result = .ok () ∧
      ((zeroAll d (formatAddresses.take k)).state.write (k * maxTransfer) maxTransfer (some zeros)).result =
        .error (.device command source t) := by
  obtain ⟨done, address, rest, hsplit, hdone, hfailed, hstate⟩ := zeroAll_stopped herror
  obtain ⟨htake, rfl, hk⟩ := formatAddresses_split hsplit
  have hbefore : (zeroAll d (writesFrom 0 done.length)).Ensures (fun d' _ => d.Zeroed (4 * (0 + done.length)) d')
      (fun _ _ => True) := zeroAll_zeroed h hm hw (by omega)
  rw [← take_formatAddresses (Nat.le_of_lt hk), ← htake, Outcome.Ensures, hdone, Nat.zero_add] at hbefore
  have hwrite := write_zeroed hbefore hm hw hk
  rw [Outcome.Ensures, hfailed] at hwrite
  obtain ⟨j, hj, ⟨_, _, heq⟩, hzeroed⟩ := hwrite
  cases heq
  refine ⟨done.length, hk, j, hj, rfl, ?_⟩
  rw [← htake, hstate]
  exact ⟨hzeroed, hdone, hfailed⟩

end Lawful

section Device
variable {β : Type} [Backing β] {d d₁ : Driver (Device β)} {k m : Nat}

theorem zeroAll_pays (h : d.cache.WellFormed) (k m : Nat) : d.Pays 0 (4 * m) (zeroAll d (writesFrom k m)) := by
  induction m generalizing d k with
  | zero => exact .done h ()
  | succ m ih =>
    have hwrite := Driver.write_pays h (k * maxTransfer) maxTransfer (some zeros)
    have hlength : maxTransfer = blockSize * 4 := rfl
    have hstart : k * maxTransfer % blockSize = 0 := by rw [mul_maxTransfer, Nat.mul_mod_right]
    have hcut : (cutBlocks (k * maxTransfer) maxTransfer).card = 0 := by
      rw [cutBlocks_of_aligned hstart rfl, Finset.card_empty]
    have hblocks : (blocksOf (k * maxTransfer) maxTransfer).card = 4 := by
      rw [mul_maxTransfer, hlength, card_blocksOf_blocks]
    have hcount : 4 * (m + 1) = 4 + 4 * m := by omega
    rw [hcut, hblocks] at hwrite
    rw [writesFrom_succ, zeroAll, hcount]
    exact hwrite.andThen fun d₂ _ hwell => ih hwell (k + 1)

/-! ### The command -/

theorem format_of_agreed (d : Driver (Device β)) {answers : List Answer} (h : answers.head? = some (some true)) :
    (format d answers).driver = (zeroAll d formatAddresses).state ∧
      (format d answers).failure = (Driver.failure? (zeroAll d formatAddresses).result).map .driver := by
  have hjoin : answers.head?.join = some true := by
    rw [h]
    rfl
  unfold format
  rw [hjoin]
  dsimp only
  rw [Effect.driver_ofOutcome.1, Effect.failure_ofOutcome]
  exact ⟨rfl, rfl⟩

theorem format_of_not_agreed (d : Driver (Device β)) {answers : List Answer} (h : answers.head? ≠ some (some true)) :
    (format d answers).driver = d ∧ ∀ e, (format d answers).failure ≠ some (.driver e) := by
  unfold format
  cases hjoin : answers.head?.join with
  | none => exact ⟨rfl, fun e => nofun⟩
  | some agreed =>
    cases agreed with
    | false => exact ⟨rfl, fun e => nofun⟩
    | true => exact absurd (by simpa [Option.join_eq_some_iff] using hjoin) h

theorem zeroAll_of_refused {d : Driver (Device β)} (h : ¬ d.mounted ∨ ¬ d.writable) :
    (zeroAll d formatAddresses).state = d ∧
      ((zeroAll d formatAddresses).result = .error .notMounted ∨
        (zeroAll d formatAddresses).result = .error .permissionDenied) := by
  have hwrite (e : DriverError) (he : d.refuseWrite? (0 * maxTransfer) maxTransfer (some zeros) = some e) :
      zeroAll d formatAddresses = .fail d e := by
    rw [formatAddresses_eq, writesFrom_succ, zeroAll, Driver.write, he]
    rfl
  by_cases hm : d.mounted
  · have hw : ¬ d.writable := h.resolve_left fun hnot => hnot hm
    rw [hwrite .permissionDenied (by simp [Driver.refuseWrite?, hm, hw])]
    exact ⟨rfl, Or.inr rfl⟩
  · rw [hwrite .notMounted (by simp [Driver.refuseWrite?, hm])]
    exact ⟨rfl, Or.inl rfl⟩

variable [BlockView β] [LawfulBacking β]

theorem zeroAll_succeeds (h : d.Zeroed (4 * k) d₁) (hm : d.mounted) (hw : d.writable) (hk : k + m ≤ 1024)
    (hstep : d₁.InStep) (hnever : d₁.NeverFails) :
    (zeroAll d₁ (writesFrom k m)).result = .ok () ∧ (zeroAll d₁ (writesFrom k m)).state.InStep ∧
      (zeroAll d₁ (writesFrom k m)).state.NeverFails := by
  induction m generalizing k d₁ with
  | zero => exact ⟨rfl, hstep, hnever⟩
  | succ m ih =>
    have hrefuse := refuseWrite?_zeros (h.mounted.trans hm) (h.writable.trans hw) (show k < 1024 by omega)
    obtain ⟨⟨hstep', hnever'⟩, hanswers⟩ := hstep.write (k * maxTransfer) maxTransfer (some zeros)
    obtain ⟨n, hok⟩ := Driver.exists_ok_of_failure? (hanswers.eq_none hnever hrefuse)
    have hwrite := write_zeroed h hm hw (show k < 1024 by omega)
    rw [Outcome.Ensures, hok] at hwrite
    rw [writesFrom_succ, zeroAll, Outcome.result_andThen hok, Outcome.state_andThen hok]
    exact ih hwrite (by omega) hstep' (hnever' hnever)

theorem read_zeros (h : d.Blank blockCount) (hstep : d.InStep) (hnever : d.NeverFails) {steps : List Driver.Step}
    (hsteps : ∀ start length data, .request (.write start length data) ∉ steps) {start length : Nat}
    {buffer : Option (List UInt8)} (hrefuse : (d.run steps).2.refuseRead? start length buffer = none) :
    ((d.run steps).2.read start length buffer).result = .ok length ∧
      ((d.run steps).2.read start length buffer).buffer =
        buffer.map fun old => List.replicate length 0 ++ old.drop length := by
  obtain ⟨⟨hran, hstays⟩, -⟩ := hstep.run steps
  obtain ⟨n, hok⟩ :=
    Driver.exists_ok_of_failure? ((hran.read start length buffer).2.eq_none (hstays hnever) hrefuse)
  have hread := (h.run hsteps).read start length buffer
  rw [Outcome.Ensures, hok] at hread
  obtain ⟨rfl, hbuffer, -⟩ := hread
  exact ⟨hok, hbuffer⟩

theorem zeroAll_done (hwell : d.cache.WellFormed) (hm : d.mounted) (hm' : d.device.mounted) (hw : d.writable)
    (hnever : Backing.NeverFails d.device.backing) :
    (zeroAll d formatAddresses).result = .ok () ∧ d.Zeroed blockCount (zeroAll d formatAddresses).state ∧
      d.Spends 0 0 blockCount (zeroAll d formatAddresses).state ∧ (zeroAll d formatAddresses).state.InStep ∧
      (zeroAll d formatAddresses).state.NeverFails := by
  have hstart : d.Zeroed (4 * 0) d := .start hwell
  obtain ⟨hok, hstep, hnever'⟩ := zeroAll_succeeds (m := 1024) hstart hm hw (by decide)
    ⟨hm'.trans hm.symm, trivial⟩ hnever
  have hzeroed := zeroAll_zeroed (m := 1024) hstart hm hw (by decide)
  have hpays := zeroAll_pays hwell 0 1024
  rw [← formatAddresses_eq] at hok hstep hnever' hzeroed hpays
  rw [Outcome.Ensures, hok] at hzeroed
  rw [Driver.Pays, Outcome.Ensures, hok] at hpays
  obtain ⟨-, read, hspent⟩ := hpays
  obtain rfl : read = 0 := Nat.le_zero.1 hspent.read_le
  exact ⟨hok, hzeroed, hspent, hstep, hnever'⟩

theorem format_stopped {answers : List Answer} {command : DiskArray.Command} {source : DeviceError} {t : Nat}
    (hwell : d.cache.WellFormed) (hfailed : (format d answers).failure = some (.driver (.device command source t))) :
    ∃ k < 1024, (zeroAll d (formatAddresses.take k)).result = .ok () ∧
      ((zeroAll d (formatAddresses.take k)).state.write (k * maxTransfer) maxTransfer (some zeros)).result =
        .error (.device command source t) ∧
      t < maxTransfer ∧ ∀ a, (format d answers).driver.array a = if a < k * maxTransfer + t then 0 else d.array a := by
  by_cases hagreed : answers.head? = some (some true)
  · obtain ⟨hdriver, hfailure⟩ := format_of_agreed d hagreed
    obtain ⟨e, he, heq⟩ := Option.map_eq_some_iff.1 (hfailure.symm.trans hfailed)
    cases heq
    have herror := Driver.eq_error_of_failure? he
    have hpermitted : d.mounted ∧ d.writable := by
      by_contra hnot
      rcases (zeroAll_of_refused (not_and_or.1 hnot)).2 with hrefused | hrefused <;> rw [herror] at hrefused <;>
        cases hrefused
    obtain ⟨k, hk, j, hj, rfl, hzeroed, hdone, hwrite⟩ :=
      zeroAll_deviceFailed (.start hwell) hpermitted.1 hpermitted.2 herror
    refine ⟨k, hk, hdone, hwrite, ?_, fun a => ?_⟩
    · show 256 * j < 1024
      omega
    · have hcount : blockSize * (4 * k + j) = k * maxTransfer + blockSize * j := by
        rw [mul_maxTransfer, Nat.mul_add]
      rw [hdriver, ← hcount]
      exact hzeroed.bytes_eq a
  · exact absurd hfailed ((format_of_not_agreed d hagreed).2 _)

/-- Whatever the array and the cache held, a format that the user agrees to succeeds over a disk that never fails while
the array is mounted and may be written. It stores every block once and asks the cache for none, and leaves zeros: on the
disk, and where the cache holds a block of the array, so that reads give zeros until something is written; the signatures
and the flags stay. If the device fails, the writes before are done, and of that one the bytes that the error tells of. A
format that is not agreed to, or not permitted, changes nothing. -/
theorem format_zeroes (d : Driver (Device β)) (answers : List Answer) (policy : EvictionPolicy)
    (calls : List Cache.Call) (hcache : d.cache = Cache.run policy calls) :
    let after := format d answers
    let d' := after.driver
    (answers.head? = some (some true) → d.mounted → d.device.mounted → d.writable →
      Backing.NeverFails d.device.backing →
        after.failure = none ∧
          (∀ c : DiskArray.Command, d'.device.tally.of c =
            d.device.tally.of c + if c ∈ [.seekToDisk, .seekToBlock, .writeBlock] then 4096 else 0) ∧
          d'.cache.queries = d.cache.queries ∧
          (∀ a < totalSize, d'.array a = 0) ∧
          (∀ e, some e ∈ d'.cache.slots → e.id.disk < diskCount → e.id.block < blocksPerDisk → e.block = Block.zero) ∧
          (∀ steps, (∀ start length data, .request (.write start length data) ∉ steps) →
            ∀ start length buffer, (d'.run steps).2.refuseRead? start length buffer = none →
              ((d'.run steps).2.read start length buffer).result = .ok length ∧
                ((d'.run steps).2.read start length buffer).buffer =
                  buffer.map fun old => List.replicate length 0 ++ old.drop length) ∧
          d'.device.signatures = d.device.signatures ∧ d'.mounted = d.mounted ∧ d'.writable = d.writable ∧
          d'.device.mounted = d.device.mounted ∧ d'.device.writable = d.device.writable) ∧
    (∀ command source t, after.failure = some (.driver (.device command source t)) →
      ∃ k < 1024, (zeroAll d (formatAddresses.take k)).result = .ok () ∧
        ((zeroAll d (formatAddresses.take k)).state.write (k * maxTransfer) maxTransfer (some zeros)).result =
          .error (.device command source t) ∧
        t < maxTransfer ∧ ∀ a, d'.array a = if a < k * maxTransfer + t then 0 else d.array a) ∧
    (answers.head? ≠ some (some true) ∨ ¬ d.mounted ∨ ¬ d.writable → d' = d) := by
  intro after d'
  have hwell : d.cache.WellFormed := hcache ▸ .run policy calls
  refine ⟨fun hagreed hm hm' hw hnever => ?_, fun command source t => format_stopped hwell, fun hrefused => ?_⟩
  · obtain ⟨hdriver, hfailure⟩ := format_of_agreed d hagreed
    obtain ⟨hok, hzeroed, hspent, hstep, hnever'⟩ := zeroAll_done hwell hm hm' hw hnever
    rw [← hdriver] at hzeroed hspent hstep hnever'
    refine ⟨?_, ?_, ?_, ?_, ?_, ?_, hzeroed.signatures, hzeroed.mounted, hzeroed.writable, hzeroed.mountedDevice,
      hzeroed.writableDevice⟩
    · show (format d answers).failure = none
      rw [hfailure, hok]
      rfl
    · intro c
      rw [hspent.tally]
      cases c <;> rfl
    · by_cases henabled : d.cache.isEnabled
      · exact hspent.queries henabled
      · rw [(hspent.disabled henabled).2]
    · intro a ha
      exact (hzeroed.bytes_eq a).trans (if_pos ha)
    · intro e he hdisk hblock
      have hid : e.id.InArray := ⟨hdisk, hblock⟩
      exact hzeroed.blank.cache.zero e (Cache.mem_entries.2 he) hid hid.flat_lt
    · intro steps hsteps start length buffer hrefuse
      exact read_zeros hzeroed.blank hstep hnever' hsteps hrefuse
  · by_cases hagreed : answers.head? = some (some true)
    · show (format d answers).driver = d
      rw [(format_of_agreed d hagreed).1]
      exact (zeroAll_of_refused (hrefused.resolve_left (not_not.2 hagreed))).1
    · exact (format_of_not_agreed d hagreed).1

end Device

/-- A disk that is not zero under a cache that holds another block still. -/
theorem format_zeroes_of_stale :
    let block : Block := .replicate blockSize 7
    let calls : List Cache.Call := [.capacity (.create 2), .block (.insert ⟨0, 1⟩ (.replicate blockSize 5))]
    let d : Driver (Device MemoryDisk) :=
      { device := { backing := ⟨Vector.replicate blockCount block⟩, mounted := true }
        mounted := true, writable := true, cache := .run .leastRecent calls }
    (format d [some true]).failure = none ∧ (∀ a < totalSize, (format d [some true]).driver.array a = 0) ∧
      ((format d [some true]).driver.read 250 8 (some (List.replicate 9 1))).buffer =
        some [0, 0, 0, 0, 0, 0, 0, 0, 1] := by
  intro block calls d
  have hzeroes := format_zeroes d [some true] .leastRecent calls rfl
  obtain ⟨hnone, -, -, harray, -, hread, -, hmounted, -⟩ :=
    hzeroes.1 rfl rfl rfl rfl (Backing.neverFails_memoryDisk _)
  have hnothing : ∀ start length data, Driver.Step.request (.write start length data) ∉ [] := fun _ _ _ =>
    List.not_mem_nil
  have hread := hread [] hnothing 250 8 (some (List.replicate 9 1))
  have hrun (d' : Driver (Device MemoryDisk)) : (d'.run []).2 = d' := rfl
  rw [hrun] at hread
  refine ⟨hnone, harray, (hread ?_).2⟩
  rw [Driver.refuseRead?, hmounted]
  rfl

/-- On the image of a session, which is as long as the array, a format that the user agrees to writes zeros over the array
and leaves the rest of the file and all other files. -/
theorem format_image {d : Driver (Device Image)} {answers : List Answer} (h : d.Ready)
    (hfile : d.device.backing.store.node? d.device.backing.place = some (.file d.device.backing.file))
    (hagreed : answers.head? = some (some true)) (hm : d.mounted) (hw : d.writable) :
    (format d answers).failure = none ∧
      (format d answers).driver.device.backing.file.bytes =
        List.replicate totalSize 0 ++ d.device.backing.file.bytes.drop totalSize ∧
      d.device.backing.Later (format d answers).driver.device.backing := by
  obtain ⟨hdriver, hfailure⟩ := format_of_agreed d hagreed
  obtain ⟨hok, hzeroed, -⟩ := zeroAll_done h.coherent.wellFormed hm (h.mounted.trans hm) hw
    (Backing.neverFails_of_ready h.backing)
  have hsize : totalSize ≤ d.device.backing.file.size := h.backing
  obtain ⟨calls, hcalls⟩ := calls_format d answers
  obtain ⟨hlater, hbeyond⟩ := Image.callAll_leaves hfile hsize calls
  rw [← hcalls] at hlater hbeyond
  have htake : (format d answers).driver.device.backing.file.bytes.take totalSize = List.replicate totalSize 0 := by
    rw [Image.take_bytes (hlater.size ▸ hsize), List.eq_replicate_iff]
    refine ⟨FlatArray.length_slice, fun b hb => ?_⟩
    obtain ⟨a, ha, rfl⟩ := List.mem_map.1 hb
    rw [Nat.zero_add, hdriver]
    exact (hzeroed.bytes_eq a).trans (if_pos (List.mem_range.1 ha))
  refine ⟨by rw [hfailure, hok]; rfl, ?_, hlater⟩
  rw [← htake, ← hbeyond.drop_bytes hlater.size, List.take_append_drop]

end DiskArray.Shell
