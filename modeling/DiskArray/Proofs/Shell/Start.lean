import DiskArray.Proofs.Boot
import DiskArray.Proofs.Files.Lookup
import DiskArray.Proofs.Shell.Turns

/-!
# How a session starts

A boot sends messages on its way and at last how it ended (`send_eq`). It may end at each of its stages, but all that
it writes is the image, which is opened and grown before the other stages (`state_run`). What is at the sidecar's path
then is what was there before, with one exception (`lookup_opened`), and the stages that follow depend on it and on the
configuration alone (`exists_run_iff`). All this holds of the start of a session, of which nothing follows a boot that
fails (`boot_outcome`). A sidecar that cannot be there fails the boot where its path is refused for any other reason than
that nothing is there (`boot_refuses_long_sidecar`).
-/

namespace DiskArray

namespace Boot

variable {config : Config} {store opened : Store} {image : Image} {signatures : SignatureTable} {place : Files.Place}

/-! ### Messages -/

/-- What is sent to the one who waits: a message on the way, or how the boot ended. -/
inductive Sent where
  | told (m : Message)
  | finished (result : Except Error ImageDriver)

/-- The progress in a message. -/
def Message.percent? : Message → Option Nat
  | .step _ => none
  | .progress percent => some percent

/-- What is sent while the cache is built. -/
def sendFinish (config : Config) (image : Image) (signatures : SignatureTable) : List Sent :=
  (cacheMessages config).map .told ++
    match (buildCache config).result with
    | .error e => [.finished (.error (.cache e))]
    | .ok _ => [.told (.progress 100), .finished (.ok (built config image signatures))]

/-- What is sent from the signatures on. -/
def sendSignatures (config : Config) (image : Image) : List Sent :=
  .told (.step .loadSignatures) ::
    match SignatureTable.load image.store (Signature.sidecarPath config.image) with
    | .error e => [.finished (.error (.signatures e))]
    | .ok signatures => .told (.progress 70) :: sendFinish config image signatures

/-- What a boot sends, in order. -/
def send (config : Config) (store : Store) : List Sent :=
  .told (.step .openImage) ::
    match store.openFile config.image with
    | .error e => [.finished (.error (.image e))]
    | .ok (place, opened) =>
      (allocateMessages ⟨opened, place⟩).map .told ++
        match allocate ⟨opened, place⟩ with
        | .error e => [.finished (.error (.image e))]
        | .ok image => .told (.progress 40) :: sendSignatures config image

/-- All that a report tells, and how it ends. -/
def Report.sent (r : Report) : List Sent := r.messages.map .told ++ [.finished r.result]

theorem sendFinish_eq : sendFinish config image signatures = (finish config image signatures).sent := by
  unfold sendFinish finish
  dsimp only
  cases (buildCache config).result with
  | error e => rfl
  | ok _ =>
    simp only [Report.sent, List.map_append, List.append_assoc]
    rfl

theorem sendSignatures_eq : sendSignatures config image = (loadSignatures config image).sent := by
  unfold sendSignatures loadSignatures
  cases SignatureTable.load image.store (Signature.sidecarPath config.image) with
  | error e => rfl
  | ok signatures =>
    dsimp only
    rw [sendFinish_eq]
    rfl

/-- How a boot ends is sent once, after all that it tells. -/
theorem send_eq : send config store = (run config store).sent := by
  unfold send run
  cases store.openFile config.image with
  | error e => rfl
  | ok found =>
    obtain ⟨place, opened⟩ := found
    dsimp only
    cases allocate ⟨opened, place⟩ with
    | error e =>
      simp only [Report.sent, Report.told, List.map_append, List.append_assoc]
      rfl
    | ok image =>
      dsimp only
      rw [sendSignatures_eq]
      simp only [Report.sent, Report.told, List.map_append, List.append_assoc]
      rfl

theorem percents_finish : (finish config image signatures).messages.filterMap Message.percent? <+: [100] := by
  have hcache : (cacheMessages config).filterMap Message.percent? = [] := by
    unfold cacheMessages
    split_ifs <;> rfl
  unfold finish
  dsimp only
  cases (buildCache config).result with
  | error e =>
    show (cacheMessages config).filterMap Message.percent? <+: [100]
    rw [hcache]
    exact List.nil_prefix
  | ok _ =>
    rw [List.filterMap_append, hcache]
    exact List.prefix_rfl

theorem percents_loadSignatures :
    (loadSignatures config image).messages.filterMap Message.percent? <+: [70, 100] := by
  unfold loadSignatures
  cases SignatureTable.load image.store (Signature.sidecarPath config.image) with
  | error e => exact List.nil_prefix
  | ok signatures => exact List.cons_prefix_cons.2 ⟨rfl, percents_finish⟩

theorem percents_run : (run config store).messages.filterMap Message.percent? <+: [40, 70, 100] := by
  unfold run
  cases store.openFile config.image with
  | error e => exact List.nil_prefix
  | ok found =>
    obtain ⟨place, opened⟩ := found
    have hallocate : (allocateMessages ⟨opened, place⟩).filterMap Message.percent? = [] := by
      unfold allocateMessages
      cases opened.sizeAt place with
      | error e => rfl
      | ok size =>
        dsimp only
        split_ifs <;> rfl
    simp only [Report.told, List.filterMap_append, hallocate]
    cases allocate ⟨opened, place⟩ with
    | error e => exact List.nil_prefix
    | ok image => exact List.cons_prefix_cons.2 ⟨rfl, percents_loadSignatures⟩

/-! ### The image -/

theorem state_finish : (finish config image signatures).state = image.store := by
  unfold finish
  dsimp only
  cases (buildCache config).result <;> rfl

theorem state_loadSignatures : (loadSignatures config image).state = image.store := by
  unfold loadSignatures
  cases SignatureTable.load image.store (Signature.sidecarPath config.image) with
  | error e => rfl
  | ok signatures => exact state_finish

/-- However a boot ends, the files are as they were once the image was grown, if it could be. -/
theorem state_run (hopen : store.openFile config.image = .ok (place, opened)) (h : Extendable ⟨opened, place⟩) :
    (run config store).state = (extended ⟨opened, place⟩).store := by
  rw [(run_of_openFile hopen h).2]
  exact state_loadSignatures

theorem state_run_of_error {e : FileError} (hopen : store.openFile config.image = .error e) :
    (run config store).state = store := by
  unfold run
  rw [hopen]
  rfl

theorem agreeBut_state (hopen : store.openFile config.image = .ok (place, opened)) :
    Store.AgreeBut place store (run config store).state ∧ ∃ f, (run config store).state.node? place = some (.file f) := by
  by_cases hextendable : Extendable ⟨opened, place⟩
  · obtain ⟨-, hagree, hfile⟩ := agreeBut_extended hopen
    rw [state_run hopen hextendable]
    exact ⟨hagree, _, hfile⟩
  · obtain ⟨-, hagree, hfile⟩ := Store.openFile_eq_ok hopen
    obtain ⟨e, told, hrefuses⟩ := exists_refuses hextendable
    rw [(run_of_refuses hopen hrefuses).2.1]
    exact ⟨hagree, hfile⟩

/-- The bytes of an image, none if there is no file. -/
def imageBytes (config : Config) (store : Store) : List UInt8 := (store.file? config.image).elim [] File.bytes

theorem bytes_opened (hopen : store.openFile config.image = .ok (place, opened)) :
    (Image.file ⟨opened, place⟩).bytes = imageBytes config store := by
  have hleads := (Store.openFile_eq_ok hopen).1
  rcases hleads.leaf with hnone | ⟨f, hf⟩
  · simp only [Store.openFile, hleads.resolve, hnone] at hopen
    obtain ⟨-, rfl⟩ := Prod.mk.inj (Except.ok.inj hopen)
    have hmade : (store.put place (.file .empty)).node? place = some (.file .empty) := Store.node?_put
    have hmissing : store.file? config.image = none := by simp only [Store.file?, hleads.lookup, hnone]
    rw [Image.file_of_node? hmade, imageBytes, hmissing]
    rfl
  · rw [hleads.openFile_of_file hf] at hopen
    obtain ⟨-, rfl⟩ := Prod.mk.inj (Except.ok.inj hopen)
    rw [Image.file_of_node? hf, imageBytes, hleads.file?_of_file hf]
    rfl

theorem bytes_extended (hopen : store.openFile config.image = .ok (place, opened)) :
    (extended ⟨opened, place⟩).file.bytes =
      imageBytes config store ++ List.replicate (totalSize - (imageBytes config store).length) 0 := by
  rw [← bytes_opened hopen, File.length_bytes]
  by_cases hshort : (Image.file ⟨opened, place⟩).size < totalSize
  · have hgrown : (extended ⟨opened, place⟩).file = (Image.file ⟨opened, place⟩).resize totalSize := by
      rw [extended, if_pos hshort]
      exact Store.content_modify _
    rw [hgrown, File.bytes_resize _ (Nat.le_of_lt hshort)]
  · rw [extended_of_le (Nat.le_of_not_lt hshort), Nat.sub_eq_zero_of_le (Nat.le_of_not_lt hshort), List.replicate_zero,
      List.append_nil]

theorem imageBytes_opened (hopen : store.openFile config.image = .ok (place, opened)) :
    imageBytes config opened = imageBytes config store := by
  obtain ⟨hleads, hagree, f, hf⟩ := Store.openFile_eq_ok hopen
  have hfile : opened.file? config.image = some f := (hleads.of_sameTree hagree.tree).file?_of_file hf
  rw [← bytes_opened hopen, Image.file_of_node? hf, imageBytes, hfile]
  rfl

/-! ### The sidecar -/

section Sidecar
variable {t : SignatureTable}
  (hother : ∀ place, store.LeadsTo config.image place → ¬ store.LeadsTo (Signature.sidecarPath config.image) place)
include hother

/-- What is found at the sidecar's path once the image is open was found there before, unless the path takes the image
for a directory: it led nowhere while there was no image, and is refused since there is one. -/
theorem lookup_opened (hopen : store.openFile config.image = .ok (place, opened)) :
    opened.lookup (Signature.sidecarPath config.image) = store.lookup (Signature.sidecarPath config.image) ∨
      store.lookup (Signature.sidecarPath config.image) = .error .notFound ∧
        opened.lookup (Signature.sidecarPath config.image) = .error .notDirectory := by
  obtain ⟨hleads, hagree, f, hf⟩ := Store.openFile_eq_ok hopen
  exact (hagree.lookup_cases hf (hother place hleads)).imp_right And.right

theorem lookup_state (hopen : store.openFile config.image = .ok (place, opened)) :
    (run config store).state.lookup (Signature.sidecarPath config.image) =
      opened.lookup (Signature.sidecarPath config.image) := by
  obtain ⟨hleads, hopened, f, hf⟩ := Store.openFile_eq_ok hopen
  obtain ⟨hagree, f', hf'⟩ := agreeBut_state hopen
  have hback : Store.AgreeBut place opened (run config store).state :=
    ⟨hopened.tree.symm.trans hagree.tree, fun other hne => (hagree.node? other hne).trans (hopened.node? other hne).symm⟩
  have hnot : ¬ opened.LeadsTo (Signature.sidecarPath config.image) place := fun h =>
    hother place hleads (h.of_sameTree hopened.tree.symm)
  rcases hback.lookup_cases hf' hnot with hsame | ⟨hnone, -⟩
  · exact hsame
  · rw [hf] at hnone
    cases hnone

theorem file?_state :
    (run config store).state.file? (Signature.sidecarPath config.image) =
      store.file? (Signature.sidecarPath config.image) := by
  cases hopen : store.openFile config.image with
  | error e => rw [state_run_of_error hopen]
  | ok found =>
    unfold Store.file?
    rw [lookup_state hother hopen]
    rcases lookup_opened hother hopen with hsame | ⟨hmissing, hrefused⟩
    · rw [hsame]
    · rw [hmissing, hrefused]

theorem isAt_opened_iff (hopen : store.openFile config.image = .ok (place, opened)) :
    t.IsAt opened (Signature.sidecarPath config.image) ↔
      t.IsAt store (Signature.sidecarPath config.image) ∧
        opened.lookup (Signature.sidecarPath config.image) ≠ .error .notDirectory := by
  rcases lookup_opened hother hopen with hsame | ⟨-, hrefused⟩
  · rw [SignatureTable.isAt_congr hsame]
    exact ⟨fun h => ⟨h, hsame ▸ h.lookup_ne⟩, And.left⟩
  · exact ⟨fun h => absurd hrefused h.lookup_ne, fun h => absurd hrefused h.2⟩

theorem load_extended_iff (hopen : store.openFile config.image = .ok (place, opened)) (h : Extendable ⟨opened, place⟩) :
    SignatureTable.load (extended ⟨opened, place⟩).store (Signature.sidecarPath config.image) = .ok t ↔
      t.IsAt opened (Signature.sidecarPath config.image) := by
  rw [SignatureTable.load_eq_ok_iff, ← state_run hopen h]
  exact SignatureTable.isAt_congr (lookup_state hother hopen)

end Sidecar

/-! ### The driver -/

theorem apply_create_unused (policy : EvictionPolicy) (n : Nat) :
    (Cache.unused policy).apply (.create n) =
      if Cache.CapacityOk n then .ok { Cache.unused policy with slots := List.replicate n none }
      else .error (.capacityOutOfBounds n) := rfl

theorem buildCache_eq_ok_iff :
    (buildCache config).result = .ok () ↔ ∀ n ∈ config.cacheEntries, Cache.CapacityOk n := by
  unfold buildCache
  cases config.cacheEntries with
  | none => exact iff_of_true rfl nofun
  | some n =>
    simp only [Cache.serve, apply_create_unused, Option.mem_some_iff, forall_eq']
    split_ifs with hcapacity
    · exact iff_of_true rfl hcapacity
    · exact iff_of_false nofun hcapacity

theorem state_buildCache (h : (buildCache config).result = .ok ()) :
    (buildCache config).state =
      { Cache.unused config.policy with slots := List.replicate (config.cacheEntries.getD 0) none } := by
  have hcapacity := buildCache_eq_ok_iff.1 h
  unfold buildCache
  cases hentries : config.cacheEntries with
  | none => rfl
  | some n =>
    simp only [Cache.serve, apply_create_unused, if_pos (hcapacity n hentries)]
    rfl

/-- In an empty directory a boot fails over a sidecar whose name is too long, though the image can be made and extended
and no other file is there. -/
theorem refuses_of_long (config : Config) (himage : Files.IsName config.image)
    (hshort : config.image.utf8ByteSize ≤ Files.maxName)
    (hlong : Files.maxName < config.image.utf8ByteSize + 4) :
    (∀ q, Store.empty.LeadsTo config.image q → ¬ Store.empty.LeadsTo (Signature.sidecarPath config.image) q) ∧
      (∃ opened, Store.empty.openFile config.image = .ok (["home", config.image], opened) ∧
        Extendable ⟨opened, ["home", config.image]⟩ ∧
        ∀ other f, opened.node? other = some (.file f) → other = ["home", config.image]) ∧
      (run config .empty).result = .error (.signatures (.opening .nameTooLong)) := by
  have hlookup (s : Store) : s.lookup (Signature.sidecarPath config.image) = .error .nameTooLong := by
    have hsize : (Signature.sidecarPath config.image).utf8ByteSize = config.image.utf8ByteSize + 4 :=
      String.utf8ByteSize_append
    have hshort : config.image.utf8ByteSize ≤ 255 := hshort
    refine Store.lookup_of_long (Signature.isName_sidecarPath himage) (hsize ▸ hlong) ?_
    show (Signature.sidecarPath config.image).utf8ByteSize < 4096
    omega
  have hleads : Store.empty.LeadsTo config.image ["home", config.image] :=
    Store.leadsTo_of_isName himage hshort (Or.inl Store.node?_empty_of_name)
  obtain ⟨opened, hopen⟩ := hleads.exists_openFile
  obtain ⟨-, hagree, -⟩ := Store.openFile_eq_ok hopen
  have hextendable : Extendable ⟨opened, ["home", config.image]⟩ := extendable_of_openFile hopen rfl
  refine ⟨fun q _ hq => ?_, ⟨opened, hopen, hextendable, fun other f hf => ?_⟩, ?_⟩
  · have hfound := hq.lookup
    rw [hlookup] at hfound
    rcases hq.leaf with hnone | ⟨f, hf⟩
    · rw [hnone] at hfound
      cases hfound
    · rw [hf] at hfound
      cases hfound
  · by_contra hne
    rw [hagree.node? other hne] at hf
    exact Store.node?_empty_ne_file hf
  · rw [(run_of_openFile hopen hextendable).1]
    simp only [loadSignatures, SignatureTable.load, hlookup]
    rfl

/-- A boot succeeds if none of its stages fails. -/
theorem exists_run_iff
    (hother : ∀ place, store.LeadsTo config.image place → ¬ store.LeadsTo (Signature.sidecarPath config.image) place) :
    (∃ d, (run config store).result = .ok d) ↔
      (∃ place opened, store.openFile config.image = .ok (place, opened) ∧ Extendable ⟨opened, place⟩ ∧
        ∃ t : SignatureTable, t.IsAt opened (Signature.sidecarPath config.image)) ∧
      ∀ n ∈ config.cacheEntries, Cache.CapacityOk n := by
  rw [← buildCache_eq_ok_iff]
  constructor
  · rintro ⟨d, hrun⟩
    obtain ⟨place, opened, signatures, hopen, hextendable, hload, hcache, -⟩ := run_eq_ok hrun
    exact ⟨⟨place, opened, hopen, hextendable, signatures, (load_extended_iff hother hopen hextendable).1 hload⟩, hcache⟩
  · rintro ⟨⟨place, opened, hopen, hextendable, signatures, hat⟩, hcache⟩
    exact ⟨_, run_ok hopen hextendable ((load_extended_iff hother hopen hextendable).2 hat) hcache⟩

end Boot

namespace Shell

open Boot

/-- However a boot ends, it sends that once and last, and the progress it tells rises. It succeeds exactly if the image
can be opened and extended, the sidecar that is found then is none or can be decoded, and the cache, if one is
configured, may have its capacity. The sidecar is what it was at first, but for one whose path takes the image for a
directory. An image that was opened and extended keeps its bytes, and zeros follow them up to the size of the array; one
that cannot be extended ends the boot and keeps its bytes. No other file is written, the sidecar in particular. The
driver of a boot that succeeds is in its first state, with the signatures of the sidecar and an empty cache. A boot that
fails ends the session before there is a prompt. -/
theorem boot_outcome (config : Config) (store : Store)
    (hother : ∀ place, store.LeadsTo config.image place → ¬ store.LeadsTo (Signature.sidecarPath config.image) place) :
    let report := Boot.run config store
    let sidecar := Signature.sidecarPath config.image
    let old := imageBytes config store
    (send config store = report.messages.map .told ++ [.finished report.result] ∧
      (report.messages.filterMap Message.percent?).Pairwise (· < ·)) ∧
    ((∃ d, report.result = .ok d) ↔
      (∃ place opened, store.openFile config.image = .ok (place, opened) ∧ Extendable ⟨opened, place⟩ ∧
        ∃ t : SignatureTable, t.IsAt opened sidecar) ∧
      ∀ n ∈ config.cacheEntries, 2 ≤ n ∧ n ≤ 4096) ∧
    (∀ place opened, store.openFile config.image = .ok (place, opened) →
      (∀ t : SignatureTable, t.IsAt opened sidecar ↔
        t.IsAt store sidecar ∧ opened.lookup sidecar ≠ .error .notDirectory) ∧
      (Extendable ⟨opened, place⟩ → ∃ f, report.state.file? config.image = some f ∧
        f.bytes.length = max old.length totalSize ∧ f.bytes = old ++ List.replicate (totalSize - old.length) 0) ∧
      (¬ Extendable ⟨opened, place⟩ → ∃ e told, Refuses ⟨opened, place⟩ e told ∧
        report.result = .error (.image e) ∧ report.messages = .step .openImage :: told ∧
        imageBytes config report.state = old) ∧
      ∀ other, other ≠ place → report.state.node? other = store.node? other) ∧
    (∀ e, store.openFile config.image = .error e → report.state = store) ∧
    report.state.file? sidecar = store.file? sidecar ∧
    (∀ d, report.result = .ok d →
      ¬ d.mounted ∧ ¬ d.writable ∧ ¬ d.device.mounted ∧ ¬ d.device.writable ∧ d.device.tally = .zero ∧
        d.device.signatures.IsAt store sidecar ∧ d.device.backing.store = report.state ∧
        d.cache = {
          policy := config.policy, slots := List.replicate (config.cacheEntries.getD 0) none
          clock := 0, queries := 0, hits := 0 }) ∧
    (∀ e, report.result = .error e → ∀ surroundings answers events,
      session config surroundings answers store events = {
        start := bootBanner ++ .logged report.log ++ .line (errorLine e.message)
        booted := false, steps := [], store := report.state }) := by
  intro report sidecar old
  refine ⟨⟨send_eq, ?_⟩, exists_run_iff hother, ?_, fun e => state_run_of_error, file?_state hother, ?_, ?_⟩
  · exact List.Pairwise.sublist percents_run.sublist (by decide)
  · intro place opened hopen
    obtain ⟨hagree, -⟩ := agreeBut_state hopen
    refine ⟨fun t => isAt_opened_iff hother hopen, fun hextendable => ?_, fun hextendable => ?_, hagree.node?⟩
    · obtain ⟨-, hfiles, hfile⟩ := agreeBut_extended hopen
      have hleads := (Store.openFile_eq_ok hopen).1
      have hstate : report.state = (extended ⟨opened, place⟩).store := state_run hopen hextendable
      have hbytes := bytes_extended hopen
      rw [hstate]
      refine ⟨_, (hleads.of_sameTree hfiles.tree).file?_of_file hfile, ?_, hbytes⟩
      rw [hbytes, List.length_append, List.length_replicate]
      show (imageBytes config store).length + _ = max (imageBytes config store).length _
      omega
    · obtain ⟨e, told, hrefuses⟩ := exists_refuses hextendable
      obtain ⟨hresult, hstate, hmessages⟩ := run_of_refuses hopen hrefuses
      refine ⟨e, told, hrefuses, hresult, hmessages, ?_⟩
      show imageBytes config (Boot.run config store).state = imageBytes config store
      rw [hstate, imageBytes_opened hopen]
  · intro d hd
    obtain ⟨place, opened, signatures, hopen, hextendable, hload, hcache, rfl⟩ := run_eq_ok hd
    have hat := (load_extended_iff hother hopen hextendable).1 hload
    exact ⟨nofun, nofun, nofun, nofun, rfl, ((isAt_opened_iff hother hopen).1 hat).1,
      (state_run hopen hextendable).symm, state_buildCache hcache⟩
  · intro e he surroundings answers events
    have he : (Boot.run config store).result = .error e := he
    simp only [session, start, he]
    rfl

/-- A short image is grown although the cache cannot be had, and one that is a device ends the boot. -/
theorem boot_outcome_of_failures :
    let short := Store.empty.put ["home", "jbod.img"] (.file (.ofBytes [1, 2, 3]))
    let device : Store := { short with refusals := fun _ => { resize := some (.other "Invalid argument" 22) } }
    let report := Boot.run { cacheEntries := some 1 } short
    let report' := Boot.run {} device
    (¬ ∃ d, report.result = .ok d) ∧
      (∃ f, report.state.file? "jbod.img" = some f ∧ f.bytes = [1, 2, 3] ++ List.replicate (totalSize - 3) 0) ∧
      report'.result = .error (.image (.other "Invalid argument" 22)) ∧
      report'.messages = [.step .openImage, .step .allocate] ∧
      imageBytes {} report'.state = [1, 2, 3] := by
  intro short device report report'
  have hfile : short.node? ["home", "jbod.img"] = some (.file (.ofBytes [1, 2, 3])) := rfl
  have himage : short.LeadsTo "jbod.img" ["home", "jbod.img"] :=
    Store.leadsTo_of_isName Store.isName_image (by decide) (Or.inr ⟨_, hfile⟩)
  have hsidecar : short.LeadsTo "jbod.img.sig" ["home", "jbod.img.sig"] :=
    Store.leadsTo_of_isName Store.isName_sidecar (by decide) (Or.inl rfl)
  have himage' : device.LeadsTo "jbod.img" ["home", "jbod.img"] :=
    Store.leadsTo_of_isName Store.isName_image (by decide) (Or.inr ⟨_, hfile⟩)
  have hsidecar' : device.LeadsTo "jbod.img.sig" ["home", "jbod.img.sig"] :=
    Store.leadsTo_of_isName Store.isName_sidecar (by decide) (Or.inl rfl)
  have hother {s : Store} (h : s.LeadsTo "jbod.img" ["home", "jbod.img"])
      (h' : s.LeadsTo "jbod.img.sig" ["home", "jbod.img.sig"]) (place : Files.Place) (hplace : s.LeadsTo "jbod.img" place) :
      ¬ s.LeadsTo "jbod.img.sig" place := by
    intro hplace'
    exact absurd ((h.unique hplace).trans (hplace'.unique h')) (by decide)
  have hold {config : Config} {s : Store} (hconfig : config.image = "jbod.img")
      (h : s.LeadsTo "jbod.img" ["home", "jbod.img"])
      (hf : s.node? ["home", "jbod.img"] = some (.file (.ofBytes [1, 2, 3]))) : imageBytes config s = [1, 2, 3] := by
    rw [imageBytes, hconfig, h.file?_of_file hf]
    exact File.bytes_ofBytes _
  obtain ⟨-, hsucceeds, hopened, -⟩ := boot_outcome { cacheEntries := some 1 } short (hother himage hsidecar)
  obtain ⟨-, hextended, -⟩ := hopened _ _ (himage.openFile_of_file hfile)
  obtain ⟨f, hf, -, hbytes⟩ := hextended ⟨rfl, fun _ => rfl⟩
  obtain ⟨-, -, hopened', -⟩ := boot_outcome {} device (hother himage' hsidecar')
  obtain ⟨-, -, hrefused, -⟩ := hopened' _ _ (himage'.openFile_of_file hfile)
  have hshort : (Image.file ⟨device, ["home", "jbod.img"]⟩).size < totalSize := by
    rw [Image.file_of_node? (m := ⟨device, ["home", "jbod.img"]⟩) hfile]
    decide
  obtain ⟨e, told, hrefuses, hresult, hmessages, hkept⟩ := hrefused fun h => by cases h.resize hshort
  refine ⟨fun hok => ?_, ⟨f, hf, ?_⟩, ?_⟩
  · exact absurd ((hsucceeds.1 hok).2 1 rfl) (by decide)
  · rw [hold rfl himage hfile] at hbytes
    exact hbytes
  · rw [hold rfl himage' hfile] at hkept
    cases hrefuses with
    | measure hmeasure => cases hmeasure
    | resize _ _ hresize =>
      cases hresize
      exact ⟨hresult, hmessages, hkept⟩

/-- Beside an image with a name of 252 letters there can be no sidecar, for the sidecar's name would be too long. In an
empty directory such an image is made and extended and is the only file there is, and the boot fails over the name. -/
theorem boot_refuses_long_sidecar :
    let image := String.ofList (List.replicate 252 'x')
    let config : Config := { image }
    let place : Files.Place := ["home", image]
    (∀ q, Store.empty.LeadsTo image q → ¬ Store.empty.LeadsTo (Signature.sidecarPath image) q) ∧
      (∃ opened, Store.empty.openFile image = .ok (place, opened) ∧ Extendable ⟨opened, place⟩ ∧
        ∀ other f, opened.node? other = some (.file f) → other = place) ∧
      config.cacheEntries = none ∧
      (Boot.run config .empty).result = .error (.signatures (.opening .nameTooLong)) := by
  intro image config place
  obtain ⟨himage, hsize⟩ := Files.isName_replicate (n := 252) (by decide)
  have hsize : config.image.utf8ByteSize = 252 := hsize
  obtain ⟨hother, hopened, hresult⟩ := refuses_of_long config himage (hsize ▸ by decide) (hsize ▸ by decide)
  exact ⟨hother, hopened, rfl, hresult⟩

end Shell

end DiskArray
