import DiskArray.Boot
import DiskArray.Proofs.Backing.Image
import DiskArray.Proofs.Driver.Lockstep
import DiskArray.Proofs.Signature.Sidecar

/-!
# The driver after a boot

A boot that succeeds gives a driver that is ready for use. Its device comes from the image and the sidecar alone,
and only its cache depends on what is configured for the cache (`Boot.run_eq_ok`). The image that was opened has to be
long enough by then, or such that it can be made so (`Boot.Extendable`). No file but the image was written
(`Boot.Booted`), and an image that is long enough is not written either (`Boot.run_of_file`).
-/

namespace DiskArray.Boot

variable {config : Config} {store : Store} {image : Image} {signatures : SignatureTable} {d : ImageDriver}

/-- The driver over an image, with the cache that is configured. -/
def built (config : Config) (image : Image) (signatures : SignatureTable) : ImageDriver :=
  { device := { backing := image, signatures }, cache := (buildCache config).state }

theorem finish_eq_ok (h : (finish config image signatures).result = .ok d) :
    (buildCache config).result = .ok () ∧ d = built config image signatures := by
  unfold finish at h
  dsimp only at h
  split at h
  · cases h
  · rename_i hcache
    exact ⟨hcache, (Except.ok.inj h).symm⟩

theorem loadSignatures_eq_ok (h : (loadSignatures config image).result = .ok d) :
    ∃ signatures, SignatureTable.load image.store (Signature.sidecarPath config.image) = .ok signatures ∧
      (buildCache config).result = .ok () ∧ d = built config image signatures := by
  unfold loadSignatures at h
  cases hload : SignatureTable.load image.store (Signature.sidecarPath config.image) with
  | error e =>
    rw [hload] at h
    cases h
  | ok signatures =>
    rw [hload] at h
    exact ⟨signatures, rfl, finish_eq_ok h⟩

/-! ### The image -/

/-- The length of the image can be told and, if it is short, changed. -/
structure Extendable (image : Image) : Prop where
  measure : (image.store.refusals image.place).measure = none
  resize : image.file.size < totalSize → (image.store.refusals image.place).resize = none

/-- Why an image cannot be extended, and what is told by then: that it is short, if its length can be told. -/
inductive Refuses (image : Image) : FileError → List Message → Prop where
  | measure {e : FileError} : (image.store.refusals image.place).measure = some e → Refuses image e []
  | resize {e : FileError} : (image.store.refusals image.place).measure = none → image.file.size < totalSize →
      (image.store.refusals image.place).resize = some e → Refuses image e [.step .allocate]

/-- The image after it was grown, if it was short. -/
def extended (image : Image) : Image :=
  if image.file.size < totalSize then
    { image with store := image.store.modify image.place (·.resize totalSize) }
  else image

theorem extendable_of_openFile {place : Files.Place} {opened : Store}
    (hopen : store.openFile config.image = .ok (place, opened)) (h : store.refusals place = {}) :
    Extendable ⟨opened, place⟩ := by
  have hnothing : opened.refusals place = {} := by rw [(Store.openFile_eq_ok hopen).2.1.tree.refusals, h]
  exact ⟨congrArg Files.Refusals.measure hnothing, fun _ => congrArg Files.Refusals.resize hnothing⟩

theorem allocate_of_extendable (h : Extendable image) : allocate image = .ok (extended image) := by
  simp only [allocate, Store.sizeAt, h.measure]
  rw [extended, Image.file]
  split_ifs with hshort
  · simp only [grow, Store.resizeAt, h.resize hshort]
  · rfl

theorem exists_refuses (h : ¬ Extendable image) : ∃ e told, Refuses image e told := by
  cases hmeasure : (image.store.refusals image.place).measure with
  | some e => exact ⟨e, _, .measure hmeasure⟩
  | none =>
    by_cases hshort : image.file.size < totalSize
    · cases hresize : (image.store.refusals image.place).resize with
      | some e => exact ⟨e, _, .resize hmeasure hshort hresize⟩
      | none => exact absurd ⟨hmeasure, fun _ => hresize⟩ h
    · exact absurd ⟨hmeasure, fun hlt => absurd hlt hshort⟩ h

theorem allocate_of_refuses {e : FileError} {told : List Message} (h : Refuses image e told) :
    allocate image = .error e ∧ allocateMessages image = told := by
  unfold allocate allocateMessages
  cases h with
  | measure hmeasure =>
    simp only [Store.sizeAt, hmeasure]
    exact ⟨trivial, trivial⟩
  | resize hmeasure hshort hresize =>
    have hsize : (image.store.content image.place).size < totalSize := hshort
    simp only [Store.sizeAt, hmeasure, if_pos hsize, grow, Store.resizeAt, hresize]
    exact ⟨trivial, trivial⟩

theorem extended_of_le (h : totalSize ≤ image.file.size) : extended image = image := if_neg (Nat.not_lt.2 h)

theorem ready_extended (image : Image) : ReliableBacking.Ready (extended image) := by
  unfold extended
  split_ifs with hshort
  · have hfile : Image.file { image with store := image.store.modify image.place (·.resize totalSize) } =
        image.file.resize totalSize := Store.content_modify _
    exact Nat.le_of_eq (congrArg File.size hfile).symm
  · exact Nat.le_of_not_lt hshort

/-! ### The whole boot -/

theorem run_of_openFile {place : Files.Place} {opened : Store}
    (hopen : store.openFile config.image = .ok (place, opened)) (hextendable : Extendable ⟨opened, place⟩) :
    (run config store).result = (loadSignatures config (extended ⟨opened, place⟩)).result ∧
      (run config store).state = (loadSignatures config (extended ⟨opened, place⟩)).state := by
  simp only [run, Report.told, hopen, allocate_of_extendable hextendable]
  exact ⟨trivial, trivial⟩

/-- A boot whose image cannot be extended ends there, and leaves the files as they were when the image was open. -/
theorem run_of_refuses {place : Files.Place} {opened : Store} {e : FileError} {told : List Message}
    (hopen : store.openFile config.image = .ok (place, opened)) (h : Refuses ⟨opened, place⟩ e told) :
    (run config store).result = .error (.image e) ∧ (run config store).state = opened ∧
      (run config store).messages = .step .openImage :: told := by
  obtain ⟨he, htold⟩ := allocate_of_refuses h
  simp only [run, Report.told, hopen, he, htold, Report.failed, List.append_nil]
  exact ⟨rfl, rfl, rfl⟩

theorem run_eq_ok (h : (run config store).result = .ok d) :
    ∃ place opened signatures, store.openFile config.image = .ok (place, opened) ∧ Extendable ⟨opened, place⟩ ∧
      SignatureTable.load (extended ⟨opened, place⟩).store (Signature.sidecarPath config.image) = .ok signatures ∧
      (buildCache config).result = .ok () ∧ d = built config (extended ⟨opened, place⟩) signatures := by
  cases hopen : store.openFile config.image with
  | error e =>
    unfold run at h
    rw [hopen] at h
    cases h
  | ok found =>
    obtain ⟨place, opened⟩ := found
    by_cases hextendable : Extendable ⟨opened, place⟩
    · rw [(run_of_openFile hopen hextendable).1] at h
      obtain ⟨signatures, hload, hd⟩ := loadSignatures_eq_ok h
      exact ⟨place, opened, signatures, rfl, hextendable, hload, hd⟩
    · obtain ⟨e, told, hrefuses⟩ := exists_refuses hextendable
      rw [(run_of_refuses hopen hrefuses).1] at h
      cases h

theorem run_ok {place : Files.Place} {opened : Store} (hopen : store.openFile config.image = .ok (place, opened))
    (hextendable : Extendable ⟨opened, place⟩)
    (hload : SignatureTable.load (extended ⟨opened, place⟩).store (Signature.sidecarPath config.image) =
      .ok signatures) (hcache : (buildCache config).result = .ok ()) :
    (run config store).result = .ok (built config (extended ⟨opened, place⟩) signatures) := by
  rw [(run_of_openFile hopen hextendable).1]
  simp only [loadSignatures, Report.told, hload, finish, hcache]
  rfl

theorem coherent_buildCache (config : Config) (blocks : Nat → Block) :
    (buildCache config).state.Coherent blocks := by
  have hunused := Cache.Coherent.unused config.policy blocks
  unfold buildCache
  cases config.cacheEntries with
  | none => exact hunused
  | some n => exact hunused.serve (.create n)

theorem ready_built : (built config (extended image) signatures).Ready :=
  ⟨ready_extended image, rfl, coherent_buildCache config _⟩

theorem agree_run {config' : Config} {d' : ImageDriver} (himage : config.image = config'.image)
    (h : (run config store).result = .ok d) (h' : (run config' store).result = .ok d') :
    d.Agree (fun _ _ => True) d' := by
  obtain ⟨place, opened, signatures, hopen, -, hload, -, rfl⟩ := run_eq_ok h
  obtain ⟨place', opened', signatures', hopen', -, hload', -, rfl⟩ := run_eq_ok h'
  rw [← himage, hopen] at hopen'
  obtain ⟨rfl, rfl⟩ := Prod.mk.inj (Except.ok.inj hopen')
  rw [← himage, hload] at hload'
  obtain rfl := Except.ok.inj hload'
  exact ⟨ready_built, ready_built, rfl, rfl, rfl, rfl, trivial⟩

/-! ### The files of a boot -/

theorem agreeBut_extended {path : String} {place : Files.Place} {opened : Store}
    (hopen : store.openFile path = .ok (place, opened)) :
    (extended ⟨opened, place⟩).place = place ∧ Store.AgreeBut place store (extended ⟨opened, place⟩).store ∧
      (extended ⟨opened, place⟩).store.node? place = some (.file (extended ⟨opened, place⟩).file) := by
  obtain ⟨hleads, hagree, f, hf⟩ := Store.openFile_eq_ok hopen
  unfold extended
  split_ifs
  · exact ⟨rfl, hagree.trans (Store.agreeBut_put (Or.inr ⟨f, hf⟩) _), Image.isFile_modify (m := ⟨opened, place⟩) _⟩
  · refine ⟨rfl, hagree, ?_⟩
    rw [Image.file_of_node? hf]
    exact hf

/-- The driver of a boot that succeeded, and the files it left. -/
structure Booted (config : Config) (store : Store) (d : ImageDriver) : Prop where
  leadsTo : store.LeadsTo config.image d.device.backing.place
  files : Store.AgreeBut d.device.backing.place store d.device.backing.store
  measure : (store.refusals d.device.backing.place).measure = none
  isFile : d.device.backing.store.node? d.device.backing.place = some (.file d.device.backing.file)
  size_le : totalSize ≤ d.device.backing.file.size
  load : SignatureTable.load d.device.backing.store (Signature.sidecarPath config.image) = .ok d.device.signatures
  cache : (buildCache config).result = .ok ()

theorem Booted.of_run (h : (run config store).result = .ok d) : Booted config store d := by
  obtain ⟨place, opened, signatures, hopen, hextendable, hload, hcache, rfl⟩ := run_eq_ok h
  obtain ⟨hleads, hopened, -⟩ := Store.openFile_eq_ok hopen
  obtain ⟨hplace, hfiles, hisFile⟩ := agreeBut_extended hopen
  have hbacking : (built config (extended ⟨opened, place⟩) signatures).device.backing.place = place := hplace
  have hmeasure := hextendable.measure
  rw [hopened.tree.refusals] at hmeasure
  refine ⟨?_, ?_, ?_, ?_, ready_extended _, hload, hcache⟩
  · rwa [hbacking]
  · rwa [hbacking]
  · rwa [hbacking]
  · rwa [hbacking]

theorem exists_run {place other : Files.Place} (himage : store.LeadsTo config.image place)
    (hrefusals : store.refusals place = {})
    (hsidecar : store.LeadsTo (Signature.sidecarPath config.image) other) (hne : other ≠ place)
    (hload : SignatureTable.load store (Signature.sidecarPath config.image) = .ok signatures)
    (hcache : (buildCache config).result = .ok ()) : ∃ d, (run config store).result = .ok d := by
  obtain ⟨opened, hopen⟩ := himage.exists_openFile
  obtain ⟨-, hfiles, -⟩ := agreeBut_extended hopen
  have hload' : SignatureTable.load (extended ⟨opened, place⟩).store (Signature.sidecarPath config.image) =
      .ok signatures := by
    rw [SignatureTable.load_congr hsidecar (hsidecar.of_sameTree hfiles.tree) (hfiles.node? other hne), hload]
  exact ⟨_, run_ok hopen (extendable_of_openFile hopen hrefusals) hload' hcache⟩

/-- An image that is there and long enough is opened as it is, if its length can be told. -/
theorem run_of_file {place : Files.Place} {f : File} (hleads : store.LeadsTo config.image place)
    (hf : store.node? place = some (.file f)) (hsize : totalSize ≤ f.size)
    (hmeasure : (store.refusals place).measure = none)
    (hload : SignatureTable.load store (Signature.sidecarPath config.image) = .ok signatures)
    (hcache : (buildCache config).result = .ok ()) :
    (run config store).result = .ok (built config ⟨store, place⟩ signatures) := by
  have hlong : totalSize ≤ (Image.file ⟨store, place⟩).size := by rwa [Image.file_of_node? hf]
  have hextended := extended_of_le hlong
  have hrun := run_ok (hleads.openFile_of_file hf) ⟨hmeasure, fun hlt => absurd hlt (Nat.not_lt.2 hlong)⟩
    (by rwa [hextended]) hcache
  rwa [hextended] at hrun

/-! ### An empty directory -/

theorem run_empty (himage : config.image = "jbod.img") (hcache : (buildCache config).result = .ok ()) :
    ∃ d, (run config .empty).result = .ok d := by
  have hsidecar : Signature.sidecarPath config.image = "jbod.img.sig" := by
    rw [himage]
    rfl
  have hleads : Store.empty.LeadsTo config.image ["home", "jbod.img"] := by
    rw [himage]
    exact Store.leadsTo_image
  have hleads' : Store.empty.LeadsTo (Signature.sidecarPath config.image) ["home", "jbod.img.sig"] := by
    rw [hsidecar]
    exact Store.leadsTo_sidecar
  have hnone : Store.empty.node? ["home", "jbod.img.sig"] = none := rfl
  have hload : SignatureTable.load .empty (Signature.sidecarPath config.image) = .ok .empty := by
    simp only [SignatureTable.load, hleads'.lookup, hnone]
  exact exists_run hleads rfl hleads' (by decide) hload hcache

end DiskArray.Boot
