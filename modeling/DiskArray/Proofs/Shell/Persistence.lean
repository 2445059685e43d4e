import DiskArray.Proofs.Files.File
import DiskArray.Proofs.Shell.History
import DiskArray.Proofs.Signature.Sidecar

/-!
# Sessions persist

What a session leaves on file is what it had in memory: the next boot finds the array and the signatures as they were
when the session ended, and a session in which nothing is done leaves the files as they are (`sessions_persist`).
Signatures are saved only if there are any. Where there are none no sidecar was written, and the one that was read
at first, if there is one, had none either.
-/

namespace DiskArray.Shell

namespace Session

/-! ### Memory and files -/

/-- The session has its image open, at one place where it can be measured, and its sidecar can be written, at another
one. As long as no block is signed the sidecar tells so. -/
structure OnFile (s : Session) (other : Files.Place) : Prop where
  image : s.store.LeadsTo s.config.image s.driver.device.backing.place
  isFile : s.store.node? s.driver.device.backing.place = some (.file s.driver.device.backing.file)
  size_le : totalSize ≤ s.driver.device.backing.file.size
  measure : (s.store.refusals s.driver.device.backing.place).measure = none
  sidecar : s.store.LeadsTo (Signature.sidecarPath s.config.image) other
  ne : other ≠ s.driver.device.backing.place
  unsigned : s.driver.device.signatures.isEmpty →
    SignatureTable.load s.store (Signature.sidecarPath s.config.image) = .ok s.driver.device.signatures
  cache : (Boot.buildCache s.config).result = .ok ()

variable {s s' : Session} {other : Files.Place}

theorem OnFile.leads (h : s.OnFile other) (hs : s.Leads s') : s'.OnFile other := by
  obtain ⟨hplace, hfiles, hisFile, hsize⟩ := hs.later h.isFile h.size_le
  have hsidecar := h.sidecar.of_sameTree hfiles.tree
  refine ⟨?_, ?_, ?_, ?_, ?_, ?_, ?_, ?_⟩
  · rw [hs.config, hplace]
    exact h.image.of_sameTree hfiles.tree
  · rw [hplace]
    exact hisFile
  · rw [hsize]
    exact h.size_le
  · rw [hplace]
    exact hfiles.tree.refusals ▸ h.measure
  · rw [hs.config]
    exact hsidecar
  · rw [hplace]
    exact h.ne
  · intro hempty
    have hbefore := hs.isEmpty hempty
    rw [hs.config, SignatureTable.eq_empty_of_isEmpty hempty, ← SignatureTable.eq_empty_of_isEmpty hbefore,
      ← h.unsigned hbefore]
    exact SignatureTable.load_congr h.sidecar hsidecar (hfiles.node? other h.ne)
  · rw [hs.config]
    exact h.cache

end Session

/-- What a session leaves: the array in the image, at one place where it can be measured, and the signatures at another
one. Where there are none, nothing is said of the sidecar but that it loads as such. -/
structure Left (config : Config) (files : Store) (place other : Files.Place) (f : File) (signatures : SignatureTable) :
    Prop where
  image : files.LeadsTo config.image place
  isFile : files.node? place = some (.file f)
  size_le : totalSize ≤ f.size
  measure : (files.refusals place).measure = none
  sidecar : files.LeadsTo (Signature.sidecarPath config.image) other
  load : SignatureTable.load files (Signature.sidecarPath config.image) = .ok signatures
  saved : ¬ signatures.isEmpty → files.node? other = some (.file (.ofBytes signatures.encode))
  cache : (Boot.buildCache config).result = .ok ()

namespace Left

variable {config : Config} {files later : Store} {place other q : Files.Place} {f : File} {signatures : SignatureTable}

theorem of_agreeBut (h : Left config files place other f signatures) (hagree : Store.AgreeBut q files later)
    (hplace : q ≠ place) (hother : q ≠ other) : Left config later place other f signatures where
  image := h.image.of_sameTree hagree.tree
  isFile := (hagree.node? place hplace.symm).trans h.isFile
  size_le := h.size_le
  measure := hagree.tree.refusals ▸ h.measure
  sidecar := h.sidecar.of_sameTree hagree.tree
  load := by
    rw [← h.load]
    exact SignatureTable.load_congr h.sidecar (h.sidecar.of_sameTree hagree.tree) (hagree.node? other hother.symm)
  saved hsigned := (hagree.node? other hother.symm).trans (h.saved hsigned)
  cache := h.cache

theorem run_boot (h : Left config files place other f signatures) :
    (Boot.run config files).result = .ok (Boot.built config ⟨files, place⟩ signatures) :=
  Boot.run_of_file h.image h.isFile h.size_le h.measure h.load h.cache

theorem blockAt_image (h : Left config files place other f signatures) : blockAt (⟨files, place⟩ : Image) = f.blockAt := by
  rw [Image.blockAt_eq, Image.file_of_node? (m := ⟨files, place⟩) h.isFile]

theorem store_idle (h : Left config files place other f signatures) (surroundings : Surroundings)
    (answers : List Answer) : (session config surroundings answers files [.input .endOfInput]).store = files := by
  rw [(session_of_start (start_of_run h.run_boot surroundings answers) _).2.2, Session.run_eq_shutdown]
  by_cases hempty : signatures.isEmpty
  · exact Session.store_shutdown_of_isEmpty hempty
  · have hsave := h.sidecar.save signatures.encode
    rw [Store.put_file (h.saved hempty)] at hsave
    exact Session.store_shutdown_of_save hempty hsave

end Left

namespace Session

variable {s : Session} {other : Files.Place}

theorem OnFile.left (h : s.OnFile other) :
    Left s.config s.shutdown.session.store s.driver.device.backing.place other s.driver.device.backing.file
      s.driver.device.signatures := by
  by_cases hempty : s.driver.device.signatures.isEmpty
  · rw [store_shutdown_of_isEmpty hempty]
    exact ⟨h.image, h.isFile, h.size_le, h.measure, h.sidecar, h.unsigned hempty, fun hsigned => absurd hempty hsigned,
      h.cache⟩
  · have hsave := h.sidecar.save s.driver.device.signatures.encode
    have hagree := h.sidecar.agreeBut_put (.ofBytes s.driver.device.signatures.encode)
    rw [store_shutdown_of_save hempty hsave]
    exact ⟨h.image.of_sameTree hagree.tree, (hagree.node? _ h.ne.symm).trans h.isFile, h.size_le, h.measure,
      h.sidecar.of_sameTree hagree.tree, SignatureTable.load_of_save hsave, fun _ => Store.node?_put, h.cache⟩

end Session

/-! ### Sessions -/

theorem Session.OnFile.of_start {config : Config} {surroundings : Surroundings} {answers : List Answer} {store : Store}
    {s : Session} (hother : ¬ store.SameFile config.image (Signature.sidecarPath config.image))
    (hwritable : ∃ opened, store.openFile (Signature.sidecarPath config.image) = .ok opened)
    (hs : (start config surroundings answers store).session = .ok s) : s.config = config ∧ ∃ other, s.OnFile other := by
  obtain ⟨d, hrun, rfl⟩ := start_eq_ok hs
  have hbooted := Boot.Booted.of_run hrun
  obtain ⟨⟨other, opened⟩, hopen⟩ := hwritable
  have hsidecar := (Store.openFile_eq_ok hopen).1
  refine ⟨rfl, other, hbooted.leadsTo.of_sameTree hbooted.files.tree, hbooted.isFile, hbooted.size_le,
    hbooted.files.tree.refusals ▸ hbooted.measure, hsidecar.of_sameTree hbooted.files.tree, ?_, fun _ => hbooted.load,
    hbooted.cache⟩
  rintro rfl
  exact hother ⟨_, _, _, hbooted.leadsTo.resolve, hsidecar.resolve⟩

/-- A session persists. Where the sidecar can be written and is not the image, the next boot succeeds, with the
signatures and the array as they were in memory when the input was over, and a session that only ends leaves all
files. All this holds as well after the line editor has written its history, if that is a third file. -/
theorem sessions_persist {config : Config} {surroundings : Surroundings} {answers : List Answer} {store files : Store}
    {inputs : List Input} {s : Session}
    (hother : ¬ store.SameFile config.image (Signature.sidecarPath config.image))
    (hwritable : ∃ opened, store.openFile (Signature.sidecarPath config.image) = .ok opened)
    (hs : (start config surroundings answers store).session = .ok s)
    (hfiles : (session config surroundings answers store (inputs.map .input)).store = files) :
    ∃ d f, (Boot.run config files).result = .ok d ∧
      d.device.signatures = (s.turns (inputs.map .input)).driver.device.signatures ∧
      blockAt d.device.backing = blockAt (s.turns (inputs.map .input)).driver.device.backing ∧
      files.file? config.image = some f ∧
      f.bytes.take totalSize =
        (FlatArray.ofBlocks (blockAt (s.turns (inputs.map .input)).driver.device.backing)).slice 0 totalSize ∧
      (∀ surroundings' answers',
        (session config surroundings' answers' files [.input .endOfInput]).store = files) ∧
      ∀ bytes later, ¬ store.SameFile config.image (lineEditor surroundings).historyPath →
        ¬ store.SameFile (Signature.sidecarPath config.image) (lineEditor surroundings).historyPath →
        files.save (lineEditor surroundings).historyPath bytes = .ok later →
          ∃ d', (Boot.run config later).result = .ok d' ∧ d'.device.signatures = d.device.signatures ∧
            blockAt d'.device.backing = blockAt d.device.backing ∧ later.file? config.image = some f ∧
            ∀ surroundings' answers',
              (session config surroundings' answers' later [.input .endOfInput]).store = later := by
  obtain ⟨hconfig, other, hbegin⟩ := Session.OnFile.of_start hother hwritable hs
  have hturns := s.leads_turns inputs
  have hend := hbegin.leads hturns
  have hleft := hend.left
  have hblocks := hleft.blockAt_image
  have htree := sameTree_session hs inputs
  rw [hfiles] at htree
  rw [(session_of_start hs _).2.2, Session.run_eq_shutdown] at hfiles
  rw [hturns.config, hconfig, hfiles] at hleft
  rw [hfiles] at hblocks
  refine ⟨_, _, hleft.run_boot, rfl, hblocks, hleft.image.file?_of_file hleft.isFile, Image.take_bytes hend.size_le,
    hleft.store_idle, fun bytes later himage hsidecar hsave => ?_⟩
  obtain ⟨q, hq, rfl⟩ := Store.save_eq_ok hsave
  have hlater := hleft.of_agreeBut (hq.agreeBut_put (.ofBytes bytes))
    (Store.ne_of_not_sameFile himage htree hleft.image hq) (Store.ne_of_not_sameFile hsidecar htree hleft.sidecar hq)
  exact ⟨_, hlater.run_boot, rfl, hlater.blockAt_image.trans hleft.blockAt_image.symm,
    hlater.image.file?_of_file hlater.isFile, hlater.store_idle⟩

/-- A new array of which one block is signed. -/
theorem sessions_persist_of_sign :
    ∃ s files d, (start {} ⟨"user", none, none, none⟩ [] .empty).session = .ok s ∧
      (session {} ⟨"user", none, none, none⟩ [] .empty
        [.input (.line "mount"), .input (.line "sign 0 0")]).store = files ∧
      (Boot.run {} files).result = .ok d ∧
      d.device.signatures =
        (s.turns [.input (.line "mount"), .input (.line "sign 0 0")]).driver.device.signatures := by
  obtain ⟨d, hrun⟩ : ∃ d, (Boot.run {} .empty).result = .ok d := Boot.run_empty rfl rfl
  have hsidecar : Signature.sidecarPath (Config.image {}) = "jbod.img.sig" := rfl
  have hother : ¬ Store.empty.SameFile (Config.image {}) (Signature.sidecarPath (Config.image {})) := by
    rw [hsidecar]
    exact Store.not_sameFile_empty
  have hwritable : ∃ opened, Store.empty.openFile (Signature.sidecarPath (Config.image {})) = .ok opened := by
    rw [hsidecar]
    obtain ⟨opened, hopen⟩ := Store.leadsTo_sidecar.exists_openFile
    exact ⟨_, hopen⟩
  have hs := start_of_run hrun ⟨"user", none, none, none⟩ []
  have hfiles : (session {} ⟨"user", none, none, none⟩ [] .empty ([.line "mount", .line "sign 0 0"].map .input)).store =
      (session {} ⟨"user", none, none, none⟩ [] .empty
        [.input (.line "mount"), .input (.line "sign 0 0")]).store := rfl
  obtain ⟨d', -, hboot, hsignatures, -⟩ := sessions_persist hother hwritable hs hfiles
  exact ⟨_, _, d', hs, rfl, hboot, hsignatures⟩

end DiskArray.Shell
