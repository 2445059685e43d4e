import DiskArray.Proofs.Files.Lookup
import DiskArray.Proofs.Shell.Turns

/-!
# The history of lines

The line editor of a session keeps the lines in a file of its own, at a path that the session gives it. A session moves
no path from one file to another (`sameTree_session`). So what the editor writes can be seen in the image or in the
sidecar only if its path led to the same file from the start (`file?_of_history`).
-/

namespace DiskArray.Shell

namespace Session

theorem sameTree_shutdown (s : Session) : s.store.SameTree s.shutdown.session.store := by
  obtain ⟨hconfig, hstore, hsignatures⟩ := s.stored_unmountAtEnd
  by_cases hempty : s.driver.device.signatures.isEmpty
  · rw [store_shutdown_of_isEmpty hempty]
    exact .refl _
  · cases hsave : s.driver.device.signatures.save s.store (Signature.sidecarPath s.config.image) with
    | ok saved =>
      rw [store_shutdown_of_save hempty hsave]
      obtain ⟨place, hleads, rfl⟩ := Store.save_eq_ok hsave
      exact (hleads.agreeBut_put _).tree
    | error e =>
      rw [session_shutdown, saveSignatures, hsignatures, if_neg hempty, hconfig, hstore, hsave]
      dsimp only
      rw [hstore]
      exact .refl _

end Session

section Whole
variable {config : Config} {surroundings : Surroundings} {answers : List Answer} {store later : Store}
  {inputs : List Input} {s : Session} {path : String} {bytes : List UInt8}

theorem sameTree_session (hs : (start config surroundings answers store).session = .ok s) (inputs : List Input) :
    store.SameTree (session config surroundings answers store (inputs.map .input)).store := by
  rw [(session_of_start hs _).2.2, Session.run_eq_shutdown]
  obtain ⟨d, hrun, rfl⟩ := start_eq_ok hs
  have hbooted := Boot.Booted.of_run hrun
  have hturns := Session.leads_turns ⟨config, surroundings, d, answers⟩ inputs
  have hlater := hturns.later hbooted.isFile hbooted.size_le
  exact (hbooted.files.tree.trans hlater.files.tree).trans (Session.sameTree_shutdown _)

/-- What the editor writes to its history after a session is not seen in another file. -/
theorem file?_of_history (hs : (start config surroundings answers store).session = .ok s)
    (hother : ¬ store.SameFile path (lineEditor surroundings).historyPath)
    (hsave : (session config surroundings answers store (inputs.map .input)).store.save
      (lineEditor surroundings).historyPath bytes = .ok later) :
    later.file? path = (session config surroundings answers store (inputs.map .input)).store.file? path :=
  Store.file?_of_save hsave fun _ hhistory hpath =>
    Store.ne_of_not_sameFile hother (sameTree_session hs inputs) hpath hhistory rfl

end Whole

end DiskArray.Shell
