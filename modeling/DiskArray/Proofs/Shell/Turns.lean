import DiskArray.Proofs.Boot
import DiskArray.Proofs.Device.Image
import DiskArray.Proofs.Driver.Calls
import DiskArray.Proofs.Shell.Execute
import DiskArray.Shell.Session

/-!
# Turn after turn

A session goes on by turns (`Session.turns`), and is then shut down, in whichever way it ended (`run_eq_shutdown`).
Whatever the user enters, all that a turn does to the device is to call it (`Session.Leads`), so the file of the image
stays where it is and as long as it is, no other file is written (`Leads.later`), and no signature is taken out of the
table (`Leads.isEmpty`). The shutdown writes the sidecar alone.
-/

namespace DiskArray.Shell

/-! ### Commands -/

section Commands
variable {β : Type} [Backing β]

theorem calls_zeroAll (d : Driver (Device β)) (addresses : List Nat) : d.Calls (zeroAll d addresses).state := by
  induction addresses generalizing d with
  | nil => exact .refl d
  | cons address rest ih =>
    rw [zeroAll]
    exact (d.calls_write _ _ _).andThen fun d' _ => ih d'

theorem calls_format (d : Driver (Device β)) (answers : List Answer) : d.Calls (format d answers).driver := by
  unfold format
  cases answers.head?.join with
  | none => exact .refl d
  | some agreed =>
    cases agreed with
    | false => exact .refl d
    | true =>
      dsimp only
      rw [Effect.driver_ofOutcome.1]
      exact calls_zeroAll d formatAddresses

theorem calls_executeCache (d : Driver (Device β)) (answers : List Answer) (r : CacheCommand) :
    d.Calls (executeCache d answers r).driver := by
  have hserve (request : Cache.Request) : d.Calls (d.serveCache request).state := .of_device rfl
  cases r with
  | create n => exact Effect.driver_ofOutcome.1 ▸ hserve (.create n.toNat)
  | resize n => exact Effect.driver_ofOutcome.1 ▸ hserve (.resize n.toNat)
  | destroy => exact Effect.driver_ofOutcome.1 ▸ hserve .destroy
  | stats => exact .refl d

theorem calls_execute (d : Driver (Device β)) (answers : List Answer) (c : Command) :
    d.Calls (execute d answers c).driver := by
  cases c with
  | mount => exact Effect.driver_ofOutcome.1 ▸ d.calls_mount
  | unmount => exact Effect.driver_ofOutcome.1 ▸ d.calls_unmount
  | grant => exact .of_device rfl
  | revoke => exact .of_device rfl
  | read address length => exact Effect.driver_ofOutcome.1 ▸ d.calls_read _ _ _
  | write address data => exact Effect.driver_ofOutcome.1 ▸ d.calls_write _ _ _
  | fill address length byte => exact Effect.driver_ofOutcome.1 ▸ d.calls_write _ _ _
  | sign disk block => exact Effect.driver_ofOutcome.1 ▸ d.calls_sign disk block
  | cache r => exact calls_executeCache d answers r
  | format => exact calls_format d answers
  | help | status | exit => exact .refl d

end Commands

/-- The command on a line. -/
def Input.command? : Input → Option Command
  | .line text => (parseCommand (Text.trim text)).toOption
  | _ => none

namespace Session

variable {s s' s'' : Session}

/-! ### Turns -/

/-- The second session is the first one later on: its device was called, and the configuration is the same. -/
structure Leads (s s' : Session) : Prop where
  config : s'.config = s.config
  calls : s.driver.Calls s'.driver

theorem Leads.refl (s : Session) : s.Leads s := ⟨rfl, .refl _⟩

theorem Leads.trans (h : s.Leads s') (h' : s'.Leads s'') : s.Leads s'' :=
  ⟨h'.config.trans h.config, h.calls.trans h'.calls⟩

theorem leads_turn (s : Session) (i : Input) : s.Leads (s.turn i).session := by
  cases i with
  | line text =>
    simp only [turn, line]
    split_ifs
    · exact .refl s
    · cases parseCommand (Text.trim text) with
      | error e => exact .refl s
      | ok c => exact ⟨rfl, calls_execute s.driver s.answers c⟩
  | _ => exact .refl s

/-! ### What the turns keep -/

theorem Leads.leaves (h : s.Leads s')
    (hfile : s.store.node? s.driver.device.backing.place = some (.file s.driver.device.backing.file))
    (hsize : totalSize ≤ s.driver.device.backing.file.size) :
    s.driver.device.backing.Later s'.driver.device.backing ∧
      s.driver.device.backing.SameBeyond s'.driver.device.backing := by
  obtain ⟨calls, hcalls⟩ := h.calls
  rw [hcalls]
  exact Image.callAll_leaves hfile hsize calls

theorem Leads.later (h : s.Leads s')
    (hfile : s.store.node? s.driver.device.backing.place = some (.file s.driver.device.backing.file))
    (hsize : totalSize ≤ s.driver.device.backing.file.size) :
    s.driver.device.backing.Later s'.driver.device.backing := (h.leaves hfile hsize).1

/-- No signature is taken out of the table. -/
theorem Leads.isEmpty (h : s.Leads s') (hempty : s'.driver.device.signatures.isEmpty) :
    s.driver.device.signatures.isEmpty := by
  by_contra hsigned
  refine absurd hempty (h.calls.keeps (P := fun x => ¬ x.signatures.isEmpty) ?_ hsigned)
  intro x code buffer hx
  refine Device.keeps_signatures (Q := fun t => ¬ t.isEmpty) ?_ x code buffer hx
  intro t disk block data _
  simp [SignatureTable.isEmpty_sign]

/-! ### Runs -/

theorem run_of_ends {i : Input} {rest : List Event} (h : (s.turn i).ends = true) :
    s.run (.input i :: rest) = s.finish (s.turn i) := by
  rw [Session.run]
  exact if_pos h

theorem run_of_not_ends {i : Input} {rest : List Event} (h : (s.turn i).ends = false) :
    s.run (.input i :: rest) =
      (s.stepOf (s.turn i) {} :: ((s.turn i).session.run rest).1, ((s.turn i).session.run rest).2) := by
  rw [Session.run]
  exact if_neg (by simp [h])

/-- The session when its input is over and it is yet to be shut down. -/
def turns (s : Session) : List Event → Session
  | [] => (s.turn .endOfInput).session
  | .truncate size :: rest => (s.truncate size).turns rest
  | .input i :: rest => if (s.turn i).ends then (s.turn i).session else (s.turn i).session.turns rest

/-- However a session ends, it is shut down. -/
theorem run_eq_shutdown (s : Session) (events : List Event) : (s.run events).2 = (s.turns events).shutdown.session := by
  induction events generalizing s with
  | nil => rfl
  | cons event rest ih =>
    cases event with
    | truncate size => exact ih (s.truncate size)
    | input i =>
      rw [run, turns]
      dsimp only
      split_ifs
      · rfl
      · exact ih (s.turn i).session

theorem leads_turns (s : Session) (inputs : List Input) : s.Leads (s.turns (inputs.map .input)) := by
  induction inputs generalizing s with
  | nil => exact s.leads_turn .endOfInput
  | cons i rest ih =>
    have hturn := s.leads_turn i
    rw [List.map_cons, turns]
    split_ifs
    · exact hturn
    · exact hturn.trans (ih (s.turn i).session)

/-! ### Shutdown -/

theorem stored_unmountAtEnd (s : Session) :
    s.unmountAtEnd.session.config = s.config ∧ s.unmountAtEnd.session.store = s.store ∧
      s.unmountAtEnd.session.driver.device.signatures = s.driver.device.signatures := by
  obtain ⟨hbacking, hsignatures⟩ := s.driver.stored_unmount
  unfold unmountAtEnd
  split_ifs
  · exact ⟨rfl, congrArg Image.store hbacking, hsignatures⟩
  · exact ⟨rfl, rfl, rfl⟩

theorem showHitRate_eq (s : Session) : s.showHitRate.session = s ∧ s.showHitRate.output.shown = [] := by
  unfold showHitRate
  split
  · exact ⟨rfl, rfl⟩
  · exact ⟨rfl, rfl⟩

theorem session_shutdown (s : Session) : s.shutdown.session = s.unmountAtEnd.session.saveSignatures.session := by
  simp only [shutdown, Closing.andThen, showHitRate_eq, sayGoodBye]

theorem store_shutdown_of_isEmpty (h : s.driver.device.signatures.isEmpty) : s.shutdown.session.store = s.store := by
  obtain ⟨-, hstore, hsignatures⟩ := s.stored_unmountAtEnd
  rw [session_shutdown, saveSignatures, hsignatures, if_pos h]
  exact hstore

theorem store_shutdown_of_save {saved : Store} (h : ¬ s.driver.device.signatures.isEmpty)
    (hsave : s.driver.device.signatures.save s.store (Signature.sidecarPath s.config.image) = .ok saved) :
    s.shutdown.session.store = saved := by
  obtain ⟨hconfig, hstore, hsignatures⟩ := s.stored_unmountAtEnd
  rw [session_shutdown, saveSignatures, hsignatures, if_neg h, hconfig, hstore, hsave]
  rfl

end Session

/-! ### Whole sessions -/

section Whole
variable {config : Config} {surroundings : Surroundings} {answers : List Answer} {store : Store} {events : List Event}
  {s : Session}

theorem start_eq_ok (h : (start config surroundings answers store).session = .ok s) :
    ∃ driver, (Boot.run config store).result = .ok driver ∧ s = { config, surroundings, driver, answers } := by
  unfold start at h
  dsimp only at h
  split at h
  · cases h
  · rename_i driver hrun
    exact ⟨driver, hrun, (Except.ok.inj h).symm⟩

theorem start_of_run {d : ImageDriver} (h : (Boot.run config store).result = .ok d) (surroundings : Surroundings)
    (answers : List Answer) :
    (start config surroundings answers store).session = .ok { config, surroundings, driver := d, answers } := by
  simp only [start, h]

theorem session_of_start (h : (start config surroundings answers store).session = .ok s) (events : List Event) :
    (session config surroundings answers store events).booted = true ∧
      (session config surroundings answers store events).steps = (s.run events).1 ∧
      (session config surroundings answers store events).store = (s.run events).2.store := by
  unfold session
  dsimp only
  rw [h]
  exact ⟨rfl, rfl, rfl⟩

theorem booted_of_run {d : ImageDriver} (h : (Boot.run config store).result = .ok d) (surroundings : Surroundings)
    (answers : List Answer) (events : List Event) : (session config surroundings answers store events).booted :=
  (session_of_start (start_of_run h surroundings answers) events).1

theorem session_of_booted (h : (session config surroundings answers store events).booted) :
    ∃ s, (start config surroundings answers store).session = .ok s ∧
      (session config surroundings answers store events).steps = (s.run events).1 ∧
      (session config surroundings answers store events).store = (s.run events).2.store := by
  cases hstart : (start config surroundings answers store).session with
  | error e =>
    simp only [session, hstart] at h
    cases h
  | ok s => exact ⟨s, rfl, (session_of_start hstart events).2⟩

end Whole

end DiskArray.Shell
