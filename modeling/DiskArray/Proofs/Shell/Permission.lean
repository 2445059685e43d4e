import DiskArray.Proofs.Driver.Writing
import DiskArray.Proofs.Shell.History
import DiskArray.Proofs.Shell.Loop

/-!
# The image changes by permission only

A command may change bytes of the array only if it is a write, a fill or a format that the user agreed to, and only the
bytes that it covers (`Command.Covers`), and only while the array is mounted and may be written; the permission to write
comes with a grant alone (`execute_permitted`). So every byte of the image that is another one after a session was covered
by such a command. The rest of the file never changes, and the shutdown writes the sidecar, which is another file
(`image_changes_by_permission`).
-/

namespace DiskArray.Shell

/-- The bytes that a command is about to write, if it is carried out. A format writes nothing unless the user agrees. -/
def Command.Covers (c : Command) (answers : List Answer) (a : Nat) : Prop :=
  match c with
  | .write address data => address.toNat ≤ a ∧ a < address.toNat + data.length
  | .fill address length _ => address.toNat ≤ a ∧ a < address.toNat + length.toNat
  | .format => answers.head? = some (some true) ∧ a < totalSize
  | _ => False

/-! ### Commands -/

section Commands
variable {β : Type} [BlockView β] {d d' : Driver (Device β)} {answers : List Answer} {c : Command}

/-- What a command may change of the array, and of the permission to write to it. -/
structure Permitted (d : Driver (Device β)) (answers : List Answer) (c : Command) (d' : Driver (Device β)) : Prop where
  array : ∀ a, d'.array a ≠ d.array a → d.mounted ∧ d.writable ∧ c.Covers answers a
  writable : d'.writable → d.writable ∨ c = .grant

theorem Permitted.of_leavesArray (h : d.LeavesArray d') : Permitted d answers c d' :=
  ⟨fun a hne => absurd (congrFun h.array_eq a) hne, fun hw => Or.inl (h.writable ▸ hw)⟩

theorem executeCache_permitted (d : Driver (Device β)) (answers : List Answer) (r : CacheCommand) :
    Permitted d answers (.cache r) (executeCache d answers r).driver := by
  have hserve (request : Cache.Request) : d.LeavesArray (d.serveCache request).state := ⟨rfl, rfl⟩
  cases r with
  | create n => exact Effect.driver_ofOutcome.1 ▸ .of_leavesArray (hserve (.create n.toNat))
  | resize n => exact Effect.driver_ofOutcome.1 ▸ .of_leavesArray (hserve (.resize n.toNat))
  | destroy => exact Effect.driver_ofOutcome.1 ▸ .of_leavesArray (hserve .destroy)
  | stats => exact .of_leavesArray (.refl d)

variable [Backing β] [ReliableBacking β]

theorem Permitted.of_alters (h : d.Alters (c.Covers answers) d') : Permitted d answers c d' :=
  ⟨h.allowed, fun hw => Or.inl (h.writable ▸ hw)⟩

theorem zeroAll_alters (h : d.Ready) {addresses : List Nat}
    (hrange : ∀ address ∈ addresses, address + maxTransfer ≤ totalSize) :
    d.Alters (· < totalSize) (zeroAll d addresses).state := by
  induction addresses generalizing d with
  | nil => exact .refl h
  | cons address rest ih =>
    have hfirst := hrange address List.mem_cons_self
    rw [zeroAll]
    refine Outcome.state_andThen_of (p := d.Alters (· < totalSize)) ?_ ?_
    · exact (Driver.write_alters h address maxTransfer (some zeros)).mono fun a ha => by omega
    · intro d' _ hd'
      exact hd'.trans (ih hd'.ready fun later hlater => hrange later (List.mem_cons_of_mem _ hlater))

theorem formatAddresses_range : ∀ address ∈ formatAddresses, address + maxTransfer ≤ totalSize := by
  intro address haddress
  obtain ⟨k, hk, rfl⟩ := List.mem_map.1 haddress
  have hk : k < 1024 := List.mem_range.1 hk
  show k * 1024 + 1024 ≤ 1048576
  omega

theorem format_permitted (h : d.Ready) (answers : List Answer) :
    Permitted d answers .format (format d answers).driver := by
  unfold format
  cases hanswer : answers.head?.join with
  | none => exact .of_leavesArray (.refl d)
  | some agreed =>
    cases agreed with
    | false => exact .of_leavesArray (.refl d)
    | true =>
      have hhead : answers.head? = some (some true) := by simpa [Option.join_eq_some_iff] using hanswer
      dsimp only
      rw [Effect.driver_ofOutcome.1]
      exact .of_alters ((zeroAll_alters h formatAddresses_range).mono fun a ha => ⟨hhead, ha⟩)

/-- All that a command may change. -/
theorem execute_permitted (h : d.Ready) (answers : List Answer) (c : Command) :
    Permitted d answers c (execute d answers c).driver := by
  cases c with
  | mount => exact Effect.driver_ofOutcome.1 ▸ .of_leavesArray (Driver.leavesArray_mount h)
  | unmount => exact Effect.driver_ofOutcome.1 ▸ .of_leavesArray (Driver.leavesArray_unmount h)
  | grant => exact ⟨fun a hne => absurd rfl hne, fun _ => Or.inr rfl⟩
  | revoke => exact ⟨fun a hne => absurd rfl hne, nofun⟩
  | read address length => exact Effect.driver_ofOutcome.1 ▸ .of_leavesArray (Driver.leavesArray_read h _ _ _)
  | write address data =>
    refine Effect.driver_ofOutcome.1 ▸ .of_alters ((Driver.write_alters h _ _ _).mono fun a ⟨hle, hlt⟩ => ⟨hle, ?_⟩)
    exact hlt.trans_le (Nat.add_le_add_left (Nat.min_le_left _ _) _)
  | fill address length byte => exact Effect.driver_ofOutcome.1 ▸ .of_alters (Driver.write_alters h _ _ _)
  | sign disk block => exact Effect.driver_ofOutcome.1 ▸ .of_leavesArray (Driver.leavesArray_sign h disk block)
  | cache r => exact executeCache_permitted d answers r
  | format => exact format_permitted h answers
  | help | status | exit => exact .of_leavesArray (.refl d)

end Commands

namespace Session

variable {s : Session} {i : Input} {inputs : List Input} {a : Nat}

/-- The commands that a session carries out, but for the one that ends it, each with the session before. -/
def executed (s : Session) (inputs : List Input) : List (Session × Command) :=
  (s.visits (beforeLast inputs)).filterMap fun v => v.2.command?.map (v.1, ·)

/-- A byte is covered by a command while the array is mounted and may be written. -/
def Writes (s : Session) (c : Command) (a : Nat) : Prop :=
  s.driver.mounted ∧ s.driver.writable ∧ c.Covers s.answers a

/-! ### Turns -/

theorem turn_permitted (h : s.driver.Ready) (i : Input) :
    (∀ a, (s.turn i).session.driver.array a ≠ s.driver.array a → ∃ c, i.command? = some c ∧ s.Writes c a) ∧
      ((s.turn i).session.driver.writable → s.driver.writable ∨ i.command? = some .grant) := by
  cases hc : i.command? with
  | none =>
    rw [s.session_turn_of_command?_eq_none hc]
    exact ⟨fun a hne => absurd rfl hne, Or.inl⟩
  | some c =>
    obtain ⟨harray, hwritable⟩ := execute_permitted h s.answers c
    rw [s.session_turn_of_command?_eq_some hc]
    refine ⟨fun a hne => ⟨c, rfl, harray a hne⟩, fun hw => ?_⟩
    rcases hwritable hw with hbefore | rfl
    · exact Or.inl hbefore
    · exact Or.inr rfl

theorem ready_turn (h : s.driver.Ready) (i : Input) : (s.turn i).session.driver.Ready := ready_after h [i]

theorem exists_writes_of_ne (h : s.driver.Ready) (hne : (s.after inputs).driver.array a ≠ s.driver.array a) :
    ∃ v ∈ s.visits inputs, ∃ c, v.2.command? = some c ∧ v.1.Writes c a := by
  induction inputs generalizing s with
  | nil => exact absurd rfl hne
  | cons i rest ih =>
    by_cases hturn : (s.turn i).session.driver.array a = s.driver.array a
    · obtain ⟨v, hv, hwrites⟩ := ih (ready_turn h i) (hturn ▸ hne)
      exact ⟨v, List.mem_cons_of_mem _ hv, hwrites⟩
    · exact ⟨(s, i), List.mem_cons_self, (turn_permitted h i).1 a hturn⟩

theorem not_writable_of_not_grant (h : s.driver.Ready) (hw : s.driver.writable = false)
    (hgrant : ∀ v ∈ s.visits inputs, v.2.command? ≠ some .grant) :
    ∀ v ∈ s.visits inputs, v.1.driver.writable = false := by
  induction inputs generalizing s with
  | nil =>
    intro v hv
    exact absurd hv List.not_mem_nil
  | cons i rest ih =>
    have hturn : (s.turn i).session.driver.writable = false := by
      by_contra hne
      rcases (turn_permitted h i).2 (by simpa using hne) with hbefore | hnow
      · rw [hw] at hbefore
        cases hbefore
      · exact hgrant (s, i) List.mem_cons_self hnow
    intro v hv
    rcases List.mem_cons.1 hv with rfl | hv
    · exact hw
    · exact ih (ready_turn h i) hturn (fun v hv => hgrant v (List.mem_cons_of_mem _ hv)) v hv

theorem mem_executed {x : Session × Command} :
    x ∈ s.executed inputs ↔ ∃ v ∈ s.visits (beforeLast inputs), v.1 = x.1 ∧ v.2.command? = some x.2 := by
  rw [executed, List.mem_filterMap]
  constructor
  · rintro ⟨v, hv, hx⟩
    obtain ⟨c, hc, rfl⟩ := Option.map_eq_some_iff.1 hx
    exact ⟨v, hv, rfl, hc⟩
  · rintro ⟨v, hv, hsession, hc⟩
    refine ⟨v, hv, ?_⟩
    rw [hc, Option.map_some, hsession]

theorem map_snd_executed (s : Session) (inputs : List Input) :
    (s.executed inputs).map Prod.snd = (beforeLast inputs).filterMap Input.command? := by
  have hcommand (v : Session × Input) : (v.2.command?.map (v.1, ·)).map Prod.snd = v.2.command? := by
    cases v.2.command? <;> rfl
  rw [executed, List.map_filterMap]
  simp only [hcommand]
  rw [← Function.comp_def, ← List.filterMap_map, map_snd_visits]

/-! ### Shutdown -/

theorem shutdown_leaves (h : s.driver.Ready) {place : Files.Place}
    (hother : ∀ other, s.store.LeadsTo (Signature.sidecarPath s.config.image) other → other ≠ place) :
    s.shutdown.session.store.node? place = s.store.node? place := by
  rw [(shutsDown h).store, saving?]
  by_cases hempty : s.driver.device.signatures.isEmpty
  · rw [if_pos hempty]
  · rw [if_neg hempty]
    cases hsave : s.driver.device.signatures.save s.store (Signature.sidecarPath s.config.image) with
    | error e => rfl
    | ok saved =>
      obtain ⟨other, hleads, rfl⟩ := Store.save_eq_ok hsave
      exact Store.node?_put_ne (hother other hleads).symm _

end Session

/-! ### Whole sessions -/

theorem flags_of_start {config : Config} {surroundings : Surroundings} {answers : List Answer} {store : Store}
    {s : Session} (h : (start config surroundings answers store).session = .ok s) :
    s.driver.mounted = false ∧ s.driver.writable = false := by
  obtain ⟨d, hrun, rfl⟩ := start_eq_ok h
  obtain ⟨place, opened, signatures, -, -, -, -, rfl⟩ := Boot.run_eq_ok hrun
  exact ⟨rfl, rfl⟩

section Whole
variable {config : Config} {surroundings : Surroundings} {answers : List Answer} {store : Store} {s : Session}

/-- The file of the image after the boot and after the session: no other file is taken for it, and it is the one that
the array was on all the time. -/
theorem file?_of_session (hother : ¬ store.SameFile config.image (Signature.sidecarPath config.image))
    (hs : (start config surroundings answers store).session = .ok s) (inputs : List Input) :
    let before := s.driver.device.backing
    let later := (s.after (beforeLast inputs)).driver.device.backing
    s.store.file? config.image = some before.file ∧
      (session config surroundings answers store (inputs.map .input)).store.file? config.image = some later.file ∧
      totalSize ≤ before.file.size ∧ before.Later later ∧ before.SameBeyond later := by
  intro before later
  have hready := Session.ready_after (ready_of_start hs) (beforeLast inputs)
  have hstore := (session_of_start hs (inputs.map .input)).2.2
  rw [s.run_eq inputs] at hstore
  obtain ⟨d, hrun, rfl⟩ := start_eq_ok hs
  have hbooted := Boot.Booted.of_run hrun
  have hleads := Session.leads_after ⟨config, surroundings, d, answers⟩ (beforeLast inputs)
  obtain ⟨hlater, hbeyond⟩ := hleads.leaves hbooted.isFile hbooted.size_le
  have htree : store.SameTree later.store := hbooted.files.tree.trans hlater.files.tree
  have hsidecar (other : Files.Place)
      (hother' : later.store.LeadsTo (Signature.sidecarPath (Session.after ⟨config, surroundings, d, answers⟩
        (beforeLast inputs)).config.image) other) : other ≠ d.device.backing.place := by
    rw [hleads.config] at hother'
    exact Store.ne_of_not_sameFile hother htree (hbooted.leadsTo.of_sameTree htree) hother'
  have htree' := Session.sameTree_shutdown (Session.after ⟨config, surroundings, d, answers⟩ (beforeLast inputs))
  have hnode := (Session.shutdown_leaves hready hsidecar).trans hlater.isFile
  refine ⟨?_, ?_, hbooted.size_le, hlater, hbeyond⟩
  · exact (hbooted.leadsTo.of_sameTree hbooted.files.tree).file?_of_file hbooted.isFile
  · rw [hstore]
    exact (hbooted.leadsTo.of_sameTree (htree.trans htree')).file?_of_file hnode

/-- The image changes by permission only. A byte of the array that is another one after a session than right after the
boot was covered by a command that was carried out while the array was mounted and might be written; the bytes past the
array and the length of the image never change. Where no command is a grant the image is left as it was. The history that
the line editor writes after the session does not change it either, unless its path leads to the image. -/
theorem image_changes_by_permission (hother : ¬ store.SameFile config.image (Signature.sidecarPath config.image))
    (hs : (start config surroundings answers store).session = .ok s) (inputs : List Input) :
    ∃ f f', s.store.file? config.image = some f ∧
      (session config surroundings answers store (inputs.map .input)).store.file? config.image = some f' ∧
      f'.bytes.length = f.bytes.length ∧
      f'.bytes.drop totalSize = f.bytes.drop totalSize ∧
      (∀ a < totalSize, f'.bytes[a]? ≠ f.bytes[a]? → ∃ x ∈ s.executed inputs, x.1.Writes x.2 a) ∧
      ((∀ x ∈ s.executed inputs, x.2 ≠ .grant) → f'.bytes = f.bytes) ∧
      ∀ bytes later, ¬ store.SameFile config.image (lineEditor surroundings).historyPath →
        (session config surroundings answers store (inputs.map .input)).store.save
          (lineEditor surroundings).historyPath bytes = .ok later → later.file? config.image = some f' := by
  have hready := ready_of_start hs
  obtain ⟨hfile, hfile', hsize, hlater, hbeyond⟩ := file?_of_session hother hs inputs
  have hdrop := hbeyond.drop_bytes hlater.size
  have hchanged (a : Nat) (ha : a < totalSize)
      (hne : (s.after (beforeLast inputs)).driver.device.backing.file.bytes[a]? ≠ s.driver.device.backing.file.bytes[a]?) :
      ∃ x ∈ s.executed inputs, x.1.Writes x.2 a := by
    rw [Image.getElem?_bytes hsize ha, Image.getElem?_bytes (hlater.size ▸ hsize) ha] at hne
    obtain ⟨v, hv, c, hc, hwrites⟩ := Session.exists_writes_of_ne hready fun heq => hne (congrArg some heq)
    exact ⟨(v.1, c), Session.mem_executed.2 ⟨v, hv, rfl, hc⟩, hwrites⟩
  refine ⟨_, _, hfile, hfile', ?_, hdrop, hchanged, ?_, fun bytes later hhistory hsave => ?_⟩
  · rw [File.length_bytes, File.length_bytes, hlater.size]
  · intro hgrant
    have hnever := Session.not_writable_of_not_grant hready (flags_of_start hs).2 fun v hv hc =>
      hgrant (v.1, .grant) (Session.mem_executed.2 ⟨v, hv, rfl, hc⟩) rfl
    apply List.ext_getElem?
    intro a
    by_cases ha : a < totalSize
    · by_contra hne
      obtain ⟨x, hx, -, hw, -⟩ := hchanged a ha hne
      obtain ⟨v, hv, hsession, -⟩ := Session.mem_executed.1 hx
      rw [← hsession, hnever v hv] at hw
      cases hw
    · obtain ⟨k, rfl⟩ := Nat.exists_eq_add_of_le (Nat.le_of_not_lt ha)
      rw [← List.getElem?_drop, ← List.getElem?_drop, hdrop]
  · rw [file?_of_history hs hhistory hsave, hfile']

end Whole

/-- A new array that is mounted, signed and written to, and that the user agrees to format, without a grant. -/
theorem image_changes_by_permission_of_format :
    let inputs : List Input :=
      [.line "mount", .line "sign 0 1", .line "write 300 ab", .line "fill 0 4 1", .line "format", .interrupt]
    ∃ s f f', ¬ Store.empty.SameFile "jbod.img" "jbod.img.sig" ∧
      (start {} ⟨"user", none, none, none⟩ [some true] .empty).session = .ok s ∧
      (s.executed inputs).map Prod.snd =
        [.mount, .sign 0 1, .write 300 [97, 98], .fill 0 4 1, .format] ∧
      s.store.file? "jbod.img" = some f ∧
      (session {} ⟨"user", none, none, none⟩ [some true] .empty (inputs.map .input)).store.file? "jbod.img" =
        some f' ∧
      f'.bytes = f.bytes := by
  intro inputs
  obtain ⟨d, hrun⟩ : ∃ d, (Boot.run {} .empty).result = .ok d := Boot.run_empty rfl rfl
  obtain ⟨s, hs⟩ : ∃ s, (start {} ⟨"user", none, none, none⟩ [some true] .empty).session = .ok s :=
    ⟨_, start_of_run hrun _ _⟩
  have hother : ¬ Store.empty.SameFile (Config.image {}) (Signature.sidecarPath (Config.image {})) :=
    Store.not_sameFile_empty
  have hcommands : (beforeLast inputs).filterMap Input.command? =
      [.mount, .sign 0 1, .write 300 [97, 98], .fill 0 4 1, .format] := by decide +kernel
  obtain ⟨f, f', hf, hf', -, -, -, hgrant, -⟩ := image_changes_by_permission hother hs inputs
  have hexecuted := (s.map_snd_executed inputs).trans hcommands
  refine ⟨s, f, f', Store.not_sameFile_empty, hs, hexecuted, hf, hf', hgrant ?_⟩
  intro x hx hcommand
  have hmem := List.mem_map_of_mem (f := Prod.snd) hx
  rw [hexecuted, hcommand] at hmem
  exact absurd hmem (by decide)

end DiskArray.Shell
