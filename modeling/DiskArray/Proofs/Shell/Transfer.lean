import DiskArray.Proofs.Shell.Stored

/-!
# Transfers that the user asks for

A transfer hands the driver the whole length that the user asked for, and a buffer of no more than one transfer. The
driver looks at the length first, so it never takes the buffer for too small, and a transfer that is too long is refused
with its whole length (`execute_of_long`). Any other fill is the write of its bytes (`fill_eq_write`), and a read shows
the bytes of the array (`shown_read`), which are those stored last (`transfers_as_asked`).
-/

namespace DiskArray.Shell

open Text

/-- The length of the transfer that a command asks the driver for. There is no length above the largest number of 32
bits, and that one is asked for with all longer data. -/
def Command.length? : Command → Option Nat
  | .read _ length => some length.toNat
  | .write _ data => some (min data.length (UInt32.size - 1))
  | .fill _ length _ => some length.toNat
  | _ => none

/-- The command is about to write to the array. -/
def Command.isWrite : Command → Bool
  | .write _ _ | .fill _ _ _ => true
  | _ => false

section Commands
variable {β : Type} [Backing β] {d : Driver (Device β)} {answers : List Answer} {c : Command} {address length : UInt32}
  {n : Nat}

theorem execute_read (d : Driver (Device β)) (answers : List Answer) (address length : UInt32) :
    execute d answers (.read address length) = Effect.ofOutcome answers .driver
      (d.read address.toNat length.toNat (some (List.replicate (min length.toNat maxTransfer) 0))).toOutcome
      fun _ n => readLines address n
        ((d.read address.toNat length.toNat (some (List.replicate (min length.toNat maxTransfer) 0))).buffer.getD []) := rfl

/-! ### Transfers that are too long -/

/-- A transfer that is too long is refused, also if the driver is not ready. -/
theorem execute_of_long (hlength : c.length? = some n) (hn : maxTransfer < n) :
    (execute d answers c).driver = d ∧ (execute d answers c).answers = answers ∧
      (execute d answers c).failure = some (.driver
        (if !d.mounted then .notMounted
        else if c.isWrite && !d.writable then .permissionDenied
        else .lengthTooLarge n)) := by
  cases c with
  | read address length =>
    obtain rfl := Option.some.inj hlength
    rw [execute_read, Driver.read, Driver.refuseRead?_of_long _ hn]
    exact ⟨rfl, rfl, rfl⟩
  | write address data =>
    obtain rfl := Option.some.inj hlength
    rw [execute_write, Driver.write, Driver.refuseWrite?_of_long _ hn]
    exact ⟨rfl, rfl, rfl⟩
  | fill address length byte =>
    obtain rfl := Option.some.inj hlength
    rw [execute_fill, Driver.write, Driver.refuseWrite?_of_long _ hn]
    exact ⟨rfl, rfl, rfl⟩
  | _ => cases hlength

/-! ### Transfers of a ready driver -/

variable [BlockView β] [ReliableBacking β]

theorem failure_read (h : d.Ready) (answers : List Answer) (address length : UInt32) :
    (execute d answers (.read address length)).failure =
      (d.refuseRead? address.toNat length.toNat (some (List.replicate (min length.toNat maxTransfer) 0))).map .driver := by
  rw [execute_read, Effect.failure_ofOutcome]
  cases hrefuse : d.refuseRead? address.toNat length.toNat (some (List.replicate (min length.toNat maxTransfer) 0)) with
  | some e =>
    rw [Driver.read, hrefuse]
    rfl
  | none =>
    rw [(Driver.read_array h hrefuse).1]
    rfl

theorem failure_ne_badBuffer (h : d.Ready) (hlength : c.length? = some n) :
    (execute d answers c).failure ≠ some (.driver .badBuffer) := by
  have hinj : Function.Injective (Option.map CommandError.driver) :=
    Option.map_injective fun _ _ => CommandError.driver.inj
  cases c with
  | read address length =>
    rw [failure_read h]
    exact hinj.ne (Driver.refuseRead?_ne_badBuffer (Nat.le_of_eq List.length_replicate.symm))
  | write address data =>
    rw [execute_write, failure_ofOutcome_write h]
    exact hinj.ne (Driver.refuseWrite?_ne_badBuffer ((Nat.min_le_left _ _).trans (Nat.min_le_left _ _)))
  | fill address length byte =>
    rw [execute_fill, failure_ofOutcome_write h]
    exact hinj.ne (Driver.refuseWrite?_ne_badBuffer (Nat.le_of_eq List.length_replicate.symm))
  | _ => cases hlength

/-- A read that succeeds shows the bytes of the array. -/
theorem shown_read (h : d.Ready) (hok : (execute d answers (.read address length)).failure = none) :
    (execute d answers (.read address length)).output.shown =
      (Output.lines (readLines address length.toNat (d.array.slice address.toNat length.toNat))).shown := by
  rw [failure_read h, Option.map_eq_none_iff] at hok
  obtain ⟨hresult, hbuffer⟩ := Driver.read_array h hok
  have hdrop : (List.replicate (min length.toNat maxTransfer) (0 : UInt8)).drop length.toNat = [] := by
    rw [List.drop_replicate, Nat.sub_eq_zero_of_le (Nat.min_le_left _ _), List.replicate_zero]
  rw [execute_read, Effect.shown_ofOutcome hresult, hbuffer, Option.map_some, Option.getD_some, hdrop, List.append_nil]

/-- A fill is the write of its bytes. -/
theorem fill_eq_write (h : d.Ready) (answers : List Answer) (address : UInt32) (byte : UInt8)
    (hlength : length.toNat ≤ maxTransfer) :
    let fill := execute d answers (.fill address length byte)
    let write := execute d answers (.write address (List.replicate length.toNat byte))
    (fill.driver = write.driver ∧ fill.answers = write.answers ∧ fill.asked = write.asked ∧
      fill.failure = write.failure ∧ fill.output.diagnostics = write.output.diagnostics) ∧
      (fill.failure = none →
        fill.output.shown = (Output.line (writtenLine "Filled" length.toNat address ++
          [plain " with ", colored .cyan (hexNumber 2 byte.toNat)])).shown ∧
        write.output.shown = (Output.line (writtenLine "Wrote" length.toNat address)).shown) := by
  have hmin : min length.toNat (UInt32.size - 1) = length.toNat := Nat.min_eq_left (Nat.le_pred_of_lt length.toNat_lt)
  rw [execute_fill, execute_write, List.length_replicate, hmin, Nat.min_eq_left hlength]
  refine ⟨Effect.ofOutcome_unseen _ _ _ _, ?_⟩
  intro hok
  rw [failure_ofOutcome_write h, Option.map_eq_none_iff] at hok
  have hresult := (Driver.write_becomes h hok).1
  rw [Effect.shown_ofOutcome hresult, Effect.shown_ofOutcome hresult, Output.shown_lines_singleton,
    Output.shown_lines_singleton]
  exact ⟨rfl, rfl⟩

end Commands

/-! ### Transfers in a session -/

/-- Whatever was done in a session, a transfer is handed to the driver as the user asked for it: it never fails for its
buffer, and with more bytes than one transfer has it is refused with its whole length and changes nothing. Any other fill
leaves what the write of so many bytes leaves. A read that succeeds dumps the bytes of the array from its address on, which
are those that were stored last. -/
theorem transfers_as_asked {config : Config} {surroundings : Surroundings} {answers : List Answer} {store : Store}
    {s : Session} (hs : (start config surroundings answers store).session = .ok s) (inputs : List Input) :
    let now := s.after (beforeLast inputs)
    let effect (c : Command) := execute now.driver now.answers c
    (∀ c n, c.length? = some n →
      (effect c).failure ≠ some (.driver .badBuffer) ∧
      (maxTransfer < n →
        (effect c).driver = now.driver ∧ (effect c).answers = now.answers ∧
          (effect c).failure = some (.driver
            (if !now.driver.mounted then .notMounted
            else if c.isWrite && !now.driver.writable then .permissionDenied
            else .lengthTooLarge n)))) ∧
    (∀ (address length : UInt32) (byte : UInt8), length.toNat ≤ maxTransfer →
      let fill := effect (.fill address length byte)
      let write := effect (.write address (List.replicate length.toNat byte))
      (fill.driver = write.driver ∧ fill.answers = write.answers ∧ fill.asked = write.asked ∧
        fill.failure = write.failure ∧ fill.output.diagnostics = write.output.diagnostics) ∧
      (fill.failure = none →
        fill.output.shown = (Output.line (writtenLine "Filled" length.toNat address ++
          [plain " with ", colored .cyan (hexNumber 2 byte.toNat)])).shown ∧
        write.output.shown = (Output.line (writtenLine "Wrote" length.toNat address)).shown)) ∧
    (∀ address length : UInt32, (effect (.read address length)).failure = none →
      let header := [plain "📖 Read ", colored .cyan (toString length.toNat), plain " bytes at ", shownAddress address]
      let rows := hexDump address.toNat (now.driver.array.slice address.toNat length.toNat)
      (effect (.read address length)).output.shown =
        (Output.lines (header :: rows.map fun row => [colored .brightBlack row])).shown) ∧
    now.driver.array = s.lastStored inputs := by
  intro now effect
  have hstart := ready_of_start hs
  have hready : now.driver.Ready := Session.ready_after hstart (beforeLast inputs)
  refine ⟨fun c n hlength => ⟨failure_ne_badBuffer hready hlength, execute_of_long hlength⟩, ?_, ?_,
    Session.array_after hstart inputs⟩
  · intro address length byte hlength
    exact fill_eq_write hready now.answers address byte hlength
  · intro address length hok
    exact shown_read hready hok

/-- A new array that is mounted and may be written to: a fill that is too long, and a read. -/
theorem transfers_as_asked_of_mounted :
    let inputs : List Input := [.line "mount", .line "grant"]
    ∃ s, (start {} ⟨"user", none, none, none⟩ [] .empty).session = .ok s ∧
      let now := s.after (beforeLast inputs)
      (execute now.driver now.answers (.fill 0 2000 7)).failure = some (.driver (.lengthTooLarge 2000)) ∧
      (execute now.driver now.answers (.read 0 4)).output.shown =
        (Output.lines (readLines 0 4 (now.driver.array.slice 0 4))).shown := by
  intro inputs
  obtain ⟨d, hrun⟩ : ∃ d, (Boot.run {} .empty).result = .ok d := Boot.run_empty rfl rfl
  obtain ⟨s, hs⟩ : ∃ s, (start {} ⟨"user", none, none, none⟩ [] .empty).session = .ok s := ⟨_, start_of_run hrun _ _⟩
  have hready := ready_of_start hs
  have hcommands : (beforeLast inputs).filterMap Input.command? = [.mount, .grant] := by decide +kernel
  have hnow : (s.after (beforeLast inputs)).driver = s.driver.mount.state.grant := by
    rw [Session.after_eq, hcommands]
    exact congrArg Driver.grant Effect.driver_ofOutcome.1
  have hmount : s.driver.mount.state.mounted = true := by
    have hm := (flags_of_start hs).1
    rw [Driver.mount, if_neg (by rw [hm]; decide), Driver.issue_mount (hready.mounted.trans hm), Outcome.done_andThen]
  have hmounted : (s.after (beforeLast inputs)).driver.mounted = true := by
    rw [hnow]
    exact hmount
  have hwritable : (s.after (beforeLast inputs)).driver.writable = true := by rw [hnow]; rfl
  obtain ⟨hlong, -, hread, -⟩ := transfers_as_asked hs inputs
  refine ⟨s, hs, ?_, hread 0 4 ?_⟩
  · have hrefused := ((hlong (.fill 0 2000 7) 2000 rfl).2 (by decide)).2.2
    rwa [hmounted, hwritable] at hrefused
  · rw [failure_read (Session.ready_after hready (beforeLast inputs)), Driver.refuseRead?, hmounted]
    rfl

end DiskArray.Shell
