import DiskArray.Proofs.Shell.Format
import DiskArray.Proofs.Shell.Permission

/-!
# What was stored last

Of the commands only a write, a fill and a format that the user agreed to have data (`Command.data?`). One that succeeds
lays them over the array and one that fails leaves every byte (`array_execute`), so after any inputs the array holds what
was stored last at each address, and elsewhere what it held before (`Session.array_after`).
-/

namespace DiskArray.Shell

open Text

/-- The data that a command is to write, with the address of the first byte. A format writes nothing unless the user
agrees. -/
def Command.data? (c : Command) (answers : List Answer) : Option (Nat × List UInt8) :=
  match c with
  | .write address data => some (address.toNat, data)
  | .fill address length byte => some (address.toNat, List.replicate length.toNat byte)
  | .format => if answers.head? = some (some true) then some (0, List.replicate totalSize 0) else none
  | _ => none

section Commands
variable {β : Type} [Backing β] {d : Driver (Device β)} {answers : List Answer} {c : Command} {a : Nat}

/-- The byte that a command stores at an address, if it succeeds and its data are there. -/
def stored? (d : Driver (Device β)) (answers : List Answer) (c : Command) (a : Nat) : Option UInt8 :=
  if (execute d answers c).failure.isSome then none
  else (c.data? answers).bind fun x => if x.1 ≤ a then x.2[a - x.1]? else none

theorem stored?_of_failure (h : (execute d answers c).failure.isSome) : stored? d answers c a = none := if_pos h

theorem stored?_of_data?_eq_none (h : c.data? answers = none) : stored? d answers c a = none := by
  rw [stored?, h, Option.bind_none, ite_self]

theorem overlay_of_data? {start : Nat} {data : List UInt8} (m : FlatArray) (h : (execute d answers c).failure = none)
    (hdata : c.data? answers = some (start, data)) (a : Nat) :
    m.overlay start data a = (stored? d answers c a).getD (m a) := by
  rw [stored?, h, hdata, if_neg (by decide), Option.bind_some, FlatArray.overlay]
  split_ifs
  · rfl
  · rfl

/-! ### One command -/

theorem execute_write (d : Driver (Device β)) (answers : List Answer) (address : UInt32) (data : List UInt8) :
    execute d answers (.write address data) = Effect.ofOutcome answers .driver
      (d.write address.toNat (min data.length (UInt32.size - 1)) (some data))
      fun _ n => [writtenLine "Wrote" n address] := rfl

theorem execute_fill (d : Driver (Device β)) (answers : List Answer) (address length : UInt32) (byte : UInt8) :
    execute d answers (.fill address length byte) = Effect.ofOutcome answers .driver
      (d.write address.toNat length.toNat (some (List.replicate (min length.toNat maxTransfer) byte)))
      fun _ n => [writtenLine "Filled" n address ++ [plain " with ", colored .cyan (hexNumber 2 byte.toNat)]] := rfl

variable [BlockView β] [ReliableBacking β]

theorem failure_ofOutcome_write (h : d.Ready) {start length : Nat} {data : Option (List UInt8)}
    {lines : Driver (Device β) → Nat → List Styled} :
    (Effect.ofOutcome answers .driver (d.write start length data) lines).failure =
      (d.refuseWrite? start length data).map .driver := by
  rw [Effect.failure_ofOutcome]
  cases hrefuse : d.refuseWrite? start length data with
  | some e =>
    rw [Driver.write, hrefuse]
    rfl
  | none =>
    rw [(Driver.write_becomes h hrefuse).1]
    rfl

theorem array_of_write {start length : Nat} {buffer data : List UInt8} {lines : Driver (Device β) → Nat → List Styled}
    (h : d.Ready)
    (hexecute : execute d answers c = Effect.ofOutcome answers .driver (d.write start length (some buffer)) lines)
    (hdata : c.data? answers = some (start, data)) (htake : length ≤ maxTransfer → buffer.take length = data) (a : Nat) :
    (execute d answers c).driver.array a = (stored? d answers c a).getD (d.array a) := by
  have hdriver : (execute d answers c).driver = (d.write start length (some buffer)).state := by
    rw [hexecute, Effect.driver_ofOutcome.1]
  have hfailure : (execute d answers c).failure = (d.refuseWrite? start length (some buffer)).map .driver := by
    rw [hexecute, failure_ofOutcome_write h]
  cases hrefuse : d.refuseWrite? start length (some buffer) with
  | some e =>
    rw [hrefuse] at hfailure
    rw [stored?_of_failure (by rw [hfailure]; rfl), hdriver, Driver.write, hrefuse]
    rfl
  | none =>
    obtain ⟨-, backing, costs, hd, hbytes⟩ := Driver.write_becomes h hrefuse
    rw [hrefuse] at hfailure
    rw [Option.getD_some, htake (Driver.le_maxTransfer_of_refuseWrite? hrefuse)] at hbytes
    rw [hdriver, Driver.array, hd.backing, hbytes]
    exact overlay_of_data? d.array hfailure hdata a

theorem zeroAll_overlays {k m : Nat} (h : d.Ready) (hm : d.mounted) (hw : d.writable) (hk : k + m ≤ 1024) :
    (zeroAll d (writesFrom k m)).result = .ok () ∧
      (zeroAll d (writesFrom k m)).state.array = d.array.overlay (k * maxTransfer) (List.replicate (m * maxTransfer) 0) := by
  induction m generalizing d k with
  | zero =>
    rw [Nat.zero_mul, List.replicate_zero, FlatArray.overlay_nil]
    exact ⟨rfl, rfl⟩
  | succ m ih =>
    have hrefuse := refuseWrite?_zeros hm hw (show k < 1024 by omega)
    obtain ⟨hok, backing, costs, hd, hbytes⟩ := Driver.write_becomes h hrefuse
    obtain ⟨hrest, harray⟩ := ih hd.ready (hd.mounted.trans hm) (hd.writable.trans hw) (show k + 1 + m ≤ 1024 by omega)
    have htake : zeros.take maxTransfer = List.replicate maxTransfer 0 := by
      rw [zeros, List.take_replicate, Nat.min_self]
    rw [Option.getD_some, htake, ← hd.backing] at hbytes
    rw [writesFrom_succ, zeroAll, Outcome.result_andThen hok, Outcome.state_andThen hok]
    refine ⟨hrest, ?_⟩
    have hcount : (m + 1) * maxTransfer = maxTransfer + m * maxTransfer := by rw [Nat.succ_mul, Nat.add_comm]
    rw [harray, Driver.array, hbytes, Nat.succ_mul, hcount, ← List.replicate_append_replicate, FlatArray.overlay_append,
      List.length_replicate]

/-- A command that succeeds leaves its data in the array, and nothing else is stored. -/
theorem array_execute (h : d.Ready) (answers : List Answer) (c : Command) (a : Nat) :
    (execute d answers c).driver.array a = (stored? d answers c a).getD (d.array a) := by
  -- what has no data may not write
  have hleaves (hdata : c.data? answers = none) (hcovers : ¬ c.Covers answers a) :
      (execute d answers c).driver.array a = (stored? d answers c a).getD (d.array a) := by
    rw [stored?_of_data?_eq_none hdata]
    by_contra hne
    exact hcovers ((execute_permitted h answers c).array a hne).2.2
  cases c with
  | write address data =>
    refine array_of_write h (execute_write d answers address data) rfl (fun hle => ?_) a
    have hsize : UInt32.size - 1 = 4294967295 := rfl
    have hlong : maxTransfer = 1024 := rfl
    exact List.take_of_length_le (by omega)
  | fill address length byte =>
    refine array_of_write h (execute_fill d answers address length byte) rfl (fun hle => ?_) a
    rw [List.take_replicate, Nat.min_eq_left hle, Nat.min_self]
  | format =>
    by_cases hagreed : answers.head? = some (some true)
    · obtain ⟨hdriver, hfailure⟩ := format_of_agreed d hagreed
      by_cases hpermitted : d.mounted ∧ d.writable
      · obtain ⟨hok, harray⟩ := zeroAll_overlays (m := 1024) h hpermitted.1 hpermitted.2 (Nat.le_refl 1024)
        rw [← formatAddresses_eq] at hok harray
        have hsucceeds : (execute d answers .format).failure = none := by
          rw [execute, hfailure, hok]
          rfl
        have hdata : Command.format.data? answers = some (0 * maxTransfer, List.replicate (1024 * maxTransfer) 0) :=
          if_pos hagreed
        rw [execute, hdriver, harray]
        exact overlay_of_data? d.array hsucceeds hdata a
      · obtain ⟨hstate, hresult⟩ := zeroAll_of_refused (not_and_or.1 hpermitted)
        have hfailed : (execute d answers .format).failure.isSome := by
          rw [execute, hfailure]
          rcases hresult with hresult | hresult <;> rw [hresult] <;> rfl
        rw [stored?_of_failure hfailed, execute, hdriver, hstate]
        rfl
    · exact hleaves (if_neg hagreed) fun hcovers => hagreed hcovers.1
  | _ => exact hleaves rfl id

end Commands

/-! ### Sessions -/

namespace Session

variable {s : Session} {a : Nat}

/-- The byte that was stored last at an address by the commands of a session, or else the one that was there before. -/
def lastStored (s : Session) (inputs : List Input) (a : Nat) : UInt8 :=
  ((s.executed inputs).filterMap fun x => stored? x.1.driver x.1.answers x.2 a).getLast?.getD (s.driver.array a)

theorem array_turn (h : s.driver.Ready) {i : Input} {c : Command} (hc : i.command? = some c) (a : Nat) :
    (s.turn i).session.driver.array a = (stored? s.driver s.answers c a).getD (s.driver.array a) := by
  rw [s.session_turn_of_command?_eq_some hc]
  exact array_execute h s.answers c a

/-- What the array holds after some inputs, whether or not they end with the session. -/
theorem array_after (h : s.driver.Ready) (inputs : List Input) :
    (s.after (beforeLast inputs)).driver.array = s.lastStored inputs := by
  funext a
  unfold lastStored executed
  generalize beforeLast inputs = before
  induction before generalizing s with
  | nil => rfl
  | cons i rest ih =>
    have hrest := ih (ready_turn h i)
    have hafter : s.after (i :: rest) = (s.turn i).session.after rest := rfl
    rw [hafter, hrest, visits]
    cases hc : i.command? with
    | none =>
      rw [List.filterMap_cons_none (by rw [hc, Option.map_none]), s.session_turn_of_command?_eq_none hc]
    | some c =>
      rw [List.filterMap_cons_some (by rw [hc, Option.map_some]), array_turn h hc]
      cases hstored : stored? s.driver s.answers c a with
      | none =>
        rw [Option.getD_none, List.filterMap_cons_none]
        exact hstored
      | some b =>
        rw [Option.getD_some, List.filterMap_cons_some, List.getLast?_cons, Option.getD_some]
        exact hstored

end Session

end DiskArray.Shell
