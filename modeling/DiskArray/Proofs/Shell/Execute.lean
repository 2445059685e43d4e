import DiskArray.Proofs.Driver.Lockstep
import DiskArray.Shell.Execute

/-!
# Commands and the cache

One command carried out by two drivers that differ in their caches. It ends alike, asks the same, and shows the
user the same text (`execute_alike`), unless it is about the cache or shows the counts of the device. A command
about the cache changes nothing but the cache (`executeCache_alike`).
-/

namespace DiskArray.Shell

open Text

variable {β : Type} {answers : List Answer}

@[simp] theorem Output.shown_append (a b : Output) : (a ++ b).shown = a.shown ++ b.shown := rfl

@[simp] theorem Output.diagnostics_append (a b : Output) : (a ++ b).diagnostics = a.diagnostics ++ b.diagnostics := rfl

@[simp] theorem Output.shown_logged (log : List Log.Record) : (Output.logged log).shown = [] := rfl

theorem Output.shown_lines_singleton (spans : Styled) : (Output.lines [spans]).shown = (Output.line spans).shown := by
  rw [Output.lines, List.flatMap_singleton, Output.line]

theorem Effect.driver_ofOutcome {ε α : Type} {wrap : ε → CommandError} {o : Outcome (Driver (Device β)) ε α}
    {lines : Driver (Device β) → α → List Styled} :
    (Effect.ofOutcome answers wrap o lines).driver = o.state ∧
      (Effect.ofOutcome answers wrap o lines).answers = answers := by
  unfold Effect.ofOutcome
  split
  · exact ⟨rfl, rfl⟩
  · exact ⟨rfl, rfl⟩

theorem Effect.ofOutcome_unseen {ε α : Type} (wrap : ε → CommandError) (o : Outcome (Driver (Device β)) ε α)
    (lines lines' : Driver (Device β) → α → List Styled) :
    let e := Effect.ofOutcome answers wrap o lines
    let e' := Effect.ofOutcome answers wrap o lines'
    e.driver = e'.driver ∧ e.answers = e'.answers ∧ e.asked = e'.asked ∧ e.failure = e'.failure ∧
      e.output.diagnostics = e'.output.diagnostics := by
  unfold Effect.ofOutcome
  cases o.result with
  | ok a => exact ⟨rfl, rfl, rfl, rfl, rfl⟩
  | error e => exact ⟨rfl, rfl, rfl, rfl, rfl⟩

theorem Effect.shown_ofOutcome {ε α : Type} {wrap : ε → CommandError} {o : Outcome (Driver (Device β)) ε α}
    {lines : Driver (Device β) → α → List Styled} {a : α} (h : o.result = .ok a) :
    (Effect.ofOutcome answers wrap o lines).output.shown = (Output.lines (lines o.state a)).shown := by
  unfold Effect.ofOutcome
  rw [h]
  rfl

variable [Backing β] [BlockView β] [ReliableBacking β]

/-- The drivers agree, whatever their caches and their counts are. -/
abbrev Alike (d d' : Driver (Device β)) : Prop := d.Agree (fun _ _ => True) d'

theorem stable_true : Costs.Stable fun _ _ => True := ⟨fun _ _ _ => trivial, fun _ _ _ => trivial⟩

/-- Two effects of a command that ended alike. -/
structure Effect.Alike (e e' : Effect β) : Prop where
  driver : Shell.Alike e.driver e'.driver
  answers : e.answers = e'.answers
  asked : e.asked = e'.asked
  failure : e.failure = e'.failure

/-- Two effects that are the same to the user. -/
def Effect.Same (e e' : Effect β) : Prop := e.Alike e' ∧ e.output.shown = e'.output.shown

variable {d d' : Driver (Device β)}

theorem Effect.same_shows (h : Shell.Alike d d') (answers : List Answer) (lines : List Styled) :
    (Effect.shows d answers lines).Same (Effect.shows d' answers lines) :=
  ⟨⟨h, rfl, rfl, rfl⟩, rfl⟩

theorem Effect.same_ofOutcome {ε α : Type} {wrap : ε → CommandError} {o o' : Outcome (Driver (Device β)) ε α}
    {lines lines' : Driver (Device β) → α → List Styled} (h : o.Same Shell.Alike o')
    (hlines : ∀ d d' a, Shell.Alike d d' → lines d a = lines' d' a) :
    (Effect.ofOutcome answers wrap o lines).Same (Effect.ofOutcome answers wrap o' lines') := by
  obtain ⟨result, s, log⟩ := o
  obtain ⟨result', s', log'⟩ := o'
  obtain ⟨hresult, hstate⟩ := h
  obtain rfl : result = result' := hresult
  cases result with
  | ok a =>
    refine ⟨⟨hstate, rfl, rfl, rfl⟩, ?_⟩
    simp only [Effect.ofOutcome, Output.shown_append, Output.shown_logged, hlines s s' a hstate]
  | error e => exact ⟨⟨hstate, rfl, rfl, rfl⟩, rfl⟩

theorem Effect.Same.after {e e' : Effect β} (h : e.Same e') (asked : Option Question) (before : Output) :
    Effect.Same { e with asked, output := before ++ e.output } { e' with asked, output := before ++ e'.output } := by
  obtain ⟨⟨hdriver, hanswers, -, hfailure⟩, hshown⟩ := h
  refine ⟨⟨hdriver, hanswers, rfl, hfailure⟩, ?_⟩
  simp only [Output.shown_append, hshown]

/-! ### Formatting -/

theorem zeroAll_same (h : Alike d d') (addresses : List Nat) :
    (zeroAll d addresses).Same Alike (zeroAll d' addresses) := by
  induction addresses generalizing d d' with
  | nil => exact Outcome.same_done h ()
  | cons address rest ih =>
    exact (h.write stable_true address maxTransfer (some zeros)).andThen fun _ _ _ hstate => ih hstate

theorem format_same (h : Alike d d') (answers : List Answer) : (format d answers).Same (format d' answers) := by
  unfold format
  cases answers.head?.join with
  | none => exact ⟨⟨h, rfl, rfl, rfl⟩, rfl⟩
  | some agreed =>
    cases agreed with
    | false => exact ⟨⟨h, rfl, rfl, rfl⟩, rfl⟩
    | true =>
      exact (Effect.same_ofOutcome (zeroAll_same h formatAddresses) fun _ _ _ _ => rfl).after _ _

/-! ### Commands -/

theorem executeRead_same (h : Alike d d') (answers : List Answer) (address length : UInt32) :
    (executeRead d answers address length).Same (executeRead d' answers address length) := by
  obtain ⟨hbuffer, hsame⟩ := h.read stable_true address.toNat length.toNat
    (some (List.replicate (min length.toNat maxTransfer) 0))
  unfold executeRead
  dsimp only
  rw [hbuffer]
  exact Effect.same_ofOutcome hsame fun _ _ _ _ => rfl

theorem executeWrite_same (h : Alike d d') (answers : List Answer) (address : UInt32) (data : List UInt8) :
    (executeWrite d answers address data).Same (executeWrite d' answers address data) := by
  unfold executeWrite
  exact Effect.same_ofOutcome (h.write stable_true _ _ _) fun _ _ _ _ => rfl

theorem executeFill_same (h : Alike d d') (answers : List Answer) (address length : UInt32) (byte : UInt8) :
    (executeFill d answers address length byte).Same (executeFill d' answers address length byte) := by
  unfold executeFill
  exact Effect.same_ofOutcome (h.write stable_true _ _ _) fun _ _ _ _ => rfl

theorem signedLine_congr (h : Alike d d') (disk block : UInt8) : signedLine d disk block = signedLine d' disk block := by
  rw [signedLine, signedLine, h.signatures]

theorem execute_alike (h : Alike d d') (answers : List Answer) {c : Command} (hcache : ∀ r, c ≠ .cache r) :
    (execute d answers c).Alike (execute d' answers c) ∧
      (c ≠ .status → (execute d answers c).output.shown = (execute d' answers c).output.shown) := by
  have of_same {e e' : Effect β} (hsame : e.Same e') : e.Alike e' ∧ (c ≠ .status → e.output.shown = e'.output.shown) :=
    ⟨hsame.1, fun _ => hsame.2⟩
  cases c with
  | help => exact of_same (Effect.same_shows h answers _)
  | mount => exact of_same (Effect.same_ofOutcome h.mount fun _ _ _ _ => rfl)
  | unmount => exact of_same (Effect.same_ofOutcome h.unmount fun _ _ _ _ => rfl)
  | grant => exact of_same (Effect.same_shows (h.permit true) answers _)
  | revoke => exact of_same (Effect.same_shows (h.permit false) answers _)
  | status => exact ⟨⟨h, rfl, rfl, rfl⟩, fun hne => absurd rfl hne⟩
  | read address length => exact of_same (executeRead_same h answers address length)
  | write address data => exact of_same (executeWrite_same h answers address data)
  | fill address length byte => exact of_same (executeFill_same h answers address length byte)
  | sign disk block =>
    have hlines (s s' : Driver (Device β)) (hstate : Alike s s') :
        [signedLine s disk block] = [signedLine s' disk block] := by
      rw [signedLine_congr hstate]
    exact of_same (Effect.same_ofOutcome (h.sign disk block) fun s s' _ hstate => hlines s s' hstate)
  | cache r => exact absurd rfl (hcache r)
  | format => exact of_same (format_same h answers)
  | exit => exact of_same (Effect.same_shows h answers _)

theorem Alike.serveCache (h : Alike d d') (r : Cache.Request) : Alike (d.serveCache r).state d' :=
  ⟨⟨h.left.backing, h.left.mounted, h.left.coherent.serve r⟩, h.right, h.backing, h.signatures, h.mounted,
    h.writable, trivial⟩

theorem executeCache_alike (h : Alike d d') (answers : List Answer) (r : CacheCommand) :
    Alike (executeCache d answers r).driver d' ∧ (executeCache d answers r).answers = answers := by
  unfold executeCache
  cases r with
  | create n =>
    rw [Effect.driver_ofOutcome.1, Effect.driver_ofOutcome.2]
    exact ⟨Alike.serveCache h _, rfl⟩
  | resize n =>
    rw [Effect.driver_ofOutcome.1, Effect.driver_ofOutcome.2]
    exact ⟨Alike.serveCache h _, rfl⟩
  | destroy =>
    rw [Effect.driver_ofOutcome.1, Effect.driver_ofOutcome.2]
    exact ⟨Alike.serveCache h _, rfl⟩
  | stats => exact ⟨h, rfl⟩

theorem ready_execute (h : d.Ready) (answers : List Answer) (c : Command) : (execute d answers c).driver.Ready := by
  have halike : Alike d d := ⟨h, h, rfl, rfl, rfl, rfl, trivial⟩
  by_cases hcache : ∀ r, c ≠ .cache r
  · exact (execute_alike halike answers hcache).1.driver.left
  · obtain ⟨r, hr⟩ := not_forall.1 hcache
    obtain rfl := not_not.1 hr
    exact (executeCache_alike halike answers r).1.left

end DiskArray.Shell
