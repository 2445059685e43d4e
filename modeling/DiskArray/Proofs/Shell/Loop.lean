import DiskArray.Proofs.Shell.Grammar
import DiskArray.Proofs.Shell.Turns

/-!
# The loop of a session

A session takes its inputs in order up to the first one that ends it (`Input.isLast`), each at a prompt of its own, and
is then shut down. What the inputs before have done is the fold of their commands over the driver and the answers
(`Session.after_eq`); inputs without a command do nothing. However the session ended, the shutdown is the same one: the
array is unmounted, which cannot fail, the signatures are saved if there are any, and the hit rate is shown if the cache
is in use (`Session.ShutsDown`).
-/

namespace DiskArray.Shell

open Text

/-! ### Inputs -/

/-- The session is over after this. A line ends it by its first word. -/
def Input.isLast : Input → Bool
  | .line text => (words (trim text)).head? == some "exit" || (words (trim text)).head? == some "quit"
  | .interrupt => false
  | .endOfInput => true
  | .failure _ => true

/-- The inputs that a session takes before its last one. -/
def beforeLast (inputs : List Input) : List Input := inputs.takeWhile (!·.isLast)

/-- The input that ends a session. When the inputs are used up, the input ends. -/
def lastInput (inputs : List Input) : Input := (inputs.find? (·.isLast)).getD .endOfInput

theorem isLast_lastInput (inputs : List Input) : (lastInput inputs).isLast := by
  unfold lastInput
  cases h : inputs.find? (·.isLast) with
  | none => rfl
  | some i => exact List.find?_some h

theorem beforeLast_append (inputs later : List Input) :
    beforeLast (beforeLast inputs ++ lastInput inputs :: later) = beforeLast inputs ∧
      lastInput (beforeLast inputs ++ lastInput inputs :: later) = lastInput inputs := by
  have hlast := isLast_lastInput inputs
  have hbefore : ∀ i ∈ beforeLast inputs, !i.isLast := List.all_eq_true.1 List.all_takeWhile
  have hfind : (beforeLast inputs).find? (·.isLast) = none := by
    rw [List.find?_eq_none]
    intro i hi
    simpa using hbefore i hi
  refine ⟨?_, ?_⟩
  · rw [beforeLast, List.takeWhile_append_of_pos hbefore, List.takeWhile_cons_of_neg (by simpa using hlast),
      List.append_nil]
  · rw [lastInput, List.find?_append, hfind, Option.none_or, List.find?_cons_of_pos hlast, Option.getD_some]

theorem parseNamed_eq_exit_iff {name : String} {args : List String} :
    parseNamed name args = .ok .exit ↔ name = "exit" ∨ name = "quit" := by
  rw [parseNamed_eq_ok_iff]
  constructor
  · intro h
    cases h with
    | bare hname => simpa [bareCommands] using hname
  · rintro (rfl | rfl)
    · exact .bare (by simp [bareCommands])
    · exact .bare (by simp [bareCommands])

theorem isLast_line_iff (text : String) : (Input.line text).isLast ↔ parseCommand (trim text) = .ok .exit := by
  unfold Input.isLast parseCommand
  cases hwords : words (trim text) with
  | nil => simp [hwords]
  | cons name args => simp [hwords, parseNamed_eq_exit_iff]

theorem Input.command?_line (text : String) : (Input.line text).command? = (parseCommand (trim text)).toOption := rfl

theorem Input.command?_eq_some_iff {text : String} {c : Command} :
    (Input.line text).command? = some c ↔ parseCommand (trim text) = .ok c := by
  rw [command?_line]
  cases parseCommand (trim text) with
  | error e => exact ⟨nofun, nofun⟩
  | ok c' => simp [Except.toOption]

theorem Input.command?_of_isEmpty {text : String} (h : (trim text).isEmpty) : (Input.line text).command? = none := by
  have hempty : trim text = "" := by simpa using h
  have hparse : parseCommand "" = .error .empty := by simp [parseCommand, words, wordsOfChars]
  rw [command?_line, hempty, hparse]
  rfl

/-! ### Turns -/

/-- The driver and the answers that a command leaves. -/
def carryOut (x : ImageDriver × List Answer) (c : Command) : ImageDriver × List Answer :=
  let effect := execute x.1 x.2 c
  (effect.driver, effect.answers)

namespace Session

variable {s : Session} {i : Input} {inputs : List Input}

theorem ends_turn (s : Session) (i : Input) : (s.turn i).ends = i.isLast := by
  cases i with
  | line text =>
    rw [Bool.eq_iff_iff, isLast_line_iff]
    simp only [turn, line]
    by_cases hempty : (trim text).isEmpty
    · have hnone := Input.command?_of_isEmpty hempty
      rw [if_pos hempty]
      constructor
      · intro h
        cases h
      · intro h
        rw [Input.command?_eq_some_iff.2 h] at hnone
        cases hnone
    · rw [if_neg hempty]
      cases parseCommand (trim text) with
      | error e => constructor <;> intro h <;> cases h
      | ok c => simp [command]
  | interrupt => rfl
  | endOfInput => rfl
  | failure reason => rfl

theorem session_turn_of_command?_eq_none (s : Session) (h : i.command? = none) : (s.turn i).session = s := by
  cases i with
  | line text =>
    simp only [turn, line]
    split_ifs
    · rfl
    · cases hparse : parseCommand (trim text) with
      | error e => rfl
      | ok c =>
        rw [Input.command?_eq_some_iff.2 hparse] at h
        cases h
  | interrupt => rfl
  | endOfInput => rfl
  | failure reason => rfl

theorem session_turn_of_command?_eq_some (s : Session) {c : Command} (h : i.command? = some c) :
    (s.turn i).session = { s with
      driver := (carryOut (s.driver, s.answers) c).1
      answers := (carryOut (s.driver, s.answers) c).2 } := by
  cases i with
  | line text =>
    have hparse := Input.command?_eq_some_iff.1 h
    have hne : ¬ (trim text).isEmpty := by
      intro hempty
      rw [Input.command?_of_isEmpty hempty] at h
      cases h
    simp only [turn, line]
    rw [if_neg hne, hparse]
    rfl
  | interrupt => cases h
  | endOfInput => cases h
  | failure reason => cases h

theorem session_turn_of_isLast (s : Session) (h : i.isLast) : (s.turn i).session = s := by
  cases hc : i.command? with
  | none => exact s.session_turn_of_command?_eq_none hc
  | some c =>
    cases i with
    | line text =>
      rw [isLast_line_iff] at h
      rw [Input.command?_eq_some_iff.2 h] at hc
      obtain rfl := Option.some.inj hc
      rw [s.session_turn_of_command?_eq_some (Input.command?_eq_some_iff.2 h)]
      rfl
    | _ => cases hc

/-! ### Runs -/

/-- The session after inputs that do not end it. -/
def after (s : Session) (inputs : List Input) : Session := inputs.foldl (fun t i => (t.turn i).session) s

/-- The inputs, each with the session that takes it. -/
def visits (s : Session) : List Input → List (Session × Input)
  | [] => []
  | i :: rest => (s, i) :: (s.turn i).session.visits rest

theorem after_eq (s : Session) (inputs : List Input) :
    s.after inputs = { s with
      driver := ((inputs.filterMap Input.command?).foldl carryOut (s.driver, s.answers)).1
      answers := ((inputs.filterMap Input.command?).foldl carryOut (s.driver, s.answers)).2 } := by
  induction inputs generalizing s with
  | nil => rfl
  | cons i rest ih =>
    rw [after, List.foldl_cons]
    cases hc : i.command? with
    | none =>
      rw [s.session_turn_of_command?_eq_none hc, List.filterMap_cons_none hc]
      exact ih s
    | some c =>
      rw [s.session_turn_of_command?_eq_some hc, List.filterMap_cons_some hc, List.foldl_cons]
      exact ih _

theorem map_snd_visits (s : Session) (inputs : List Input) : (s.visits inputs).map Prod.snd = inputs := by
  induction inputs generalizing s with
  | nil => rfl
  | cons i rest ih => rw [visits, List.map_cons, ih]

theorem leads_after (s : Session) (inputs : List Input) : s.Leads (s.after inputs) := by
  induction inputs generalizing s with
  | nil => exact .refl s
  | cons i rest ih => exact (s.leads_turn i).trans (ih _)

theorem run_eq (s : Session) (inputs : List Input) :
    s.run (inputs.map .input) =
      ((s.visits (beforeLast inputs)).map (fun v => v.1.stepOf (v.1.turn v.2) {}) ++
          [(s.after (beforeLast inputs)).stepOf ((s.after (beforeLast inputs)).turn (lastInput inputs))
            (s.after (beforeLast inputs)).shutdown.output],
        (s.after (beforeLast inputs)).shutdown.session) := by
  induction inputs generalizing s with
  | nil => rfl
  | cons i rest ih =>
    rw [List.map_cons]
    cases hlast : i.isLast with
    | true =>
      have hbefore : beforeLast (i :: rest) = [] := by simp [beforeLast, hlast]
      have hinput : lastInput (i :: rest) = i := by simp [lastInput, hlast]
      rw [run_of_ends ((s.ends_turn i).trans hlast), finish, hbefore, hinput, s.session_turn_of_isLast hlast]
      rfl
    | false =>
      have hbefore : beforeLast (i :: rest) = i :: beforeLast rest := by simp [beforeLast, hlast]
      have hinput : lastInput (i :: rest) = lastInput rest := by simp [lastInput, hlast]
      rw [run_of_not_ends ((s.ends_turn i).trans hlast), ih, hbefore, hinput]
      rfl

/-! ### Shutdown -/

theorem ready_after (h : s.driver.Ready) (inputs : List Input) : (s.after inputs).driver.Ready := by
  have hfold (commands : List Command) (x : ImageDriver × List Answer) (hx : x.1.Ready) :
      (commands.foldl carryOut x).1.Ready := by
    induction commands generalizing x with
    | nil => exact hx
    | cons c commands ih => exact ih (carryOut x c) (ready_execute hx x.2 c)
  rw [after_eq]
  exact hfold _ _ h

/-- What comes of saving the signatures, which is attempted if there are any. -/
def saving? (s : Session) : Option (Except FileError Store) :=
  if s.driver.device.signatures.isEmpty then none
  else some (s.driver.device.signatures.save s.store (Signature.sidecarPath s.config.image))

/-- What the shutdown of a session does and shows. -/
structure ShutsDown (s : Session) (c : Closing) : Prop where
  unmount : s.driver.mounted → s.driver.unmount.result = .ok ()
  mounted : c.session.driver.mounted = false
  tally : c.session.driver.device.tally =
    if s.driver.mounted then s.driver.device.tally.bump .unmount else s.driver.device.tally
  store : c.session.store =
    match s.saving? with
    | some (.ok saved) => saved
    | _ => s.store
  shown : c.output.shown =
    (match s.saving? with
    | some (.error e) =>
      (Output.line [colored .yellow "⚠️  Could not save signatures:", plain (" " ++ e.message)]).shown
    | _ => []) ++ (Output.line [colored .brightYellow "GoodBye!"]).shown
  diagnostics : c.output.diagnostics =
    (if s.driver.mounted then [.record (Driver.record .info "array unmounted")] else []) ++
      if s.driver.cache.isEnabled then [.text (s.driver.cache.statistics ++ "\n")] else []

theorem unmountAtEnd_spec (h : s.driver.Ready) :
    s.unmountAtEnd.session.driver.mounted = false ∧
      s.unmountAtEnd.session.driver.cache = s.driver.cache ∧
      (s.unmountAtEnd.session.driver.device.tally =
        if s.driver.mounted then s.driver.device.tally.bump .unmount else s.driver.device.tally) ∧
      s.unmountAtEnd.output.shown = [] ∧
      s.unmountAtEnd.output.diagnostics =
        if s.driver.mounted then [.record (Driver.record .info "array unmounted")] else [] := by
  unfold unmountAtEnd
  by_cases hm : s.driver.mounted
  · simp only [if_pos hm, Driver.unmount_eq h hm]
    exact ⟨trivial, trivial, trivial, rfl, rfl⟩
  · simp only [if_neg hm]
    exact ⟨by simpa using hm, trivial, trivial, trivial, trivial⟩

theorem saveSignatures_spec (s : Session) :
    s.saveSignatures.session.driver.mounted = s.driver.mounted ∧
      s.saveSignatures.session.driver.cache = s.driver.cache ∧
      s.saveSignatures.session.driver.device.tally = s.driver.device.tally ∧
      s.saveSignatures.output.diagnostics = [] ∧
      (s.saveSignatures.session.store =
        match s.saving? with
        | some (.ok saved) => saved
        | _ => s.store) ∧
      s.saveSignatures.output.shown =
        match s.saving? with
        | some (.error e) =>
          (Output.line [colored .yellow "⚠️  Could not save signatures:", plain (" " ++ e.message)]).shown
        | _ => [] := by
  unfold saveSignatures saving?
  by_cases hempty : s.driver.device.signatures.isEmpty
  · simp only [if_pos hempty]
    exact ⟨trivial, trivial, trivial, trivial, trivial, trivial⟩
  · simp only [if_neg hempty]
    cases s.driver.device.signatures.save s.store (Signature.sidecarPath s.config.image) with
    | ok saved => exact ⟨rfl, rfl, rfl, rfl, rfl, rfl⟩
    | error e => exact ⟨rfl, rfl, rfl, rfl, rfl, rfl⟩

theorem diagnostics_showHitRate (s : Session) :
    s.showHitRate.output.diagnostics =
      if s.driver.cache.isEnabled then [.text (s.driver.cache.statistics ++ "\n")] else [] := by
  unfold showHitRate
  split_ifs
  · rfl
  · rfl

theorem shutsDown (h : s.driver.Ready) : s.ShutsDown s.shutdown := by
  obtain ⟨hmounted, hcache, htally, hshown, hdiagnostics⟩ := unmountAtEnd_spec h
  obtain ⟨hmounted', hcache', htally', hdiagnostics', hstore', hshown'⟩ := s.unmountAtEnd.session.saveSignatures_spec
  obtain ⟨hconfig, hstore, hsignatures⟩ := s.stored_unmountAtEnd
  -- nothing that is saved was touched before it is saved
  have hsaving : s.unmountAtEnd.session.saving? = s.saving? := by
    rw [saving?, saving?, hsignatures, hconfig, hstore]
  rw [hsaving] at hstore' hshown'
  refine ⟨?_, ?_, ?_, ?_, ?_, ?_⟩
  · intro hm
    rw [Driver.unmount_eq h hm]
  · rw [session_shutdown, hmounted', hmounted]
  · rw [session_shutdown, htally', htally]
  · rw [session_shutdown, hstore', hstore]
  · simp only [shutdown, Closing.andThen, Output.shown_append, hshown, hshown', showHitRate_eq, sayGoodBye]
    rw [List.nil_append, List.append_nil]
  · have hcache'' := hcache'.trans hcache
    simp only [shutdown, Closing.andThen, Output.diagnostics_append, hdiagnostics, hdiagnostics',
      diagnostics_showHitRate, hcache'']
    rw [List.append_nil]
    exact List.append_nil _

end Session

/-! ### Whole sessions -/

theorem ready_of_start {config : Config} {surroundings : Surroundings} {answers : List Answer} {store : Store}
    {s : Session} (h : (start config surroundings answers store).session = .ok s) : s.driver.Ready := by
  obtain ⟨d, hrun, rfl⟩ := start_eq_ok h
  obtain ⟨place, opened, signatures, -, -, -, -, rfl⟩ := Boot.run_eq_ok hrun
  exact Boot.ready_built

/-- A session is a fold over its input, whatever ends it. The inputs are taken in order, each at one prompt, up to the
first that ends the session, and nothing is taken after that; a command that fails ends nothing, and an input that is no
command changes nothing. Then the session is shut down once, as it was left by the commands before. -/
theorem session_folds {config : Config} {surroundings : Surroundings} {answers : List Answer} {store : Store}
    {s : Session} (hs : (start config surroundings answers store).session = .ok s) (inputs : List Input) :
    let before := beforeLast inputs
    let last := lastInput inputs
    let final := s.after before
    let folded := (before.filterMap Input.command?).foldl carryOut (s.driver, s.answers)
    let transcript := session config surroundings answers store (inputs.map .input)
    (∀ text, (Input.line text).isLast ↔ parseCommand (trim text) = .ok .exit) ∧
    (∀ text, (trim text).isEmpty → (Input.line text).command? = none) ∧
    (∀ (t : Session) (i : Input), (t.turn i).ends = i.isLast ∧ (i.command? = none → (t.turn i).session = t)) ∧
    (∀ later, session config surroundings answers store ((before ++ last :: later).map .input) = transcript) ∧
    transcript.steps =
      (s.visits before).map (fun v => v.1.stepOf (v.1.turn v.2) {}) ++
        [final.stepOf (final.turn last) final.shutdown.output] ∧
    (s.visits before).map Prod.snd = before ∧
    transcript.steps.length = before.length + 1 ∧
    final = { s with driver := folded.1, answers := folded.2 } ∧
    transcript.store = final.shutdown.session.store ∧
    final.ShutsDown final.shutdown := by
  intro before last final folded transcript
  obtain ⟨-, hsteps, hstore⟩ := session_of_start hs (inputs.map .input)
  rw [s.run_eq inputs] at hsteps hstore
  have hvisits := s.map_snd_visits before
  refine ⟨isLast_line_iff, fun text => Input.command?_of_isEmpty, fun t i => ⟨t.ends_turn i, ?_⟩, ?_, hsteps, hvisits,
    ?_, s.after_eq before, hstore, Session.shutsDown (Session.ready_after (ready_of_start hs) before)⟩
  · exact t.session_turn_of_command?_eq_none
  · intro later
    obtain ⟨hbefore, hlast⟩ := beforeLast_append inputs later
    show session config surroundings answers store ((before ++ last :: later).map .input) =
      session config surroundings answers store (inputs.map .input)
    simp only [session, hs]
    rw [s.run_eq inputs, s.run_eq, hbefore, hlast]
  · show List.length (session config surroundings answers store (inputs.map .input)).steps = before.length + 1
    have hlength := congrArg List.length hvisits
    rw [List.length_map] at hlength
    rw [hsteps, List.length_append, List.length_map, hlength]
    rfl

/-- A new array that is mounted and not formatted, with lines that do nothing, before the input is left by its first
word. -/
theorem session_folds_of_quit :
    let inputs : List Input :=
      [.line "mount", .line "  ", .interrupt, .line "nonsense", .line " format", .line "quit now", .line "unmount"]
    ∃ s, (start {} ⟨"user", none, none, none⟩ [some false] .empty).session = .ok s ∧
      beforeLast inputs = [.line "mount", .line "  ", .interrupt, .line "nonsense", .line " format"] ∧
      lastInput inputs = .line "quit now" ∧
      (session {} ⟨"user", none, none, none⟩ [some false] .empty (inputs.map .input)).steps.length = 6 ∧
      (s.after (beforeLast inputs)).driver = ([Command.mount, .format].foldl carryOut (s.driver, s.answers)).1 ∧
      (session {} ⟨"user", none, none, none⟩ [some false] .empty (inputs.map .input)).store =
        (s.after (beforeLast inputs)).shutdown.session.store ∧
      (s.after (beforeLast inputs)).ShutsDown (s.after (beforeLast inputs)).shutdown := by
  intro inputs
  obtain ⟨d, hrun⟩ : ∃ d, (Boot.run {} .empty).result = .ok d := Boot.run_empty rfl rfl
  have hs := start_of_run hrun ⟨"user", none, none, none⟩ [some false]
  have hbefore : beforeLast inputs =
      [.line "mount", .line "  ", .interrupt, .line "nonsense", .line " format"] := by decide +kernel
  have hlast : lastInput inputs = .line "quit now" := by decide +kernel
  have hcommands : (beforeLast inputs).filterMap Input.command? = [.mount, .format] := by decide +kernel
  obtain ⟨-, -, -, -, -, -, hlength, hfinal, hstore, hshuts⟩ := session_folds hs inputs
  refine ⟨_, hs, hbefore, hlast, ?_, ?_, hstore, hshuts⟩
  · rw [hlength, hbefore]
    rfl
  · rw [hfinal, hcommands]

end DiskArray.Shell
