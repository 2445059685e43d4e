import DiskArray.Proofs.Shell.History

/-!
# The cache is transparent

Two sessions on the same files that differ in their caches: in what is configured, and in the lines about the cache
that the user enters. To all other lines both answer alike, but for the counts that the status shows, and both leave
the same files (`session_transparent`).
-/

namespace DiskArray.Shell

open Text

/-! ### Lines about the cache -/

namespace Input

/-- A line about the cache. -/
def isCache (i : Input) : Bool :=
  match i.command? with
  | some (.cache _) => true
  | _ => false

/-- A line that asks for the state of the array, which tells of the cache and the counts. -/
def isStatus (i : Input) : Bool := i.command? == some .status

end Input

/-- What the user entered but for the lines about the cache. -/
def withoutCache (inputs : List Input) : List Input := inputs.filter (!·.isCache)

/-- What the user sees at a prompt: the prompt, the text, and the question that is asked. A line about the cache
or the status is left out. -/
def seenAt (i : Input) (step : Step) : List (Input × Prompt × Styled × Option Question) :=
  if i.isCache || i.isStatus then [] else [(i, step.prompt, step.output.shown, step.asked)]

/-- What the user sees at all prompts. After the last line the input ends. -/
def seen (inputs : List Input) (steps : List Step) : List (Input × Prompt × Styled × Option Question) :=
  ((inputs ++ [Input.endOfInput]).zip steps).flatMap fun (i, step) => seenAt i step

theorem seen_cons (i : Input) (rest : List Input) (step : Step) (steps : List Step) :
    seen (i :: rest) (step :: steps) = seenAt i step ++ seen rest steps := by
  simp [seen]

theorem seen_last (i : Input) (rest : List Input) (step : Step) : seen (i :: rest) [step] = seenAt i step := by
  simp [seen]

theorem seenAt_cache {i : Input} (h : i.isCache) (step : Step) : seenAt i step = [] := by simp [seenAt, h]

namespace Session

/-- The command of a line with the error if it fails; a command about the cache is left out. -/
def outcomeAt (s : Session) (i : Input) : List (Command × Option CommandError) :=
  match i.command? with
  | none => []
  | some c => if i.isCache then [] else [(c, (execute s.driver s.answers c).failure)]

/-- The commands of a session, each with the error if it failed. -/
def outcomes (s : Session) : List Input → List (Command × Option CommandError)
  | [] => []
  | i :: rest => s.outcomeAt i ++ if (s.turn i).ends then [] else (s.turn i).session.outcomes rest

end Session

/-- The commands of a session from the boot on, with their errors. -/
def outcomes (config : Config) (surroundings : Surroundings) (answers : List Answer) (store : Store)
    (inputs : List Input) : List (Command × Option CommandError) :=
  match (start config surroundings answers store).session with
  | .ok s => s.outcomes inputs
  | .error _ => []

/-! ### Sessions that differ in their caches -/

namespace Session

/-- Two sessions on equal files that differ in their caches and in what is configured for them. -/
structure Alike (s s' : Session) : Prop where
  driver : Shell.Alike s.driver s'.driver
  answers : s.answers = s'.answers
  surroundings : s.surroundings = s'.surroundings
  image : s.config.image = s'.config.image

variable {s s' : Session} {i : Input}

theorem Alike.refl_right (h : s.Alike s') : s'.Alike s' :=
  ⟨⟨h.driver.right, h.driver.right, rfl, rfl, rfl, rfl, trivial⟩, rfl, rfl, rfl⟩

theorem Alike.prompt (h : s.Alike s') : s.prompt = s'.prompt := by
  rw [Session.prompt, Session.prompt, mode, mode, h.surroundings, h.driver.mounted, h.driver.writable]

/-! ### Turns -/

/-- Two turns after which the sessions are alike again. -/
structure AlikeTurns (t t' : Turn) : Prop where
  session : t.session.Alike t'.session
  asked : t.asked = t'.asked
  ends : t.ends = t'.ends

theorem Alike.command (h : s.Alike s') {c : Command} (hcache : ∀ r, c ≠ .cache r) :
    AlikeTurns (s.command c) (s'.command c) ∧
      (c ≠ .status → (s.command c).output.shown = (s'.command c).output.shown) := by
  obtain ⟨heffect, hshown⟩ := execute_alike h.driver s.answers hcache
  unfold Session.command
  rw [← h.answers]
  refine ⟨⟨⟨heffect.driver, heffect.answers, h.surroundings, h.image⟩, heffect.asked, rfl⟩, fun hc => ?_⟩
  simp only [Output.shown_append, hshown hc, heffect.failure]

theorem Alike.turn (h : s.Alike s') (hcache : i.isCache = false) :
    AlikeTurns (s.turn i) (s'.turn i) ∧
      (i.isStatus = false → (s.turn i).output.shown = (s'.turn i).output.shown) := by
  cases i with
  | line text =>
    simp only [Session.turn, Session.line]
    by_cases hempty : (trim text).isEmpty
    · rw [if_pos hempty, if_pos hempty]
      exact ⟨⟨h, rfl, rfl⟩, fun _ => rfl⟩
    · rw [if_neg hempty, if_neg hempty]
      cases hparse : parseCommand (trim text) with
      | error e => exact ⟨⟨h, rfl, rfl⟩, fun _ => rfl⟩
      | ok c =>
        have hcommand : Input.command? (.line text) = some c := by simp [Input.command?, hparse, Except.toOption]
        obtain ⟨hturn, hshown⟩ := h.command (c := c) fun r hr => by
          subst hr
          simp [Input.isCache, hcommand] at hcache
        refine ⟨hturn, fun hstatus => hshown fun hc => ?_⟩
        subst hc
        simp [Input.isStatus, hcommand] at hstatus
  | interrupt => exact ⟨⟨h, rfl, rfl⟩, fun _ => rfl⟩
  | endOfInput => exact ⟨⟨h, rfl, rfl⟩, fun _ => rfl⟩
  | failure reason => exact ⟨⟨h, rfl, rfl⟩, fun _ => rfl⟩

theorem Alike.turn_cache (h : s.Alike s') (hcache : i.isCache) :
    (s.turn i).session.Alike s' ∧ (s.turn i).ends = false := by
  cases i with
  | line text =>
    simp only [Session.turn, Session.line]
    by_cases hempty : (trim text).isEmpty
    · rw [if_pos hempty]
      exact ⟨h, rfl⟩
    · rw [if_neg hempty]
      cases hparse : parseCommand (trim text) with
      | error e => exact ⟨h, rfl⟩
      | ok c =>
        have hcommand : Input.command? (.line text) = some c := by simp [Input.command?, hparse, Except.toOption]
        cases c with
        | cache r =>
          obtain ⟨hdriver, hanswers⟩ := executeCache_alike h.driver s.answers r
          exact ⟨⟨hdriver, hanswers.trans h.answers, h.surroundings, h.image⟩, rfl⟩
        | _ => simp [Input.isCache, hcommand] at hcache
  | _ => simp [Input.isCache, Input.command?] at hcache

/-! ### Shutdown -/

theorem Alike.unmountAtEnd (h : s.Alike s') :
    s.unmountAtEnd.session.Alike s'.unmountAtEnd.session ∧
      s.unmountAtEnd.output.shown = s'.unmountAtEnd.output.shown := by
  obtain ⟨hresult, hdriver⟩ := h.driver.unmount
  unfold Session.unmountAtEnd
  rw [← h.driver.mounted]
  by_cases hm : s.driver.mounted
  · rw [if_pos hm, if_pos hm]
    refine ⟨⟨hdriver, h.answers, h.surroundings, h.image⟩, ?_⟩
    simp only [Output.shown_append, Output.shown_logged, hresult]
  · rw [if_neg hm, if_neg hm]
    exact ⟨h, rfl⟩

theorem Alike.store (h : s.Alike s') : s.store = s'.store := congrArg Image.store h.driver.backing

theorem Alike.saveSignatures (h : s.Alike s') :
    s.saveSignatures.session.store = s'.saveSignatures.session.store ∧
      s.saveSignatures.output.shown = s'.saveSignatures.output.shown := by
  unfold Session.saveSignatures
  rw [← h.driver.signatures, ← h.image, ← h.store]
  dsimp only
  by_cases hempty : s.driver.device.signatures.isEmpty
  · rw [if_pos hempty, if_pos hempty]
    exact ⟨h.store, rfl⟩
  · rw [if_neg hempty, if_neg hempty]
    cases s.driver.device.signatures.save s.store (Signature.sidecarPath s.config.image) with
    | ok store => exact ⟨rfl, rfl⟩
    | error e => exact ⟨h.store, rfl⟩

theorem Alike.shutdown (h : s.Alike s') :
    s.shutdown.session.store = s'.shutdown.session.store ∧
      s.shutdown.output.shown = s'.shutdown.output.shown := by
  obtain ⟨halike, hunmount⟩ := h.unmountAtEnd
  obtain ⟨hstore, hsave⟩ := halike.saveSignatures
  unfold Session.shutdown
  simp only [Closing.andThen, Output.shown_append, showHitRate_eq, hunmount, hsave, sayGoodBye]
  exact ⟨hstore, trivial⟩

/-! ### Runs -/

theorem Alike.seenAt_turn (h : s.Alike s') (hcache : i.isCache = false) {more more' : Output}
    (hmore : more.shown = more'.shown) :
    seenAt i (s.stepOf (s.turn i) more) = seenAt i (s'.stepOf (s'.turn i) more') := by
  obtain ⟨hturn, hshown⟩ := h.turn hcache
  unfold seenAt
  by_cases hstatus : i.isStatus
  · rw [if_pos (by simp [hstatus]), if_pos (by simp [hstatus])]
  · have hstatus : i.isStatus = false := by simpa using hstatus
    simp only [stepOf, h.prompt, hturn.asked, Output.shown_append, hshown hstatus, hmore]

theorem Alike.finish (h : s.Alike s') (hcache : i.isCache = false) :
    seenAt i (s.stepOf (s.turn i) (s.turn i).session.shutdown.output) =
        seenAt i (s'.stepOf (s'.turn i) (s'.turn i).session.shutdown.output) ∧
      (s.turn i).session.shutdown.session.store = (s'.turn i).session.shutdown.session.store := by
  obtain ⟨hstore, hclosing⟩ := (h.turn hcache).1.session.shutdown
  exact ⟨h.seenAt_turn hcache hclosing, hstore⟩

theorem Alike.outcomeAt (h : s.Alike s') : s.outcomeAt i = s'.outcomeAt i := by
  unfold Session.outcomeAt
  cases hc : i.command? with
  | none => rfl
  | some c =>
    dsimp only
    by_cases hcache : i.isCache
    · rw [if_pos hcache, if_pos hcache]
    · rw [if_neg hcache, if_neg hcache]
      have hne : ∀ r, c ≠ .cache r := by
        rintro r rfl
        exact hcache (by simp [Input.isCache, hc])
      rw [← h.answers, (execute_alike h.driver s.answers hne).1.failure]

theorem outcomes_of_ends {rest : List Input} (h : (s.turn i).ends = true) :
    s.outcomes (i :: rest) = s.outcomeAt i := by
  rw [Session.outcomes, if_pos h, List.append_nil]

theorem outcomes_of_not_ends {rest : List Input} (h : (s.turn i).ends = false) :
    s.outcomes (i :: rest) = s.outcomeAt i ++ (s.turn i).session.outcomes rest := by
  rw [Session.outcomes, if_neg (by simp [h])]

theorem Alike.run_withoutCache (h : s.Alike s') (inputs : List Input) :
    seen inputs (s.run (inputs.map .input)).1 =
        seen (withoutCache inputs) (s'.run ((withoutCache inputs).map .input)).1 ∧
      s.outcomes inputs = s'.outcomes (withoutCache inputs) ∧
      (s.run (inputs.map .input)).2.store = (s'.run ((withoutCache inputs).map .input)).2.store := by
  induction inputs generalizing s s' with
  | nil =>
    obtain ⟨hseen, hstore⟩ := h.finish (i := .endOfInput) rfl
    exact ⟨by simpa [withoutCache, Session.run, Session.finish, seen] using hseen, rfl, hstore⟩
  | cons i rest ih =>
    by_cases hcache : i.isCache
    · obtain ⟨halike, hends⟩ := h.turn_cache hcache
      obtain ⟨hseen, houtcomes, hstore⟩ := ih halike
      have hwithout : withoutCache (i :: rest) = withoutCache rest := by simp [withoutCache, hcache]
      have hoff : s.outcomeAt i = [] := by
        unfold Session.outcomeAt
        split <;> simp [hcache]
      rw [hwithout, List.map_cons, run_of_not_ends hends, outcomes_of_not_ends hends, seen_cons,
        seenAt_cache hcache, hoff]
      exact ⟨hseen, houtcomes, hstore⟩
    · have hcache : i.isCache = false := by simpa using hcache
      have hwithout : withoutCache (i :: rest) = i :: withoutCache rest := by simp [withoutCache, hcache]
      obtain ⟨hturn, -⟩ := h.turn hcache
      rw [hwithout, List.map_cons, List.map_cons]
      cases hends : (s.turn i).ends with
      | true =>
        have hends' : (s'.turn i).ends = true := hturn.ends ▸ hends
        obtain ⟨hseen, hstore⟩ := h.finish hcache
        rw [run_of_ends hends, run_of_ends hends', outcomes_of_ends hends, outcomes_of_ends hends', h.outcomeAt]
        refine ⟨?_, rfl, hstore⟩
        rw [Session.finish, Session.finish, seen_last, seen_last]
        exact hseen
      | false =>
        have hends' : (s'.turn i).ends = false := hturn.ends ▸ hends
        obtain ⟨hseen, houtcomes, hstore⟩ := ih hturn.session
        rw [run_of_not_ends hends, run_of_not_ends hends', outcomes_of_not_ends hends,
          outcomes_of_not_ends hends', h.outcomeAt, seen_cons, seen_cons, hseen, houtcomes,
          h.seenAt_turn hcache rfl]
        exact ⟨rfl, rfl, hstore⟩

theorem Alike.run (h : s.Alike s') {inputs inputs' : List Input}
    (hinputs : withoutCache inputs = withoutCache inputs') :
    seen inputs (s.run (inputs.map .input)).1 = seen inputs' (s'.run (inputs'.map .input)).1 ∧
      s.outcomes inputs = s'.outcomes inputs' ∧
      (s.run (inputs.map .input)).2.store = (s'.run (inputs'.map .input)).2.store := by
  obtain ⟨hseen, houtcomes, hstore⟩ := h.run_withoutCache inputs
  obtain ⟨hseen', houtcomes', hstore'⟩ := h.refl_right.run_withoutCache inputs'
  rw [hinputs] at hseen houtcomes hstore
  exact ⟨hseen.trans hseen'.symm, houtcomes.trans houtcomes'.symm, hstore.trans hstore'.symm⟩

end Session

/-! ### Whole sessions -/

/-- The cache is transparent: neither what is configured for it nor the lines about it change what the user sees of
all other commands, how these end, or the files that the session leaves. The histories of the two sessions differ in the
lines about the cache, but are not seen in the image or the sidecar unless the line editor writes them there. -/
theorem session_transparent {config : Config} {surroundings : Surroundings} {answers : List Answer} {store : Store}
    {cacheEntries : Option Nat} {policy : EvictionPolicy} {inputs inputs' : List Input}
    (hbooted : (session config surroundings answers store (inputs.map .input)).booted)
    (hbooted' : (session { config with cacheEntries, policy } surroundings answers store
      (inputs'.map .input)).booted)
    (hinputs : withoutCache inputs = withoutCache inputs') :
    seen inputs (session config surroundings answers store (inputs.map .input)).steps =
        seen inputs' (session { config with cacheEntries, policy } surroundings answers store
          (inputs'.map .input)).steps ∧
      outcomes config surroundings answers store inputs =
        outcomes { config with cacheEntries, policy } surroundings answers store inputs' ∧
      (session config surroundings answers store (inputs.map .input)).store =
        (session { config with cacheEntries, policy } surroundings answers store (inputs'.map .input)).store ∧
      ∀ path ∈ [config.image, Signature.sidecarPath config.image],
        ¬ store.SameFile path (lineEditor surroundings).historyPath → ∀ bytes bytes' later later',
          (session config surroundings answers store (inputs.map .input)).store.save
            (lineEditor surroundings).historyPath bytes = .ok later →
          (session { config with cacheEntries, policy } surroundings answers store (inputs'.map .input)).store.save
            (lineEditor surroundings).historyPath bytes' = .ok later' → later.file? path = later'.file? path := by
  obtain ⟨s, hs, hsteps, hstore⟩ := session_of_booted hbooted
  obtain ⟨s', hs', hsteps', hstore'⟩ := session_of_booted hbooted'
  obtain ⟨driver, hrun, rfl⟩ := start_eq_ok hs
  obtain ⟨driver', hrun', rfl⟩ := start_eq_ok hs'
  have himage : config.image = Config.image { config with cacheEntries, policy } := rfl
  have halike : Session.Alike ⟨config, surroundings, driver, answers⟩
      ⟨{ config with cacheEntries, policy }, surroundings, driver', answers⟩ :=
    ⟨Boot.agree_run himage hrun hrun', rfl, rfl, himage⟩
  obtain ⟨hseen, houtcomes, hfiles⟩ := halike.run hinputs
  refine ⟨?_, ?_, ?_, fun path _ hhistory bytes bytes' later later' hsave hsave' => ?_⟩
  · rw [hsteps, hsteps', hseen]
  · rw [outcomes, outcomes, hs, hs']
    exact houtcomes
  · rw [hstore, hstore', hfiles]
  · rw [file?_of_history hs hhistory hsave, file?_of_history hs' hhistory hsave', hstore, hstore', hfiles]

/-- A new array with a cache that is destroyed before the first read, and one without a cache. -/
theorem session_transparent_of_destroy :
    withoutCache [.line "mount", .line "cache destroy", .line "read 0 4"] =
        withoutCache [.line "mount", .line "read 0 4"] ∧
      seen [.line "mount", .line "cache destroy", .line "read 0 4"]
          (session { cacheEntries := some 2 } ⟨"user", none, none, none⟩ [] .empty
            ([.line "mount", .line "cache destroy", .line "read 0 4"].map .input)).steps =
        seen [.line "mount", .line "read 0 4"]
          (session { policy := .leastRecent } ⟨"user", none, none, none⟩ [] .empty
            ([.line "mount", .line "read 0 4"].map .input)).steps := by
  have hinputs : withoutCache [.line "mount", .line "cache destroy", .line "read 0 4"] =
      withoutCache [.line "mount", .line "read 0 4"] := by
    decide +kernel
  obtain ⟨d, hrun⟩ : ∃ d, (Boot.run { cacheEntries := some 2 } .empty).result = .ok d := Boot.run_empty rfl rfl
  obtain ⟨d', hrun'⟩ : ∃ d, (Boot.run { policy := .leastRecent } .empty).result = .ok d := Boot.run_empty rfl rfl
  exact ⟨hinputs, (session_transparent (booted_of_run hrun ⟨"user", none, none, none⟩ [] _)
    (booted_of_run hrun' ⟨"user", none, none, none⟩ [] _) hinputs).1⟩

end DiskArray.Shell
