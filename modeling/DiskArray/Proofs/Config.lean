import DiskArray.Proofs.Shell.Start
import DiskArray.Proofs.Text.Blank
import DiskArray.Proofs.Text.Numeral
import Mathlib

/-!
# Which environments are accepted

Each variable that is set is read on its own, so that an environment is accepted exactly if every value in it can be
read, and its configuration has what the values say (`Config.ofEnvironment_eq_ok_iff`, `Config.Asks`). Otherwise the
error is that of the first value that cannot (`Config.FirstUnacceptable`). A capacity that is accepted is one that a
cache may have, so no boot fails for it (`Config.ofEnvironment_complete`).
-/

namespace DiskArray

open Text

/-! ### Names -/

namespace Text

section Spelling
variable {c c' : Char} {name text : List Char}

theorem eq_or_eq_toUpper_iff (hc : c.isLower) : c' = c ∨ c' = c.toUpper ↔ c = c'.toLower := by
  have hlower : c.toLower = c := Char.toLower_eq_of_not_isUpper (Char.not_isUpper_of_isLower hc)
  constructor
  · rintro (rfl | rfl)
    · exact hlower.symm
    · rw [Char.toLower_toUpper_eq_toLower, hlower]
  · rintro rfl
    by_cases hc' : c'.isUpper
    · rw [Char.toUpper_toLower_eq_toUpper]
      exact Or.inr (Char.toUpper_eq_of_not_isLower (Char.not_isLower_of_isUpper hc')).symm
    · exact Or.inl (Char.toLower_eq_of_not_isUpper hc').symm

theorem spells_iff_toLower (hname : ∀ c ∈ name, c.isLower) : Spells name text ↔ name = text.map Char.toLower := by
  rw [← List.forall₂_eq_eq_eq, List.forall₂_map_right_iff]
  constructor
  · intro h
    exact ((List.forall₂_and_left name text).2 ⟨hname, h⟩).imp fun _ _ h => (eq_or_eq_toUpper_iff h.1).1 h.2
  · intro h
    exact ((List.forall₂_and_left name text).2 ⟨hname, h⟩).imp fun _ _ h => (eq_or_eq_toUpper_iff h.1).2 h.2

theorem spells_iff_toUpper (hname : ∀ c ∈ name, c.isLower) :
    Spells name text ↔ name.map Char.toUpper = text.map Char.toUpper := by
  rw [spells_iff_toLower hname]
  constructor
  · rintro rfl
    simp only [List.map_map, Function.comp_def, Char.toUpper_toLower_eq_toUpper]
  · intro h
    have hlower : name.map Char.toLower = name.map id := List.map_congr_left fun c hc =>
      Char.toLower_eq_of_not_isUpper (Char.not_isUpper_of_isLower (hname c hc))
    rw [List.map_id] at hlower
    have hcapitals := congrArg (List.map Char.toLower) h
    simpa only [List.map_map, Function.comp_def, Char.toLower_toUpper_eq_toLower, hlower] using hcapitals

end Spelling

end Text

/-- The text is one of some names, in any letter case, and this is what it names. -/
def Named {α : Type} (names : List (String × α)) (text : List Char) (a : α) : Prop :=
  ∃ name, (name, a) ∈ names ∧ Spells name.toList text

/-- The eviction policies by their names. -/
def policyNames : List (String × EvictionPolicy) := [("mru", .mostRecent), ("lru", .leastRecent)]

/-- The thresholds of the log by their names. -/
def thresholdNames : List (String × Log.Threshold) :=
  [("off", .off), ("error", .upTo .error), ("warn", .upTo .warn), ("info", .upTo .info), ("debug", .upTo .debug),
    ("trace", .upTo .trace)]

theorem EvictionPolicy.ofName_eq_ok_iff {text : String} {policy : EvictionPolicy} :
    EvictionPolicy.ofName text = .ok policy ↔ Named policyNames text.toList policy := by
  have hspells {name : String} (hname : name.toList.all Char.isLower) :
      Spells name.toList text.toList ↔ String.ofList (text.toList.map Char.toLower) = name := by
    rw [spells_iff_toLower (List.all_eq_true.1 hname), ← String.toList_inj, String.toList_ofList, eq_comm]
  have hnamed : Named policyNames text.toList policy ↔
      String.ofList (text.toList.map Char.toLower) = "mru" ∧ .mostRecent = policy ∨
        String.ofList (text.toList.map Char.toLower) = "lru" ∧ .leastRecent = policy := by
    rw [← hspells (by decide), ← hspells (by decide)]
    simp [Named, policyNames, and_comm, or_and_right, exists_or, eq_comm]
  rw [hnamed, EvictionPolicy.ofName]
  generalize String.ofList (text.toList.map Char.toLower) = lower
  split_ifs with hmost hleast
  · simp [hmost]
  · simp [hleast]
  · simp [hmost, hleast]

theorem named_thresholdNames_iff {text : List Char} {threshold : Log.Threshold} :
    Named thresholdNames text threshold ↔ threshold.name.toList = text.map Char.toUpper := by
  have hlower : ∀ p ∈ thresholdNames, p.1.toList.all Char.isLower := by decide
  have hupper : ∀ p ∈ thresholdNames, p.1.toList.map Char.toUpper = p.2.name.toList := by decide
  have hnamed : ∃ name, (name, threshold) ∈ thresholdNames := by
    rcases threshold with _ | level
    · exact ⟨"off", by decide⟩
    · cases level
      · exact ⟨"error", by decide⟩
      · exact ⟨"warn", by decide⟩
      · exact ⟨"info", by decide⟩
      · exact ⟨"debug", by decide⟩
      · exact ⟨"trace", by decide⟩
  have hspells {name : String} (hmem : (name, threshold) ∈ thresholdNames) :
      Spells name.toList text ↔ threshold.name.toList = text.map Char.toUpper := by
    rw [spells_iff_toUpper (List.all_eq_true.1 (hlower _ hmem)), hupper _ hmem]
  constructor
  · rintro ⟨name, hmem, h⟩
    exact (hspells hmem).1 h
  · intro h
    obtain ⟨name, hmem⟩ := hnamed
    exact ⟨name, hmem, (hspells hmem).2 h⟩

theorem Log.Threshold.ofName?_eq_some_iff {text : String} {threshold : Log.Threshold} :
    Log.Threshold.ofName? text = some threshold ↔ Named thresholdNames text.toList threshold := by
  have hall : ∀ t : Log.Threshold, t ∈ Log.Threshold.all := by
    rintro (_ | level)
    · decide
    · cases level <;> decide
  have hinj : ∀ t ∈ Log.Threshold.all, ∀ t' ∈ Log.Threshold.all, t.name.toList = t'.name.toList → t = t' := by decide
  have hfind {t : Log.Threshold} (h : Log.Threshold.ofName? text = some t) :
      t.name.toList = text.toList.map Char.toUpper := by
    have hbeq := List.find?_some h
    exact beq_iff_eq.1 hbeq
  rw [named_thresholdNames_iff]
  constructor
  · exact hfind
  · intro h
    cases hfound : Log.Threshold.ofName? text with
    | none => exact absurd (beq_iff_eq.2 h) (List.find?_eq_none.1 hfound _ (hall _))
    | some t => rw [hinj t (hall t) threshold (hall threshold) ((hfind hfound).trans h.symm)]

namespace Config

/-! ### What values mean -/

/-- Without the blanks around it, the value means this. -/
def Trimmed {α : Type} (Means : List Char → α → Prop) (value : String) (a : α) : Prop :=
  ∃ text, Stripped value.toList text ∧ Means text a

/-- The text is a number, which is zero for no cache, or else a capacity that a cache may have. -/
def IsCapacity (text : List Char) (entries : Option Nat) : Prop :=
  ∃ n, IsNumeral 10 text n ∧ n < 2 ^ 64 ∧ (n = 0 ∧ entries = none ∨ (2 ≤ n ∧ n ≤ 4096) ∧ entries = some n)

/-- The value is one that a variable may have. -/
def Acceptable : Setting → String → Prop
  | .disk, _ => True
  | .cache, value => ∃ entries, Trimmed IsCapacity value entries
  | .eviction, value => ∃ policy, Trimmed (Named policyNames) value policy
  | .log, value => ∃ threshold, Trimmed (Named thresholdNames) value threshold

/-- The variable is the first of those that are set to a value they may not have. -/
def FirstUnacceptable (env : Environment) (s : Setting) (value : String) : Prop :=
  env s = some value ∧ ¬ Acceptable s value ∧
    ∃ earlier later, [.disk, .cache, .eviction, .log] = earlier ++ s :: later ∧
      ∀ s' ∈ earlier, ∀ value' ∈ env s', Acceptable s' value'

/-- What a variable is set to means this; a variable that is not set leaves the default. -/
def Gives {α : Type} (env : Environment) (s : Setting) (default : α) (Means : String → α → Prop) (a : α) : Prop :=
  match env s with
  | some value => Means value a
  | none => a = default

/-- The configuration is the one that an environment asks for. -/
structure Asks (env : Environment) (c : Config) : Prop where
  image : Gives env .disk "jbod.img" (fun value path => path = if value = "" then "jbod.img" else value) c.image
  cacheEntries : Gives env .cache none (Trimmed IsCapacity) c.cacheEntries
  policy : Gives env .eviction .mostRecent (Trimmed (Named policyNames)) c.policy
  threshold : Gives env .log (.upTo .warn) (Trimmed (Named thresholdNames)) c.threshold

/-- Two configurations have the same in the field of a variable. -/
def SameIn (c c' : Config) : Setting → Prop
  | .disk => c.image = c'.image
  | .cache => c.cacheEntries = c'.cacheEntries
  | .eviction => c.policy = c'.policy
  | .log => c.threshold = c'.threshold

/-! ### One variable -/

variable {α : Type} {env : Environment} {s : Setting} {default a : α} {read : String → Except Reason α}
  {Means : String → α → Prop} {value : String} {c c' : Config}

theorem readSetting_eq_ok_iff (hread : ∀ value a, read value = .ok a ↔ Means value a) :
    readSetting env s default read = .ok a ↔ Gives env s default Means a := by
  unfold readSetting Gives
  cases env s with
  | none => exact ⟨fun h => (Except.ok.inj h).symm, fun h => congrArg _ h.symm⟩
  | some value =>
    dsimp only
    rw [← hread]
    cases read value with
    | error reason => exact ⟨nofun, nofun⟩
    | ok b => rw [Except.mapError, Except.ok.injEq, Except.ok.injEq]

theorem readSetting_eq_error {e : ConfigError} (h : readSetting env s default read = .error e) :
    e.setting = s ∧ env s = some e.value ∧ ∀ a, read e.value ≠ .ok a := by
  unfold readSetting at h
  cases hvalue : env s with
  | none =>
    rw [hvalue] at h
    cases h
  | some value =>
    rw [hvalue] at h
    dsimp only at h
    cases hread : read value with
    | ok a =>
      rw [hread] at h
      cases h
    | error reason =>
      rw [hread] at h
      obtain rfl := Except.error.inj h
      refine ⟨rfl, rfl, fun a ha => ?_⟩
      rw [hread] at ha
      cases ha

theorem trimmed_iff {M : List Char → α → Prop} : Trimmed M value a ↔ M (trim value).toList a := by
  simp only [Trimmed, stripped_iff, exists_eq_left]

theorem readCapacity_of_numeral {n : Nat} {entries : Option Nat}
    (h : readUnsigned 10 (trimChars value.toList) = some n) :
    readCapacity value = .ok entries ↔ n = 0 ∧ entries = none ∨ (2 ≤ n ∧ n ≤ 4096) ∧ entries = some n := by
  unfold readCapacity
  rw [h]
  cases n with
  | zero => simp [eq_comm]
  | succ n =>
    show (if 2 ≤ n + 1 ∧ n + 1 ≤ 4096 then _ else _) = _ ↔ _
    split_ifs with hcapacity
    · simp [hcapacity, eq_comm]
    · refine iff_of_false nofun ?_
      rintro (⟨⟨⟩, -⟩ | ⟨hwithin, -⟩)
      exact hcapacity hwithin

theorem readCapacity_eq_ok_iff {entries : Option Nat} :
    readCapacity value = .ok entries ↔ Trimmed IsCapacity value entries := by
  rw [trimmed_iff, trim, String.toList_ofList, IsCapacity]
  have hnumeral (n : Nat) : readUnsigned 10 (trimChars value.toList) = some n ↔
      IsNumeral 10 (trimChars value.toList) n ∧ n < 2 ^ 64 := readUnsigned_eq_some_iff (by decide)
  cases hread : readUnsigned 10 (trimChars value.toList) with
  | none =>
    refine iff_of_false ?_ ?_
    · unfold readCapacity
      rw [hread]
      intro herror
      cases herror
    · rintro ⟨n, hn, hlt, -⟩
      rw [(hnumeral n).2 ⟨hn, hlt⟩] at hread
      cases hread
  | some n =>
    rw [readCapacity_of_numeral hread]
    constructor
    · intro hentries
      exact ⟨n, ((hnumeral n).1 hread).1, ((hnumeral n).1 hread).2, hentries⟩
    · rintro ⟨m, hm, hlt, hentries⟩
      obtain rfl := Option.some.inj (((hnumeral m).2 ⟨hm, hlt⟩).symm.trans hread)
      exact hentries

theorem readPolicy_eq_ok_iff {policy : EvictionPolicy} :
    readPolicy value = .ok policy ↔ Trimmed (Named policyNames) value policy := by
  rw [trimmed_iff, ← EvictionPolicy.ofName_eq_ok_iff, readPolicy]
  cases EvictionPolicy.ofName (trim value) with
  | error e => exact ⟨nofun, nofun⟩
  | ok p => rw [Except.mapError, Except.ok.injEq, Except.ok.injEq]

theorem readThreshold_eq_ok_iff {threshold : Log.Threshold} :
    readThreshold value = .ok threshold ↔ Trimmed (Named thresholdNames) value threshold := by
  rw [trimmed_iff, ← Log.Threshold.ofName?_eq_some_iff, readThreshold]
  cases Log.Threshold.ofName? (trim value) with
  | none => exact ⟨nofun, nofun⟩
  | some t => rw [Except.ok.injEq, Option.some.injEq]

theorem readImage_eq_iff {path : String} :
    (Except.ok ∘ readImage) value = (.ok path : Except Reason String) ↔
      path = if value = "" then "jbod.img" else value := by
  simp only [Function.comp_apply, Except.ok.injEq, readImage, String.isEmpty_iff, eq_comm (b := path)]

theorem Gives.exists_means (h : Gives env s default Means a) : ∀ value ∈ env s, ∃ a, Means value a := by
  intro value hvalue
  rw [Gives, Option.mem_def.1 hvalue] at h
  exact ⟨a, h⟩

/-! ### All variables -/

section Bind
variable {ε β γ : Type} {x : Except ε β} {f : β → Except ε γ} {b : γ} {e : ε}

theorem bind_eq_ok_iff : x >>= f = .ok b ↔ ∃ a, x = .ok a ∧ f a = .ok b := by
  cases x with
  | error e => exact ⟨nofun, nofun⟩
  | ok a => simp [bind, Except.bind]

theorem bind_eq_error_iff : x >>= f = .error e ↔ x = .error e ∨ ∃ a, x = .ok a ∧ f a = .error e := by
  cases x with
  | error e => simp [bind, Except.bind]
  | ok a => simp [bind, Except.bind]

end Bind

theorem ofEnvironment_eq_ok_iff : ofEnvironment env = .ok c ↔ Asks env c := by
  simp only [ofEnvironment, bind_eq_ok_iff, readSetting_eq_ok_iff fun _ _ => readImage_eq_iff,
    readSetting_eq_ok_iff fun _ _ => readCapacity_eq_ok_iff, readSetting_eq_ok_iff fun _ _ => readPolicy_eq_ok_iff,
    readSetting_eq_ok_iff fun _ _ => readThreshold_eq_ok_iff]
  constructor
  · rintro ⟨image, himage, entries, hentries, policy, hpolicy, threshold, hthreshold, hc⟩
    obtain rfl := Except.ok.inj hc
    exact ⟨himage, hentries, hpolicy, hthreshold⟩
  · rintro ⟨himage, hentries, hpolicy, hthreshold⟩
    exact ⟨_, himage, _, hentries, _, hpolicy, _, hthreshold, rfl⟩

theorem Asks.acceptable (h : Asks env c) : ∀ s, ∀ value ∈ env s, Acceptable s value
  | .disk => fun _ _ => trivial
  | .cache => h.cacheEntries.exists_means
  | .eviction => h.policy.exists_means
  | .log => h.threshold.exists_means

theorem ofEnvironment_eq_error {e : ConfigError} (h : ofEnvironment env = .error e) :
    FirstUnacceptable env e.setting e.value := by
  simp only [ofEnvironment, bind_eq_error_iff, readSetting_eq_ok_iff fun _ _ => readImage_eq_iff,
    readSetting_eq_ok_iff fun _ _ => readCapacity_eq_ok_iff, readSetting_eq_ok_iff fun _ _ => readPolicy_eq_ok_iff] at h
  rcases h with h | ⟨image, -, h | ⟨entries, hentries, h | ⟨policy, hpolicy, h | ⟨threshold, -, h⟩⟩⟩⟩
  · obtain ⟨-, -, hvalue⟩ := readSetting_eq_error h
    exact absurd rfl (hvalue _)
  · obtain ⟨hsetting, hset, hvalue⟩ := readSetting_eq_error h
    rw [hsetting]
    refine ⟨hset, ?_, [.disk], _, rfl, ?_⟩
    · rintro ⟨entries, hentries⟩
      exact hvalue entries (readCapacity_eq_ok_iff.2 hentries)
    · simp [Acceptable]
  · obtain ⟨hsetting, hset, hvalue⟩ := readSetting_eq_error h
    rw [hsetting]
    refine ⟨hset, ?_, [.disk, .cache], _, rfl, ?_⟩
    · rintro ⟨policy, hpolicy⟩
      exact hvalue policy (readPolicy_eq_ok_iff.2 hpolicy)
    · simpa [Acceptable] using hentries.exists_means
  · obtain ⟨hsetting, hset, hvalue⟩ := readSetting_eq_error h
    rw [hsetting]
    refine ⟨hset, ?_, [.disk, .cache, .eviction], _, rfl, ?_⟩
    · rintro ⟨threshold, hthreshold⟩
      exact hvalue threshold (readThreshold_eq_ok_iff.2 hthreshold)
    · simpa [Acceptable] using ⟨hentries.exists_means, hpolicy.exists_means⟩
  · cases h

theorem exists_ofEnvironment_eq_error_iff :
    (∃ e, ofEnvironment env = .error e) ↔ ∃ s value, env s = some value ∧ ¬ Acceptable s value := by
  constructor
  · rintro ⟨e, he⟩
    obtain ⟨hset, hvalue, -⟩ := ofEnvironment_eq_error he
    exact ⟨_, _, hset, hvalue⟩
  · rintro ⟨s, value, hset, hvalue⟩
    cases h : ofEnvironment env with
    | error e => exact ⟨e, rfl⟩
    | ok c => exact absurd ((ofEnvironment_eq_ok_iff.1 h).acceptable s value hset) hvalue

theorem Asks.capacityOk (h : Asks env c) : ∀ n ∈ c.cacheEntries, 2 ≤ n ∧ n ≤ 4096 := by
  intro n hn
  have hentries := h.cacheEntries
  rw [Option.mem_def.1 hn] at hentries
  unfold Gives at hentries
  cases hset : env .cache with
  | none =>
    rw [hset] at hentries
    cases hentries
  | some value =>
    rw [hset] at hentries
    obtain ⟨text, -, m, -, -, ⟨-, hnone⟩ | ⟨hwithin, hsome⟩⟩ := hentries
    · cases hnone
    · rwa [Option.some.inj hsome]

theorem ofEnvironment_of_empty_image (h : env .disk = some "") :
    ofEnvironment env = ofEnvironment (Function.update env .disk none) := by
  simp only [ofEnvironment, readSetting, h, Function.update_self, Function.update_of_ne, ne_eq, reduceCtorEq,
    not_false_eq_true]
  rfl

theorem Gives.unique {env' : Environment} {a' : α} {read : String → Except Reason α}
    (hread : ∀ value a, read value = .ok a ↔ Means value a) (hsame : env s = env' s)
    (h : Gives env s default Means a) (h' : Gives env' s default Means a') : a = a' := by
  rw [← readSetting_eq_ok_iff hread] at h h'
  unfold readSetting at h h'
  rw [hsame] at h
  exact Except.ok.inj (h.symm.trans h')

theorem Asks.sameIn {env' : Environment} (h : Asks env c) (h' : Asks env' c') (hsame : env s = env' s) :
    SameIn c c' s := by
  cases s with
  | disk => exact h.image.unique (fun _ _ => readImage_eq_iff) hsame h'.image
  | cache => exact h.cacheEntries.unique (fun _ _ => readCapacity_eq_ok_iff) hsame h'.cacheEntries
  | eviction => exact h.policy.unique (fun _ _ => readPolicy_eq_ok_iff) hsame h'.policy
  | log => exact h.threshold.unique (fun _ _ => readThreshold_eq_ok_iff) hsame h'.threshold

/-! ### The cache of a boot -/

theorem run_ne_cache_error {store : Store} {e : CacheError} (h : (Boot.buildCache c).result = .ok ()) :
    (Boot.run c store).result ≠ .error (.cache e) := by
  intro he
  unfold Boot.run at he
  cases hopen : store.openFile c.image with
  | error e =>
    rw [hopen] at he
    cases he
  | ok found =>
    rw [hopen] at he
    cases hallocate : Boot.allocate ⟨found.2, found.1⟩ with
    | error e =>
      simp only [hallocate] at he
      cases he
    | ok image =>
      simp only [hallocate, Boot.Report.told, Boot.loadSignatures, Boot.finish, h] at he
      split at he
      · cases he
      · cases he

/-- An environment is rejected exactly if a variable in it has a value that it may not have. The error is that of the
first one, in the order of the variables, and its message tells the variable's name and the value as it was given. An
accepted environment has the configuration that its values ask for, where a capacity is one that a cache may have: its
cache can be built, and no boot fails for it. An empty path is one that is not set, and each field depends on its own
variable. -/
theorem ofEnvironment_complete (env : Environment) :
    ((∃ e, ofEnvironment env = .error e) ↔ ∃ s value, env s = some value ∧ ¬ Acceptable s value) ∧
    (∀ e, ofEnvironment env = .error e → FirstUnacceptable env e.setting e.value ∧
      ∃ key reason, (e.setting, key) ∈ [(.cache, "MDADM_CACHE"), (.eviction, "MDADM_EVICTION"), (.log, "MDADM_LOG")] ∧
        e.message = "Invalid " ++ key ++ "='" ++ e.value ++ "': " ++ reason) ∧
    (∀ c, ofEnvironment env = .ok c → Asks env c ∧ (∀ n ∈ c.cacheEntries, 2 ≤ n ∧ n ≤ 4096) ∧
      (Boot.buildCache c).result = .ok () ∧ ∀ store e, (Boot.run c store).result ≠ .error (.cache e)) ∧
    (env .disk = some "" → ofEnvironment env = ofEnvironment (Function.update env .disk none)) ∧
    ∀ env' c c', ofEnvironment env = .ok c → ofEnvironment env' = .ok c' → ∀ s, env s = env' s → SameIn c c' s := by
  refine ⟨exists_ofEnvironment_eq_error_iff, ?_, ?_, ofEnvironment_of_empty_image, ?_⟩
  · intro e he
    have hfirst := ofEnvironment_eq_error he
    refine ⟨hfirst, e.setting.variableName, e.reason.message, ?_, rfl⟩
    cases hsetting : e.setting with
    | disk =>
      rw [hsetting] at hfirst
      exact absurd trivial hfirst.2.1
    | cache => decide
    | eviction => decide
    | log => decide
  · intro c hc
    have hasks := ofEnvironment_eq_ok_iff.1 hc
    have hcache : (Boot.buildCache c).result = .ok () := Boot.buildCache_eq_ok_iff.2 hasks.capacityOk
    exact ⟨hasks, hasks.capacityOk, hcache, fun _ _ => run_ne_cache_error hcache⟩
  · intro env' c c' hc hc' s
    exact (ofEnvironment_eq_ok_iff.1 hc).sameIn (ofEnvironment_eq_ok_iff.1 hc')

/-- Blanks and a sign in front of the smallest capacity are no obstacle; one entry less is, and is reported before the
name of the policy. -/
theorem ofEnvironment_complete_of_smallest :
    let env : Environment := fun
      | .disk => some ""
      | .cache => some " +2\n"
      | .eviction => some "LRU"
      | .log => none
    let worse : Environment := fun
      | .disk => some ""
      | .cache => some "1"
      | .eviction => some "fifo"
      | .log => none
    (∃ c, ofEnvironment env = .ok c ∧ c.cacheEntries = some 2 ∧ (Boot.buildCache c).result = .ok () ∧
      ofEnvironment (Function.update env .disk none) = .ok c) ∧
    ∃ e, ofEnvironment worse = .error e ∧ FirstUnacceptable worse .cache "1" := by
  intro env worse
  have hok : ofEnvironment env = .ok { cacheEntries := some 2, policy := .leastRecent } := by decide
  have herror : ofEnvironment worse = .error ⟨.cache, "1", .capacity⟩ := by decide
  obtain ⟨-, -, haccepted, hempty, -⟩ := ofEnvironment_complete env
  obtain ⟨-, hrejected, -⟩ := ofEnvironment_complete worse
  exact ⟨⟨_, hok, rfl, (haccepted _ hok).2.2.1, (hempty rfl).symm.trans hok⟩, _, herror, (hrejected _ herror).1⟩

end Config

end DiskArray
