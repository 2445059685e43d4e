import DiskArray.Proofs.Text.Blank
import DiskArray.Shell.Grammar
import Mathlib.Algebra.Group.Nat.Defs

/-!
# The language of commands

A line is a command exactly if its words denote one (`Denotes`), whose fields then have the values that are written there.
Words of the right form with a number that is malformed or too large are the error of the leftmost one (`FirstOffence`).

Both are read off one account of a row of numbers (`Reads`), which is put together field by field.
-/

namespace DiskArray.Shell

open Text

/-- The word is a number that fits a field of so many bits, and this is its value. -/
def Fits (bits : Nat) (word : String) (v : Nat) : Prop := parseNumber word = .ok v ∧ v < 2 ^ bits

/-- The error is that of the leftmost word which is no number, or none that fits its field of so many bits. -/
inductive FirstOffence : List (String × Nat) → ParseError → Prop
  | malformed {word bits rest e} (h : parseNumber word = .error e) : FirstOffence ((word, bits) :: rest) (.number e)
  | tooLarge {word bits rest v} (h : parseNumber word = .ok v) (hv : 2 ^ bits ≤ v) :
      FirstOffence ((word, bits) :: rest) (.outOfRange word)
  | later {word bits rest v e} (h : Fits bits word v) (hrest : FirstOffence rest e) :
      FirstOffence ((word, bits) :: rest) e

/-- The commands without arguments. -/
def bareCommands : List (String × Command) :=
  [("help", .help), ("mount", .mount), ("unmount", .unmount), ("grant", .grant), ("revoke", .revoke), ("status", .status),
    ("format", .format), ("exit", .exit), ("quit", .exit)]

/-- The bytes of a word. -/
def utf8 (word : String) : List UInt8 := word.toUTF8.data.toList

/-- The command that words denote. -/
inductive Denotes : List String → Command → Prop
  | bare {name more c} (h : (name, c) ∈ bareCommands) : Denotes (name :: more) c
  | read {address length} {a l : UInt32} (ha : Fits 32 address a.toNat) (hl : Fits 32 length l.toNat) :
      Denotes ["read", address, length] (.read a l)
  | write {address word more} {a : UInt32} (ha : Fits 32 address a.toNat) :
      Denotes ("write" :: address :: word :: more) (.write a ([0x20].intercalate ((word :: more).map utf8)))
  | fill {address length byte} {a l : UInt32} {b : UInt8} (ha : Fits 32 address a.toNat) (hl : Fits 32 length l.toNat)
      (hb : Fits 8 byte b.toNat) : Denotes ["fill", address, length, byte] (.fill a l b)
  | sign {disk block} {d b : UInt8} (hd : Fits 8 disk d.toNat) (hb : Fits 8 block b.toNat) :
      Denotes ["sign", disk, block] (.sign d b)
  | create {capacity} {n : UInt64} (hn : Fits 64 capacity n.toNat) :
      Denotes ["cache", "create", capacity] (.cache (.create n))
  | resize {capacity} {n : UInt64} (hn : Fits 64 capacity n.toNat) :
      Denotes ["cache", "resize", capacity] (.cache (.resize n))
  | destroy : Denotes ["cache", "destroy"] (.cache .destroy)
  | stats : Denotes ["cache", "stats"] (.cache .stats)

/-- The words that have to be numbers, with the bits of their fields, in words that have the form of a command. -/
def numericArguments : List String → List (String × Nat)
  | ["read", address, length] => [(address, 32), (length, 32)]
  | "write" :: address :: _ :: _ => [(address, 32)]
  | ["fill", address, length, byte] => [(address, 32), (length, 32), (byte, 8)]
  | ["sign", disk, block] => [(disk, 8), (block, 8)]
  | ["cache", "create", capacity] => [(capacity, 64)]
  | ["cache", "resize", capacity] => [(capacity, 64)]
  | _ => []

/-- What stands between blanks, where that is not empty. -/
def tokens (line : String) : List String :=
  ((line.toList.splitOnP (· ∈ [' ', '\t', '\n', '\x0c', '\r'])).filter (· ≠ [])).map String.ofList

variable {bits : Nat} {word : String} {arguments rest : List (String × Nat)} {name : String} {args : List String}
  {c : Command}

/-! ### One field -/

/-- The parser reads a word as a field of so many bits. -/
structure IsField {α : Type} (bits : Nat) (word : String) (toNat : α → Nat) (parsed : Except ParseError α) : Prop where
  ok_iff : ∀ a, parsed = .ok a ↔ Fits bits word (toNat a)
  offence : ∀ e rest, parsed = .error e → FirstOffence ((word, bits) :: rest) e

theorem field_eq_ok_iff {v : Nat} : field bits word = .ok v ↔ Fits bits word v := by
  unfold field Fits
  rw [Nat.one_shiftLeft]
  cases parseNumber word with
  | error e => exact ⟨nofun, nofun⟩
  | ok n =>
    dsimp only
    constructor
    · intro h
      split_ifs at h with hlt
      obtain rfl := Except.ok.inj h
      exact ⟨rfl, hlt⟩
    · rintro ⟨hn, hlt⟩
      obtain rfl := Except.ok.inj hn
      exact if_pos hlt

theorem FirstOffence.of_field {e : ParseError} (h : field bits word = .error e) :
    FirstOffence ((word, bits) :: rest) e := by
  unfold field at h
  rw [Nat.one_shiftLeft] at h
  cases hparse : parseNumber word with
  | error e' =>
    rw [hparse] at h
    obtain rfl := Except.error.inj h
    exact .malformed hparse
  | ok v =>
    rw [hparse] at h
    dsimp only at h
    split_ifs at h with hlt
    obtain rfl := Except.error.inj h
    exact .tooLarge hparse (Nat.le_of_not_lt hlt)

theorem isField_map {α : Type} {toNat : α → Nat} {ofNat : Nat → α} (hto : ∀ v < 2 ^ bits, toNat (ofNat v) = v)
    (hof : ∀ a, ofNat (toNat a) = a) : IsField bits word toNat ((field bits word).map ofNat) := by
  refine ⟨?_, ?_⟩
  · intro a
    rw [← field_eq_ok_iff]
    cases hfield : field bits word with
    | error e => exact ⟨nofun, nofun⟩
    | ok v =>
      have hv := (field_eq_ok_iff.1 hfield).2
      constructor
      · intro h
        rw [← Except.ok.inj h, hto v hv]
      · intro h
        rw [Except.ok.inj h]
        exact congrArg Except.ok (hof a)
  · intro e rest h
    cases hfield : field bits word with
    | error e' =>
      rw [hfield] at h
      obtain rfl := Except.error.inj h
      exact .of_field hfield
    | ok v =>
      rw [hfield] at h
      cases h

theorem isField_wideField (word : String) : IsField 32 word UInt32.toNat (wideField word) :=
  isField_map (fun _ hv => UInt32.toNat_ofNat_of_lt' hv) fun _ => UInt32.ofNat_toNat

theorem isField_byteField (word : String) : IsField 8 word UInt8.toNat (byteField word) :=
  isField_map (fun _ hv => UInt8.toNat_ofNat_of_lt' hv) fun _ => UInt8.ofNat_toNat

theorem isField_capacityField (word : String) : IsField 64 word UInt64.toNat (capacityField word) :=
  isField_map (fun _ hv => UInt64.toNat_ofNat_of_lt' hv) fun _ => UInt64.ofNat_toNat

/-! ### Rows of fields -/

/-- What parsing gives for a row of numbers: a command with a certain meaning if all of them fit, and else the error of
the leftmost one that does not. -/
structure Reads (arguments : List (String × Nat)) (parsed : Except ParseError Command) (Means : Command → Prop) : Prop where
  ok_iff : ∀ c, parsed = .ok c ↔ Means c
  fits : ∀ c, Means c → ∀ x ∈ arguments, ∃ v, Fits x.2 x.1 v
  offence : ∀ e, parsed = .error e → FirstOffence arguments e

theorem Reads.done (c : Command) : Reads [] (.ok c) (c = ·) where
  ok_iff := fun _ => ⟨Except.ok.inj, congrArg _⟩
  fits := nofun
  offence := nofun

theorem Reads.field {α : Type} {toNat : α → Nat} {parsed : Except ParseError α} {next : α → Except ParseError Command}
    {Means : α → Command → Prop} (hfield : IsField bits word toNat parsed) (h : ∀ a, Reads rest (next a) (Means a)) :
    Reads ((word, bits) :: rest) (parsed >>= next) fun c => ∃ a, Fits bits word (toNat a) ∧ Means a c := by
  cases parsed with
  | error e =>
    have hnone (a : α) : ¬ Fits bits word (toNat a) := fun ha => nomatch (hfield.ok_iff a).2 ha
    refine ⟨?_, ?_, ?_⟩
    · intro c
      exact ⟨nofun, fun ⟨a, ha, _⟩ => absurd ha (hnone a)⟩
    · rintro c ⟨a, ha, -⟩
      exact absurd ha (hnone a)
    · intro e' he
      obtain rfl := Except.error.inj he
      exact hfield.offence _ _ rfl
  | ok a =>
    have ha : Fits bits word (toNat a) := (hfield.ok_iff a).1 rfl
    have honly {a' : α} (ha' : Fits bits word (toNat a')) : a' = a :=
      (Except.ok.inj ((hfield.ok_iff a').2 ha')).symm
    refine ⟨?_, ?_, ?_⟩
    · intro c
      constructor
      · intro hc
        exact ⟨a, ha, ((h a).ok_iff c).1 hc⟩
      · rintro ⟨a', ha', hc⟩
        obtain rfl := honly ha'
        exact ((h a').ok_iff c).2 hc
    · rintro c ⟨a', ha', hc⟩ x hx
      rcases List.mem_cons.1 hx with rfl | hx
      · exact ⟨_, ha⟩
      · exact (h a').fits c hc x hx
    · intro e he
      exact .later ha ((h a).offence e he)

theorem Reads.exists_offence {parsed : Except ParseError Command} {Means : Command → Prop}
    (h : Reads arguments parsed Means) (hbad : ∃ x ∈ arguments, ∀ v, ¬ Fits x.2 x.1 v) :
    ∃ e, FirstOffence arguments e ∧ parsed = .error e := by
  obtain ⟨x, hx, hnone⟩ := hbad
  cases parsed with
  | error e => exact ⟨e, h.offence e rfl, rfl⟩
  | ok c =>
    obtain ⟨v, hv⟩ := h.fits c ((h.ok_iff c).1 rfl) x hx
    exact absurd hv (hnone v)

/-! ### The commands with numbers -/

theorem reads_parseRead (address length : String) :
    Reads [(address, 32), (length, 32)] (parseRead [address, length]) fun c =>
      ∃ a : UInt32, Fits 32 address a.toNat ∧ ∃ l : UInt32, Fits 32 length l.toNat ∧ .read a l = c :=
  .field (isField_wideField address) fun _ => .field (isField_wideField length) fun _ => .done _

theorem reads_parseWrite (address word : String) (more : List String) :
    Reads [(address, 32)] (parseWrite (address :: word :: more)) fun c =>
      ∃ a : UInt32, Fits 32 address a.toNat ∧ .write a (joinedBytes (word :: more)) = c :=
  .field (isField_wideField address) fun _ => .done _

theorem reads_parseFill (address length byte : String) :
    Reads [(address, 32), (length, 32), (byte, 8)] (parseFill [address, length, byte]) fun c =>
      ∃ a : UInt32, Fits 32 address a.toNat ∧ ∃ l : UInt32, Fits 32 length l.toNat ∧
        ∃ b : UInt8, Fits 8 byte b.toNat ∧ .fill a l b = c :=
  .field (isField_wideField address) fun _ => .field (isField_wideField length) fun _ =>
    .field (isField_byteField byte) fun _ => .done _

theorem reads_parseSign (disk block : String) :
    Reads [(disk, 8), (block, 8)] (parseSign [disk, block]) fun c =>
      ∃ d : UInt8, Fits 8 disk d.toNat ∧ ∃ b : UInt8, Fits 8 block b.toNat ∧ .sign d b = c :=
  .field (isField_byteField disk) fun _ => .field (isField_byteField block) fun _ => .done _

theorem reads_parseCache_create (capacity : String) :
    Reads [(capacity, 64)] (parseCache ["create", capacity]) fun c =>
      ∃ n : UInt64, Fits 64 capacity n.toNat ∧ .cache (.create n) = c :=
  .field (isField_capacityField capacity) fun _ => .done _

theorem reads_parseCache_resize (capacity : String) :
    Reads [(capacity, 64)] (parseCache ["resize", capacity]) fun c =>
      ∃ n : UInt64, Fits 64 capacity n.toNat ∧ .cache (.resize n) = c :=
  .field (isField_capacityField capacity) fun _ => .done _

/-! ### All commands -/

theorem utf8_append (s t : String) : utf8 (s ++ t) = utf8 s ++ utf8 t := by
  rw [utf8, String.toUTF8, String.toByteArray_append, ByteArray.data_append, Array.toList_append]
  rfl

theorem joinedBytes_eq_intercalate (words : List String) : joinedBytes words = [0x20].intercalate (words.map utf8) := by
  induction words with
  | nil => rfl
  | cons word words ih =>
    cases words with
    | nil => rw [joinedBytes, String.intercalate_singleton, List.map_singleton, List.intercalate_singleton, utf8]
    | cons word' words =>
      have hsplit : joinedBytes (word :: word' :: words) = utf8 (word ++ " ") ++ joinedBytes (word' :: words) := by
        rw [joinedBytes, String.intercalate_cons_cons]
        exact utf8_append _ _
      have hspace : utf8 " " = [0x20] := by decide
      rw [hsplit, ih, utf8_append, hspace]
      simp only [List.map_cons, List.intercalate_cons_cons]

theorem denotes_of_parseNamed (h : parseNamed name args = .ok c) : Denotes (name :: args) c := by
  unfold parseNamed at h
  split at h
  case h_7 =>
    unfold parseRead at h
    split at h
    · obtain ⟨a, ha, l, hl, rfl⟩ := ((reads_parseRead _ _).ok_iff c).1 h
      exact .read ha hl
    · cases h
  case h_8 =>
    unfold parseWrite at h
    split at h
    · obtain ⟨a, ha, rfl⟩ := ((reads_parseWrite _ _ _).ok_iff c).1 h
      rw [joinedBytes_eq_intercalate]
      exact .write ha
    · cases h
  case h_9 =>
    unfold parseFill at h
    split at h
    · obtain ⟨a, ha, l, hl, b, hb, rfl⟩ := ((reads_parseFill _ _ _).ok_iff c).1 h
      exact .fill ha hl hb
    · cases h
  case h_10 =>
    unfold parseSign at h
    split at h
    · obtain ⟨d, hd, b, hb, rfl⟩ := ((reads_parseSign _ _).ok_iff c).1 h
      exact .sign hd hb
    · cases h
  case h_11 =>
    unfold parseCache at h
    split at h
    · obtain ⟨n, hn, rfl⟩ := ((reads_parseCache_create _).ok_iff c).1 h
      exact .create hn
    · obtain ⟨n, hn, rfl⟩ := ((reads_parseCache_resize _).ok_iff c).1 h
      exact .resize hn
    · obtain rfl := Except.ok.inj h
      exact .destroy
    · obtain rfl := Except.ok.inj h
      exact .stats
    · cases h
  case h_15 => cases h
  -- the commands without arguments
  all_goals
    obtain rfl := Except.ok.inj h
    exact .bare (by decide)

theorem parseNamed_of_denotes (h : Denotes (name :: args) c) : parseNamed name args = .ok c := by
  cases h with
  | bare hmem =>
    simp only [bareCommands, List.mem_cons, Prod.mk.injEq, List.not_mem_nil, or_false] at hmem
    rcases hmem with ⟨rfl, rfl⟩ | ⟨rfl, rfl⟩ | ⟨rfl, rfl⟩ | ⟨rfl, rfl⟩ | ⟨rfl, rfl⟩ | ⟨rfl, rfl⟩ | ⟨rfl, rfl⟩ | ⟨rfl, rfl⟩ |
      ⟨rfl, rfl⟩ <;> rfl
  | read ha hl => exact ((reads_parseRead _ _).ok_iff _).2 ⟨_, ha, _, hl, rfl⟩
  | write ha =>
    rw [← joinedBytes_eq_intercalate]
    exact ((reads_parseWrite _ _ _).ok_iff _).2 ⟨_, ha, rfl⟩
  | fill ha hl hb => exact ((reads_parseFill _ _ _).ok_iff _).2 ⟨_, ha, _, hl, _, hb, rfl⟩
  | sign hd hb => exact ((reads_parseSign _ _).ok_iff _).2 ⟨_, hd, _, hb, rfl⟩
  | create hn => exact ((reads_parseCache_create _).ok_iff _).2 ⟨_, hn, rfl⟩
  | resize hn => exact ((reads_parseCache_resize _).ok_iff _).2 ⟨_, hn, rfl⟩
  | destroy => rfl
  | stats => rfl

theorem parseNamed_eq_ok_iff : parseNamed name args = .ok c ↔ Denotes (name :: args) c :=
  ⟨denotes_of_parseNamed, parseNamed_of_denotes⟩

theorem parseNamed_of_offence (h : ∃ x ∈ numericArguments (name :: args), ∀ v, ¬ Fits x.2 x.1 v) :
    ∃ e, FirstOffence (numericArguments (name :: args)) e ∧ parseNamed name args = .error e := by
  revert h
  generalize hwords : name :: args = words
  unfold numericArguments
  split <;> intro h
  · obtain ⟨rfl, rfl⟩ := List.cons.inj hwords
    exact (reads_parseRead _ _).exists_offence h
  · obtain ⟨rfl, rfl⟩ := List.cons.inj hwords
    exact (reads_parseWrite _ _ _).exists_offence h
  · obtain ⟨rfl, rfl⟩ := List.cons.inj hwords
    exact (reads_parseFill _ _ _).exists_offence h
  · obtain ⟨rfl, rfl⟩ := List.cons.inj hwords
    exact (reads_parseSign _ _).exists_offence h
  · obtain ⟨rfl, rfl⟩ := List.cons.inj hwords
    exact (reads_parseCache_create _).exists_offence h
  · obtain ⟨rfl, rfl⟩ := List.cons.inj hwords
    exact (reads_parseCache_resize _).exists_offence h
  · obtain ⟨x, hx, -⟩ := h
    cases hx

theorem words_eq_tokens (line : String) : words line = tokens line := by
  have hgap : isGap = fun c => decide (c ∈ [' ', '\t', '\n', '\x0c', '\r']) := by
    funext c
    simp [isGap, Bool.or_assoc, beq_eq_decide]
  rw [words_eq_splitOnP, tokens, hgap]

theorem parseCommand_eq_ok_iff {line : String} : parseCommand line = .ok c ↔ Denotes (tokens line) c := by
  unfold parseCommand
  rw [words_eq_tokens]
  cases tokens line with
  | nil => exact ⟨nofun, nofun⟩
  | cons name args => exact parseNamed_eq_ok_iff

/-- A line is read as a command exactly if its words denote that command, and if only numbers are wrong with it, the
leftmost of them is the error. -/
theorem parseCommand_grammar (line : String) :
    (∀ c, parseCommand line = .ok c ↔ Denotes (tokens line) c) ∧
      ((∃ x ∈ numericArguments (tokens line), ∀ v, ¬ Fits x.2 x.1 v) →
        ∃ e, FirstOffence (numericArguments (tokens line)) e ∧ parseCommand line = .error e) := by
  refine ⟨fun c => parseCommand_eq_ok_iff, ?_⟩
  unfold parseCommand
  rw [words_eq_tokens]
  cases tokens line with
  | nil =>
    rintro ⟨x, hx, -⟩
    cases hx
  | cons name args => exact parseNamed_of_offence

/-- Of a length that is too large and a byte that is no number, the length is the error. -/
theorem parseCommand_two_offences :
    ∃ e, FirstOffence [("0", 32), ("0x1_0000_0000", 32), ("red", 8)] e ∧
      parseCommand "fill 0 0x1_0000_0000 red" = .error e := by
  have htokens : tokens "fill 0 0x1_0000_0000 red" = ["fill", "0", "0x1_0000_0000", "red"] := by decide +kernel
  have hlength : parseNumber "0x1_0000_0000" = .ok 4294967296 := by decide +kernel
  have hbad : ∀ v, ¬ Fits 32 "0x1_0000_0000" v := by
    rintro v ⟨hv, hlt⟩
    obtain rfl := Except.ok.inj (hlength.symm.trans hv)
    exact absurd hlt (by decide)
  have h := (parseCommand_grammar "fill 0 0x1_0000_0000 red").2
  rw [htokens] at h
  exact h ⟨("0x1_0000_0000", 32), .tail _ (.head _), hbad⟩

end DiskArray.Shell
