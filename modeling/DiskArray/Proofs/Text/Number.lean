import DiskArray.Proofs.Text.Blank
import DiskArray.Proofs.Text.Numeral
import DiskArray.Text.Number

/-!
# What is a number

Exactly the texts of the number grammar are read, with the value that their digits have (`IsNumber`), and every other text
is an error that quotes it without the blanks around it. What is written of a number below 2 ^ 64, in base 10 or behind a
marker in base 16, is read back with underscores anywhere behind the marker (`parseNumber_grammar`).
-/

namespace DiskArray.Text

/-- The text, which has no blanks around it, is a number with this value: behind a marker in base 16, and in base 10
without one. Underscores behind the marker count for nothing. -/
def IsNumber (cs : List Char) (v : Nat) : Prop :=
  if "0x".toList <+: cs ∨ "0X".toList <+: cs then IsNumeral 16 ((cs.drop 2).filter (· ≠ '_')) v
  else IsNumeral 10 (cs.filter (· ≠ '_')) v

variable {cs : List Char} {v : Nat}

theorem splitMarker_eq (cs : List Char) :
    splitMarker cs = if "0x".toList <+: cs ∨ "0X".toList <+: cs then (16, cs.drop 2) else (10, cs) := by
  have hlower : "0x".toList = ['0', 'x'] := rfl
  have hupper : "0X".toList = ['0', 'X'] := rfl
  rw [hlower, hupper]
  unfold splitMarker
  split
  · rw [if_pos (Or.inl ⟨_, rfl⟩)]
    rfl
  · rw [if_pos (Or.inr ⟨_, rfl⟩)]
    rfl
  · rename_i hx hX
    rw [if_neg]
    rintro (⟨body, rfl⟩ | ⟨body, rfl⟩)
    · exact hx body rfl
    · exact hX body rfl

theorem numberValue_eq_some_iff : numberValue cs = some v ↔ IsNumber cs v ∧ v < 2 ^ 64 := by
  have hfilter (body : List Char) : body.filter (· != '_') = body.filter (· ≠ '_') := by
    congr 1
    funext c
    rw [bne, beq_eq_decide, ← decide_not]
  unfold numberValue IsNumber
  rw [splitMarker_eq]
  split_ifs with hmarker
  · dsimp only
    rw [hfilter]
    exact readUnsigned_eq_some_iff (Nat.le_refl 16)
  · dsimp only
    rw [hfilter]
    exact readUnsigned_eq_some_iff (by decide)

theorem parseNumber_eq_ok_iff {s : String} :
    parseNumber s = .ok v ↔ IsNumber (trim s).toList v ∧ v < 2 ^ 64 := by
  rw [← numberValue_eq_some_iff]
  unfold parseNumber
  dsimp only
  cases numberValue (trim s).toList with
  | none => exact ⟨nofun, nofun⟩
  | some n => rw [Except.ok.injEq, Option.some.injEq]

theorem parseNumber_of_forall_ne {s : String} (h : ∀ v, parseNumber s ≠ .ok v) :
    parseNumber s = .error ⟨trim s⟩ := by
  unfold parseNumber at h ⊢
  dsimp only at h ⊢
  cases hvalue : numberValue (trim s).toList with
  | none => rfl
  | some n =>
    rw [hvalue] at h
    exact absurd rfl (h n)

/-! ### Numbers that were written -/

theorem IsDigit.not_isBlank {base d : Nat} {c : Char} (hbase : base ≤ 16) (h : IsDigit base c d) : ¬ isBlank c := by
  have hall : ∀ e ∈ List.range 16, ¬ isBlank (Nat.digitChar e) ∧ ¬ isBlank (Nat.digitChar e).toUpper := by decide
  obtain ⟨hd, hc⟩ := h
  obtain ⟨hlower, hupper⟩ := hall d (List.mem_range.2 (hd.trans_le hbase))
  rcases hc with rfl | rfl
  · exact hlower
  · exact hupper

theorem mem_grouped {base : Nat} {c : Char} (h : Positional base (cs.filter (· ≠ '_')) v) (hc : c ∈ cs) :
    c = '_' ∨ ∃ d, IsDigit base c d := by
  by_cases hmark : c = '_'
  · exact Or.inl hmark
  · exact Or.inr (h.exists_isDigit (List.mem_filter.2 ⟨hc, decide_eq_true hmark⟩))

theorem not_isBlank_grouped {base : Nat} {c : Char} (hbase : base ≤ 16)
    (h : Positional base (cs.filter (· ≠ '_')) v) (hc : c ∈ cs) : ¬ isBlank c := by
  rcases mem_grouped h hc with rfl | ⟨d, hd⟩
  · decide
  · exact hd.not_isBlank hbase

theorem isNumber_decimal (hne : cs.filter (· ≠ '_') ≠ []) (h : Positional 10 (cs.filter (· ≠ '_')) v) :
    IsNumber cs v := by
  have hcross {x : Char} (hx : x = 'x' ∨ x = 'X') : x ∉ cs := by
    intro hmem
    rcases mem_grouped h hmem with rfl | ⟨d, hd⟩
    · exact absurd hx (by decide)
    · have hvalue := (digitValue_eq_some_iff (by decide)).2 hd
      rcases hx with rfl | rfl
      · exact absurd hvalue (by simp [digitValue])
      · exact absurd hvalue (by simp [digitValue])
  rw [IsNumber, if_neg]
  · exact ⟨_, Or.inl rfl, hne, h⟩
  · rintro (hmarker | hmarker)
    · exact hcross (Or.inl rfl) (hmarker.subset (by simp))
    · exact hcross (Or.inr rfl) (hmarker.subset (by simp))

theorem isNumber_hexadecimal {marker : List Char} (hmarker : marker = "0x".toList ∨ marker = "0X".toList)
    (hne : cs.filter (· ≠ '_') ≠ []) (h : Positional 16 (cs.filter (· ≠ '_')) v) : IsNumber (marker ++ cs) v := by
  have hdrop : (marker ++ cs).drop 2 = cs := by
    rcases hmarker with rfl | rfl
    · rfl
    · rfl
  have hprefix : "0x".toList <+: marker ++ cs ∨ "0X".toList <+: marker ++ cs := by
    rcases hmarker with rfl | rfl
    · exact Or.inl (List.prefix_append _ _)
    · exact Or.inr (List.prefix_append _ _)
  rw [IsNumber, if_pos hprefix, hdrop]
  exact ⟨_, Or.inl rfl, hne, h⟩

theorem parseNumber_decimal {s : String} (hv : v < 2 ^ 64) (hs : s.toList.filter (· ≠ '_') = Nat.toDigits 10 v) :
    parseNumber s = .ok v := by
  have hspells : Spells (Nat.toDigits 10 v) (s.toList.filter (· ≠ '_')) := by
    rw [hs]
    exact List.forall₂_same.2 fun c _ => Or.inl rfl
  obtain ⟨hne, hvalue⟩ := positional_of_spells (by decide) hspells
  rw [parseNumber_eq_ok_iff, trim_eq_self fun c hc => not_isBlank_grouped (by decide) hvalue hc]
  exact ⟨isNumber_decimal hne hvalue, hv⟩

theorem parseNumber_hexadecimal {s marker : String} (hmarker : marker = "0x" ∨ marker = "0X") (hv : v < 2 ^ 64)
    (hs : Spells (Nat.toDigits 16 v) (s.toList.filter (· ≠ '_'))) : parseNumber (marker ++ s) = .ok v := by
  obtain ⟨hne, hvalue⟩ := positional_of_spells (by decide) hs
  have hmark : ∀ c ∈ marker.toList, ¬ isBlank c := by
    rcases hmarker with rfl | rfl
    · simp [isBlank]
    · simp [isBlank]
  have hblank : ∀ c ∈ (marker ++ s).toList, ¬ isBlank c := by
    intro c hc
    rw [String.toList_append] at hc
    rcases List.mem_append.1 hc with hc | hc
    · exact hmark c hc
    · exact not_isBlank_grouped (Nat.le_refl 16) hvalue hc
  rw [parseNumber_eq_ok_iff, trim_eq_self hblank, String.toList_append]
  exact ⟨isNumber_hexadecimal (hmarker.imp (congrArg _) (congrArg _)) hne hvalue, hv⟩

/-- Without the blanks around it, a text is read exactly if it is a number below 2 ^ 64, with the value of its digits, and
otherwise the error quotes it. So what is written of a number in base 10, or in base 16 behind a marker and with letters
in either case, is read back, wherever underscores stand behind the marker. -/
theorem parseNumber_grammar (s : String) :
    Stripped s.toList (trim s).toList ∧
      (∀ v, parseNumber s = .ok v ↔ IsNumber (trim s).toList v ∧ v < 2 ^ 64) ∧
      ((∀ v, parseNumber s ≠ .ok v) →
        ∃ e, parseNumber s = .error e ∧ e.message = "'" ++ trim s ++ "' is not a valid number") ∧
      ∀ v < 2 ^ 64, ∀ written : String,
        (written.toList.filter (· ≠ '_') = Nat.toDigits 10 v → parseNumber written = .ok v) ∧
          (Spells (Nat.toDigits 16 v) (written.toList.filter (· ≠ '_')) →
            parseNumber ("0x" ++ written) = .ok v ∧ parseNumber ("0X" ++ written) = .ok v) := by
  refine ⟨stripped_trim s, fun v => parseNumber_eq_ok_iff, ?_, ?_⟩
  · intro h
    exact ⟨_, parseNumber_of_forall_ne h, rfl⟩
  · intro v hv written
    refine ⟨parseNumber_decimal hv, ?_⟩
    intro hwritten
    exact ⟨parseNumber_hexadecimal (Or.inl rfl) hv hwritten, parseNumber_hexadecimal (Or.inr rfl) hv hwritten⟩

/-- Both letters and groups in one number. -/
theorem parseNumber_grouped_hexadecimal : parseNumber "0X_F_f" = .ok 255 :=
  (((parseNumber_grammar "0X_F_f").2.2.2 255 (by decide) "_F_f").2
    (.cons (Or.inr rfl) (.cons (Or.inl rfl) .nil))).2

/-- The sign stands behind the marker, and also behind an underscore. -/
example : parseNumber " 0x_+1f" = .ok 31 ∧ parseNumber "+0x1f" = .error ⟨"+0x1f"⟩ := by decide +kernel

end DiskArray.Text
