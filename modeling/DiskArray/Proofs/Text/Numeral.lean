import DiskArray.Text.Numeral
import Mathlib.Data.List.Forall2
import Mathlib.Data.Nat.Digits.Defs
import Mathlib.Tactic.SplitIfs

/-!
# Numerals as digits and places

A character is read as a digit exactly if it is one of the base, in either letter case (`digitValue_eq_some_iff`), and a
row of digits has the value that their places give them (`Positional`). So a numeral is read exactly if it is one, with
its value (`readUnsigned_eq_some_iff`), and the digits that are written of a number have its value
(`exists_digits_toDigits`).
-/

namespace DiskArray.Text

/-- The character is the digit of a base with this value, in either letter case. -/
def IsDigit (base : Nat) (c : Char) (d : Nat) : Prop :=
  d < base ∧ (c = Nat.digitChar d ∨ c = (Nat.digitChar d).toUpper)

/-- The characters are digits, and have this value by their places. -/
def Positional (base : Nat) (cs : List Char) (v : Nat) : Prop :=
  ∃ digits, List.Forall₂ (IsDigit base) cs digits ∧ v = Nat.ofDigits base digits.reverse

/-- The characters are an optional plus sign and then at least one digit; the digits have this value. -/
def IsNumeral (base : Nat) (cs : List Char) (v : Nat) : Prop :=
  ∃ digits, (cs = digits ∨ cs = '+' :: digits) ∧ digits ≠ [] ∧ Positional base digits v

/-- The second text is the first one with each character in either letter case. -/
def Spells (digits cs : List Char) : Prop := List.Forall₂ (fun c c' => c' = c ∨ c' = c.toUpper) digits cs

variable {base d v : Nat} {c : Char} {cs : List Char}

/-! ### Digits -/

theorem digitValue_eq (base : Nat) (c : Char) :
    digitValue base c =
      let v :=
        if 48 ≤ c.toNat ∧ c.toNat ≤ 57 then c.toNat - 48
        else if 97 ≤ c.toNat ∧ c.toNat ≤ 122 then c.toNat - 97 + 10
        else if 65 ≤ c.toNat ∧ c.toNat ≤ 90 then c.toNat - 65 + 10
        else base
      if v < base then some v else none := rfl

theorem digitValue_eq_some_iff_of_le (hbase : base ≤ 16) :
    digitValue base c = some d ↔ digitValue 16 c = some d ∧ d < base := by
  simp only [digitValue_eq]
  split_ifs <;> simp <;> omega

theorem digitValue_digitChar (hd : d < 16) :
    digitValue 16 (Nat.digitChar d) = some d ∧ digitValue 16 (Nat.digitChar d).toUpper = some d := by
  have hall : ∀ e ∈ List.range 16,
      digitValue 16 (Nat.digitChar e) = some e ∧ digitValue 16 (Nat.digitChar e).toUpper = some e := by decide
  exact hall d (List.mem_range.2 hd)

theorem eq_digitChar_of_digitValue (h : digitValue 16 c = some d) :
    c = Nat.digitChar d ∨ c = (Nat.digitChar d).toUpper := by
  have hdecimal : ∀ n ∈ List.range' 48 10, Char.ofNat n = Nat.digitChar (n - 48) := by decide
  have hlower : ∀ n ∈ List.range' 97 6, Char.ofNat n = Nat.digitChar (n - 97 + 10) := by decide
  have hupper : ∀ n ∈ List.range' 65 6, Char.ofNat n = (Nat.digitChar (n - 65 + 10)).toUpper := by decide
  rw [digitValue_eq] at h
  rw [← Char.ofNat_toNat c]
  generalize c.toNat = n at h
  dsimp only at h
  split_ifs at h with hdigit hlt hletter hlt hcapital hlt hlt
  · obtain rfl := Option.some.inj h
    exact Or.inl (hdecimal n (List.mem_range'_1.2 (by omega)))
  · obtain rfl := Option.some.inj h
    exact Or.inl (hlower n (List.mem_range'_1.2 (by omega)))
  · obtain rfl := Option.some.inj h
    exact Or.inr (hupper n (List.mem_range'_1.2 (by omega)))
  · exact absurd hlt (Nat.lt_irrefl 16)

theorem digitValue_eq_some_iff (hbase : base ≤ 16) : digitValue base c = some d ↔ IsDigit base c d := by
  rw [digitValue_eq_some_iff_of_le hbase, IsDigit]
  constructor
  · rintro ⟨hvalue, hd⟩
    exact ⟨hd, eq_digitChar_of_digitValue hvalue⟩
  · rintro ⟨hd, hc⟩
    obtain ⟨hlower, hupper⟩ := digitValue_digitChar (hd.trans_le hbase)
    rcases hc with rfl | rfl
    · exact ⟨hlower, hd⟩
    · exact ⟨hupper, hd⟩

theorem IsDigit.ne_mark (hbase : base ≤ 16) (h : IsDigit base c d) : c ≠ '+' ∧ c ≠ '_' := by
  have hvalue := ((digitValue_eq_some_iff_of_le hbase).1 ((digitValue_eq_some_iff hbase).2 h)).1
  refine ⟨?_, ?_⟩
  · rintro rfl
    exact absurd hvalue (by simp [digitValue])
  · rintro rfl
    exact absurd hvalue (by simp [digitValue])

/-! ### Rows of digits -/

theorem readDigitsFrom_eq_some_iff (hbase : base ≤ 16) {start : Nat} :
    readDigitsFrom base start cs = some v ↔
      ∃ digits, List.Forall₂ (IsDigit base) cs digits ∧ v = digits.foldl (fun n d => n * base + d) start := by
  induction cs generalizing start with
  | nil =>
    rw [readDigitsFrom, Option.some.injEq]
    constructor
    · rintro rfl
      exact ⟨[], .nil, rfl⟩
    · rintro ⟨_, hdigits, rfl⟩
      rw [List.forall₂_nil_left_iff.1 hdigits]
      rfl
  | cons c cs ih =>
    rw [readDigitsFrom]
    cases hc : digitValue base c with
    | some d =>
      have hdigit := (digitValue_eq_some_iff hbase).1 hc
      dsimp only
      rw [ih]
      constructor
      · rintro ⟨digits, hdigits, rfl⟩
        exact ⟨d :: digits, .cons hdigit hdigits, rfl⟩
      · rintro ⟨_, hdigits, rfl⟩
        obtain ⟨e, digits, he, hrest, rfl⟩ := List.forall₂_cons_left_iff.1 hdigits
        obtain rfl := Option.some.inj (((digitValue_eq_some_iff hbase).2 he).symm.trans hc)
        exact ⟨digits, hrest, rfl⟩
    | none =>
      refine ⟨nofun, ?_⟩
      rintro ⟨_, hdigits, -⟩
      obtain ⟨e, -, he, -⟩ := List.forall₂_cons_left_iff.1 hdigits
      rw [(digitValue_eq_some_iff hbase).2 he] at hc
      cases hc

theorem foldl_digits (base : Nat) (digits : List Nat) :
    digits.foldl (fun n d => n * base + d) 0 = Nat.ofDigits base digits.reverse := by
  rw [Nat.ofDigits_eq_foldr, List.foldr_reverse]
  congr 1
  funext n d
  rw [Nat.cast_id, Nat.add_comm, Nat.mul_comm]

theorem readDigits_eq_some_iff (hbase : base ≤ 16) :
    readDigits base cs = some v ↔ cs ≠ [] ∧ Positional base cs v := by
  cases cs with
  | nil => simp [readDigits]
  | cons c cs =>
    rw [readDigits, List.isEmpty_cons, if_neg Bool.false_ne_true, readDigitsFrom_eq_some_iff hbase, Positional]
    simp only [foldl_digits, ne_eq, reduceCtorEq, not_false_eq_true, true_and]

theorem Positional.head_ne_plus (hbase : base ≤ 16) (h : Positional base (c :: cs) v) : c ≠ '+' := by
  obtain ⟨_, hdigits, -⟩ := h
  obtain ⟨d, -, hd, -⟩ := List.forall₂_cons_left_iff.1 hdigits
  exact (hd.ne_mark hbase).1

theorem isNumeral_iff (hbase : base ≤ 16) :
    IsNumeral base cs v ↔
      readDigits base (match cs with | '+' :: rest => rest | _ => cs) = some v := by
  rw [readDigits_eq_some_iff hbase, IsNumeral]
  split
  · rename_i rest
    constructor
    · rintro ⟨digits, rfl | hcs, hne, hvalue⟩
      · exact absurd rfl (hvalue.head_ne_plus hbase)
      · obtain rfl := (List.cons.inj hcs).2
        exact ⟨hne, hvalue⟩
    · rintro ⟨hne, hvalue⟩
      exact ⟨rest, Or.inr rfl, hne, hvalue⟩
  · rename_i hplus
    constructor
    · rintro ⟨digits, rfl | rfl, hne, hvalue⟩
      · exact ⟨hne, hvalue⟩
      · exact absurd rfl (hplus digits)
    · rintro ⟨hne, hvalue⟩
      exact ⟨cs, Or.inl rfl, hne, hvalue⟩

/-- Exactly the numerals below 2 ^ 64 are read. -/
theorem readUnsigned_eq_some_iff (hbase : base ≤ 16) :
    readUnsigned base cs = some v ↔ IsNumeral base cs v ∧ v < 2 ^ 64 := by
  rw [isNumeral_iff hbase]
  unfold readUnsigned
  dsimp only
  generalize readDigits base _ = read
  cases read with
  | none => exact ⟨nofun, nofun⟩
  | some n =>
    dsimp only
    constructor
    · intro h
      split_ifs at h with hlt
      obtain rfl := Option.some.inj h
      exact ⟨rfl, hlt⟩
    · rintro ⟨hn, hlt⟩
      obtain rfl := Option.some.inj hn
      exact if_pos hlt

/-! ### Writing -/

/-- The digits that are written of a number have its value. -/
theorem exists_digits_toDigits (hbase : 1 < base) (n : Nat) :
    ∃ digits, Nat.toDigits base n = digits.map Nat.digitChar ∧ digits ≠ [] ∧ (∀ d ∈ digits, d < base) ∧
      Nat.ofDigits base digits.reverse = n := by
  induction n using Nat.strongRecOn with
  | ind n ih =>
    by_cases hn : n < base
    · refine ⟨[n], Nat.toDigits_of_lt_base hn, List.cons_ne_nil _ _, ?_, ?_⟩
      · intro d hd
        rwa [List.mem_singleton.1 hd]
      · exact Nat.ofDigits_singleton
    · have hle := Nat.le_of_not_lt hn
      obtain ⟨digits, hdigits, -, hlt, hvalue⟩ := ih (n / base) (Nat.div_lt_self (by omega) hbase)
      refine ⟨digits ++ [n % base], ?_, by simp, ?_, ?_⟩
      · rw [Nat.toDigits_of_base_le hbase hle, hdigits, List.map_append]
        rfl
      · intro d hd
        rcases List.mem_append.1 hd with hd | hd
        · exact hlt d hd
        · rw [List.mem_singleton.1 hd]
          exact Nat.mod_lt n (by omega)
      · rw [List.reverse_append, List.reverse_singleton, List.singleton_append, Nat.ofDigits_cons, hvalue]
        exact Nat.mod_add_div n base

theorem positional_of_spells (hbase : 1 < base) {n : Nat} (h : Spells (Nat.toDigits base n) cs) :
    cs ≠ [] ∧ Positional base cs n := by
  obtain ⟨digits, hdigits, hne, hlt, hvalue⟩ := exists_digits_toDigits hbase n
  rw [Spells, hdigits, List.forall₂_map_left_iff] at h
  have hread : List.Forall₂ (fun d c => IsDigit base c d) digits cs := (List.forall₂_and_left digits cs).2 ⟨hlt, h⟩
  refine ⟨?_, digits, hread.flip, hvalue.symm⟩
  rintro rfl
  exact hne (List.forall₂_nil_right_iff.1 h)

theorem Positional.exists_isDigit (h : Positional base cs v) (hc : c ∈ cs) : ∃ d, IsDigit base c d := by
  obtain ⟨digits, hdigits, -⟩ := h
  induction hdigits with
  | nil => cases hc
  | cons hd _ ih =>
    rcases List.mem_cons.1 hc with rfl | hc
    · exact ⟨_, hd⟩
    · exact ih hc

end DiskArray.Text
