import DiskArray.Proofs.Text.Numeral
import DiskArray.Text.HexDump

/-!
# What a dump shows

A dump has one row for each sixteen bytes and says of each one where it starts, what its bytes are and how they look as
text (`IsRow`). Nothing is lost: the hexadecimal columns are read back to the bytes (`readDump`), so two dumps from one
address are equal only if their bytes are (`hexDump_lossless`).
-/

namespace DiskArray.Text

/-- The digits of an address, at least six of them. -/
def addressDigits (address : Nat) : List Char :=
  List.replicate (6 - (Nat.toDigits 16 address).length) '0' ++ Nat.toDigits 16 address

/-- Reads pairs of hexadecimal digits with blanks between them. -/
def readPairs : List Char → Option (List UInt8)
  | [] => some []
  | ' ' :: cs => readPairs cs
  | high :: low :: cs => do
    let h ← digitValue 16 high
    let l ← digitValue 16 low
    return UInt8.ofNat (16 * h + l) :: (← readPairs cs)
  | _ => none

/-- A character of the text column: the one with the number of the byte where that is printable, else a point. -/
def Shows (b : UInt8) (c : Char) : Prop :=
  if 0x20 ≤ b.toNat ∧ b.toNat ≤ 0x7e then c.toNat = b.toNat else c = '.'

/-- The line has the address, the bytes and the text of a row. -/
def IsRow (address : Nat) (row : List UInt8) (line : String) : Prop :=
  ∃ column text, column.length = 47 ∧ readPairs column = some row ∧ List.Forall₂ Shows row text ∧
    line.toList = "0x".toList ++ addressDigits address ++ "  ".toList ++ column ++ "  ".toList ++ ('|' :: text ++ ['|'])

/-- The hexadecimal column of a line: it starts behind the two blanks that follow the address. -/
def columnOf (line : String) : List Char := ((line.toList.dropWhile (· ≠ ' ')).drop 2).take 47

/-- The bytes in the hexadecimal columns of lines. -/
def readDump : List String → Option (List UInt8)
  | [] => some []
  | line :: lines => do return (← readPairs (columnOf line)) ++ (← readDump lines)

variable {address start : Nat} {row bytes : List UInt8} {line : String} {cs : List Char}

/-! ### Pairs of digits -/

theorem toList_hexByte (b : UInt8) :
    (hexByte b).toList = [Nat.digitChar (b.toNat / 16), Nat.digitChar (b.toNat % 16)] := by
  have hb := b.toNat_lt
  rw [hexByte, hexDigits, padStart, String.toList_ofList, String.toList_ofList, String.length_ofList]
  by_cases hsmall : b.toNat < 16
  · rw [Nat.toDigits_of_lt_base hsmall, Nat.div_eq_of_lt hsmall, Nat.mod_eq_of_lt hsmall]
    rfl
  · have hhigh : b.toNat / 16 < 16 := by omega
    rw [Nat.toDigits_of_base_le (by decide) (Nat.le_of_not_lt hsmall), Nat.toDigits_of_lt_base hhigh]
    rfl

theorem digitChar_ne {d : Nat} (hd : d < 16) : Nat.digitChar d ≠ ' ' ∧ Nat.digitChar d ≠ '|' := by
  have hall : ∀ e ∈ List.range 16, Nat.digitChar e ≠ ' ' ∧ Nat.digitChar e ≠ '|' := by decide
  exact hall d (List.mem_range.2 hd)

theorem readPairs_hexByte (b : UInt8) (cs : List Char) :
    readPairs ((hexByte b).toList ++ cs) = (readPairs cs).map (b :: ·) := by
  have hb := b.toNat_lt
  have hhigh : b.toNat / 16 < 16 := by omega
  have hlow : b.toNat % 16 < 16 := Nat.mod_lt _ (by decide)
  have hvalue : UInt8.ofNat (16 * (b.toNat / 16) + b.toNat % 16) = b := by rw [Nat.div_add_mod, UInt8.ofNat_toNat]
  rw [toList_hexByte, List.cons_append, List.cons_append, List.nil_append, readPairs, (digitValue_digitChar hhigh).1,
    (digitValue_digitChar hlow).1]
  · change (readPairs cs).bind (fun rest => some (UInt8.ofNat _ :: rest)) = _
    rw [hvalue]
    cases readPairs cs <;> rfl
  · exact (digitChar_ne hhigh).1

theorem readPairs_blanks (n : Nat) : readPairs (List.replicate n ' ') = some [] := by
  induction n with
  | zero => rfl
  | succ n ih => rw [List.replicate_succ, readPairs, ih]

theorem bar_notMem_of_readPairs (h : readPairs cs = some row) : '|' ∉ cs := by
  fun_induction readPairs cs generalizing row with
  | case1 => exact List.not_mem_nil
  | case2 cs ih => simpa using ih h
  | case3 high low cs hblank ih =>
    simp only [Option.bind_eq_bind, Option.bind_eq_some_iff] at h
    obtain ⟨hd, hhigh, ld, hlow, rest, hrest, -⟩ := h
    have hbar : digitValue 16 '|' = none := rfl
    rintro (_ | ⟨_, _ | ⟨_, hmem⟩⟩)
    · rw [hbar] at hhigh
      cases hhigh
    · rw [hbar] at hlow
      cases hlow
    · exact ih hrest hmem
  | case4 => cases h

/-! ### One row -/

/-- The column of a row before it is padded. -/
def joinedPairs (row : List UInt8) : List Char := [' '].intercalate (row.map fun b => (hexByte b).toList)

theorem joinedPairs_cons_cons (b b' : UInt8) (row : List UInt8) :
    joinedPairs (b :: b' :: row) = (hexByte b).toList ++ ' ' :: joinedPairs (b' :: row) := by
  rw [joinedPairs, List.map_cons, List.map_cons, List.intercalate_cons_cons, List.append_assoc]
  rfl

theorem length_joinedPairs (row : List UInt8) : (joinedPairs row).length = 3 * row.length - 1 := by
  induction row with
  | nil => rfl
  | cons b row ih =>
    cases row with
    | nil =>
      rw [joinedPairs, List.map_singleton, List.intercalate_singleton, toList_hexByte]
      rfl
    | cons b' row =>
      rw [joinedPairs_cons_cons, toList_hexByte]
      simp only [List.length_append, List.length_cons, List.length_nil] at ih ⊢
      omega

theorem readPairs_joinedPairs (row : List UInt8) (n : Nat) :
    readPairs (joinedPairs row ++ List.replicate n ' ') = some row := by
  induction row with
  | nil => exact readPairs_blanks n
  | cons b row ih =>
    cases row with
    | nil =>
      rw [joinedPairs, List.map_singleton, List.intercalate_singleton, readPairs_hexByte, readPairs_blanks]
      rfl
    | cons b' row =>
      rw [joinedPairs_cons_cons, List.append_assoc, readPairs_hexByte, List.cons_append, readPairs, ih]
      rfl

theorem shows_printable (b : UInt8) : Shows b (printable b) := by
  have hrange : (0x20 ≤ b ∧ b ≤ 0x7e) ↔ (0x20 ≤ b.toNat ∧ b.toNat ≤ 0x7e) :=
    and_congr UInt8.le_iff_toNat_le UInt8.le_iff_toNat_le
  rw [Shows, printable]
  split_ifs with hnat hbyte hbyte
  · have hvalid : b.toNat.isValidChar := Or.inl (by omega)
    rw [Char.ofNat, dif_pos hvalid]
    rfl
  · exact absurd (hrange.2 hnat) hbyte
  · exact absurd (hrange.1 hbyte) hnat
  · rfl

theorem toList_hexColumn (row : List UInt8) :
    (hexColumn row).toList = joinedPairs row ++ List.replicate (47 - (joinedPairs row).length) ' ' := by
  have hjoined : (" ".intercalate (row.map hexByte)).toList = joinedPairs row := by
    rw [String.toList_intercalate, List.map_map]
    rfl
  rw [hexColumn, padEnd, String.toList_ofList, ← String.length_toList, hjoined]

theorem isRow_dumpRow (hrow : row.length ≤ 16) : IsRow address row (dumpRow address row) := by
  have hlength := length_joinedPairs row
  refine ⟨(hexColumn row).toList, (textColumn row).toList, ?_, ?_, ?_, ?_⟩
  · rw [toList_hexColumn, List.length_append, List.length_replicate]
    omega
  · rw [toList_hexColumn]
    exact readPairs_joinedPairs row _
  · rw [textColumn, String.toList_ofList]
    exact List.forall₂_map_right_iff.2 (List.forall₂_same.2 fun b _ => shows_printable b)
  · simp [dumpRow, hexNumber, hexDigits, padStart, addressDigits]

/-! ### What is read from a row -/

theorem mem_addressDigits {c : Char} (hc : c ∈ addressDigits address) : c ≠ ' ' ∧ c ≠ '|' := by
  obtain ⟨digits, hdigits, -, hlt, -⟩ := exists_digits_toDigits (Nat.one_lt_ofNat : 1 < 16) address
  rw [addressDigits, hdigits] at hc
  rcases List.mem_append.1 hc with hc | hc
  · rw [(List.mem_replicate.1 hc).2]
    decide
  · obtain ⟨d, hd, rfl⟩ := List.mem_map.1 hc
    exact digitChar_ne (hlt d hd)

theorem IsRow.readPairs_columnOf (h : IsRow address row line) : readPairs (columnOf line) = some row := by
  obtain ⟨column, text, hlength, hread, -, hline⟩ := h
  have hmarker : ∀ c ∈ "0x".toList, decide (c ≠ ' ') = true := by simp
  have hfront : ∀ c ∈ "0x".toList ++ addressDigits address, decide (c ≠ ' ') = true := by
    intro c hc
    rcases List.mem_append.1 hc with hc | hc
    · exact hmarker c hc
    · exact decide_eq_true (mem_addressDigits hc).1
  have hcolumn : columnOf line = column := by
    rw [columnOf, hline]
    simp only [List.append_assoc]
    rw [← List.append_assoc, List.dropWhile_append_of_pos hfront]
    exact List.take_left' hlength
  rw [hcolumn, hread]

theorem length_addressDigits (h : address < 2 ^ 24) : (addressDigits address).length = 6 := by
  have hle : (Nat.toDigits 16 address).length ≤ 6 := (Nat.length_toDigits_le_iff (by decide) (by decide)).2 h
  rw [addressDigits, List.length_append, List.length_replicate]
  omega

theorem IsRow.idxOf_bar (h : IsRow address row line) (haddress : address < 2 ^ 24) : line.toList.idxOf '|' = 59 := by
  obtain ⟨column, text, hlength, hread, -, hline⟩ := h
  have hfront : '|' ∉ "0x".toList ++ addressDigits address ++ "  ".toList ++ column ++ "  ".toList := by
    have hdigits : '|' ∉ addressDigits address := fun hmem => (mem_addressDigits hmem).2 rfl
    simp [hdigits, bar_notMem_of_readPairs hread]
  rw [hline, List.idxOf_append_of_notMem hfront, List.cons_append, List.idxOf_cons_self]
  simp [length_addressDigits haddress, hlength]

/-! ### All rows -/

theorem length_hexDump : (hexDump start bytes).length = (bytes.length + 15) / 16 := by
  fun_induction hexDump start bytes with
  | case1 => rfl
  | case2 start bytes hbytes ih =>
    have hpos := List.length_pos_iff.2 hbytes
    rw [List.length_cons, ih, List.length_drop]
    unfold dumpWidth
    omega

theorem getElem?_hexDump (start : Nat) {i : Nat} (hi : 16 * i < bytes.length) :
    (hexDump start bytes)[i]? = some (dumpRow (start + 16 * i) ((bytes.drop (16 * i)).take 16)) := by
  fun_induction hexDump start bytes generalizing i with
  | case1 => exact absurd hi (Nat.not_lt_zero _)
  | case2 start bytes hbytes ih =>
    cases i with
    | zero => rfl
    | succ i =>
      have hrest : 16 * i < (bytes.drop dumpWidth).length := by
        rw [List.length_drop]
        unfold dumpWidth
        omega
      have hstart : start + dumpWidth + 16 * i = start + 16 * (i + 1) := by
        unfold dumpWidth
        omega
      have hskip : dumpWidth + 16 * i = 16 * (i + 1) := by
        unfold dumpWidth
        omega
      rw [List.getElem?_cons_succ, ih hrest, List.drop_drop, hstart, hskip]

theorem readDump_hexDump (start : Nat) (bytes : List UInt8) : readDump (hexDump start bytes) = some bytes := by
  fun_induction hexDump start bytes with
  | case1 => rfl
  | case2 start bytes hbytes ih =>
    rw [readDump, ih, (isRow_dumpRow (List.length_take_le _ _)).readPairs_columnOf]
    exact congrArg some (List.take_append_drop _ _)

/-- A dump has one row for each sixteen bytes, which says where they are, what they are and how they look as text, and from
its hexadecimal columns the bytes are read back. So no other bytes have this dump, and as long as addresses have six
digits, the text starts at one position in all lines. -/
theorem hexDump_lossless (start : UInt32) (bytes : List UInt8) :
    (hexDump start.toNat bytes).length = (bytes.length + 15) / 16 ∧
      (∀ (i : Nat) (hi : i < (hexDump start.toNat bytes).length),
        IsRow (start.toNat + 16 * i) ((bytes.drop (16 * i)).take 16) (hexDump start.toNat bytes)[i]) ∧
      readDump (hexDump start.toNat bytes) = some bytes ∧
      (∀ others, hexDump start.toNat others = hexDump start.toNat bytes → others = bytes) ∧
      (start.toNat + bytes.length ≤ 2 ^ 24 → ∀ line ∈ hexDump start.toNat bytes, line.toList.idxOf '|' = 59) := by
  have hrows (i : Nat) (hi : i < (hexDump start.toNat bytes).length) :
      IsRow (start.toNat + 16 * i) ((bytes.drop (16 * i)).take 16) (hexDump start.toNat bytes)[i] := by
    have hlength := hi
    rw [length_hexDump] at hlength
    obtain ⟨_, hline⟩ := List.getElem?_eq_some_iff.1 (getElem?_hexDump start.toNat (show 16 * i < bytes.length by omega))
    rw [hline]
    exact isRow_dumpRow (List.length_take_le _ _)
  refine ⟨length_hexDump, hrows, readDump_hexDump _ _, ?_, ?_⟩
  · intro others h
    have hread := readDump_hexDump start.toNat others
    rw [h, readDump_hexDump] at hread
    exact (Option.some.inj hread).symm
  · intro hend line hline
    obtain ⟨i, hi, rfl⟩ := List.getElem_of_mem hline
    refine (hrows i hi).idxOf_bar ?_
    rw [length_hexDump] at hi
    omega

/-- A dump that ends where addresses get a seventh digit. -/
theorem hexDump_below_seven_digits :
    ∀ line ∈ hexDump (0xffffef : UInt32).toNat (List.replicate 17 0x41), line.toList.idxOf '|' = 59 :=
  (hexDump_lossless 0xffffef (List.replicate 17 0x41)).2.2.2.2 (by decide)

end DiskArray.Text
