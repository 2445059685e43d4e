import DiskArray.Proofs.Flat
import DiskArray.Proofs.Signature.Table
import DiskArray.Signature.Codec
import Mathlib.Tactic.NormNum

/-!
# Writing and reading signature files

Reading takes back what writing puts: a row of bytes gives these entries exactly when it starts with their bytes
(`Signature.readEntries_eq_some_iff`), so the bytes that follow make no difference, and it gives entries at all exactly
when it is long enough. A file is therefore read exactly when it is as long as its count says (`Complete`), and the
table of what is read is written to a file that gives the table again.
-/

namespace DiskArray

namespace Signature

/-! ### Numbers -/

theorem length_littleEndian (width n : Nat) : (littleEndian width n).length = width := by
  induction width generalizing n with
  | zero => rfl
  | succ width ih => rw [littleEndian, List.length_cons, ih]

theorem ofLittleEndian_littleEndian {width n : Nat} (h : n < 256 ^ width) :
    ofLittleEndian (littleEndian width n) = n := by
  induction width generalizing n with
  | zero =>
    rw [Nat.pow_zero, Nat.lt_one_iff] at h
    exact h.symm
  | succ width ih =>
    have hdiv : n / 256 < 256 ^ width := by
      rw [Nat.pow_succ] at h
      omega
    rw [littleEndian, ofLittleEndian, ih hdiv, UInt8.toNat_ofNat']
    omega

/-! ### Entries -/

theorem Entry.length_toBytes (e : Entry) : e.toBytes.length = entrySize := by
  rw [toBytes, List.length_cons, List.length_cons, Vector.length_toList]

theorem Entry.ofBytes?_eq_some_iff {bytes : List UInt8} {e : Entry} :
    ofBytes? bytes = some e ↔ e.toBytes <+: bytes := by
  match bytes with
  | [] => simp [ofBytes?, toBytes]
  | [disk] => simp [ofBytes?, toBytes]
  | disk :: block :: rest =>
    obtain ⟨disk', block', digest⟩ := e
    rw [toBytes, List.cons_prefix_cons, List.cons_prefix_cons, List.prefix_iff_eq_take, Vector.length_toList]
    unfold ofBytes?
    by_cases hlength : (rest.take 32).length = 32
    · simp only [dif_pos hlength, Option.some.injEq, Entry.mk.injEq]
      rw [eq_comm (a := disk), eq_comm (a := block), ← Vector.toList_inj, eq_comm (b := digest.toList)]
      rfl
    · simp only [dif_neg hlength]
      constructor
      · intro h
        cases h
      · rintro ⟨-, -, hdigest⟩
        rw [← hdigest, Vector.length_toList] at hlength
        exact absurd rfl hlength

theorem Entry.exists_ofBytes?_iff {bytes : List UInt8} :
    (∃ e, ofBytes? bytes = some e) ↔ entrySize ≤ bytes.length := by
  constructor
  · rintro ⟨e, he⟩
    have hle := (Entry.ofBytes?_eq_some_iff.1 he).length_le
    rwa [e.length_toBytes] at hle
  · intro h
    match bytes with
    | [] => exact absurd h (by decide)
    | [_] => exact absurd h (by simp)
    | disk :: block :: rest =>
      have hlength : (rest.take 32).length = 32 := by
        simp only [entrySize, List.length_cons] at h
        rw [List.length_take]
        omega
      exact ⟨_, dif_pos hlength⟩

/-- Reading gives the entries whose bytes come first. -/
theorem readEntries_eq_some_iff {count : Nat} {bytes : List UInt8} {entries : List Entry} :
    readEntries count bytes = some entries ↔ entries.length = count ∧ entries.flatMap Entry.toBytes <+: bytes := by
  induction count generalizing bytes entries with
  | zero =>
    rw [readEntries, Option.some.injEq, List.length_eq_zero_iff]
    constructor
    · rintro rfl
      exact ⟨rfl, List.nil_prefix⟩
    · rintro ⟨rfl, -⟩
      rfl
  | succ count ih =>
    rw [readEntries]
    constructor
    · intro h
      split at h
      · rename_i e he
        obtain ⟨later, hlater, rfl⟩ := Option.map_eq_some_iff.1 h
        obtain ⟨hlength, hstart⟩ := ih.1 hlater
        obtain ⟨rest, rfl⟩ := Entry.ofBytes?_eq_some_iff.1 he
        rw [List.drop_left' e.length_toBytes] at hstart
        refine ⟨by rw [List.length_cons, hlength], ?_⟩
        rw [List.flatMap_cons]
        exact (List.prefix_append_right_inj _).2 hstart
      · cases h
    · rintro ⟨hlength, hstart⟩
      obtain ⟨e, later, rfl⟩ := List.exists_cons_of_length_eq_add_one hlength
      rw [List.flatMap_cons] at hstart
      have hfirst : Entry.ofBytes? bytes = some e := by
        rw [Entry.ofBytes?_eq_some_iff]
        exact (List.prefix_append _ _).trans hstart
      obtain ⟨rest, rfl⟩ := Entry.ofBytes?_eq_some_iff.1 hfirst
      have hlater : readEntries count ((e.toBytes ++ rest).drop entrySize) = some later := by
        rw [ih, List.drop_left' e.length_toBytes]
        exact ⟨Nat.succ.inj hlength, (List.prefix_append_right_inj _).1 hstart⟩
      rw [hfirst, hlater]
      rfl

theorem exists_readEntries_iff {count : Nat} {bytes : List UInt8} :
    (∃ entries, readEntries count bytes = some entries) ↔ entrySize * count ≤ bytes.length := by
  induction count generalizing bytes with
  | zero =>
    rw [Nat.mul_zero]
    exact ⟨fun _ => Nat.zero_le _, fun _ => ⟨[], rfl⟩⟩
  | succ count ih =>
    have hrest : (bytes.drop entrySize).length = bytes.length - entrySize := List.length_drop
    rw [Nat.mul_succ]
    constructor
    · rintro ⟨entries, h⟩
      obtain ⟨hlength, hstart⟩ := readEntries_eq_some_iff.1 h
      have hle := hstart.length_le
      rwa [length_flatMap_of_length Entry.length_toBytes, hlength, Nat.mul_succ] at hle
    · intro h
      obtain ⟨e, he⟩ := Entry.exists_ofBytes?_iff.2 (Nat.le_trans (Nat.le_add_left _ _) h)
      obtain ⟨later, hlater⟩ := ih.2 (by rw [hrest]; omega)
      refine ⟨e :: later, ?_⟩
      rw [readEntries, he]
      simp only [hlater, Option.map_some]

/-! ### Files -/

/-- The number of entries that a file claims to have. -/
def count (bytes : List UInt8) : Nat := ofLittleEndian (bytes.take 8)

/-- The bytes of the entry with a number. -/
def entryBytes (bytes : List UInt8) (i : Nat) : List UInt8 := (bytes.drop (8 + entrySize * i)).take entrySize

/-- A file that is as long as it claims to be, and may be longer. -/
def Complete (bytes : List UInt8) : Prop := 8 ≤ bytes.length ∧ 8 + entrySize * count bytes ≤ bytes.length

/-- The table has for each block the digest of the last entry about it. -/
def LastOf (bytes : List UInt8) (t : SignatureTable) : Prop :=
  ∀ disk block digest, t.get? disk block = some digest ↔
    ∃ i < count bytes, entryBytes bytes i = disk :: block :: digest.toList ∧
      ∀ j < count bytes, i < j → (entryBytes bytes j).take 2 ≠ [disk, block]

/-- The bytes are those of a table: the count, and the entries one after the other in the order of their blocks. -/
structure Layout (t : SignatureTable) (bytes : List UInt8) : Prop where
  length : bytes.length = 8 + entrySize * t.size
  count : bytes.take 8 = littleEndian 8 t.size
  entry : ∀ i (hi : i < t.entries.length), entryBytes bytes i = t.entries[i].toBytes
  ordered : t.entries.Pairwise fun e e' => e.disk < e'.disk ∨ e.disk = e'.disk ∧ e.block < e'.block

variable {bytes : List UInt8}

theorem entryBytes_eq {entries : List Entry} (h : entries.flatMap Entry.toBytes <+: bytes.drop 8) {i : Nat}
    (hi : i < entries.length) : entryBytes bytes i = entries[i].toBytes := by
  obtain ⟨rest, hrest⟩ := h
  have hlength := length_flatMap_of_length Entry.length_toBytes entries
  have hinside : entrySize * i + entrySize ≤ (entries.flatMap Entry.toBytes).length := by
    rw [hlength, ← Nat.mul_succ]
    exact Nat.mul_le_mul_left _ hi
  rw [entryBytes, ← List.drop_drop, ← hrest, List.drop_append_of_le_length (by omega),
    List.take_append_of_le_length (by rw [List.length_drop]; omega)]
  exact take_drop_flatMap Entry.length_toBytes entries i hi

theorem lastOf_ofEntries {entries : List Entry} (hlength : entries.length = count bytes)
    (h : entries.flatMap Entry.toBytes <+: bytes.drop 8) : LastOf bytes (.ofEntries entries) := by
  have htake (e : Entry) (disk block : UInt8) : e.toBytes.take 2 = [disk, block] ↔ e.disk = disk ∧ e.block = block := by
    simp [Entry.toBytes]
  intro disk block digest
  rw [SignatureTable.get?_ofEntries, ← hlength]
  constructor
  · rintro ⟨earlier, later, rfl, hlater⟩
    have hlt : earlier.length < (earlier ++ (⟨disk, block, digest⟩ : Entry) :: later).length := by simp
    refine ⟨earlier.length, hlt, ?_, ?_⟩
    · rw [entryBytes_eq h hlt, List.getElem_append_right (Nat.le_refl _)]
      simp [Entry.toBytes]
    · intro j hj hij
      obtain ⟨k, rfl⟩ := Nat.exists_eq_add_of_lt hij
      rw [entryBytes_eq h hj, List.getElem_append_right (by omega), ne_eq, htake]
      apply hlater
      simp only [show earlier.length + k + 1 - earlier.length = k + 1 by omega, List.getElem_cons_succ]
      exact List.getElem_mem _
  · rintro ⟨i, hi, hentry, hlater⟩
    have hi' : entries[i] = ⟨disk, block, digest⟩ := by
      rw [entryBytes_eq h hi, Entry.toBytes, List.cons.injEq, List.cons.injEq] at hentry
      obtain ⟨hdisk, hblock, hdigest⟩ := hentry
      rw [Entry.mk.injEq]
      exact ⟨hdisk, hblock, Vector.toList_inj.1 hdigest⟩
    refine ⟨entries.take i, entries.drop (i + 1), ?_, ?_⟩
    · rw [← hi', List.getElem_cons_drop, List.take_append_drop]
    · intro e he
      obtain ⟨k, hk, rfl⟩ := List.getElem_of_mem he
      rw [List.length_drop] at hk
      have hne := hlater (i + 1 + k) (by omega) (by omega)
      rwa [entryBytes_eq h (by omega), ne_eq, htake, ← List.getElem_drop] at hne

end Signature

namespace SignatureTable

open Signature

variable {t : SignatureTable} {bytes : List UInt8}

theorem decode_eq_some_iff :
    decode bytes = some t ↔ 8 ≤ bytes.length ∧ ∃ entries, entries.length = count bytes ∧
      entries.flatMap Entry.toBytes <+: bytes.drop 8 ∧ ofEntries entries = t := by
  have hread (entries : List Entry) : readEntries (count bytes) (bytes.drop 8) = some entries ↔
      entries.length = count bytes ∧ entries.flatMap Entry.toBytes <+: bytes.drop 8 := readEntries_eq_some_iff
  unfold decode
  by_cases hshort : bytes.length < 8
  · rw [if_pos hshort]
    constructor
    · intro h
      cases h
    · intro h
      omega
  · rw [if_neg hshort]
    show (readEntries (count bytes) (bytes.drop 8)).map ofEntries = some t ↔ _
    rw [Option.map_eq_some_iff]
    simp only [hread, and_assoc, Nat.le_of_not_lt hshort, true_and]

theorem exists_decode_iff : (∃ t, decode bytes = some t) ↔ Complete bytes := by
  have hdrop : (bytes.drop 8).length = bytes.length - 8 := List.length_drop
  have hread : (∃ entries, readEntries (count bytes) (bytes.drop 8) = some entries) ↔
      entrySize * count bytes ≤ (bytes.drop 8).length := exists_readEntries_iff
  simp only [readEntries_eq_some_iff, hdrop] at hread
  constructor
  · rintro ⟨t, ht⟩
    obtain ⟨hlength, entries, hcount, hstart, -⟩ := decode_eq_some_iff.1 ht
    have hle := hread.1 ⟨entries, hcount, hstart⟩
    exact ⟨hlength, by omega⟩
  · rintro ⟨hlength, hle⟩
    obtain ⟨entries, hcount, hstart⟩ := hread.2 (by omega)
    exact ⟨_, decode_eq_some_iff.2 ⟨hlength, entries, hcount, hstart, rfl⟩⟩

theorem lastOf_of_decode (h : decode bytes = some t) : LastOf bytes t := by
  obtain ⟨-, entries, hcount, hstart, rfl⟩ := decode_eq_some_iff.1 h
  exact lastOf_ofEntries hcount hstart

theorem decode_append (h : decode bytes = some t) (extra : List UInt8) : decode (bytes ++ extra) = some t := by
  obtain ⟨hlength, entries, hcount, hstart, ht⟩ := decode_eq_some_iff.1 h
  have htake : (bytes ++ extra).take 8 = bytes.take 8 := List.take_append_of_le_length hlength
  rw [decode_eq_some_iff, count, htake, List.drop_append_of_le_length hlength]
  refine ⟨?_, entries, hcount, hstart.trans (List.prefix_append _ _), ht⟩
  rw [List.length_append]
  omega

theorem decode_take (h : decode bytes = some t) : decode (bytes.take (8 + entrySize * count bytes)) = some t := by
  obtain ⟨hlength, entries, hcount, hstart, ht⟩ := decode_eq_some_iff.1 h
  have hentries := length_flatMap_of_length Entry.length_toBytes entries
  have hsame : count (bytes.take (8 + entrySize * count bytes)) = count bytes := by
    rw [count, List.take_take, Nat.min_eq_left (Nat.le_add_right _ _), ← count]
  rw [decode_eq_some_iff, hsame]
  refine ⟨?_, entries, hcount, ?_, ht⟩
  · rw [List.length_take]
    omega
  · rw [List.drop_take, Nat.add_sub_cancel_left, List.prefix_take_iff, hentries, hcount]
    exact ⟨hstart, Nat.le_refl _⟩

/-! ### What is written -/

theorem take_encode (t : SignatureTable) : t.encode.take 8 = littleEndian 8 t.size :=
  List.take_left' (length_littleEndian 8 t.size)

theorem drop_encode (t : SignatureTable) : t.encode.drop 8 = t.entries.flatMap Entry.toBytes :=
  List.drop_left' (length_littleEndian 8 t.size)

theorem count_encode (t : SignatureTable) : count t.encode = t.size := by
  have hsize := t.size_le
  rw [count, take_encode, ofLittleEndian_littleEndian]
  norm_num
  omega

theorem length_encode (t : SignatureTable) : t.encode.length = 8 + entrySize * t.size := by
  rw [encode, List.length_append, length_littleEndian, length_flatMap_of_length Entry.length_toBytes]
  rfl

theorem layout_encode (t : SignatureTable) : Layout t t.encode where
  length := t.length_encode
  count := t.take_encode
  entry i hi := by
    apply entryBytes_eq
    exact ⟨[], (List.append_nil _).trans t.drop_encode.symm⟩
  ordered := t.sorted.imp Entry.key_lt_iff.1

theorem decode_encode (t : SignatureTable) : decode t.encode = some t := by
  rw [decode_eq_some_iff]
  refine ⟨?_, t.entries, t.count_encode.symm, ?_, t.ofEntries_entries⟩
  · rw [length_encode]
    exact Nat.le_add_right _ _
  · exact ⟨[], (List.append_nil _).trans t.drop_encode.symm⟩

end SignatureTable

end DiskArray
