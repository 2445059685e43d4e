import DiskArray.Signature.Table
import Mathlib.Data.List.Perm.Subperm

/-!
# Tables as functions

A signature table is the function that gives the digest of each block (`SignatureTable.get?`), and is determined by
it. Signing changes the function at one block, and a table made of a row of entries gives the digest of the last
entry of each block.
-/

namespace DiskArray

namespace Signature

/-- The entry is about this block. -/
abbrev Entry.isAt (disk block : UInt8) (e : Entry) : Bool := e.disk == disk && e.block == block

theorem Entry.isAt_iff {disk block : UInt8} {e : Entry} : e.isAt disk block ↔ e.disk = disk ∧ e.block = block := by
  simp [Entry.isAt]

theorem Entry.key_lt (e : Entry) : e.key < 65536 := by
  have hdisk := e.disk.toNat_lt
  have hblock := e.block.toNat_lt
  show e.disk.toNat * 256 + e.block.toNat < 65536
  omega

theorem Entry.key_eq_iff {e e' : Entry} : e.key = e'.key ↔ e.disk = e'.disk ∧ e.block = e'.block := by
  have hblock := e.block.toNat_lt
  have hblock' := e'.block.toNat_lt
  rw [← UInt8.toNat_inj, ← UInt8.toNat_inj]
  show e.disk.toNat * 256 + e.block.toNat = e'.disk.toNat * 256 + e'.block.toNat ↔ _
  omega

theorem Entry.key_lt_iff {e e' : Entry} :
    e.key < e'.key ↔ e.disk < e'.disk ∨ e.disk = e'.disk ∧ e.block < e'.block := by
  have hblock := e.block.toNat_lt
  have hblock' := e'.block.toNat_lt
  rw [UInt8.lt_iff_toNat_lt, UInt8.lt_iff_toNat_lt, ← UInt8.toNat_inj]
  show e.disk.toNat * 256 + e.block.toNat < e'.disk.toNat * 256 + e'.block.toNat ↔ _
  omega

variable {e : Entry} {xs : List Entry} {disk block : UInt8}

theorem isAt_of_key_eq {x : Entry} (h : e.key = x.key) : e.isAt disk block = x.isAt disk block := by
  obtain ⟨hdisk, hblock⟩ := Entry.key_eq_iff.1 h
  rw [Entry.isAt, Entry.isAt, hdisk, hblock]

theorem isAt_eq_false_of_key_ne {x : Entry} (h : e.key ≠ x.key) (he : e.isAt disk block) :
    x.isAt disk block = false := by
  by_contra hx
  obtain ⟨hdisk, hblock⟩ := Entry.isAt_iff.1 he
  obtain ⟨hdisk', hblock'⟩ := Entry.isAt_iff.1 (by simpa using hx)
  exact h (Entry.key_eq_iff.2 ⟨hdisk.trans hdisk'.symm, hblock.trans hblock'.symm⟩)

theorem find?_insert (e : Entry) (xs : List Entry) (disk block : UInt8) :
    (insert e xs).find? (Entry.isAt disk block) =
      if e.isAt disk block then some e else xs.find? (Entry.isAt disk block) := by
  have hcons (ys : List Entry) : (e :: ys).find? (Entry.isAt disk block) =
      if e.isAt disk block then some e else ys.find? (Entry.isAt disk block) := by
    rw [List.find?_cons]
    cases e.isAt disk block <;> rfl
  induction xs with
  | nil => exact hcons []
  | cons x xs ih =>
    unfold insert
    by_cases hlt : e.key < x.key
    · rw [if_pos hlt]
      exact hcons (x :: xs)
    · rw [if_neg hlt]
      by_cases heq : e.key = x.key
      · have hat : e.isAt disk block = x.isAt disk block := isAt_of_key_eq heq
        rw [if_pos heq, hcons xs, List.find?_cons, hat]
        cases x.isAt disk block <;> rfl
      · rw [if_neg heq, List.find?_cons, List.find?_cons, ih]
        by_cases hat : e.isAt disk block
        · rw [isAt_eq_false_of_key_ne heq hat, if_pos hat]
        · rw [if_neg hat, if_neg hat]

theorem find?_insertNew (h : Sorted xs) (e : Entry) (disk block : UInt8) :
    (insertNew e xs).find? (Entry.isAt disk block) =
      (xs.find? (Entry.isAt disk block)).or ([e].find? (Entry.isAt disk block)) := by
  induction xs with
  | nil => rfl
  | cons x xs ih =>
    obtain ⟨hx, hxs⟩ := List.pairwise_cons.1 h
    unfold insertNew
    by_cases hlt : e.key < x.key
    · rw [if_pos hlt]
      by_cases hat : e.isAt disk block
      · -- all that follow have larger keys
        have hnone : (x :: xs).find? (Entry.isAt disk block) = none := by
          rw [List.find?_eq_none]
          intro y hy
          have hey : e.key < y.key := by
            rcases List.mem_cons.1 hy with rfl | hy
            · exact hlt
            · exact Nat.lt_trans hlt (hx y hy)
          rw [isAt_eq_false_of_key_ne (Nat.ne_of_lt hey) hat]
          exact Bool.false_ne_true
        rw [hnone, List.find?_cons_of_pos hat, List.find?_cons_of_pos hat, Option.none_or]
      · rw [List.find?_cons_of_neg hat, List.find?_cons_of_neg hat, List.find?_nil, Option.or_none]
    · rw [if_neg hlt]
      by_cases heq : e.key = x.key
      · have hat : e.isAt disk block = x.isAt disk block := isAt_of_key_eq heq
        rw [if_pos heq]
        by_cases hxat : x.isAt disk block
        · rw [List.find?_cons_of_pos hxat, Option.some_or]
        · rw [List.find?_cons_of_neg (l := []) (by rwa [hat]), List.find?_nil, Option.or_none]
      · rw [if_neg heq, List.find?_cons, List.find?_cons]
        split
        · rfl
        · exact ih hxs

end Signature

namespace SignatureTable

open Signature

variable {t t' : SignatureTable} {disk block : UInt8}

theorem get?_eq (t : SignatureTable) (disk block : UInt8) :
    t.get? disk block = (t.entries.find? (Entry.isAt disk block)).map (·.digest) := rfl

theorem get?_sign (t : SignatureTable) (disk block : UInt8) (data : Block) (disk' block' : UInt8) :
    (t.sign disk block data).get? disk' block' =
      if disk = disk' ∧ block = block' then some (Sha256.digest data.toList) else t.get? disk' block' := by
  rw [get?_eq, get?_eq]
  show ((Signature.insert _ t.entries).find? _).map _ = _
  rw [find?_insert]
  by_cases h : disk = disk' ∧ block = block'
  · rw [if_pos (Entry.isAt_iff.2 h), if_pos h]
    rfl
  · rw [if_neg (fun hat => h (Entry.isAt_iff.1 hat)), if_neg h]

theorem isEmpty_sign (t : SignatureTable) (disk block : UInt8) (data : Block) :
    (t.sign disk block data).isEmpty = false := by
  show (Signature.insert _ t.entries).isEmpty = false
  cases t.entries with
  | nil => rfl
  | cons x xs =>
    unfold Signature.insert
    split
    · rfl
    · split <;> rfl

theorem eq_empty_of_isEmpty (h : t.isEmpty) : t = empty := SignatureTable.ext (List.isEmpty_iff.1 h)

theorem size_le (t : SignatureTable) : t.size ≤ 65536 := by
  have hnodup : (t.entries.map Entry.key).Nodup := by
    rw [List.nodup_iff_pairwise_ne, List.pairwise_map]
    exact t.sorted.imp Nat.ne_of_lt
  have hsubset : t.entries.map Entry.key ⊆ List.range 65536 := by
    intro key hkey
    obtain ⟨e, -, rfl⟩ := List.mem_map.1 hkey
    exact List.mem_range.2 e.key_lt
  have hlength := (List.subperm_of_subset hnodup hsubset).length_le
  rwa [List.length_map, List.length_range] at hlength

/-! ### Rows of entries -/

theorem find?_ofEntries (entries : List Entry) (disk block : UInt8) :
    (ofEntries entries).entries.find? (Entry.isAt disk block) = entries.reverse.find? (Entry.isAt disk block) := by
  induction entries with
  | nil => rfl
  | cons e entries ih =>
    show (Signature.insertNew e (ofEntries entries).entries).find? _ = _
    rw [find?_insertNew (ofEntries entries).sorted, ih, List.reverse_cons, List.find?_append]

theorem get?_ofEntries {entries : List Entry} {digest : Sha256.Digest} :
    (ofEntries entries).get? disk block = some digest ↔
      ∃ earlier later, entries = earlier ++ ⟨disk, block, digest⟩ :: later ∧
        ∀ e ∈ later, ¬ (e.disk = disk ∧ e.block = block) := by
  rw [get?_eq, find?_ofEntries, Option.map_eq_some_iff]
  constructor
  · rintro ⟨e, he, rfl⟩
    obtain ⟨hat, later, earlier, hentries, hlater⟩ := List.find?_eq_some_iff_append.1 he
    obtain ⟨rfl, rfl⟩ := Entry.isAt_iff.1 hat
    refine ⟨earlier.reverse, later.reverse, ?_, ?_⟩
    · have hreverse := congrArg List.reverse hentries
      rw [List.reverse_reverse] at hreverse
      rw [hreverse, List.reverse_append, List.reverse_cons, List.append_assoc]
      rfl
    · intro e' he' hsame
      have hnot := hlater e' (List.mem_reverse.1 he')
      rw [Entry.isAt_iff.2 hsame] at hnot
      cases hnot
  · rintro ⟨earlier, later, rfl, hlater⟩
    refine ⟨⟨disk, block, digest⟩, ?_, rfl⟩
    rw [List.find?_eq_some_iff_append]
    refine ⟨Entry.isAt_iff.2 ⟨rfl, rfl⟩, later.reverse, earlier.reverse, ?_, ?_⟩
    · rw [List.reverse_append, List.reverse_cons, List.append_assoc]
      rfl
    · intro e he
      have hne := hlater e (List.mem_reverse.1 he)
      rw [← Entry.isAt_iff] at hne
      rw [Bool.eq_false_iff.2 hne]
      rfl

theorem ofEntries_entries (t : SignatureTable) : ofEntries t.entries = t := by
  have hsorted (entries : List Entry) (h : Sorted entries) : (ofEntries entries).entries = entries := by
    induction entries with
    | nil => rfl
    | cons e entries ih =>
      obtain ⟨he, hentries⟩ := List.pairwise_cons.1 h
      show Signature.insertNew e (ofEntries entries).entries = _
      rw [ih hentries]
      cases entries with
      | nil => rfl
      | cons x xs => exact if_pos (he x List.mem_cons_self)
  exact SignatureTable.ext (hsorted t.entries t.sorted)

end SignatureTable

end DiskArray
