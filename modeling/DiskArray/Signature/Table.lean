import DiskArray.Block
import DiskArray.Sha256

/-!
# The signature table

For every block that was signed, the digest of the bytes it held then. Disk and block are bytes, so
that a table read from a file may name blocks the array does not have. Entries stand in the order of
their keys, each key once; the order is part of the type.
-/

namespace DiskArray

namespace Signature

/-- The digest of one block. -/
structure Entry where
  disk : UInt8
  block : UInt8
  digest : Sha256.Digest
deriving DecidableEq

/-- The place of an entry in the order of the table: by disk, then by block. -/
def Entry.key (e : Entry) : Nat := e.disk.toNat * 256 + e.block.toNat

/-- The entries of a table: strictly increasing keys. -/
abbrev Sorted (entries : List Entry) : Prop := entries.Pairwise (·.key < ·.key)

/-- The entries with `e` at its place; an entry with the same key gives way. -/
def insert (e : Entry) : List Entry → List Entry
  | [] => [e]
  | x :: xs =>
    if e.key < x.key then e :: x :: xs
    else if e.key = x.key then e :: xs
    else x :: insert e xs

/-- The entries with `e` at its place unless its key is already there. -/
def insertNew (e : Entry) : List Entry → List Entry
  | [] => [e]
  | x :: xs =>
    if e.key < x.key then e :: x :: xs
    else if e.key = x.key then x :: xs
    else x :: insertNew e xs

theorem mem_insert {e y : Entry} {xs : List Entry} (h : y ∈ insert e xs) : y = e ∨ y ∈ xs := by
  induction xs with
  | nil => simpa [insert] using h
  | cons x xs ih =>
    simp only [insert] at h
    split at h
    · simpa using h
    · split at h
      · rcases List.mem_cons.1 h with h | h <;> simp [h]
      · rcases List.mem_cons.1 h with h | h
        · simp [h]
        · rcases ih h with h | h <;> simp [h]

theorem mem_insertNew {e y : Entry} {xs : List Entry} (h : y ∈ insertNew e xs) : y = e ∨ y ∈ xs := by
  induction xs with
  | nil => simpa [insertNew] using h
  | cons x xs ih =>
    simp only [insertNew] at h
    split at h
    · simpa using h
    · split at h
      · exact Or.inr h
      · rcases List.mem_cons.1 h with h | h
        · simp [h]
        · rcases ih h with h | h <;> simp [h]

theorem sorted_insert {e : Entry} {xs : List Entry} (h : Sorted xs) : Sorted (insert e xs) := by
  induction xs with
  | nil => simp [insert]
  | cons x xs ih =>
    obtain ⟨hx, hxs⟩ := List.pairwise_cons.1 h
    simp only [insert]
    split
    · rename_i hlt
      refine List.pairwise_cons.2 ⟨fun y hy => ?_, h⟩
      rcases List.mem_cons.1 hy with rfl | hy
      · exact hlt
      · exact Nat.lt_trans hlt (hx y hy)
    · split
      · rename_i heq
        exact List.pairwise_cons.2 ⟨fun y hy => Nat.lt_of_le_of_lt (Nat.le_of_eq heq) (hx y hy), hxs⟩
      · refine List.pairwise_cons.2 ⟨fun y hy => ?_, ih hxs⟩
        rcases mem_insert hy with rfl | hy
        · omega
        · exact hx y hy

theorem sorted_insertNew {e : Entry} {xs : List Entry} (h : Sorted xs) : Sorted (insertNew e xs) := by
  induction xs with
  | nil => simp [insertNew]
  | cons x xs ih =>
    obtain ⟨hx, hxs⟩ := List.pairwise_cons.1 h
    simp only [insertNew]
    split
    · rename_i hlt
      refine List.pairwise_cons.2 ⟨fun y hy => ?_, h⟩
      rcases List.mem_cons.1 hy with rfl | hy
      · exact hlt
      · exact Nat.lt_trans hlt (hx y hy)
    · split
      · exact h
      · refine List.pairwise_cons.2 ⟨fun y hy => ?_, ih hxs⟩
        rcases mem_insertNew hy with rfl | hy
        · omega
        · exact hx y hy

end Signature

/-- The signatures of the array. -/
structure SignatureTable where
  entries : List Signature.Entry
  sorted : Signature.Sorted entries

namespace SignatureTable

@[ext] theorem ext {s t : SignatureTable} (h : s.entries = t.entries) : s = t := by
  cases s; cases t; cases h; rfl

def empty : SignatureTable := ⟨[], List.Pairwise.nil⟩

def size (t : SignatureTable) : Nat := t.entries.length

def isEmpty (t : SignatureTable) : Bool := t.entries.isEmpty

/-- The digest of a block, if it was signed. -/
def get? (t : SignatureTable) (disk block : UInt8) : Option Sha256.Digest :=
  (t.entries.find? fun e => e.disk == disk && e.block == block).map (·.digest)

/-- Puts an entry in, in place of one with the same key. -/
def insert (t : SignatureTable) (e : Signature.Entry) : SignatureTable :=
  ⟨Signature.insert e t.entries, Signature.sorted_insert t.sorted⟩

/-- Puts an entry in unless its key has one. -/
def insertNew (t : SignatureTable) (e : Signature.Entry) : SignatureTable :=
  ⟨Signature.insertNew e t.entries, Signature.sorted_insertNew t.sorted⟩

/-- Signs a block: stores the digest of its data. -/
def sign (t : SignatureTable) (disk block : UInt8) (data : Block) : SignatureTable :=
  t.insert ⟨disk, block, Sha256.digest data.toList⟩

/-- The table of a row of entries in any order; of several with one key the last one stays. -/
def ofEntries (entries : List Signature.Entry) : SignatureTable :=
  entries.foldr (fun e t => t.insertNew e) empty

end SignatureTable

end DiskArray
