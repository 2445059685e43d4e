import DiskArray.Proofs.Files.File
import DiskArray.Proofs.Files.Path
import DiskArray.Proofs.Signature.Codec
import DiskArray.Signature.Sidecar

/-!
# Signatures on file

What is saved is loaded again, and a sidecar loads exactly if it is complete. Files of other layouts than the one that
is written load too; the table they give is saved in the layout, and from then on nothing changes.
-/

namespace DiskArray

theorem Signature.isName_sidecarPath {image : String} (h : Files.IsName image) : Files.IsName (sidecarPath image) := by
  have hchars : (sidecarPath image).toList = image.toList ++ ['.', 's', 'i', 'g'] := String.toList_append
  have hne (other : String) (hshort : other.toList.length < 4) : sidecarPath image ≠ other := by
    rintro rfl
    rw [hchars, List.length_append, List.length_cons, List.length_cons, List.length_cons, List.length_cons] at hshort
    omega
  have hnotMem (c : Char) (hc : c ∉ image.toList) (hc' : c ∉ ['.', 's', 'i', 'g']) : c ∉ (sidecarPath image).toList := by
    rw [hchars]
    exact fun hmem => (List.mem_append.1 hmem).elim hc hc'
  exact ⟨hnotMem _ h.slash_notMem (by decide), hnotMem _ h.zero_notMem (by decide), hne _ (by decide), hne _ (by decide),
    hne _ (by decide)⟩

namespace SignatureTable

open Signature

variable {t : SignatureTable} {s s' : Store} {path : String} {bytes : List UInt8} {f : File}

theorem ofSidecar_eq_ok_iff : ofSidecar bytes = .ok t ↔ decode bytes = some t := by
  unfold ofSidecar
  cases decode bytes with
  | none => simp
  | some u => rw [Except.ok.injEq, Option.some.injEq]

theorem load_of_file? (h : s.file? path = some f) : load s path = ofSidecar f.bytes := by
  unfold Store.file? at h
  split at h
  · rename_i place g hlookup
    obtain rfl := Option.some.inj h
    simp only [load, hlookup]
  · cases h

theorem load_congr {place : Files.Place} (h : s.LeadsTo path place) (h' : s'.LeadsTo path place)
    (hnode : s'.node? place = s.node? place) : load s' path = load s path := by
  simp only [load, h.lookup, h'.lookup, hnode]

/-- The table is what is at a path: a file that holds it, or nothing if it is empty. -/
def IsAt (t : SignatureTable) (s : Store) (path : String) : Prop :=
  s.lookup path = .error .notFound ∧ t = empty ∨ ∃ f, s.file? path = some f ∧ decode f.bytes = some t

theorem load_eq_ok_iff : load s path = .ok t ↔ t.IsAt s path := by
  unfold load IsAt Store.file?
  cases hlookup : s.lookup path with
  | error e => cases e <;> simp [eq_comm]
  | ok found =>
    obtain ⟨place, node⟩ := found
    cases node <;> simp [ofSidecar_eq_ok_iff]

theorem isAt_congr (h : s'.lookup path = s.lookup path) : t.IsAt s' path ↔ t.IsAt s path := by
  rw [IsAt, IsAt, Store.file?, Store.file?, h]

theorem IsAt.lookup_ne (h : t.IsAt s path) : s.lookup path ≠ .error .notDirectory := by
  intro hlookup
  rcases h with ⟨hmissing, -⟩ | ⟨f, hf, -⟩
  · rw [hlookup] at hmissing
    cases hmissing
  · rw [Store.file?, hlookup] at hf
    cases hf

theorem exists_save_iff (t : SignatureTable) (s : Store) (path : String) :
    (∃ s', t.save s path = .ok s') ↔ ∃ opened, s.openFile path = .ok opened := by
  unfold save Store.save
  cases s.openFile path with
  | error e => simp
  | ok opened => exact ⟨fun _ => ⟨opened, rfl⟩, fun _ => ⟨_, rfl⟩⟩

theorem file?_of_save (h : t.save s path = .ok s') :
    ∃ f, s'.file? path = some f ∧ f.bytes = t.encode ∧ t.save s' path = .ok s' := by
  obtain ⟨place, hlookup, hagain⟩ := Store.lookup_save h
  refine ⟨.ofBytes t.encode, ?_, File.bytes_ofBytes _, hagain⟩
  simp only [Store.file?, hlookup]

theorem load_of_save (h : t.save s path = .ok s') : load s' path = .ok t := by
  obtain ⟨f, hf, hbytes, -⟩ := file?_of_save h
  rw [load_of_file? hf, hbytes, ofSidecar_eq_ok_iff]
  exact t.decode_encode

/-- A table can be saved wherever a file can be opened; it lies in the file as `Layout` says, is loaded again, and
saved again to the same bytes. A file is loaded exactly if it is as long as its count says, and gives for each block
the digest of its last entry, whatever follows the entries; the table that it gives loads again from where it is
saved. Where no file is the table is empty. -/
theorem load_and_save (t : SignatureTable) (s : Store) (path : String) :
    ((∃ s', t.save s path = .ok s') ↔ ∃ opened, s.openFile path = .ok opened) ∧
    (∀ s', t.save s path = .ok s' →
      load s' path = .ok t ∧ t.save s' path = .ok s' ∧ ∃ f, s'.file? path = some f ∧ Layout t f.bytes) ∧
    (∀ f, s.file? path = some f →
      ((∃ u, load s path = .ok u) ↔ Complete f.bytes) ∧
      (¬ Complete f.bytes → load s path = .error .truncated) ∧
      ∀ u, load s path = .ok u →
        LastOf f.bytes u ∧
        (∀ extra s', s.save path (f.bytes.take (8 + entrySize * count f.bytes) ++ extra) = .ok s' →
          load s' path = .ok u) ∧
        ∀ s', u.save s path = .ok s' → load s' path = load s path) ∧
    (s.lookup path = .error .notFound → load s path = .ok empty) := by
  refine ⟨t.exists_save_iff s path, ?_, ?_, ?_⟩
  · intro s' hsave
    obtain ⟨f, hf, hbytes, hagain⟩ := file?_of_save hsave
    exact ⟨load_of_save hsave, hagain, f, hf, hbytes ▸ t.layout_encode⟩
  · intro f hf
    have hload := load_of_file? hf
    have hexists : (∃ u, load s path = .ok u) ↔ Complete f.bytes := by
      simp only [hload, ofSidecar_eq_ok_iff, exists_decode_iff]
    refine ⟨hexists, ?_, ?_⟩
    · intro hshort
      rw [hload, ofSidecar]
      cases hdecode : decode f.bytes with
      | none => rfl
      | some u => exact absurd (exists_decode_iff.1 ⟨u, hdecode⟩) hshort
    · intro u hu
      have hdecode : decode f.bytes = some u := by rwa [hload, ofSidecar_eq_ok_iff] at hu
      refine ⟨lastOf_of_decode hdecode, ?_, ?_⟩
      · intro extra s' hsave
        obtain ⟨place, hlookup, -⟩ := Store.lookup_save hsave
        have hf' : s'.file? path = some (.ofBytes (f.bytes.take (8 + entrySize * count f.bytes) ++ extra)) := by
          simp only [Store.file?, hlookup]
        rw [load_of_file? hf', File.bytes_ofBytes, ofSidecar_eq_ok_iff]
        exact decode_append (decode_take hdecode) extra
      · intro s' hsave
        rw [hu]
        exact load_of_save hsave
  · intro hmissing
    simp only [load, hmissing]

/-- A table of one signature, saved to an empty directory. -/
theorem load_and_save_of_sign :
    ∃ s f, (SignatureTable.empty.sign 3 7 .zero).save .empty "jbod.img.sig" = .ok s ∧
      s.file? "jbod.img.sig" = some f ∧ f.bytes.length = 42 ∧
      load s "jbod.img.sig" = .ok (SignatureTable.empty.sign 3 7 .zero) := by
  have hsave := Store.leadsTo_sidecar.save (SignatureTable.empty.sign 3 7 .zero).encode
  obtain ⟨hload, -, f, hf, hlayout⟩ :=
    (load_and_save (SignatureTable.empty.sign 3 7 .zero) .empty "jbod.img.sig").2.1 _ hsave
  exact ⟨_, f, hsave, hf, hlayout.length, hload⟩

end SignatureTable

end DiskArray
