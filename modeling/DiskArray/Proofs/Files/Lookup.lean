import DiskArray.Proofs.Files.Path

/-!
# Reading beside a file that is made

A path at which a file can be read leads there for writing as well (`leadsTo_of_lookup`). When a file is made, a path
that does not lead to it finds what it found before (`AgreeBut.lookup_cases`), but for one exception: a path on which
the file's place is taken for a directory has nothing at its end until the file is made, and is refused from then on.
-/

namespace DiskArray.Store

open Files

variable {s s' : Store} {place q : Place} {creating slashed : Bool} {links : Nat} {here : Place} {names : List String}
  {path : String} {f : File}

theorem walk_slashed_ne_file : s.walk creating links here names true ≠ .ok (q, some (.file f)) := by
  generalize hslashed : true = slashed
  fun_induction Store.walk s creating links here names slashed with
  | case2 links here slashed more ih => exact ih hslashed
  | case3 links here slashed more hdot ih => exact ih hslashed
  | case8 links here slashed name more hdot hdots hs hlong next hnext ih => exact ih hslashed
  | case9 links here slashed name more hdot hdots hs hlong next content hnext hmore =>
    subst hslashed
    simp at hmore
  | case12 here slashed name more hdot hdots hs hlong next target hnext links route ih =>
    exact ih (by rw [← hslashed, Bool.true_or])
  | _ => simp

theorem walk_of_file (h : s.walk false links here names slashed = .ok (q, some (.file f))) :
    s.walk true links here names slashed = .ok (q, some (.file f)) := by
  have henters {name : String} {more : List String} {slashed : Bool} (hdot : name ≠ ".") (hdots : name ≠ "..")
      (hlong : ¬ maxName < name.utf8ByteSize) (hne : slashed ≠ true) : Enters true name more slashed :=
    ⟨hdot, hdots, fun hall => hne (Bool.and_eq_true_iff.1 hall).2, hlong⟩
  fun_induction Store.walk s false links here names slashed with
  | case2 links here slashed more ih =>
    rw [Store.walk, if_pos rfl]
    exact ih h
  | case3 links here slashed more hdot ih =>
    rw [Store.walk, if_neg hdot, if_pos rfl]
    exact ih h
  | case8 links here slashed name more hdot hdots hs hlong next hnext ih =>
    have hne : slashed ≠ true := by
      rintro rfl
      exact walk_slashed_ne_file h
    rw [walk_directory (henters hdot hdots hlong hne) hnext]
    exact ih h
  | case9 links here slashed name more hdot hdots hs hlong next content hnext hmore =>
    have hne : slashed ≠ true := by
      rintro rfl
      simp at hmore
    rw [walk_file (henters hdot hdots hlong hne) hnext, if_pos hmore]
    exact h
  | case12 here slashed name more hdot hdots hs hlong next target hnext links route ih =>
    have hne : slashed ≠ true := by
      rintro rfl
      rw [Bool.true_or] at h
      exact walk_slashed_ne_file h
    rw [walk_link (henters hdot hdots hlong hne) hnext]
    exact ih h
  | _ => simp at h

/-- A path at which a file can be read leads there for writing as well. -/
theorem leadsTo_of_lookup (h : s.lookup path = .ok (place, .file f)) : s.LeadsTo path place := by
  have hresolve : s.resolve path false = .ok (place, some (.file f)) := by
    unfold lookup at h
    split at h
    · cases h
    · cases h
    · rename_i hr
      cases h
      exact hr
  have hmaking : s.resolve path true = .ok (place, some (.file f)) := by
    unfold Store.resolve at hresolve ⊢
    split_ifs at hresolve ⊢
    exact walk_of_file hresolve
  exact leadsTo_of_resolve hmaking (Or.inr ⟨f, rfl⟩)

/-! ### When a file is made -/

/-- Walks to a place that is not the file's are the same, unless the file is taken for a directory. -/
theorem AgreeBut.walk (h : AgreeBut place s s') (hf : s'.node? place = some (.file f)) :
    s'.walk false links here names slashed = s.walk false links here names slashed ∨
      s'.walk false links here names slashed = .ok (place, some (.file f)) ∨
      s.node? place = none ∧ s'.walk false links here names slashed = .error .notDirectory ∧
        (s.walk false links here names slashed = .error .notFound ∨
          s.walk false links here names slashed = .ok (place, none)) := by
  fun_induction Store.walk s false links here names slashed with
  | case1 =>
    rw [Store.walk]
    exact Or.inl rfl
  | case2 links here slashed more ih =>
    rw [Store.walk, if_pos rfl]
    exact ih
  | case3 links here slashed more hdot ih =>
    rw [Store.walk, if_neg hdot, if_pos rfl]
    exact ih
  | case4 links here slashed name more hdot hdots hs => simp at hs
  | case5 links here slashed name more hdot hdots hs hlong =>
    rw [Store.walk, if_neg hdot, if_neg hdots, if_neg hs, if_pos hlong]
    exact Or.inl rfl
  | case6 links here slashed name more hdot hdots hs hlong next hnext hmore =>
    have henters : Enters false name more slashed := ⟨hdot, hdots, hs, hlong⟩
    by_cases hplace : here ++ [name] = place
    · subst hplace
      rw [walk_file henters hf]
      cases slashed with
      | false =>
        rw [hmore, Bool.not_false, Bool.and_self, if_pos rfl]
        exact Or.inr (Or.inl rfl)
      | true =>
        rw [Bool.not_true, Bool.and_false, if_neg Bool.false_ne_true]
        exact Or.inr (Or.inr ⟨hnext, rfl, Or.inr rfl⟩)
    · rw [walk_missing henters ((h.node? _ hplace).trans hnext), if_pos hmore]
      exact Or.inl rfl
  | case7 links here slashed name more hdot hdots hs hlong next hnext hmore =>
    have henters : Enters false name more slashed := ⟨hdot, hdots, hs, hlong⟩
    by_cases hplace : here ++ [name] = place
    · subst hplace
      rw [walk_file henters hf, if_neg fun hall => hmore (Bool.and_eq_true_iff.1 hall).1]
      exact Or.inr (Or.inr ⟨hnext, rfl, Or.inl rfl⟩)
    · rw [walk_missing henters ((h.node? _ hplace).trans hnext), if_neg hmore]
      exact Or.inl rfl
  | case8 links here slashed name more hdot hdots hs hlong next hnext ih =>
    rw [walk_directory ⟨hdot, hdots, hs, hlong⟩ (h.tree.eq_of_not_isLeaf hnext not_isLeaf_directory)]
    exact ih
  | case9 links here slashed name more hdot hdots hs hlong next content hnext hmore =>
    have henters : Enters false name more slashed := ⟨hdot, hdots, hs, hlong⟩
    by_cases hplace : here ++ [name] = place
    · subst hplace
      rw [walk_file henters hf, if_pos hmore]
      exact Or.inr (Or.inl rfl)
    · rw [walk_file henters ((h.node? _ hplace).trans hnext), if_pos hmore]
      exact Or.inl rfl
  | case10 links here slashed name more hdot hdots hs hlong next content hnext hmore =>
    have hfile : ∃ f', s'.node? (here ++ [name]) = some (.file f') := by
      by_cases hplace : here ++ [name] = place
      · exact ⟨f, hplace ▸ hf⟩
      · exact ⟨content, (h.node? _ hplace).trans hnext⟩
    obtain ⟨f', hf'⟩ := hfile
    rw [walk_file ⟨hdot, hdots, hs, hlong⟩ hf', if_neg hmore]
    exact Or.inl rfl
  | case11 here slashed name more hdot hdots hs hlong next target hnext =>
    rw [walk_last_link ⟨hdot, hdots, hs, hlong⟩ (h.tree.eq_of_not_isLeaf hnext (not_isLeaf_link target))]
    exact Or.inl rfl
  | case12 here slashed name more hdot hdots hs hlong next target hnext links route ih =>
    rw [walk_link ⟨hdot, hdots, hs, hlong⟩ (h.tree.eq_of_not_isLeaf hnext (not_isLeaf_link target))]
    exact ih

/-- What is found at a path that does not lead to the file is found as before, unless the path takes the file's place
for a directory: nothing is there before the file is made, and afterwards the path is refused. -/
theorem AgreeBut.lookup_cases (h : AgreeBut place s s') (hf : s'.node? place = some (.file f))
    (hnot : ¬ s.LeadsTo path place) :
    s'.lookup path = s.lookup path ∨
      s.node? place = none ∧ s.lookup path = .error .notFound ∧ s'.lookup path = .error .notDirectory := by
  have hresolve : s'.resolve path false = s.resolve path false ∨
      s'.resolve path false = .ok (place, some (.file f)) ∨
      s.node? place = none ∧ s'.resolve path false = .error .notDirectory ∧
        (s.resolve path false = .error .notFound ∨ s.resolve path false = .ok (place, none)) := by
    unfold Store.resolve
    have hstart : s'.startOf (Route.ofPath path) = s.startOf (Route.ofPath path) := by
      rw [startOf, startOf, h.tree.home]
    split_ifs
    · exact Or.inl rfl
    · exact Or.inl rfl
    · exact Or.inl rfl
    · dsimp only
      rw [hstart]
      exact h.walk hf
  rcases hresolve with hsame | hfile | ⟨hnone, hrefused, hmissing⟩
  · exact Or.inl (by rw [lookup, lookup, hsame])
  · have hlookup : s'.lookup path = .ok (place, .file f) := by rw [lookup, hfile]
    exact absurd ((leadsTo_of_lookup hlookup).of_sameTree h.tree.symm) hnot
  · refine Or.inr ⟨hnone, ?_, by rw [lookup, hrefused]⟩
    rcases hmissing with hmissing | hmissing <;> rw [lookup, hmissing]

theorem file?_of_save {path' : String} {bytes : List UInt8} (h : s.save path bytes = .ok s')
    (hother : ∀ place, s.LeadsTo path place → ¬ s.LeadsTo path' place) : s'.file? path' = s.file? path' := by
  obtain ⟨place, hleads, rfl⟩ := save_eq_ok h
  unfold file?
  rcases (hleads.agreeBut_put (.ofBytes bytes)).lookup_cases node?_put (hother place hleads) with
    hsame | ⟨-, hmissing, hrefused⟩
  · rw [hsame]
  · rw [hmissing, hrefused]

end DiskArray.Store
