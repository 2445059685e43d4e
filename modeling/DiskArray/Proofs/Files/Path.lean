import DiskArray.Proofs.Files.Store
import Mathlib.Tactic.SplitIfs

/-!
# Paths and writing

Where a path leads depends on the directories and the links alone, and no file is on the way to another one. Stores
that differ in their files only (`Store.SameTree`) therefore lead every path at which a file can be opened to one
place (`SameTree.resolve`). What was written at a path can be read there, and it is not seen at another path unless
both lead to one file (`Store.SameFile`).
-/

namespace DiskArray

open Files

/-- A file is there, or nothing is. -/
def Files.IsLeaf (found : Option Node) : Prop := found = none ∨ ∃ f, found = some (.file f)

theorem Files.not_isLeaf_directory : ¬ IsLeaf (some .directory) := by
  rintro (h | ⟨f, h⟩) <;> cases h

theorem Files.not_isLeaf_link (target : String) : ¬ IsLeaf (some (.link target)) := by
  rintro (h | ⟨f, h⟩) <;> cases h

/-- A path that is one name. -/
structure Files.IsName (path : String) : Prop where
  slash_notMem : '/' ∉ path.toList
  zero_notMem : '\x00' ∉ path.toList
  ne_empty : path ≠ ""
  ne_dot : path ≠ "."
  ne_dots : path ≠ ".."

theorem Files.splitSlashes_of_notMem {cs : List Char} (h : '/' ∉ cs) : splitSlashes cs = [cs] := by
  induction cs with
  | nil => rfl
  | cons c cs ih =>
    have hc : '/' ≠ c := List.ne_of_not_mem_cons h
    rw [splitSlashes, if_neg hc.symm, ih (List.not_mem_of_not_mem_cons h)]

theorem Files.IsName.route {path : String} (h : IsName path) : Route.ofPath path = ⟨false, [path], false⟩ := by
  have hempty : path.toList ≠ [] := fun hnil => h.ne_empty (String.toList_eq_nil_iff.1 hnil)
  have hfirst : (path.toList.head? == some '/') = false :=
    beq_false_of_ne fun hhead => h.slash_notMem (List.mem_of_head? hhead)
  have hlast : (path.toList.getLast? == some '/') = false :=
    beq_false_of_ne fun hget => h.slash_notMem (List.mem_of_getLast? hget)
  have hfilter : [path.toList].filter (!·.isEmpty) = [path.toList] := by simp [hempty]
  simp only [Route.ofPath, splitSlashes_of_notMem h.slash_notMem, hfirst, hlast, hfilter, List.map_cons, List.map_nil,
    String.ofList_toList]

theorem Files.isName_replicate {n : Nat} (h : 2 < n) :
    IsName (String.ofList (List.replicate n 'x')) ∧ (String.ofList (List.replicate n 'x')).utf8ByteSize = n := by
  have hchars : (String.ofList (List.replicate n 'x')).toList = List.replicate n 'x' := String.toList_ofList
  have hnotMem (c : Char) (hc : c ≠ 'x') : c ∉ (String.ofList (List.replicate n 'x')).toList := by
    rw [hchars]
    exact fun hmem => hc (List.eq_of_mem_replicate hmem)
  have hne (other : String) (hshort : other.toList.length ≤ 2) : String.ofList (List.replicate n 'x') ≠ other := by
    rintro rfl
    rw [hchars, List.length_replicate] at hshort
    omega
  refine ⟨⟨hnotMem _ (by decide), hnotMem _ (by decide), hne _ (by decide), hne _ (by decide), hne _ (by decide)⟩, ?_⟩
  have hx : (String.singleton 'x').utf8ByteSize = 1 := by decide
  clear h hchars hnotMem hne
  induction n with
  | zero => rfl
  | succ n ih =>
    rw [List.replicate_succ, String.ofList_cons, String.utf8ByteSize_append, ih, hx, Nat.add_comm]

/-- A walk looks this name up: it is an entry of a directory, not too long, and no file is to be made behind a slash. -/
structure Files.Enters (creating : Bool) (name : String) (more : List String) (slashed : Bool) : Prop where
  ne_dot : name ≠ "."
  ne_dots : name ≠ ".."
  unslashed : ¬ (more.isEmpty && creating && slashed) = true
  short : ¬ maxName < name.utf8ByteSize

theorem Files.Enters.of_creating {name : String} {more : List String} {slashed : Bool}
    (h : Enters true name more slashed) (creating : Bool) : Enters creating name more slashed where
  ne_dot := h.ne_dot
  ne_dots := h.ne_dots
  unslashed hall := by
    have hs := h.unslashed
    simp only [Bool.and_eq_true, and_true] at hs hall
    exact hs ⟨hall.1.1, hall.2⟩
  short := h.short

theorem Files.IsName.enters {path : String} (h : IsName path) (hshort : path.utf8ByteSize ≤ maxName) (creating : Bool) :
    Enters creating path [] false :=
  ⟨h.ne_dot, h.ne_dots, by simp, Nat.not_lt.2 hshort⟩

namespace Store

/-- Both paths lead to one file, which may be yet to be made. -/
def SameFile (s : Store) (path path' : String) : Prop :=
  ∃ place found found', s.resolve path true = .ok (place, found) ∧ s.resolve path' true = .ok (place, found')

/-- The directories and the links are the same, and nothing else but files is where there are none. The same is refused
of all files. -/
structure SameTree (s s' : Store) : Prop where
  home : s'.home = s.home
  refusals : s'.refusals = s.refusals
  node? : ∀ place, ¬ IsLeaf (s.node? place) → s'.node? place = s.node? place
  leaf : ∀ place, IsLeaf (s.node? place) → IsLeaf (s'.node? place)

/-- No file was written but the one at a place. -/
structure AgreeBut (place : Place) (s s' : Store) : Prop where
  tree : s.SameTree s'
  node? : ∀ other, other ≠ place → s'.node? other = s.node? other

variable {s s' s'' : Store} {place q : Place} {found : Option Node} {creating slashed : Bool} {links : Nat}
  {here : Place} {names : List String} {path : String}

/-! ### What was put -/

theorem lookup_putIn_ne {other : Place} (h : other ≠ place) (node : Node) (nodes : List (Place × Node)) :
    (putIn place node nodes).lookup other = nodes.lookup other := by
  induction nodes with
  | nil =>
    rw [putIn, List.lookup_cons, beq_false_of_ne h]
  | cons entry rest ih =>
    obtain ⟨p, n⟩ := entry
    unfold putIn
    by_cases hp : p = place
    · subst hp
      rw [if_pos rfl, List.lookup_cons, List.lookup_cons, beq_false_of_ne h]
    · rw [if_neg hp, List.lookup_cons, List.lookup_cons, ih]

theorem node?_put_ne {other : Place} (h : other ≠ place) (node : Node) :
    (s.put place node).node? other = s.node? other := by
  simp only [Store.node?, put, lookup_putIn_ne h]

/-! ### Stores that differ in files -/

namespace SameTree

theorem eq_of_not_isLeaf (h : s.SameTree s') (hplace : s.node? place = found) (hfound : ¬ IsLeaf found) :
    s'.node? place = found := by
  rw [h.node? place (hplace ▸ hfound), hplace]

theorem refl (s : Store) : s.SameTree s := ⟨rfl, rfl, fun _ _ => rfl, fun _ h => h⟩

theorem symm (h : s.SameTree s') : s'.SameTree s := by
  have hback (place : Place) (hplace : ¬ IsLeaf (s'.node? place)) : s.node? place = s'.node? place := by
    by_cases hleaf : IsLeaf (s.node? place)
    · exact absurd (h.leaf place hleaf) hplace
    · exact (h.node? place hleaf).symm
  refine ⟨h.home.symm, h.refusals.symm, hback, ?_⟩
  intro place hplace
  by_cases hleaf : IsLeaf (s.node? place)
  · exact hleaf
  · rwa [h.node? place hleaf] at hplace

theorem trans (h : s.SameTree s') (h' : s'.SameTree s'') : s.SameTree s'' where
  home := h'.home.trans h.home
  refusals := h'.refusals.trans h.refusals
  node? place hplace := by
    have hs' := h.node? place hplace
    rw [h'.node? place (hs' ▸ hplace), hs']
  leaf place hplace := h'.leaf place (h.leaf place hplace)

end SameTree

namespace AgreeBut

theorem refl (place : Place) (s : Store) : AgreeBut place s s := ⟨.refl s, fun _ _ => rfl⟩

theorem trans (h : AgreeBut place s s') (h' : AgreeBut place s' s'') : AgreeBut place s s'' where
  tree := h.tree.trans h'.tree
  node? other hne := (h'.node? other hne).trans (h.node? other hne)

end AgreeBut

theorem agreeBut_put (h : IsLeaf (s.node? place)) (f : File) : AgreeBut place s (s.put place (.file f)) := by
  refine ⟨⟨rfl, rfl, ?_, ?_⟩, fun other hne => node?_put_ne hne _⟩
  · intro other hother
    apply node?_put_ne
    rintro rfl
    exact hother h
  · intro other hother
    by_cases heq : other = place
    · subst heq
      exact Or.inr ⟨f, node?_put⟩
    · rwa [node?_put_ne heq]

/-! ### Walking -/

section Enters
variable {name : String} {more : List String} {f : File} {target : String} (h : Enters creating name more slashed)
include h

theorem walk_missing (hnext : s.node? (here ++ [name]) = none) :
    s.walk creating links here (name :: more) slashed =
      if more.isEmpty then .ok (here ++ [name], none) else .error .notFound := by
  rw [Store.walk, if_neg h.ne_dot, if_neg h.ne_dots, if_neg h.unslashed, if_neg h.short]
  simp only [hnext]

theorem walk_file (hnext : s.node? (here ++ [name]) = some (.file f)) :
    s.walk creating links here (name :: more) slashed =
      if more.isEmpty && !slashed then .ok (here ++ [name], some (.file f)) else .error .notDirectory := by
  rw [Store.walk, if_neg h.ne_dot, if_neg h.ne_dots, if_neg h.unslashed, if_neg h.short]
  simp only [hnext]

theorem walk_directory (hnext : s.node? (here ++ [name]) = some .directory) :
    s.walk creating links here (name :: more) slashed = s.walk creating links (here ++ [name]) more slashed := by
  rw [Store.walk, if_neg h.ne_dot, if_neg h.ne_dots, if_neg h.unslashed, if_neg h.short]
  simp only [hnext]

theorem walk_link (hnext : s.node? (here ++ [name]) = some (.link target)) :
    s.walk creating (links + 1) here (name :: more) slashed =
      s.walk creating links (if (Route.ofPath target).fromRoot then [] else here) ((Route.ofPath target).names ++ more)
        (slashed || (more.isEmpty && (Route.ofPath target).slashed)) := by
  rw [Store.walk, if_neg h.ne_dot, if_neg h.ne_dots, if_neg h.unslashed, if_neg h.short]
  simp only [hnext]

theorem walk_last_link (hnext : s.node? (here ++ [name]) = some (.link target)) :
    s.walk creating 0 here (name :: more) slashed = .error .tooManyLinks := by
  rw [Store.walk, if_neg h.ne_dot, if_neg h.ne_dots, if_neg h.unslashed, if_neg h.short]
  simp only [hnext]

end Enters

theorem walk_last {name : String} (h : Enters creating name [] false) (hleaf : IsLeaf (s.node? (here ++ [name]))) :
    s.walk creating links here [name] false = .ok (here ++ [name], s.node? (here ++ [name])) := by
  rcases hleaf with hnone | ⟨f, hf⟩
  · rw [walk_missing h hnone, hnone]
    rfl
  · rw [walk_file h hf, hf]
    rfl

/-- A walk to where a file is, or may be made, is led by the directories and the links, and goes the same way whether
or not a file is to be made. -/
theorem SameTree.walk (h : s.SameTree s') (hw : s.walk true links here names slashed = .ok (q, found))
    (hfound : IsLeaf found) (creating : Bool) :
    found = s.node? q ∧ s'.walk creating links here names slashed = .ok (q, s'.node? q) := by
  have hlast {name : String} {more : List String} {slashed : Bool} (henters : Enters true name more slashed)
      (hmore : more.isEmpty = true) : more = [] ∧ slashed = false := by
    refine ⟨List.isEmpty_iff.1 hmore, ?_⟩
    simpa [hmore] using henters.unslashed
  fun_induction Store.walk s true links here names slashed with
  | case1 =>
    obtain rfl := (Prod.mk.inj (Except.ok.inj hw)).2
    exact absurd hfound not_isLeaf_directory
  | case2 links here slashed more ih =>
    rw [Store.walk, if_pos rfl]
    exact ih hw
  | case3 links here slashed more hdot ih =>
    rw [Store.walk, if_neg hdot, if_pos rfl]
    exact ih hw
  | case6 links here slashed name more hdot hdots hs hlong next hnext hmore =>
    have henters : Enters true name more slashed := ⟨hdot, hdots, hs, hlong⟩
    obtain ⟨rfl, rfl⟩ := Prod.mk.inj (Except.ok.inj hw)
    obtain ⟨rfl, rfl⟩ := hlast henters hmore
    exact ⟨hnext.symm, walk_last (henters.of_creating creating) (h.leaf next (Or.inl hnext))⟩
  | case8 links here slashed name more hdot hdots hs hlong next hnext ih =>
    have henters : Enters true name more slashed := ⟨hdot, hdots, hs, hlong⟩
    rw [walk_directory (henters.of_creating creating) (h.eq_of_not_isLeaf hnext not_isLeaf_directory)]
    exact ih hw
  | case9 links here slashed name more hdot hdots hs hlong next content hnext hmore =>
    have henters : Enters true name more slashed := ⟨hdot, hdots, hs, hlong⟩
    obtain ⟨rfl, rfl⟩ := Prod.mk.inj (Except.ok.inj hw)
    obtain ⟨rfl, rfl⟩ := hlast henters (Bool.and_eq_true_iff.1 hmore).1
    exact ⟨hnext.symm, walk_last (henters.of_creating creating) (h.leaf next (Or.inr ⟨content, hnext⟩))⟩
  | case12 here slashed name more hdot hdots hs hlong next target hnext links route ih =>
    have henters : Enters true name more slashed := ⟨hdot, hdots, hs, hlong⟩
    rw [walk_link (henters.of_creating creating) (h.eq_of_not_isLeaf hnext (not_isLeaf_link target))]
    exact ih hw
  | _ => cases hw

/-- A path that leads to where a file is, or may be made, leads there whatever is in the files. -/
theorem SameTree.resolve (h : s.SameTree s') (hr : s.resolve path true = .ok (q, found)) (hfound : IsLeaf found)
    (creating : Bool) : found = s.node? q ∧ s'.resolve path creating = .ok (q, s'.node? q) := by
  unfold Store.resolve at hr ⊢
  split_ifs at hr ⊢ with hzero hempty hlong
  have hstart : s'.startOf (Route.ofPath path) = s.startOf (Route.ofPath path) := by
    rw [startOf, startOf, h.home]
  dsimp only at hr ⊢
  rw [hstart]
  exact h.walk hr hfound creating

/-! ### Files -/

/-- The path leads to where a file is, or may be made. -/
structure LeadsTo (s : Store) (path : String) (place : Place) : Prop where
  resolve : s.resolve path true = .ok (place, s.node? place)
  leaf : IsLeaf (s.node? place)

theorem leadsTo_of_resolve (h : s.resolve path true = .ok (place, found)) (hfound : IsLeaf found) :
    s.LeadsTo path place := by
  have hnode := ((SameTree.refl s).resolve h hfound true).1
  rw [hnode] at h hfound
  exact ⟨h, hfound⟩

theorem resolve_of_isName (hpath : IsName path) (hlimit : path.utf8ByteSize < pathLimit) (creating : Bool) :
    s.resolve path creating = s.walk creating maxLinks s.home [path] false := by
  rw [Store.resolve, if_neg (by simp [hpath.zero_notMem]), if_neg (by simp [hpath.ne_empty]),
    if_neg (Nat.not_le.2 hlimit), hpath.route]
  rfl

theorem leadsTo_of_isName (hpath : IsName path) (hshort : path.utf8ByteSize ≤ maxName)
    (hleaf : IsLeaf (s.node? (s.home ++ [path]))) : s.LeadsTo path (s.home ++ [path]) := by
  have hresolve := resolve_of_isName (s := s) hpath (Nat.lt_of_le_of_lt hshort (by decide)) true
  rw [walk_last (hpath.enters hshort true) hleaf] at hresolve
  exact leadsTo_of_resolve hresolve hleaf

theorem lookup_of_long (hpath : IsName path) (hlong : maxName < path.utf8ByteSize)
    (hlimit : path.utf8ByteSize < pathLimit) : s.lookup path = .error .nameTooLong := by
  rw [lookup, resolve_of_isName hpath hlimit, walk, if_neg hpath.ne_dot, if_neg hpath.ne_dots, if_neg (by simp),
    if_pos hlong]

namespace LeadsTo

theorem unique (h : s.LeadsTo path place) (h' : s.LeadsTo path q) : place = q :=
  (Prod.mk.inj (Except.ok.inj (h.resolve.symm.trans h'.resolve))).1

theorem of_sameTree (h : s.LeadsTo path place) (htree : s.SameTree s') : s'.LeadsTo path place :=
  ⟨(htree.resolve h.resolve h.leaf true).2, htree.leaf place h.leaf⟩

theorem agreeBut_put (h : s.LeadsTo path place) (f : File) : AgreeBut place s (s.put place (.file f)) :=
  Store.agreeBut_put h.leaf f

theorem lookup (h : s.LeadsTo path place) :
    s.lookup path = match s.node? place with
      | none => .error .notFound
      | some node => .ok (place, node) := by
  rw [Store.lookup, ((SameTree.refl s).resolve h.resolve h.leaf false).2]
  cases s.node? place <;> rfl

theorem openFile_of_file (h : s.LeadsTo path place) {f : File} (hf : s.node? place = some (.file f)) :
    s.openFile path = .ok (place, s) := by
  simp only [openFile, h.resolve, hf]

theorem exists_openFile (h : s.LeadsTo path place) : ∃ opened, s.openFile path = .ok (place, opened) := by
  rcases h.leaf with hnone | ⟨f, hf⟩
  · exact ⟨s.put place (.file .empty), by simp only [openFile, h.resolve, hnone]⟩
  · exact ⟨s, h.openFile_of_file hf⟩

theorem file?_of_file (h : s.LeadsTo path place) {f : File} (hf : s.node? place = some (.file f)) :
    s.file? path = some f := by
  simp only [file?, h.lookup, hf]

theorem save (h : s.LeadsTo path place) (bytes : List UInt8) :
    s.save path bytes = .ok (s.put place (.file (.ofBytes bytes))) := by
  rcases h.leaf with hnone | ⟨f, hf⟩
  · simp only [Store.save, openFile, h.resolve, hnone, put_put]
  · simp only [Store.save, h.openFile_of_file hf]

end LeadsTo

theorem ne_of_not_sameFile {path' : String} (h : ¬ s.SameFile path path') (htree : s.SameTree s')
    (hplace : s'.LeadsTo path place) (hq : s'.LeadsTo path' q) : q ≠ place := by
  rintro rfl
  exact h ⟨_, _, _, (hplace.of_sameTree htree.symm).resolve, (hq.of_sameTree htree.symm).resolve⟩

theorem openFile_eq_ok (h : s.openFile path = .ok (place, s')) :
    s.LeadsTo path place ∧ AgreeBut place s s' ∧ ∃ f, s'.node? place = some (.file f) := by
  unfold openFile at h
  split at h
  · cases h
  · rename_i f hr
    obtain ⟨rfl, rfl⟩ := Prod.mk.inj (Except.ok.inj h)
    have hleads := leadsTo_of_resolve hr (Or.inr ⟨f, rfl⟩)
    rw [hleads.resolve] at hr
    exact ⟨hleads, .refl _ s, f, (Prod.mk.inj (Except.ok.inj hr)).2⟩
  · rename_i hr
    obtain ⟨rfl, rfl⟩ := Prod.mk.inj (Except.ok.inj h)
    have hleads := leadsTo_of_resolve hr (Or.inl rfl)
    exact ⟨hleads, hleads.agreeBut_put _, .empty, node?_put⟩
  · cases h

theorem save_eq_ok {bytes : List UInt8} (h : s.save path bytes = .ok s') :
    ∃ place, s.LeadsTo path place ∧ s' = s.put place (.file (.ofBytes bytes)) := by
  have hsave := h
  unfold save at h
  split at h
  · cases h
  · rename_i place opened hopen
    have hleads := (openFile_eq_ok hopen).1
    refine ⟨place, hleads, ?_⟩
    rw [hleads.save] at hsave
    exact (Except.ok.inj hsave).symm

theorem lookup_save {bytes : List UInt8} (h : s.save path bytes = .ok s') :
    ∃ place, s'.lookup path = .ok (place, .file (.ofBytes bytes)) ∧ s'.save path bytes = .ok s' := by
  obtain ⟨place, hleads, rfl⟩ := save_eq_ok h
  have hleads' := hleads.of_sameTree (hleads.agreeBut_put (.ofBytes bytes)).tree
  have hnode : (s.put place (.file (.ofBytes bytes))).node? place = some (.file (.ofBytes bytes)) := node?_put
  refine ⟨place, ?_, ?_⟩
  · rw [hleads'.lookup, hnode]
  · rw [hleads'.save, put_put]

/-! ### An empty directory -/

theorem node?_empty_of_name {name : String} : Store.empty.node? ["home", name] = none := by
  simp [Store.node?, Store.empty, List.lookup_cons]

theorem node?_empty_ne_file {f : File} : Store.empty.node? place ≠ some (.file f) := by
  unfold Store.node? Store.empty
  simp only [List.lookup_cons, List.lookup_nil]
  cases place == ["home"] <;> cases place.isEmpty <;> nofun

theorem isName_image : IsName "jbod.img" := ⟨by decide, by decide, by decide, by decide, by decide⟩

theorem isName_sidecar : IsName "jbod.img.sig" := ⟨by decide, by decide, by decide, by decide, by decide⟩

theorem leadsTo_image : Store.empty.LeadsTo "jbod.img" ["home", "jbod.img"] :=
  leadsTo_of_isName isName_image (by decide) (Or.inl rfl)

theorem leadsTo_sidecar : Store.empty.LeadsTo "jbod.img.sig" ["home", "jbod.img.sig"] :=
  leadsTo_of_isName isName_sidecar (by decide) (Or.inl rfl)

theorem not_sameFile_empty : ¬ Store.empty.SameFile "jbod.img" "jbod.img.sig" := by
  rintro ⟨place, found, found', h, h'⟩
  rw [leadsTo_image.resolve] at h
  rw [leadsTo_sidecar.resolve] at h'
  have hplace := (Prod.mk.inj (Except.ok.inj h)).1.trans (Prod.mk.inj (Except.ok.inj h')).1.symm
  exact absurd hplace (by decide)

end Store

end DiskArray
