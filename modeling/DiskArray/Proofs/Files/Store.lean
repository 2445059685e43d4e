import DiskArray.Files.Store

/-!
# Files at their places

What was put at a place is found there, whatever was there before.
-/

namespace DiskArray.Store

open Files

variable {s : Store} {place : Place} {node : Node} {f : File}

theorem lookup_putIn (place : Place) (node : Node) (nodes : List (Place × Node)) :
    (putIn place node nodes).lookup place = some node := by
  induction nodes with
  | nil => simp [putIn]
  | cons entry rest ih =>
    obtain ⟨p, n⟩ := entry
    unfold putIn
    by_cases hp : p = place
    · rw [if_pos hp, hp]
      simp
    · rw [if_neg hp, List.lookup_cons, beq_false_of_ne (Ne.symm hp)]
      exact ih

theorem node?_put : (s.put place node).node? place = some node := by
  simp only [node?, put, lookup_putIn]

theorem put_self (h : s.nodes.lookup place = some node) : s.put place node = s := by
  have hnodes (nodes : List (Place × Node)) (h : nodes.lookup place = some node) : putIn place node nodes = nodes := by
    induction nodes with
    | nil => cases h
    | cons entry rest ih =>
      obtain ⟨p, n⟩ := entry
      unfold putIn
      by_cases hp : p = place
      · subst hp
        rw [List.lookup_cons, beq_self_eq_true] at h
        rw [if_pos rfl, Option.some.inj h]
      · rw [List.lookup_cons, beq_false_of_ne (Ne.symm hp)] at h
        rw [if_neg hp, ih h]
  rw [put, hnodes s.nodes h]

theorem put_file (h : s.node? place = some (.file f)) : s.put place (.file f) = s := by
  apply put_self
  unfold node? at h
  split at h
  · rename_i node hnode
    rw [hnode, Option.some.inj h]
  · split at h <;> cases h

theorem content_put (f : File) : (s.put place (.file f)).content place = f := by
  rw [content, node?_put]

theorem put_put (s : Store) (place : Place) (node node' : Node) :
    (s.put place node).put place node' = s.put place node' := by
  have hnodes (nodes : List (Place × Node)) :
      putIn place node' (putIn place node nodes) = putIn place node' nodes := by
    induction nodes with
    | nil => simp [putIn]
    | cons entry rest ih =>
      obtain ⟨p, n⟩ := entry
      by_cases hp : p = place
      · simp [putIn, hp]
      · simp [putIn, hp, ih]
  simp only [put, hnodes]

theorem content_modify (change : File → File) : (s.modify place change).content place = change (s.content place) :=
  content_put _

end DiskArray.Store
