import DiskArray.Cache.Basic
import Mathlib.Data.List.ReduceOption

/-!
# Rows of slots

What the searches of the cache find in a row of slots, and what a row looks like whose filled slots come
first (`packed`): filling a slot of such a row replaces one of its blocks or, at the first empty slot, adds
one behind them.
-/

namespace DiskArray.Cache

/-- A row of slots with blocks in front and empty slots behind. -/
def packed (es : List Entry) (vacant : Nat) : List Slot := es.map some ++ List.replicate vacant none

/-! ### Searches -/

theorem findIn_eq_none {id : BlockId} {slots : List Slot} :
    findIn id slots = none ↔ ∀ e, some e ∈ slots → e.id ≠ id := by
  induction slots with
  | nil => simp [findIn]
  | cons s rest ih =>
    cases s with
    | none => simp [findIn, ih]
    | some e =>
      by_cases he : e.id = id
      · simp [findIn, he]
      · simp [findIn, he, ih]

theorem findIn_eq_some {id : BlockId} {slots : List Slot} {i : Nat} {e : Entry}
    (h : findIn id slots = some (i, e)) : slots[i]? = some (some e) ∧ e.id = id := by
  induction slots generalizing i with
  | nil => simp [findIn] at h
  | cons s rest ih =>
    have later (hm : (findIn id rest).map (fun p => (p.1 + 1, p.2)) = some (i, e)) :
        (s :: rest)[i]? = some (some e) ∧ e.id = id := by
      obtain ⟨⟨j, e'⟩, hj, heq⟩ := Option.map_eq_some_iff.1 hm
      obtain ⟨rfl, rfl⟩ := Prod.mk.injEq .. ▸ heq
      exact ih hj
    cases s with
    | none => exact later h
    | some e' =>
      rw [findIn] at h
      split_ifs at h with he
      · obtain ⟨rfl, rfl⟩ : 0 = i ∧ e' = e := by simpa using h
        exact ⟨rfl, he⟩
      · exact later h

theorem victimIn_eq_none {policy : EvictionPolicy} {slots : List Slot} :
    victimIn policy slots = none ↔ ∀ e, some e ∉ slots := by
  induction slots with
  | nil => simp [victimIn]
  | cons s rest ih =>
    cases s with
    | none => simp [victimIn, ih]
    | some e =>
      have hsome : victimIn policy (some e :: rest) ≠ none := by
        rw [victimIn]
        split
        · split_ifs <;> simp
        · simp
      exact iff_of_false hsome fun h => h e List.mem_cons_self

theorem prefers_false_trans {policy : EvictionPolicy} {a b c : Nat} (hab : policy.prefers a b = false)
    (hbc : policy.prefers b c = false) : policy.prefers a c = false := by
  cases policy <;> simp only [EvictionPolicy.prefers, decide_eq_false_iff_not, Nat.not_lt] at * <;> omega

theorem prefers_false_of_true {policy : EvictionPolicy} {a b : Nat} (h : policy.prefers a b = true) :
    policy.prefers b a = false := by
  cases policy <;> simp only [EvictionPolicy.prefers, decide_eq_true_eq, decide_eq_false_iff_not] at * <;>
    omega

theorem victimIn_eq_some {policy : EvictionPolicy} {slots : List Slot} {i : Nat} {e : Entry}
    (h : victimIn policy slots = some (i, e)) :
    slots[i]? = some (some e) ∧ ∀ f, some f ∈ slots → policy.prefers f.stamp e.stamp = false := by
  induction slots generalizing i e with
  | nil => simp [victimIn] at h
  | cons s rest ih =>
    cases s with
    | none =>
      obtain ⟨⟨j, e'⟩, hj, heq⟩ := Option.map_eq_some_iff.1 h
      obtain ⟨rfl, rfl⟩ := Prod.mk.injEq .. ▸ heq
      refine ⟨(ih hj).1, fun f hf => (ih hj).2 f ?_⟩
      simpa using hf
    | some first =>
      rw [victimIn] at h
      cases hv : victimIn policy rest with
      | none =>
        obtain ⟨rfl, rfl⟩ : 0 = i ∧ first = e := by simpa [hv] using h
        refine ⟨rfl, fun f hf => ?_⟩
        obtain rfl : f = first := by simpa [victimIn_eq_none.1 hv f] using hf
        cases policy <;> simp [EvictionPolicy.prefers]
      | some v =>
        obtain ⟨j, later⟩ := v
        obtain ⟨hget, hbest⟩ := ih hv
        simp only [hv] at h
        split_ifs at h with hp
        · obtain ⟨rfl, rfl⟩ : j + 1 = i ∧ later = e := by simpa using h
          refine ⟨hget, fun f hf => ?_⟩
          rcases List.mem_cons.1 hf with hf | hf
          · cases hf
            exact prefers_false_of_true hp
          · exact hbest f hf
        · obtain ⟨rfl, rfl⟩ : 0 = i ∧ first = e := by simpa using h
          refine ⟨rfl, fun f hf => ?_⟩
          rcases List.mem_cons.1 hf with hf | hf
          · cases hf
            cases policy <;> simp [EvictionPolicy.prefers]
          · exact prefers_false_trans (hbest f hf) (by simpa using hp)

/-! ### Packed rows -/

@[simp] theorem length_packed (es : List Entry) (vacant : Nat) :
    (packed es vacant).length = es.length + vacant := by
  simp [packed]

@[simp] theorem reduceOption_packed (es : List Entry) (vacant : Nat) :
    (packed es vacant).reduceOption = es := by
  rw [packed, List.reduceOption_append, List.reduceOption_replicate_none, List.append_nil]
  simp [List.reduceOption, List.filterMap_map]

theorem findIdx?_isNone_packed (es : List Entry) (vacant : Nat) :
    (packed es vacant).findIdx? Option.isNone = if vacant = 0 then none else some es.length := by
  have hes : (es.map some).findIdx? Option.isNone = none := by
    simp [List.findIdx?_eq_none_iff]
  rw [packed, List.findIdx?_append, hes]
  cases vacant with
  | zero => rfl
  | succ n => simp [List.replicate_succ, List.findIdx?_cons]

theorem set_packed (es : List Entry) (vacant : Nat) (e : Entry) {i : Nat} (hi : i ≤ es.length)
    (hv : i < es.length + vacant) :
    ∃ es' vacant', (packed es vacant).set i (some e) = packed es' vacant' ∧
      es'.Perm (e :: es.eraseIdx i) := by
  rcases Nat.lt_or_eq_of_le hi with hlt | rfl
  · refine ⟨es.set i e, vacant, ?_, ?_⟩
    · rw [packed, List.set_append_left _ _ (by simpa using hlt), packed, List.map_set]
    · rw [List.set_eq_take_append_cons_drop, if_pos hlt, List.eraseIdx_eq_take_drop_succ]
      exact List.perm_middle
  · obtain ⟨k, rfl⟩ : ∃ k, vacant = k + 1 := ⟨vacant - 1, by omega⟩
    refine ⟨es ++ [e], k, ?_, ?_⟩
    · rw [packed, List.set_append_right _ _ (by simp)]
      simp [packed, List.replicate_succ]
    · rw [List.eraseIdx_of_length_le (Nat.le_refl _)]
      exact List.perm_append_singleton e es

end DiskArray.Cache
