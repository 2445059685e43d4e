import DiskArray.Proofs.Cache.Keep

/-!
# The operations on caches

Each operation in terms of `keep` and `access`, and the invariant of each (`WellFormed.lookup` and the like). What
an operation holds afterwards was held before or is what it put in, so that a property of the single blocks
passes through all of them.
-/

namespace DiskArray.Cache

variable {c c' : Cache} {id : BlockId} {block : Block} {e : Entry} {i n : Nat} {r : Request}

/-! ### Blocks -/

/-- The cache after a look-up that finds nothing. -/
def asked (c : Cache) : Cache := { c with queries := c.queries + 1 }

theorem lookup_of_not_enabled (h : ¬ c.isEnabled) : c.lookup id = .error .disabled := by
  simp [lookup, h]

theorem isEnabled_of_find? {v : Nat × Entry} (h : c.find? id = some v) : c.isEnabled := by
  rw [isEnabled_iff, capacity, List.length_pos_iff]
  rintro hnil
  simp [find?, hnil, findIn] at h

theorem isEnabled_of_holds (h : c.holds id) : c.isEnabled := by
  obtain ⟨v, hv⟩ := Option.isSome_iff_exists.1 h
  exact isEnabled_of_find? hv

theorem lookup_of_find? (h : c.find? id = some (i, e)) :
    c.lookup id = .ok (some e.block, c.access id e.block) := by
  have henabled := isEnabled_of_find? h
  have hq : Cache.find? { c with queries := c.queries + 1 } id = some (i, e) := h
  simp [lookup, access, keep, slotFor?, holds, henabled, h, hq, fill]

theorem lookup_of_find?_eq_none (henabled : c.isEnabled) (h : c.find? id = none) :
    c.lookup id = .ok (none, c.asked) := by
  have hq : Cache.find? { c with queries := c.queries + 1 } id = none := h
  simp [lookup, henabled, hq, asked]

theorem keep_asked (henabled : c.isEnabled) (h : c.find? id = none) :
    c.asked.keep id block = c.access id block := by
  have hs : c.asked.slotFor? id = c.slotFor? id := rfl
  rw [access, if_pos henabled, keep, keep, hs]
  have hholds : c.holds id = false := by simp [holds, h]
  cases c.slotFor? id <;> simp [hholds, asked, fill]

/-- The cache after a block was looked for that is not held; only a cache in use counts that. -/
def sought (c : Cache) : Cache := if c.isEnabled then c.asked else c

theorem keep_sought (h : c.find? id = none) : c.sought.keep id block = c.access id block := by
  unfold sought
  split_ifs with henabled
  · exact keep_asked henabled h
  · rw [keep_of_not_enabled henabled, access, if_neg henabled]

theorem update?_eq_some (h : c.update? id block = some c') : c' = c.keep id block := by
  obtain ⟨⟨i, e⟩, hf, rfl⟩ := Option.map_eq_some_iff.1 h
  simp [keep, slotFor?, hf]

theorem insert_eq_ok (h : c.insert id block = .ok c') : c' = c.keep id block := by
  unfold insert at h
  split_ifs at h with henabled
  split at h
  · cases h
  · rename_i hf hs
    obtain rfl := Except.ok.inj h
    simp [keep, slotFor?, hf, hs]
  · cases h

theorem update?_insert (c : Cache) (id : BlockId) (block : Block) :
    (match c.update? id block with
      | some c' => c'
      | none =>
        match c.insert id block with
        | .ok c' => c'
        | .error _ => c) = c.keep id block := by
  cases hu : c.update? id block with
  | some c' => exact update?_eq_some hu
  | none =>
    have hf : c.find? id = none := by simpa [update?] using hu
    cases hi : c.insert id block with
    | ok c' => exact insert_eq_ok hi
    | error err =>
      by_cases henabled : c.isEnabled
      · have hs : c.nextSlot? = none := by
          by_contra hne
          obtain ⟨i, hi'⟩ := Option.ne_none_iff_exists'.1 hne
          simp [insert, henabled, hf, hi'] at hi
        simp [keep, slotFor?, hf, hs]
      · rw [keep_of_not_enabled henabled]

namespace WellFormed

theorem asked (h : c.WellFormed) (henabled : c.isEnabled) : c.asked.WellFormed where
  packed := h.packed
  ids := h.ids
  stamps := h.stamps
  stamped := h.stamped
  capacityOk := h.capacityOk
  hits_le_queries := Nat.le_succ_of_le h.hits_le_queries
  hits_le_clock := h.hits_le_clock
  idle := fun hnil => by
    rw [isEnabled_iff, capacity] at henabled
    change c.slots = [] at hnil
    rw [hnil] at henabled
    exact absurd henabled (Nat.not_lt_zero _)

theorem sought (h : c.WellFormed) : c.sought.WellFormed := by
  unfold Cache.sought
  split_ifs with henabled
  · exact h.asked henabled
  · exact h

theorem access (h : c.WellFormed) : (c.access id block).WellFormed := by
  by_cases henabled : c.isEnabled
  · rw [Cache.access, if_pos henabled]
    have hk : (c.keep id block).WellFormed := h.keep
    have hclock : (c.keep id block).clock = c.clock + 1 := h.clock_keep henabled
    have hone : (if c.holds id then 1 else 0) ≤ 1 := by split <;> omega
    refine ⟨hk.packed, hk.ids, hk.stamps, hk.stamped, hk.capacityOk, ?_, ?_, fun hnil => ?_⟩
    · exact Nat.add_le_add h.hits_le_queries hone
    · show c.hits + _ ≤ (c.keep id block).clock
      rw [hclock]
      exact Nat.add_le_add h.hits_le_clock hone
    · have hidle := (hk.idle hnil).1
      omega
  · rw [Cache.access, if_neg henabled]
    exact h

theorem lookup (h : c.WellFormed) {b : Option Block} (hl : c.lookup id = .ok (b, c')) : c'.WellFormed := by
  by_cases henabled : c.isEnabled
  · cases hf : c.find? id with
    | some v =>
      rw [lookup_of_find? hf] at hl
      cases hl
      exact h.access
    | none =>
      rw [lookup_of_find?_eq_none henabled hf] at hl
      cases hl
      exact h.asked henabled
  · rw [lookup_of_not_enabled henabled] at hl
    cases hl

/-! ### Capacity -/

theorem unused (policy : EvictionPolicy) : (Cache.unused policy).WellFormed where
  packed := rfl
  ids := List.nodup_nil
  stamps := List.nodup_nil
  stamped := fun _ he => absurd he List.not_mem_nil
  capacityOk := Or.inl rfl
  hits_le_queries := Nat.le_refl _
  hits_le_clock := Nat.le_refl _
  idle := fun _ => ⟨rfl, rfl, rfl⟩

/-- Only the clock is set back when a cache is taken into use; all else that it counts is zero already. -/
theorem create (h : c.WellFormed) (hc : c.create n = .ok c') : c'.WellFormed ∧ c'.entries = [] := by
  unfold Cache.create at hc
  split_ifs at hc with henabled hn
  obtain rfl := Except.ok.inj hc
  obtain ⟨-, hq, hh⟩ := h.idle (slots_eq_nil_of_not_enabled henabled)
  have hslots : List.replicate n none = Cache.packed [] n := rfl
  obtain ⟨hes, hpacked⟩ := packed_of_slots (c := { c with slots := List.replicate n none, clock := 0 }) hslots
  refine ⟨⟨hpacked, ?_, ?_, ?_, Or.inr ?_, ?_, ?_, fun hnil => ?_⟩, hes⟩
  · simp [hes]
  · simp [hes]
  · simp [hes]
  · simpa [capacity] using hn
  · exact h.hits_le_queries
  · simp [hh]
  · have hlen := congrArg List.length hnil
    simp only [List.length_replicate, List.length_nil] at hlen
    exact absurd (hlen ▸ hn.1) (by decide)

theorem resize (h : c.WellFormed) (henabled : c.isEnabled) (hc : c.resize n = .ok c') :
    c'.WellFormed ∧ c'.entries = c.entries.take n := by
  unfold Cache.resize at hc
  split_ifs at hc with hn
  obtain rfl := Except.ok.inj hc
  have hsize := h.size_le_capacity
  have hslots : c.slots.take n ++ List.replicate (n - c.slots.length) none =
      Cache.packed (c.entries.take n) (n - (c.entries.take n).length) := by
    have hlen := length_entries c
    have hcap : c.slots.length = c.capacity := rfl
    rw [hcap]
    conv_lhs => rw [h.packed]
    rw [Cache.packed, List.take_append, List.append_assoc, List.length_map, ← List.map_take,
      List.take_replicate, List.replicate_append_replicate, Cache.packed, List.length_take]
    congr 2
    omega
  obtain ⟨hes, hpacked⟩ := packed_of_slots
    (c := { c with slots := c.slots.take n ++ List.replicate (n - c.slots.length) none }) hslots
  have hsub : (c.entries.take n).Sublist c.entries := List.take_sublist _ _
  refine ⟨⟨hpacked, ?_, ?_, ?_, Or.inr ?_, h.hits_le_queries, h.hits_le_clock, fun hnil => ?_⟩, hes⟩
  · exact hes ▸ h.ids.sublist (hsub.map _)
  · exact hes ▸ h.stamps.sublist (hsub.map _)
  · exact fun e he => h.stamped e (hsub.subset (hes ▸ he))
  · have hlen : min n c.slots.length + (n - c.slots.length) = n := by omega
    simpa [capacity, hlen] using hn
  · have hlen := congrArg List.length hnil
    simp only [List.length_append, List.length_take, List.length_replicate, List.length_nil] at hlen
    have hzero : n = 0 := by omega
    exact absurd (hzero ▸ hn.1) (by decide)

theorem apply (h : c.WellFormed) (hr : c.apply r = .ok c') : c'.WellFormed ∧ c'.entries ⊆ c.entries := by
  cases r with
  | create n =>
    obtain ⟨hc, hnil⟩ := h.create hr
    exact ⟨hc, hnil ▸ List.nil_subset _⟩
  | resize n =>
    by_cases henabled : c.isEnabled
    · obtain ⟨hc, htake⟩ := h.resize henabled hr
      exact ⟨hc, htake ▸ List.take_subset _ _⟩
    · have hr : c.create n = .ok c' := by
        have hresize : c.resize n = .ok c' := hr
        unfold Cache.resize at hresize
        split_ifs at hresize
        exact hresize
      obtain ⟨hc, hnil⟩ := h.create hr
      exact ⟨hc, hnil ▸ List.nil_subset _⟩
  | destroy =>
    have hd : c.destroy = .ok c' := hr
    unfold Cache.destroy at hd
    split_ifs at hd
    obtain rfl := Except.ok.inj hd
    exact ⟨unused _, List.nil_subset _⟩

end WellFormed

/-! ### The blocks held -/

theorem mem_entries_of_mem_keep (h : c.WellFormed) (he : e ∈ (c.keep id block).entries) :
    e = ⟨id, block, c.clock + 1⟩ ∨ e ∈ c.entries ∧ e.id ≠ id := by
  by_cases henabled : c.isEnabled
  · exact ((h.mem_entries_keep henabled).1 he).imp_right fun ⟨hmem, hid, _⟩ => ⟨hmem, hid⟩
  · rw [keep_of_not_enabled henabled, entries, slots_eq_nil_of_not_enabled henabled] at he
    exact absurd he List.not_mem_nil

theorem mem_entries_access : e ∈ (c.access id block).entries ↔ e ∈ (c.keep id block).entries := by
  by_cases henabled : c.isEnabled
  · rw [access, if_pos henabled]
    rfl
  · rw [access, if_neg henabled, keep_of_not_enabled henabled]

end DiskArray.Cache
