import DiskArray.Proofs.Cache.Operations

/-!
# Caches of two capacities

Of two caches with the same history, the one with fewer slots holds a part of what the other holds
(`Cache.Within`). The stamps are the same, since both clocks count every use, and the policy compares stamps
alone: what the larger cache drops to make room, the smaller one does not hold or drops too.
-/

namespace DiskArray.Cache

/-- The larger cache holds all that the smaller one holds, with the same stamps; and it holds more only if the
smaller one is full. -/
structure Within (small large : Cache) : Prop where
  left : small.WellFormed
  right : large.WellFormed
  enabled : small.isEnabled
  capacity : small.capacity ≤ large.capacity
  policy : small.policy = large.policy
  clock : small.clock = large.clock
  queries : small.queries = large.queries
  hits : small.hits ≤ large.hits
  subset : small.entries ⊆ large.entries
  full : ∀ e ∈ large.entries, e ∉ small.entries → small.size = small.capacity

namespace Within

variable {small large : Cache} {id : BlockId} {block : Block} {e : Entry}

theorem enabled' (h : small.Within large) : large.isEnabled := by
  have hpos := isEnabled_iff.1 h.enabled
  exact isEnabled_iff.2 (Nat.lt_of_lt_of_le hpos h.capacity)

theorem holds (h : small.Within large) (hid : small.holds id) : large.holds id := by
  obtain ⟨e, he, hid⟩ := holds_iff.1 hid
  exact holds_iff.2 ⟨e, h.subset he, hid⟩

theorem full_of_full (h : small.Within large) (hfull : large.size = large.capacity) :
    small.size = small.capacity := by
  by_cases hsub : large.entries ⊆ small.entries
  · have hlen := h.right.nodup_entries.length_le_of_subset hsub
    rw [length_entries, length_entries] at hlen
    have hle := h.left.size_le_capacity
    have hcapacity := h.capacity
    omega
  · obtain ⟨e, he, hnot⟩ : ∃ e ∈ large.entries, e ∉ small.entries := by
      simpa [List.subset_def] using hsub
    exact h.full e he hnot

theorem evicted? (h : small.Within large) (hev : large.evicted? id = some e) (he : e ∈ small.entries) :
    small.evicted? id = some e := by
  obtain ⟨hholds, hfull, -, hbest⟩ := h.right.evicted?_eq_some_iff.1 hev
  refine h.left.evicted?_eq_some_iff.2
    ⟨fun hid => hholds (h.holds hid), h.full_of_full hfull, he, fun f hf hne => ?_⟩
  rw [h.policy]
  exact hbest f (h.subset hf) hne

theorem keep (h : small.Within large) (id : BlockId) (block : Block) :
    (small.keep id block).Within (large.keep id block) where
  left := h.left.keep
  right := h.right.keep
  enabled := by
    rw [isEnabled_keep]
    exact h.enabled
  capacity := by
    rw [capacity_keep, capacity_keep]
    exact h.capacity
  policy := by
    rw [policy_keep, policy_keep]
    exact h.policy
  clock := by
    rw [h.left.clock_keep h.enabled, h.right.clock_keep h.enabled', h.clock]
  queries := by
    rw [queries_keep, queries_keep]
    exact h.queries
  hits := by
    rw [hits_keep, hits_keep]
    exact h.hits
  subset := fun e he => by
    rcases (h.left.mem_entries_keep h.enabled).1 he with rfl | ⟨hmem, hid, hev⟩
    · exact (h.right.mem_entries_keep h.enabled').2 (Or.inl (by rw [h.clock]))
    · refine (h.right.mem_entries_keep h.enabled').2 (Or.inr ⟨h.subset hmem, hid, fun hdrop => hev ?_⟩)
      exact h.evicted? hdrop hmem
  full := fun e he hnot => by
    -- a block that only the larger cache holds was missing in the smaller one before, or was just dropped there
    have hfull : small.size = small.capacity := by
      rcases (h.right.mem_entries_keep h.enabled').1 he with rfl | ⟨hmem, hid, -⟩
      · exact absurd ((h.left.mem_entries_keep h.enabled).2 (Or.inl (by rw [h.clock]))) hnot
      · by_cases hsmall : e ∈ small.entries
        · have hev : small.evicted? id = some e := by
            by_contra hne
            exact hnot ((h.left.mem_entries_keep h.enabled).2 (Or.inr ⟨hsmall, hid, hne⟩))
          exact (h.left.evicted?_eq_some_iff.1 hev).2.1
        · exact h.full e hmem hsmall
    have hmono : small.size ≤ (small.keep id block).size := h.left.size_le_size_keep
    have hle : (small.keep id block).size ≤ (small.keep id block).capacity := h.left.keep.size_le_capacity
    rw [capacity_keep] at hle ⊢
    omega

theorem access (h : small.Within large) (id : BlockId) (block : Block) :
    (small.access id block).Within (large.access id block) := by
  have hkeep := h.keep id block
  have hleft : (small.access id block).WellFormed := h.left.access
  have hright : (large.access id block).WellFormed := h.right.access
  unfold Cache.access at *
  rw [if_pos h.enabled] at hleft ⊢
  rw [if_pos h.enabled'] at hright ⊢
  refine ⟨hleft, hright, hkeep.enabled, hkeep.capacity, hkeep.policy, hkeep.clock, ?_, ?_, hkeep.subset, hkeep.full⟩
  · show small.queries + 1 = large.queries + 1
    rw [h.queries]
  · show small.hits + _ ≤ large.hits + _
    refine Nat.add_le_add h.hits ?_
    by_cases hid : small.holds id
    · simp [hid, h.holds hid]
    · simp [hid]

theorem of_create {policy : EvictionPolicy} {n m : Nat} (hnm : n ≤ m)
    (hsmall : (Cache.unused policy).create n = .ok small) (hlarge : (Cache.unused policy).create m = .ok large) :
    small.Within large := by
  obtain ⟨hleft, hleftNil⟩ := (WellFormed.unused policy).create hsmall
  obtain ⟨hright, hrightNil⟩ := (WellFormed.unused policy).create hlarge
  unfold Cache.create at hsmall hlarge
  split_ifs at hsmall hlarge with _ hn
  obtain rfl := Except.ok.inj hsmall
  obtain rfl := Except.ok.inj hlarge
  refine ⟨hleft, hright, ?_, ?_, rfl, rfl, rfl, Nat.le_refl _, ?_, ?_⟩
  · rw [isEnabled_iff, Cache.capacity, List.length_replicate]
    exact Nat.lt_of_lt_of_le (by decide) hn.1
  · rw [Cache.capacity, Cache.capacity, List.length_replicate, List.length_replicate]
    exact hnm
  · rw [hleftNil]
    exact List.nil_subset _
  · intro e he
    rw [hrightNil] at he
    exact absurd he List.not_mem_nil

end Within

end DiskArray.Cache
