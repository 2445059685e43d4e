import DiskArray.Proofs.Cache.WellFormed

/-!
# Keeping a block

A user of the cache overwrites a block that is held and puts in one that is not. Both come to one function,
`Cache.keep`, and what it does to the blocks held is said once (`mem_entries_keep`): the new block is there
with the latest stamp, the block of the same name is gone, and one more block is gone if it had to make room
(`evicted?`), which is then the one block that the policy prefers to all others.
-/

namespace DiskArray.Cache

/-- Whether a block is held. -/
def holds (c : Cache) (id : BlockId) : Bool := (c.find? id).isSome

/-- The slot that a block is put in: its own if it is held. -/
def slotFor? (c : Cache) (id : BlockId) : Option Nat :=
  match c.find? id with
  | some (i, _) => some i
  | none => c.nextSlot?

/-- The cache with a block in it; one that is not in use stays as it is. -/
def keep (c : Cache) (id : BlockId) (block : Block) : Cache :=
  match c.slotFor? id with
  | some i => c.fill i id block
  | none => c

/-- The block that makes room when another is put in. -/
def evicted? (c : Cache) (id : BlockId) : Option Entry :=
  match c.find? id, c.vacancy? with
  | none, none => c.victim?.map (·.2)
  | _, _ => none

/-- The cache after a block was looked up and then put in if it was not held. -/
def access (c : Cache) (id : BlockId) (block : Block) : Cache :=
  if c.isEnabled then
    { c.keep id block with
      queries := c.queries + 1
      hits := c.hits + if c.holds id then 1 else 0 }
  else c

variable {c c' : Cache} {id other : BlockId} {block : Block} {e f : Entry} {i n : Nat}

theorem holds_iff : c.holds id ↔ ∃ e ∈ c.entries, e.id = id := by
  rw [holds, ← Option.ne_none_iff_isSome, Ne, find?_eq_none]
  simp

/-! ### The slot -/

theorem slots_eq_nil_of_not_enabled (h : ¬ c.isEnabled) : c.slots = [] := by
  simpa [isEnabled] using h

theorem slotFor?_of_not_enabled (h : ¬ c.isEnabled) : c.slotFor? id = none := by
  have hnil := slots_eq_nil_of_not_enabled h
  simp [slotFor?, find?, nextSlot?, vacancy?, victim?, hnil, findIn, victimIn]

theorem WellFormed.nextSlot?_isSome (h : c.WellFormed) (henabled : c.isEnabled) : ∃ i, c.nextSlot? = some i := by
  have hpos := isEnabled_iff.1 henabled
  unfold nextSlot?
  rw [h.vacancy?_eq]
  by_cases hfull : c.size = c.capacity
  · have hlen := length_entries c
    have hlt : 0 < c.entries.length := by omega
    obtain ⟨v, hv⟩ := victim?_isSome (List.getElem_mem hlt)
    exact ⟨v.1, by simp [hfull, hv]⟩
  · exact ⟨c.size, by simp [hfull]⟩

theorem WellFormed.slotFor?_isSome (h : c.WellFormed) (henabled : c.isEnabled) :
    ∃ i, c.slotFor? id = some i := by
  unfold slotFor?
  cases c.find? id with
  | some found => exact ⟨_, rfl⟩
  | none => exact h.nextSlot?_isSome henabled

/-- The slot that a block is put in lies among the filled ones or is the first empty one. It holds the block
of that name or the one that makes room, if there is one of the two. -/
theorem WellFormed.slotFor?_eq_some (h : c.WellFormed) (hs : c.slotFor? id = some i) :
    i ≤ c.size ∧ i < c.capacity ∧
      ∀ e ∈ c.entries, c.entries[i]? = some e ↔ e.id = id ∨ c.evicted? id = some e := by
  have hsize := h.size_le_capacity
  have hlen := length_entries c
  cases hf : c.find? id with
  | some found =>
    obtain ⟨j, e₀⟩ := found
    obtain rfl : j = i := by simpa [slotFor?, hf] using hs
    obtain ⟨hget, hid⟩ := h.find?_eq_some hf
    have hj := (List.getElem?_eq_some_iff.1 hget).1
    refine ⟨by omega, by omega, fun e he => ?_⟩
    have hev : c.evicted? id = none := by simp [evicted?, hf]
    rw [hget, hev]
    constructor
    · intro heq
      exact Or.inl (Option.some.inj heq ▸ hid)
    · rintro (heq | hnone)
      · rw [h.eq_of_id_eq (List.mem_of_getElem? hget) he (hid.trans heq.symm)]
      · cases hnone
  | none =>
    have hid := find?_eq_none.1 hf
    by_cases hfull : c.size = c.capacity
    · have hvac : c.vacancy? = none := by rw [h.vacancy?_eq, if_pos hfull]
      have hs : c.victim?.map (·.1) = some i := by simpa [slotFor?, hf, nextSlot?, hvac] using hs
      obtain ⟨⟨j, v⟩, hv, rfl⟩ := Option.map_eq_some_iff.1 hs
      have hget := (h.victim?_eq_some hv).1
      have hj := (List.getElem?_eq_some_iff.1 hget).1
      refine ⟨by omega, by omega, fun e he => ?_⟩
      have hev : c.evicted? id = some v := by simp [evicted?, hf, hvac, hv]
      rw [hget, hev]
      simp [hid e he]
    · have hvac : c.vacancy? = some c.size := by rw [h.vacancy?_eq, if_neg hfull]
      obtain rfl : c.size = i := by simpa [slotFor?, hf, nextSlot?, hvac] using hs
      refine ⟨Nat.le_refl _, by omega, fun e he => ?_⟩
      have hev : c.evicted? id = none := by simp [evicted?, hf, hvac]
      rw [List.getElem?_eq_none (by omega), hev]
      simp [hid e he]

/-! ### The blocks -/

namespace WellFormed

theorem mem_eraseIdx (h : c.WellFormed) : e ∈ c.entries.eraseIdx i ↔ e ∈ c.entries ∧ c.entries[i]? ≠ some e := by
  rw [List.mem_eraseIdx_iff_getElem?]
  constructor
  · rintro ⟨j, hj, hget⟩
    refine ⟨List.mem_of_getElem? hget, fun hi => hj ?_⟩
    obtain ⟨hlt, _⟩ := List.getElem?_eq_some_iff.1 hget
    exact (List.getElem?_inj hlt h.nodup_entries).1 (hget.trans hi.symm)
  · rintro ⟨he, hne⟩
    obtain ⟨j, hj⟩ := List.mem_iff_getElem?.1 he
    exact ⟨j, fun heq => hne (heq ▸ hj), hj⟩

theorem keep (h : c.WellFormed) : (c.keep id block).WellFormed := by
  rw [Cache.keep]
  cases hs : c.slotFor? id with
  | none => exact h
  | some i =>
    obtain ⟨hi, hc, hget⟩ := h.slotFor?_eq_some hs
    refine h.fill hi hc fun e he hid => ?_
    obtain ⟨hmem, hne⟩ := h.mem_eraseIdx.1 he
    exact hne ((hget e hmem).2 (Or.inl hid))

/-- What a cache in use holds once a block was put in. -/
theorem mem_entries_keep (h : c.WellFormed) (henabled : c.isEnabled) :
    e ∈ (c.keep id block).entries ↔
      e = ⟨id, block, c.clock + 1⟩ ∨ e ∈ c.entries ∧ e.id ≠ id ∧ c.evicted? id ≠ some e := by
  obtain ⟨i, hs⟩ : ∃ i, c.slotFor? id = some i := h.slotFor?_isSome henabled
  obtain ⟨hi, hc, hget⟩ := h.slotFor?_eq_some hs
  have hkeep : c.keep id block = c.fill i id block := by simp [Cache.keep, hs]
  rw [hkeep, (h.entries_fill _ _ hi hc).1.mem_iff, List.mem_cons, h.mem_eraseIdx]
  refine or_congr_right (and_congr_right fun he => ?_)
  rw [Ne, hget e he, not_or]

theorem size_le_size_keep (h : c.WellFormed) : c.size ≤ (c.keep id block).size := by
  unfold Cache.keep
  split
  · rename_i i hs
    obtain ⟨hi, hc, -⟩ := h.slotFor?_eq_some hs
    have hlen := (h.entries_fill id block hi hc).1.length_eq
    have herase := List.le_length_eraseIdx c.entries i
    rw [length_entries, List.length_cons] at hlen
    rw [length_entries] at herase
    omega
  · exact Nat.le_refl _

theorem evicted?_eq_some_iff (h : c.WellFormed) :
    c.evicted? id = some e ↔
      ¬ c.holds id ∧ c.size = c.capacity ∧ e ∈ c.entries ∧
        ∀ f ∈ c.entries, f ≠ e → c.policy.prefers e.stamp f.stamp := by
  constructor
  · intro hev
    unfold evicted? at hev
    split at hev
    · rename_i hf hvac
      obtain ⟨⟨i, v⟩, hv, rfl⟩ := Option.map_eq_some_iff.1 hev
      obtain ⟨hget, hbest⟩ := h.victim?_eq_some hv
      have hmem := List.mem_of_getElem? hget
      have hfull : c.size = c.capacity := by
        by_contra hne
        simp [h.vacancy?_eq, hne] at hvac
      refine ⟨by simp [holds, hf], hfull, hmem, fun f hf hne => ?_⟩
      have hstamp : f.stamp ≠ v.stamp := fun heq => hne (h.eq_of_stamp_eq hf hmem heq)
      have hle := hbest f hf
      revert hle
      cases c.policy <;> simp only [EvictionPolicy.prefers, decide_eq_true_eq, decide_eq_false_iff_not] <;>
        omega
    · cases hev
  · rintro ⟨hholds, hfull, hmem, hbest⟩
    have hf : c.find? id = none := by simpa [holds] using hholds
    have hvac : c.vacancy? = none := by rw [h.vacancy?_eq, if_pos hfull]
    obtain ⟨⟨i, v⟩, hv⟩ := victim?_isSome hmem
    obtain ⟨hget, hleast⟩ := h.victim?_eq_some hv
    have hvmem := List.mem_of_getElem? hget
    have hev : c.evicted? id = some v := by simp [evicted?, hf, hvac, hv]
    rw [hev]
    congr 1
    by_contra hne
    have htrue := hbest v hvmem hne
    rw [hleast e hmem] at htrue
    cases htrue

theorem evicted?_eq_none (h : c.WellFormed) (hroom : c.holds id ∨ c.size ≠ c.capacity) : c.evicted? id = none := by
  refine Option.eq_none_iff_forall_ne_some.2 fun v hv => ?_
  obtain ⟨hholds, hfull, -⟩ := h.evicted?_eq_some_iff.1 hv
  rcases hroom with hid | hnot
  · exact hholds hid
  · exact hnot hfull

theorem evicted?_isSome (h : c.WellFormed) (henabled : c.isEnabled) (hf : c.find? id = none)
    (hfull : c.size = c.capacity) : ∃ v, c.evicted? id = some v := by
  have hpos := isEnabled_iff.1 henabled
  have hlen := length_entries c
  have hlt : 0 < c.entries.length := by omega
  obtain ⟨v, hv⟩ := victim?_isSome (List.getElem_mem hlt)
  have hvac : c.vacancy? = none := by rw [h.vacancy?_eq, if_pos hfull]
  exact ⟨v.2, by simp [evicted?, hf, hvac, hv]⟩

end WellFormed

/-! ### What stays -/

theorem keep_of_nextSlot? (hf : c.find? id = none) (hi : c.nextSlot? = some i) : c.keep id block = c.fill i id block := by
  simp only [keep, slotFor?, hf, hi]

theorem keep_of_not_enabled (h : ¬ c.isEnabled) : c.keep id block = c := by
  rw [keep, slotFor?_of_not_enabled h]

@[simp] theorem policy_keep : (c.keep id block).policy = c.policy := by
  unfold keep
  split <;> rfl

@[simp] theorem queries_keep : (c.keep id block).queries = c.queries := by
  unfold keep
  split <;> rfl

@[simp] theorem hits_keep : (c.keep id block).hits = c.hits := by
  unfold keep
  split <;> rfl

@[simp] theorem capacity_keep : (c.keep id block).capacity = c.capacity := by
  unfold keep
  split
  · exact WellFormed.capacity_fill
  · rfl

@[simp] theorem isEnabled_keep : (c.keep id block).isEnabled = c.isEnabled := by
  rw [Bool.eq_iff_iff, isEnabled_iff, isEnabled_iff, capacity_keep]

theorem WellFormed.clock_keep (h : c.WellFormed) (henabled : c.isEnabled) :
    (c.keep id block).clock = c.clock + 1 := by
  obtain ⟨i, hs⟩ : ∃ i, c.slotFor? id = some i := h.slotFor?_isSome henabled
  simp [Cache.keep, hs, Cache.fill]

end DiskArray.Cache
