import DiskArray.Proofs.Cache.Effect

/-!
# One slot at a time

A call for a block that succeeds touches one slot (`Touches`): no other slot changes, and the stamp it gets is later than
all others. Calls that fail change nothing at all, and which ones fail can be told before they are made
(`calls_touch_one_slot`).
-/

namespace DiskArray.Cache

/-- Slot `i` and no other changed. It holds `e`, with the next stamp of the clock, which no other slot reaches. -/
structure Touches (c : Cache) (i : Nat) (e : Entry) (c' : Cache) : Prop where
  stamp : e.stamp = c.clock + 1
  clock : c'.clock = c.clock + 1
  slot : c'.slots[i]? = some (some e)
  changed : c.slots[i]? ≠ some (some e)
  others : ∀ j, j ≠ i → c'.slots[j]? = c.slots[j]?
  latest : ∀ j f, j ≠ i → c'.slots[j]? = some (some f) → f.stamp < e.stamp

/-- An answer that tells of no success: an error, or that there was nothing to overwrite. -/
def Answer.Failed (a : Answer) : Prop := a.error?.isSome ∨ a = .updated false

variable {c c' : Cache} {id : BlockId} {block : Block} {a : Answer} {e : Entry} {i n : Nat} {q : Call}

/-! ### Failures -/

theorem Refuses.unique {e e' : CacheError} (h : c.Refuses q e) (h' : c.Refuses q e') : e = e' := by
  rcases q with (n | n | _) | (⟨id, block⟩ | ⟨id, block⟩ | id)
  · rcases h with ⟨henabled, rfl⟩ | ⟨hfree, -, rfl⟩ <;> rcases h' with ⟨henabled', rfl⟩ | ⟨hfree', -, rfl⟩
    · rfl
    · exact absurd henabled hfree'
    · exact absurd henabled' hfree
    · rfl
  · exact h.2.trans h'.2.symm
  · exact h.2.trans h'.2.symm
  · rcases h with ⟨hfree, rfl⟩ | ⟨hheld, rfl⟩ <;> rcases h' with ⟨hfree', rfl⟩ | ⟨hheld', rfl⟩
    · rfl
    · exact absurd (isEnabled_of_resident hheld') hfree
    · exact absurd (isEnabled_of_resident hheld) hfree'
    · rfl
  · exact h.elim
  · exact h.2.trans h'.2.symm

theorem Effect.error?_eq_some_iff {err : CacheError} (h : c.Effect q a c') : a.error? = some err ↔ c.Refuses q err := by
  cases h with
  | refused hr =>
    rw [error?_failure, Option.some_inj]
    exact ⟨fun heq => heq ▸ hr, hr.unique⟩
  | absent _ => exact iff_of_false nofun id
  | missed henabled _ => exact iff_of_false nofun fun hr => hr.1 henabled
  | inserted henabled hnot _ =>
    refine iff_of_false nofun ?_
    rintro (⟨hfree, -⟩ | ⟨hheld, -⟩)
    · exact hfree henabled
    · exact hnot hheld
  | overwritten _ => exact iff_of_false nofun id
  | found hi =>
    have henabled : c.isEnabled := isEnabled_of_resident ⟨_, List.mem_of_getElem? hi, rfl⟩
    exact iff_of_false nofun fun hr => hr.1 henabled
  | created hr hfree hn =>
    refine iff_of_false nofun ?_
    rcases hr with rfl | rfl
    · rintro (⟨henabled, -⟩ | ⟨-, hout, -⟩)
      · exact hfree henabled
      · exact hout hn
    · exact fun hout => hout.1 hn
  | resized _ hn => exact iff_of_false nofun fun hout => hout.1 hn
  | destroyed henabled => exact iff_of_false nofun fun hr => hr.1 henabled

theorem Effect.eq_of_failed (h : c.Effect q a c') (ha : a.Failed) : c' = c := by
  cases h with
  | refused _ => rfl
  | absent _ => rfl
  | _ =>
    rcases ha with herror | hfalse
    · cases herror
    · cases hfalse

theorem Effect.not_resident_of_absent (h : c.Effect (.block (.update id block)) (.updated false) c') :
    ¬ c.Resident id := by
  cases h with
  | absent hnot => exact hnot

theorem Effect.eq_asked_of_missed (h : c.Effect (.block (.lookup id)) (.found (.ok none)) c') : c' = c.asked := by
  cases h with
  | missed _ _ => rfl

/-! ### Filling a slot -/

theorem size_fill_of_filled (h : c.slots[i]? = some (some e)) : (c.fill i id block).size = c.size := by
  obtain ⟨hi, hget⟩ := List.getElem?_eq_some_iff.1 h
  have hpos : 0 < c.slots.countP Option.isSome :=
    List.countP_pos_iff.2 ⟨some e, List.mem_of_getElem? h, rfl⟩
  simp only [size, fill, List.countP_set hi, hget, Option.isSome_some, if_true]
  omega

theorem size_fill_of_empty (h : c.slots[i]? = some none) : (c.fill i id block).size = c.size + 1 := by
  obtain ⟨hi, hget⟩ := List.getElem?_eq_some_iff.1 h
  simp [size, fill, List.countP_set hi, hget]

theorem nextSlot?_eq_some (h : c.nextSlot? = some i) :
    c.slots[i]? = some none ∧ c.size < c.capacity ∨
      c.size = c.capacity ∧ ∃ v, c.victim? = some (i, v) ∧ c.slots[i]? = some (some v) := by
  unfold nextSlot? at h
  cases hv : c.vacancy? with
  | some j =>
    obtain rfl : j = i := by simpa [hv] using h
    obtain ⟨hj, hnone, -⟩ := List.findIdx?_eq_some_iff_getElem.1 hv
    have hget : c.slots[j]? = some none := by
      rw [List.getElem?_eq_getElem hj, Option.isNone_iff_eq_none.1 hnone]
    have hle : c.size ≤ c.capacity := List.countP_le_length
    refine Or.inl ⟨hget, Nat.lt_of_le_of_ne hle fun hfull => ?_⟩
    exact none_notMem_slots_iff.2 hfull (List.mem_of_getElem? hget)
  | none =>
    obtain ⟨⟨j, v⟩, hvictim, rfl⟩ : ∃ v, c.victim? = some v ∧ v.1 = i := by simpa [hv] using h
    refine Or.inr ⟨none_notMem_slots_iff.1 fun hnone => ?_, v, hvictim, (victimIn_eq_some hvictim).1⟩
    have hall := List.findIdx?_eq_none_iff.1 hv none hnone
    cases hall

theorem lt_capacity_of_nextSlot? (h : c.nextSlot? = some i) : i < c.capacity := by
  rcases nextSlot?_eq_some h with ⟨hget, -⟩ | ⟨-, v, -, hget⟩
  · exact (List.getElem?_eq_some_iff.1 hget).1
  · exact (List.getElem?_eq_some_iff.1 hget).1

theorem size_fill_of_nextSlot? (h : c.nextSlot? = some i) :
    (c.fill i id block).size = if c.size < c.capacity then c.size + 1 else c.size := by
  rcases nextSlot?_eq_some h with ⟨hget, hroom⟩ | ⟨hfull, v, -, hget⟩
  · rw [size_fill_of_empty hget, if_pos hroom]
  · rw [size_fill_of_filled hget, if_neg (Nat.not_lt_of_le (Nat.le_of_eq hfull.symm))]

namespace WellFormed

theorem touches_of_slots (h : c.WellFormed) (hi : i < c.capacity) (hslots : c'.slots = (c.fill i id block).slots)
    (hclock : c'.clock = c.clock + 1) : c.Touches i ⟨id, block, c.clock + 1⟩ c' := by
  have hothers (j : Nat) (hj : j ≠ i) : c'.slots[j]? = c.slots[j]? := by
    rw [hslots]
    exact List.getElem?_set_ne hj.symm
  refine ⟨rfl, hclock, ?_, ?_, hothers, ?_⟩
  · rw [hslots]
    exact List.getElem?_set_self hi
  · intro hsame
    have hstamp := (h.stamped _ (mem_entries.2 (List.mem_of_getElem? hsame))).2
    exact absurd hstamp (Nat.not_succ_le_self _)
  · intro j f hj hf
    rw [hothers j hj] at hf
    have hstamp := (h.stamped f (mem_entries.2 (List.mem_of_getElem? hf))).2
    exact Nat.lt_succ_of_le hstamp

theorem insert_touches (h : c.WellFormed) (heffect : c.Effect (.block (.insert id block)) (.done (.ok ())) c') :
    (∃ i, c.Touches i ⟨id, block, c.clock + 1⟩ c') ∧
      c'.size = if c.size < c.capacity then c.size + 1 else c.size := by
  cases heffect with
  | inserted _ _ hi =>
    exact ⟨⟨_, h.touches_of_slots (lt_capacity_of_nextSlot? hi) rfl rfl⟩, size_fill_of_nextSlot? hi⟩

theorem update_touches (h : c.WellFormed) (heffect : c.Effect (.block (.update id block)) (.updated true) c') :
    (∃ i old, c.slots[i]? = some (some old) ∧ old.id = id ∧ c.Touches i ⟨id, block, c.clock + 1⟩ c') ∧
      c'.size = c.size := by
  cases heffect with
  | overwritten hi =>
    have hlt := (List.getElem?_eq_some_iff.1 hi).1
    exact ⟨⟨_, _, hi, rfl, h.touches_of_slots hlt rfl rfl⟩, size_fill_of_filled hi⟩

theorem lookup_touches (h : c.WellFormed) (heffect : c.Effect (.block (.lookup id)) (.found (.ok (some block))) c') :
    (∃ i old, c.slots[i]? = some (some old) ∧ old.id = id ∧ old.block = block ∧
      c.Touches i ⟨id, block, c.clock + 1⟩ c') ∧ c'.size = c.size := by
  cases heffect with
  | found hi =>
    have hlt := (List.getElem?_eq_some_iff.1 hi).1
    exact ⟨⟨_, _, hi, rfl, rfl, h.touches_of_slots hlt rfl rfl⟩, size_fill_of_filled hi⟩

end WellFormed

/-- After any calls, the next one fails just if there is a reason to refuse it, and then changes nothing, as does an
overwriting of a block that is not held; a cache in use always takes in such a block. A look-up that finds nothing is
counted and changes nothing else. Putting a block in, overwriting it or finding it touches one slot, and puts in one
block more only if it is put in where a slot was empty. -/
theorem calls_touch_one_slot (policy : EvictionPolicy) (calls : List Call) :
    let c := run policy calls
    (∀ q e, (c.call q).1.error? = some e ↔ c.Refuses q e) ∧
    (c.isEnabled → ∃ i, c.nextSlot? = some i) ∧
    (∀ id old new, c.isEnabled → (c.call (.block (.update id old))).1 = .updated false →
      ((c.call (.block (.update id old))).2.call (.block (.insert id new))).1 = .done (.ok ())) ∧
    (∀ q, (c.call q).1.Failed → (c.call q).2 = c) ∧
    (∀ id, (c.call (.block (.lookup id))).1 = .found (.ok none) →
      (c.call (.block (.lookup id))).2 = { c with queries := c.queries + 1 }) ∧
    (∀ id block, (c.call (.block (.insert id block))).1 = .done (.ok ()) →
      (∃ i, c.Touches i ⟨id, block, c.clock + 1⟩ (c.call (.block (.insert id block))).2) ∧
        (c.call (.block (.insert id block))).2.size = if c.size < c.capacity then c.size + 1 else c.size) ∧
    (∀ id block, (c.call (.block (.update id block))).1 = .updated true →
      (∃ i old, c.slots[i]? = some (some old) ∧ old.id = id ∧
        c.Touches i ⟨id, block, c.clock + 1⟩ (c.call (.block (.update id block))).2) ∧
          (c.call (.block (.update id block))).2.size = c.size) ∧
    ∀ id block, (c.call (.block (.lookup id))).1 = .found (.ok (some block)) →
      (∃ i old, c.slots[i]? = some (some old) ∧ old.id = id ∧ old.block = block ∧
        c.Touches i ⟨id, block, c.clock + 1⟩ (c.call (.block (.lookup id))).2) ∧
          (c.call (.block (.lookup id))).2.size = c.size := by
  intro c
  have h : c.WellFormed := .run policy calls
  have heffect := h.call_effect
  refine ⟨fun q e => (heffect q).error?_eq_some_iff, h.nextSlot?_isSome, ?_, fun q => (heffect q).eq_of_failed, ?_,
    ?_, ?_, ?_⟩
  · intro id old new henabled hupdate
    have hsame := (heffect (.block (.update id old))).eq_of_failed (Or.inr hupdate)
    have hnot : ¬ c.Resident id := (hupdate ▸ heffect (.block (.update id old))).not_resident_of_absent
    rw [hsame, h.call_insert henabled (find?_eq_none_iff.2 hnot)]
  · intro id hmissed
    exact (hmissed ▸ heffect (.block (.lookup id))).eq_asked_of_missed
  · intro id block hinsert
    exact h.insert_touches (hinsert ▸ heffect (.block (.insert id block)))
  · intro id block hupdate
    exact h.update_touches (hupdate ▸ heffect (.block (.update id block)))
  · intro id block hlookup
    exact h.lookup_touches (hlookup ▸ heffect (.block (.lookup id)))

/-- A full cache: one block more takes the place of another, a block that is held is not taken in, and one that is not
held cannot be overwritten. -/
theorem calls_touch_one_slot_of_full :
    let c := run .leastRecent [.capacity (.create 2), .block (.insert ⟨0, 0⟩ .zero), .block (.insert ⟨0, 1⟩ .zero)]
    c.size = c.capacity ∧
      (∃ i, c.Touches i ⟨⟨0, 2⟩, .zero, 3⟩ (c.call (.block (.insert ⟨0, 2⟩ .zero))).2) ∧
      (c.call (.block (.insert ⟨0, 2⟩ .zero))).2.size = 2 ∧
      (c.call (.block (.insert ⟨0, 1⟩ .zero))).1.error? = some (.duplicateKey ⟨0, 1⟩) ∧
      (c.call (.block (.update ⟨0, 2⟩ .zero))).2 = c := by
  intro c
  obtain ⟨hrefuses, -, -, hfailed, -, hinsert, -⟩ := calls_touch_one_slot .leastRecent
    [.capacity (.create 2), .block (.insert ⟨0, 0⟩ .zero), .block (.insert ⟨0, 1⟩ .zero)]
  have hresident : c.Resident ⟨0, 1⟩ := ⟨⟨⟨0, 1⟩, .zero, 2⟩, List.mem_of_getElem? (i := 1) rfl, rfl⟩
  obtain ⟨htouches, hsize⟩ := hinsert ⟨0, 2⟩ .zero rfl
  exact ⟨rfl, htouches, hsize, (hrefuses _ _).2 (Or.inr ⟨hresident, rfl⟩), hfailed _ (Or.inr rfl)⟩

end DiskArray.Cache
