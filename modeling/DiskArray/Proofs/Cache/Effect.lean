import DiskArray.Proofs.Cache.Calls

/-!
# What one call of the cache may do

All that can come of a call (`Cache.Effect`), read off the operations once: it is refused, for a reason that the state
before it tells (`Refuses`), or it finds nothing, or it fills one slot, or it changes the row of slots as a whole. Facts
about all calls follow by cases.
-/

namespace DiskArray.Cache

/-- The block is in one of the slots. -/
def Resident (c : Cache) (id : BlockId) : Prop := ∃ e, some e ∈ c.slots ∧ e.id = id

/-- The error that an answer tells of. -/
def Answer.error? : Answer → Option CacheError
  | .done (.error e) => some e
  | .found (.error e) => some e
  | _ => none

/-- The answer to a call that fails. -/
def Call.failure : Call → CacheError → Answer
  | .block (.lookup _), e => .found (.error e)
  | _, e => .done (.error e)

/-- Why a call is refused. -/
def Refuses (c : Cache) : Call → CacheError → Prop
  | .capacity (.create n), e =>
    c.isEnabled ∧ e = .alreadyCreated ∨ ¬ c.isEnabled ∧ ¬ (2 ≤ n ∧ n ≤ 4096) ∧ e = .capacityOutOfBounds n
  | .capacity (.resize n), e => ¬ (2 ≤ n ∧ n ≤ 4096) ∧ e = .capacityOutOfBounds n
  | .capacity .destroy, e => ¬ c.isEnabled ∧ e = .uninitialized
  | .block (.insert id _), e => ¬ c.isEnabled ∧ e = .disabled ∨ c.Resident id ∧ e = .duplicateKey id
  | .block (.update _ _), _ => False
  | .block (.lookup _), e => ¬ c.isEnabled ∧ e = .disabled

/-- What can come of a call: its answer and the cache afterwards. -/
inductive Effect (c : Cache) : Call → Answer → Cache → Prop where
  | refused {q : Call} {e : CacheError} (h : c.Refuses q e) : Effect c q (q.failure e) c
  | absent {id : BlockId} {block : Block} (h : ¬ c.Resident id) :
      Effect c (.block (.update id block)) (.updated false) c
  | missed {id : BlockId} (henabled : c.isEnabled) (h : ¬ c.Resident id) :
      Effect c (.block (.lookup id)) (.found (.ok none)) c.asked
  | inserted {id : BlockId} {block : Block} {i : Nat} (henabled : c.isEnabled) (h : ¬ c.Resident id)
      (hi : c.nextSlot? = some i) : Effect c (.block (.insert id block)) (.done (.ok ())) (c.fill i id block)
  | overwritten {block : Block} {i : Nat} {e : Entry} (hi : c.slots[i]? = some (some e)) :
      Effect c (.block (.update e.id block)) (.updated true) (c.fill i e.id block)
  | found {i : Nat} {e : Entry} (hi : c.slots[i]? = some (some e)) :
      Effect c (.block (.lookup e.id)) (.found (.ok (some e.block)))
        { c.fill i e.id e.block with queries := c.queries + 1, hits := c.hits + 1 }
  | created {r : Request} {n : Nat} (hr : r = .create n ∨ r = .resize n) (h : ¬ c.isEnabled) (hn : CapacityOk n) :
      Effect c (.capacity r) (.done (.ok ())) { c with slots := List.replicate n none, clock := 0 }
  | resized {n : Nat} (henabled : c.isEnabled) (hn : CapacityOk n) :
      Effect c (.capacity (.resize n)) (.done (.ok ()))
        { c with slots := c.slots.take n ++ List.replicate (n - c.slots.length) none }
  | destroyed (henabled : c.isEnabled) : Effect c (.capacity .destroy) (.done (.ok ())) (unused c.policy)

variable {c c' : Cache} {id : BlockId} {i : Nat}

/-! ### Blocks that are held -/

theorem find?_isSome_iff : (∃ v, c.find? id = some v) ↔ c.Resident id := by
  rw [← Option.isSome_iff_exists, ← holds, holds_iff]
  simp only [mem_entries]
  rfl

theorem holds_iff_resident : c.holds id ↔ c.Resident id := by
  rw [holds, Option.isSome_iff_exists, find?_isSome_iff]

theorem find?_eq_none_iff : c.find? id = none ↔ ¬ c.Resident id := by
  rw [← find?_isSome_iff, ← Option.ne_none_iff_exists', not_not]

theorem isEnabled_of_resident (h : c.Resident id) : c.isEnabled := isEnabled_of_holds (holds_iff_resident.2 h)

theorem WellFormed.mem_set {e f : Entry} (h : c.WellFormed) (hi : i < c.slots.length) :
    some f ∈ c.slots.set i (some e) ↔ f = e ∨ some f ∈ c.slots ∧ c.slots[i]? ≠ some (some f) := by
  constructor
  · intro hf
    obtain ⟨j, hj⟩ := List.mem_iff_getElem?.1 hf
    by_cases hij : i = j
    · subst hij
      rw [List.getElem?_set_self hi] at hj
      cases hj
      exact Or.inl rfl
    · rw [List.getElem?_set_ne hij] at hj
      exact Or.inr ⟨List.mem_of_getElem? hj, fun hsame => hij (h.slot_inj hsame hj)⟩
  · rintro (rfl | ⟨hf, hne⟩)
    · exact List.mem_of_getElem? (List.getElem?_set_self hi)
    · obtain ⟨j, hj⟩ := List.mem_iff_getElem?.1 hf
      have hij : i ≠ j := by
        rintro rfl
        exact hne hj
      exact List.mem_of_getElem? ((List.getElem?_set_ne hij).trans hj)

theorem WellFormed.resident_set {e v : Entry} (h : c.WellFormed) (hi : c.slots[i]? = some (some v))
    (hslots : c'.slots = c.slots.set i (some e)) :
    c'.Resident id ↔ c.Resident id ∧ id ≠ v.id ∨ id = e.id := by
  have hlt := (List.getElem?_eq_some_iff.1 hi).1
  have hv : v ∈ c.entries := mem_entries.2 (List.mem_of_getElem? hi)
  simp only [Resident, hslots, h.mem_set hlt, hi]
  constructor
  · rintro ⟨f, rfl | ⟨hf, hne⟩, rfl⟩
    · exact Or.inr rfl
    · refine Or.inl ⟨⟨f, hf, rfl⟩, fun hid => hne ?_⟩
      rw [h.eq_of_id_eq (mem_entries.2 hf) hv hid]
  · rintro (⟨⟨f, hf, rfl⟩, hid⟩ | rfl)
    · refine ⟨f, Or.inr ⟨hf, fun hsame => hid ?_⟩, rfl⟩
      rw [Option.some.inj (Option.some.inj hsame)]
    · exact ⟨e, Or.inl rfl, rfl⟩

/-! ### The calls -/

theorem error?_failure (q : Call) (e : CacheError) : (q.failure e).error? = some e := by
  unfold Call.failure
  split <;> rfl

theorem effect_create (c : Cache) (n : Nat) :
    c.Effect (.capacity (.create n)) (c.call (.capacity (.create n))).1 (c.call (.capacity (.create n))).2 := by
  simp only [call, serve, apply, create]
  split_ifs with henabled hn
  · exact .refused (q := .capacity (.create n)) (Or.inl ⟨henabled, rfl⟩)
  · exact .created (Or.inl rfl) henabled hn
  · exact .refused (q := .capacity (.create n)) (Or.inr ⟨henabled, hn, rfl⟩)

theorem effect_resize (c : Cache) (n : Nat) :
    c.Effect (.capacity (.resize n)) (c.call (.capacity (.resize n))).1 (c.call (.capacity (.resize n))).2 := by
  simp only [call, serve, apply, resize, create]
  split_ifs with hn henabled
  · exact .resized henabled hn
  · exact .created (Or.inr rfl) henabled hn
  · exact .refused (q := .capacity (.resize n)) ⟨hn, rfl⟩

theorem effect_destroy (c : Cache) :
    c.Effect (.capacity .destroy) (c.call (.capacity .destroy)).1 (c.call (.capacity .destroy)).2 := by
  simp only [call, serve, apply, destroy]
  split_ifs with henabled
  · exact .destroyed henabled
  · exact .refused (q := .capacity .destroy) ⟨henabled, rfl⟩

theorem WellFormed.effect_insert (h : c.WellFormed) (id : BlockId) (block : Block) :
    c.Effect (.block (.insert id block)) (c.call (.block (.insert id block))).1
      (c.call (.block (.insert id block))).2 := by
  simp only [Cache.call, Cache.callBlock, insert]
  by_cases henabled : c.isEnabled
  · rw [if_pos henabled]
    cases hf : c.find? id with
    | some v => exact .refused (q := .block (.insert id block)) (Or.inr ⟨find?_isSome_iff.1 ⟨v, hf⟩, rfl⟩)
    | none =>
      obtain ⟨i, hi⟩ := h.nextSlot?_isSome henabled
      rw [hi]
      exact .inserted henabled (find?_eq_none_iff.1 hf) hi
  · rw [if_neg henabled]
    exact .refused (q := .block (.insert id block)) (Or.inl ⟨henabled, rfl⟩)

theorem effect_update (c : Cache) (id : BlockId) (block : Block) :
    c.Effect (.block (.update id block)) (c.call (.block (.update id block))).1
      (c.call (.block (.update id block))).2 := by
  simp only [call, callBlock, update?]
  cases hf : c.find? id with
  | some v =>
    obtain ⟨i, e⟩ := v
    obtain ⟨hi, rfl⟩ := findIn_eq_some hf
    exact .overwritten hi
  | none => exact .absent (find?_eq_none_iff.1 hf)

theorem effect_lookup (c : Cache) (id : BlockId) :
    c.Effect (.block (.lookup id)) (c.call (.block (.lookup id))).1 (c.call (.block (.lookup id))).2 := by
  simp only [call, callBlock]
  by_cases henabled : c.isEnabled
  · cases hf : c.find? id with
    | some v =>
      obtain ⟨i, e⟩ := v
      obtain ⟨hi, rfl⟩ := findIn_eq_some hf
      have hlookup : c.lookup e.id = .ok (some e.block,
          { c.fill i e.id e.block with queries := c.queries + 1, hits := c.hits + 1 }) := by
        have hq : Cache.find? { c with queries := c.queries + 1 } e.id = some (i, e) := hf
        simp [lookup, henabled, hq, fill]
      rw [hlookup]
      exact .found hi
    | none =>
      rw [lookup_of_find?_eq_none henabled hf]
      exact .missed henabled (find?_eq_none_iff.1 hf)
  · rw [lookup_of_not_enabled henabled]
    exact .refused (q := .block (.lookup id)) ⟨henabled, rfl⟩

theorem WellFormed.call_effect (h : c.WellFormed) (q : Call) : c.Effect q (c.call q).1 (c.call q).2 := by
  cases q with
  | capacity r =>
    cases r with
    | create n => exact effect_create c n
    | resize n => exact effect_resize c n
    | destroy => exact effect_destroy c
  | block b =>
    cases b with
    | insert id block => exact h.effect_insert id block
    | update id block => exact effect_update c id block
    | lookup id => exact effect_lookup c id

end DiskArray.Cache
