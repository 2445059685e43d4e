import DiskArray.Proofs.Cache.Touch

/-!
# Nothing stale

What a look-up finds, told by the history alone. A `Journal` keeps, beside the cache, everything that happened since the
cache was taken into use. A block is found as long as it neither made room for another one nor lost its slot after it was
last put in (`Remains`), and what is found is what was stored last under its name (`LastStored`). Both are said of the
events; one call keeps the slots in agreement with them (`Tracks.step`), and so does every run of calls
(`lookup_finds_last_stored`).
-/

namespace DiskArray.Cache

/-! ### Histories -/

section Since

variable {α : Type} {P P' Q Q' : α → Prop} {v : α} {events : List α}

/-- `P` happened, and of everything later `Q` holds. The latest event comes first. -/
def Since (P Q : α → Prop) (events : List α) : Prop :=
  ∃ later v earlier, events = later ++ v :: earlier ∧ P v ∧ ∀ w ∈ later, Q w

theorem not_since_nil : ¬ Since P Q ([] : List α) := by
  rintro ⟨later, v, earlier, hsplit, -⟩
  simp at hsplit

theorem since_cons : Since P Q (v :: events) ↔ P v ∨ Q v ∧ Since P Q events := by
  constructor
  · rintro ⟨later, w, earlier, hsplit, hw, hlater⟩
    cases later with
    | nil =>
      obtain ⟨rfl, -⟩ := List.cons_eq_cons.1 hsplit
      exact Or.inl hw
    | cons first later =>
      obtain ⟨rfl, hrest⟩ := List.cons_eq_cons.1 hsplit
      obtain ⟨hfirst, hlater⟩ := List.forall_mem_cons.1 hlater
      exact Or.inr ⟨hfirst, later, w, earlier, hrest, hw, hlater⟩
  · rintro (hv | ⟨hv, later, w, earlier, rfl, hw, hlater⟩)
    · exact ⟨[], v, events, rfl, hv, by simp⟩
    · exact ⟨v :: later, w, earlier, rfl, hw, List.forall_mem_cons.2 ⟨hv, hlater⟩⟩

theorem Since.meet (h : Since P Q events) (h' : Since P' Q' events) (hP : ∀ v, P v → ¬ Q' v)
    (hP' : ∀ v, P' v → ¬ Q v) : ∃ v, P v ∧ P' v := by
  induction events with
  | nil => exact absurd h not_since_nil
  | cons v events ih =>
    rcases since_cons.1 h with hv | ⟨hv, h⟩ <;> rcases since_cons.1 h' with hv' | ⟨hv', h'⟩
    · exact ⟨v, hv, hv'⟩
    · exact absurd hv' (hP v hv)
    · exact absurd hv (hP' v hv')
    · exact ih h h'

end Since

/-- A call, the cache it was made of, and its answer. -/
structure Event where
  before : Cache
  call : Call
  answer : Answer

namespace Event

def Inserts (w : Event) (id : BlockId) (block : Block) : Prop :=
  w.call = .block (.insert id block) ∧ w.answer = .done (.ok ())

def Overwrites (w : Event) (id : BlockId) (block : Block) : Prop :=
  w.call = .block (.update id block) ∧ w.answer = .updated true

def Stores (w : Event) (id : BlockId) (block : Block) : Prop := w.Inserts id block ∨ w.Overwrites id block

/-- The block made room for another one: no slot was empty, and the policy preferred it to all others. -/
def Evicts (w : Event) (id : BlockId) : Prop :=
  (∃ other block, w.Inserts other block) ∧ none ∉ w.before.slots ∧
    ∃ e, some e ∈ w.before.slots ∧ e.id = id ∧
      ∀ f, some f ∈ w.before.slots → f ≠ e → w.before.policy.prefers e.stamp f.stamp

/-- The cache was given another capacity, and the block was in a slot beyond it. -/
def CutsOff (w : Event) (id : BlockId) : Prop :=
  ∃ n i e, w.call = .capacity (.resize n) ∧ w.answer = .done (.ok ()) ∧
    w.before.slots[i]? = some (some e) ∧ e.id = id ∧ n ≤ i

end Event

/-- A cache and what happened since it was taken into use, the latest first. -/
structure Journal where
  cache : Cache
  events : List Event := []

namespace Journal

/-- Makes a call. A cache that is taken into use, or is not in use, has no history. -/
def step (s : Journal) (q : Call) : Journal where
  cache := (s.cache.call q).2
  events :=
    if s.cache.isEnabled ∧ (s.cache.call q).2.isEnabled then ⟨s.cache, q, (s.cache.call q).1⟩ :: s.events else []

/-- A cache that was never in use, and then these calls. -/
def run (policy : EvictionPolicy) (calls : List Call) : Journal := calls.foldl step { cache := unused policy }

/-- The block was put in, and after the last time that it was, it neither made room nor was cut off. -/
def Remains (s : Journal) (id : BlockId) : Prop :=
  Since (fun w => ∃ block, w.Inserts id block)
    (fun w => (¬ ∃ block, w.Inserts id block) ∧ ¬ w.Evicts id ∧ ¬ w.CutsOff id) s.events

/-- What was put in or overwritten last under this name. -/
def LastStored (s : Journal) (id : BlockId) (block : Block) : Prop :=
  Since (·.Stores id block) (fun w => ∀ other, ¬ w.Stores id other) s.events

end Journal

variable {c c' : Cache} {id : BlockId} {block : Block} {a : Answer} {e : Entry} {n : Nat} {q : Call}

/-! ### One call -/

theorem not_stores_of_answer (hdone : a ≠ .done (.ok ())) (hupdated : a ≠ .updated true) :
    ¬ Event.Stores ⟨c, q, a⟩ id block := by
  rintro (⟨-, hanswer⟩ | ⟨-, hanswer⟩)
  · exact hdone hanswer
  · exact hupdated hanswer

theorem resident_iff_of_answer (hanswer : a ≠ .done (.ok ())) (hsame : c'.Resident id ↔ c.Resident id) :
    c'.Resident id ↔ (∃ block, Event.Inserts ⟨c, q, a⟩ id block) ∨
      c.Resident id ∧ ¬ Event.Evicts ⟨c, q, a⟩ id ∧ ¬ Event.CutsOff ⟨c, q, a⟩ id := by
  have hinserts (other : BlockId) (block : Block) : ¬ Event.Inserts ⟨c, q, a⟩ other block := fun h => hanswer h.2
  have hevicts : ¬ Event.Evicts ⟨c, q, a⟩ id := fun ⟨⟨other, block, h⟩, _⟩ => hinserts other block h
  have hcuts : ¬ Event.CutsOff ⟨c, q, a⟩ id := fun ⟨_, _, _, _, h, _⟩ => hanswer h
  simp [hsame, hinserts, hevicts, hcuts]

theorem failure_ne {e : CacheError} (ha : a.error? = none) : q.failure e ≠ a := by
  rintro rfl
  rw [error?_failure] at ha
  cases ha

theorem notMem_replicate : some e ∉ List.replicate n (none : Slot) := fun h => nomatch List.eq_of_mem_replicate h

theorem mem_resize {slots : List Slot} {vacant : Nat} :
    some e ∈ slots.take n ++ List.replicate vacant none ↔ ∃ i < n, slots[i]? = some (some e) := by
  rw [List.mem_append, or_iff_left notMem_replicate, List.mem_iff_getElem?]
  simp [List.getElem?_take]

namespace WellFormed

theorem resident_refill {i : Nat} (h : c.WellFormed) (hi : c.slots[i]? = some (some e))
    (hslots : c'.slots = (c.fill i e.id block).slots) : c'.Resident id ↔ c.Resident id := by
  rw [h.resident_set hi hslots]
  refine ⟨?_, fun hid => ?_⟩
  · rintro (⟨hid, -⟩ | rfl)
    · exact hid
    · exact ⟨e, List.mem_of_getElem? hi, rfl⟩
  · by_cases heq : id = e.id
    · exact Or.inr heq
    · exact Or.inl ⟨hid, heq⟩

theorem evicts_iff {other : BlockId} (h : c.WellFormed) (hother : ¬ c.Resident other) :
    Event.Evicts ⟨c, .block (.insert other block), .done (.ok ())⟩ id ↔
      ∃ v, c.evicted? other = some v ∧ v.id = id := by
  constructor
  · rintro ⟨-, hfull, v, hv, hid, hbest⟩
    refine ⟨v, h.evicted?_eq_some_iff.2 ⟨?_, none_notMem_slots_iff.1 hfull, mem_entries.2 hv, ?_⟩, hid⟩
    · rwa [holds_iff_resident]
    · exact fun f hf => hbest f (mem_entries.1 hf)
  · rintro ⟨v, hv, hid⟩
    obtain ⟨-, hfull, hmem, hbest⟩ := h.evicted?_eq_some_iff.1 hv
    refine ⟨⟨other, block, rfl, rfl⟩, none_notMem_slots_iff.2 hfull, v, mem_entries.1 hmem, hid, ?_⟩
    exact fun f hf => hbest f (mem_entries.2 hf)

theorem resident_insert {other : BlockId} {i : Nat} (h : c.WellFormed) (henabled : c.isEnabled)
    (hother : ¬ c.Resident other) (hi : c.nextSlot? = some i) :
    (c.fill i other block).Resident id ↔
      id = other ∨ c.Resident id ∧ ¬ ∃ v, c.evicted? other = some v ∧ v.id = id := by
  have hkeep : c.keep other block = c.fill i other block := keep_of_nextSlot? (find?_eq_none_iff.2 hother) hi
  simp only [← hkeep, Resident, ← mem_entries, h.mem_entries_keep henabled]
  constructor
  · rintro ⟨e, rfl | ⟨he, -, hstays⟩, rfl⟩
    · exact Or.inl rfl
    · refine Or.inr ⟨⟨e, he, rfl⟩, ?_⟩
      rintro ⟨v, hv, hid⟩
      refine hstays ?_
      rw [hv, h.eq_of_id_eq (h.evicted?_eq_some_iff.1 hv).2.2.1 he hid]
  · rintro (rfl | ⟨⟨e, he, rfl⟩, hstays⟩)
    · exact ⟨_, Or.inl rfl, rfl⟩
    · refine ⟨e, Or.inr ⟨he, fun hid => hother ⟨e, mem_entries.1 he, hid⟩, fun hev => hstays ⟨e, hev, rfl⟩⟩, rfl⟩

theorem resident_resize (h : c.WellFormed)
    (hslots : c'.slots = c.slots.take n ++ List.replicate (n - c.slots.length) none) :
    c'.Resident id ↔ c.Resident id ∧ ¬ ∃ i e, c.slots[i]? = some (some e) ∧ e.id = id ∧ n ≤ i := by
  simp only [Resident, hslots, mem_resize]
  constructor
  · rintro ⟨e, ⟨i, hi, hget⟩, rfl⟩
    have hmem := List.mem_of_getElem? hget
    refine ⟨⟨e, hmem, rfl⟩, ?_⟩
    rintro ⟨j, f, hf, hid, hj⟩
    obtain rfl := h.eq_of_id_eq (mem_entries.2 (List.mem_of_getElem? hf)) (mem_entries.2 hmem) hid
    have hij := h.slot_inj hget hf
    omega
  · rintro ⟨⟨e, he, rfl⟩, hstays⟩
    obtain ⟨i, hget⟩ := List.mem_iff_getElem?.1 he
    exact ⟨e, ⟨i, Nat.lt_of_not_le fun hi => hstays ⟨i, e, hget, rfl, hi⟩, hget⟩, rfl⟩

theorem resident_after (h : c.WellFormed) (heffect : c.Effect q a c') (hafter : c'.isEnabled) (id : BlockId) :
    c'.Resident id ↔ (∃ block, Event.Inserts ⟨c, q, a⟩ id block) ∨
      c.Resident id ∧ ¬ Event.Evicts ⟨c, q, a⟩ id ∧ ¬ Event.CutsOff ⟨c, q, a⟩ id := by
  cases heffect with
  | refused hr => exact resident_iff_of_answer (failure_ne rfl) Iff.rfl
  | absent hnot => exact resident_iff_of_answer nofun Iff.rfl
  | missed _ hnot => exact resident_iff_of_answer nofun Iff.rfl
  | overwritten hi => exact resident_iff_of_answer nofun (h.resident_refill hi rfl)
  | found hi => exact resident_iff_of_answer nofun (h.resident_refill hi rfl)
  | @inserted other block i henabled hnot hi =>
    have hinserts : (∃ b, Event.Inserts ⟨c, .block (.insert other block), .done (.ok ())⟩ id b) ↔ id = other := by
      simp [Event.Inserts, eq_comm]
    have hcuts : ¬ Event.CutsOff ⟨c, .block (.insert other block), .done (.ok ())⟩ id := nofun
    rw [h.resident_insert henabled hnot hi, h.evicts_iff hnot, hinserts, and_iff_left hcuts]
  | @created r n hr hfree hn =>
    have hinserts : ¬ ∃ b, Event.Inserts ⟨c, .capacity r, .done (.ok ())⟩ id b := nofun
    have hold : ¬ c.Resident id := fun hid => hfree (isEnabled_of_resident hid)
    simp only [hinserts, hold, false_and, or_self, iff_false]
    rintro ⟨e, he, -⟩
    exact notMem_replicate he
  | @resized n henabled hn =>
    have hinserts : ¬ ∃ b, Event.Inserts ⟨c, .capacity (.resize n), .done (.ok ())⟩ id b := nofun
    have hevicts : ¬ Event.Evicts ⟨c, .capacity (.resize n), .done (.ok ())⟩ id := nofun
    rw [h.resident_resize rfl, or_iff_right hinserts, and_iff_right hevicts]
    simp [Event.CutsOff]
  | destroyed henabled => cases hafter

theorem stored_after (h : c.WellFormed) (heffect : c.Effect q a c') (he : some e ∈ c'.slots) :
    Event.Stores ⟨c, q, a⟩ e.id e.block ∨
      (∀ other, ¬ Event.Stores ⟨c, q, a⟩ e.id other) ∧
        ∃ f, some f ∈ c.slots ∧ f.id = e.id ∧ f.block = e.block := by
  cases heffect with
  | refused _ =>
    refine Or.inr ⟨fun _ => ?_, e, he, rfl, rfl⟩
    exact not_stores_of_answer (failure_ne rfl) (failure_ne rfl)
  | absent _ => exact Or.inr ⟨fun _ => not_stores_of_answer nofun nofun, e, he, rfl, rfl⟩
  | missed _ _ => exact Or.inr ⟨fun _ => not_stores_of_answer nofun nofun, e, he, rfl, rfl⟩
  | @overwritten block i old hi =>
    rcases (h.mem_set (List.getElem?_eq_some_iff.1 hi).1).1 he with rfl | ⟨he, hne⟩
    · exact Or.inl (Or.inr ⟨rfl, rfl⟩)
    · refine Or.inr ⟨?_, e, he, rfl, rfl⟩
      rintro other (⟨hcall, -⟩ | ⟨hcall, -⟩)
      · cases hcall
      · have hid : old.id = e.id := by
          injection hcall with hcall
          injection hcall
        rw [h.eq_of_id_eq (mem_entries.2 (List.mem_of_getElem? hi)) (mem_entries.2 he) hid] at hi
        exact hne hi
  | @found i old hi =>
    refine Or.inr ⟨fun _ => not_stores_of_answer nofun nofun, ?_⟩
    rcases (h.mem_set (List.getElem?_eq_some_iff.1 hi).1).1 he with rfl | ⟨he, -⟩
    · exact ⟨old, List.mem_of_getElem? hi, rfl, rfl⟩
    · exact ⟨e, he, rfl, rfl⟩
  | @inserted id block i henabled hnot hi =>
    rcases (h.mem_set (lt_capacity_of_nextSlot? hi)).1 he with rfl | ⟨he, -⟩
    · exact Or.inl (Or.inl ⟨rfl, rfl⟩)
    · refine Or.inr ⟨?_, e, he, rfl, rfl⟩
      rintro other (⟨hcall, -⟩ | ⟨hcall, -⟩)
      · have hid : id = e.id := by
          injection hcall with hcall
          injection hcall
        exact hnot ⟨e, he, hid.symm⟩
      · cases hcall
  | created _ _ _ => exact absurd he notMem_replicate
  | resized _ _ =>
    obtain ⟨i, -, hget⟩ := mem_resize.1 he
    exact Or.inr ⟨fun _ hstores => hstores.elim nofun nofun, e, List.mem_of_getElem? hget, rfl, rfl⟩
  | destroyed henabled => exact absurd he List.not_mem_nil

end WellFormed

theorem lookupInto_cases (c : Cache) (id : BlockId) (buffer : Block) :
    (∃ e, some e ∈ c.slots ∧ e.id = id ∧ c.lookupInto id buffer = (.ok true, e.block)) ∨
      ¬ c.Resident id ∧
        c.lookupInto id buffer = (if c.isEnabled then .ok false else .error .disabled, buffer) := by
  unfold lookupInto
  by_cases henabled : c.isEnabled
  · cases hf : c.find? id with
    | some v =>
      obtain ⟨hget, hid⟩ := findIn_eq_some hf
      rw [lookup_of_find? hf]
      exact Or.inl ⟨v.2, List.mem_of_getElem? hget, hid, rfl⟩
    | none =>
      rw [lookup_of_find?_eq_none henabled hf, if_pos henabled]
      exact Or.inr ⟨find?_eq_none_iff.1 hf, rfl⟩
  · rw [lookup_of_not_enabled henabled, if_neg henabled]
    exact Or.inr ⟨fun hid => henabled (isEnabled_of_resident hid), rfl⟩

/-! ### All calls -/

namespace Journal

variable {s : Journal} {other : Block}

theorem cache_run (policy : EvictionPolicy) (calls : List Call) : (run policy calls).cache = Cache.run policy calls := by
  have hstep (s : Journal) (q : Call) : (s.cache.call q).2 = (s.step q).cache := rfl
  exact (List.foldl_hom Journal.cache hstep).symm

theorem LastStored.unique (h : s.LastStored id block) (h' : s.LastStored id other) : block = other := by
  have hstores : ∃ w : Event, w.Stores id block ∧ w.Stores id other :=
    h.meet h' (fun _ hw hnot => hnot _ hw) (fun _ hw hnot => hnot _ hw)
  obtain ⟨w, ⟨hcall, -⟩ | ⟨hcall, -⟩, ⟨hcall', -⟩ | ⟨hcall', -⟩⟩ := hstores
  all_goals
    rw [hcall] at hcall'
    injection hcall' with hcall'
    injection hcall'

/-- The slots agree with what happened. -/
structure Tracks (s : Journal) : Prop where
  wellFormed : s.cache.WellFormed
  resident_iff : ∀ id, s.cache.Resident id ↔ s.Remains id
  stored : ∀ e, some e ∈ s.cache.slots → s.LastStored e.id e.block

namespace Tracks

theorem of_empty (hwell : s.cache.WellFormed) (hslots : ∀ e, some e ∉ s.cache.slots) (hevents : s.events = []) :
    s.Tracks := by
  refine ⟨hwell, fun id => iff_of_false ?_ ?_, fun e he => absurd he (hslots e)⟩
  · rintro ⟨e, he, -⟩
    exact hslots e he
  · rw [Remains, hevents]
    exact not_since_nil

theorem step (h : s.Tracks) (q : Call) : (s.step q).Tracks := by
  have hwell := h.wellFormed.call q
  have heffect := h.wellFormed.call_effect q
  by_cases hin : s.cache.isEnabled ∧ (s.cache.call q).2.isEnabled
  · have hevents : (s.step q).events = ⟨s.cache, q, (s.cache.call q).1⟩ :: s.events := if_pos hin
    refine ⟨hwell, fun id => ?_, fun e he => ?_⟩
    · -- put in just now, or held before and not affected
      rw [Remains, hevents, since_cons]
      have hafter := h.wellFormed.resident_after heffect hin.2 id
      rw [h.resident_iff] at hafter
      refine hafter.trans (or_congr_right' fun hnot => ?_)
      rw [and_iff_right hnot]
      exact and_comm
    · rw [LastStored, hevents, since_cons]
      refine (h.wellFormed.stored_after heffect he).imp_right fun ⟨hnot, f, hf, hid, hblock⟩ => ⟨hnot, ?_⟩
      have hstored := h.stored f hf
      rwa [hid, hblock] at hstored
  · refine of_empty hwell ?_ (if_neg hin)
    intro e he
    have hafter : (s.cache.call q).2.isEnabled := isEnabled_of_resident ⟨e, he, rfl⟩
    have hnil := h.wellFormed.entries_call_of_not_enabled (fun henabled => hin ⟨henabled, hafter⟩) q
    have hmem : e ∈ (s.cache.call q).2.entries := mem_entries.2 he
    rw [hnil] at hmem
    exact absurd hmem List.not_mem_nil

theorem foldl (h : s.Tracks) (calls : List Call) : (calls.foldl Journal.step s).Tracks := by
  induction calls generalizing s with
  | nil => exact h
  | cons q rest ih => exact ih (h.step q)

theorem run (policy : EvictionPolicy) (calls : List Call) : (run policy calls).Tracks :=
  foldl (of_empty (WellFormed.unused policy) (fun _ => List.not_mem_nil) rfl) calls

end Tracks

/-- After any calls, a block is found just if it was put in since the cache was taken into use and, after it was last put
in, neither made room for another one nor was cut off. Then the buffer holds what was stored last under its name, and
otherwise what it held before. An error tells that the cache is not in use. -/
theorem lookup_finds_last_stored (policy : EvictionPolicy) (calls : List Call) (id : BlockId) (buffer : Block) :
    let s := run policy calls
    let looked := s.cache.lookupInto id buffer
    s.cache = Cache.run policy calls ∧
    (looked.1 = .ok true ↔ s.Remains id) ∧
    (∀ block, looked = (.ok true, block) ↔ s.Remains id ∧ s.LastStored id block) ∧
    (looked.1 ≠ .ok true → looked.2 = buffer) ∧
    ∀ e, looked.1 = .error e ↔ ¬ s.cache.isEnabled ∧ e = .disabled := by
  intro s looked
  have htracks : s.Tracks := .run policy calls
  have hremains := htracks.resident_iff id
  refine ⟨cache_run policy calls, ?_⟩
  obtain ⟨e, he, rfl, hlooked⟩ | ⟨hnot, hlooked⟩ := lookupInto_cases s.cache id buffer
  · have hlooked : looked = (.ok true, e.block) := hlooked
    have hheld : s.Remains e.id := hremains.1 ⟨e, he, rfl⟩
    have henabled : s.cache.isEnabled := isEnabled_of_resident ⟨e, he, rfl⟩
    have hstored := htracks.stored e he
    rw [hlooked]
    refine ⟨iff_of_true rfl hheld, fun block => ?_, fun hne => absurd rfl hne, fun e => iff_of_false nofun ?_⟩
    · rw [Prod.mk.injEq, and_iff_right rfl, and_iff_right hheld]
      exact ⟨fun heq => heq ▸ hstored, hstored.unique⟩
    · exact fun hfree => hfree.1 henabled
  · have hlooked : looked = (if s.cache.isEnabled then .ok false else .error .disabled, buffer) := hlooked
    have hgone : ¬ s.Remains id := fun hremain => hnot (hremains.2 hremain)
    have hmissed : looked.1 ≠ .ok true := by
      rw [hlooked]
      split_ifs <;> nofun
    refine ⟨iff_of_false hmissed hgone, fun block => iff_of_false ?_ fun h => hgone h.1, fun _ => ?_, fun e => ?_⟩
    · exact fun heq => hmissed (congrArg Prod.fst heq)
    · rw [hlooked]
    · rw [hlooked]
      split_ifs with henabled
      · exact iff_of_false nofun fun h => h.1 henabled
      · simp [henabled, eq_comm]

/-- A block that lost its slot does not come back with the capacity; the buffer keeps what it held. -/
example (buffer : Block) :
    (run .leastRecent [.capacity (.create 3), .block (.insert ⟨0, 0⟩ .zero), .block (.insert ⟨0, 1⟩ .zero),
      .block (.insert ⟨0, 2⟩ .zero), .capacity (.resize 2), .capacity (.resize 3)]).cache.lookupInto ⟨0, 2⟩ buffer =
        (.ok false, buffer) := rfl

end Journal

end DiskArray.Cache
