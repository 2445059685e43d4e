import DiskArray.Proofs.Cache.Touch

/-!
# Scans

A scan looks up many blocks in turn, each once, and puts in what it does not find. A full cache that lets go of the block
used last takes all of them through one slot: each new block has the latest stamp, so that it is the next one to leave
(`scan_reuses_slot`).
-/

namespace DiskArray.Cache

/-- Makes calls one after the other; gives their answers, and the cache afterwards. -/
def callEach (c : Cache) : List Call → List Answer × Cache
  | [] => ([], c)
  | q :: rest =>
    let later := (c.call q).2.callEach rest
    ((c.call q).1 :: later.1, later.2)

/-- The calls of a scan: each block is looked up and then put in. -/
def scan (accesses : List (BlockId × Block)) : List Call :=
  accesses.flatMap fun a => [.block (.lookup a.1), .block (.insert a.1 a.2)]

/-- The answers to a scan that finds nothing. -/
def missing (accesses : List (BlockId × Block)) : List Answer :=
  accesses.flatMap fun _ => [.found (.ok none), .done (.ok ())]

/-- Slot `i` holds `v`, which was used last. -/
structure Latest (c : Cache) (i : Nat) (v : Entry) : Prop where
  slot : c.slots[i]? = some (some v)
  later : ∀ j f, j ≠ i → c.slots[j]? = some (some f) → f.stamp < v.stamp

variable {c c' : Cache} {id : BlockId} {block : Block} {e f v : Entry} {i j : Nat}

/-! ### The slot used last -/

theorem WellFormed.exists_latest (h : c.WellFormed) (henabled : c.isEnabled) (hfull : none ∉ c.slots)
    (hpolicy : c.policy = .mostRecent) : ∃ i v, c.nextSlot? = some i ∧ c.Latest i v := by
  obtain ⟨i, hi⟩ := h.nextSlot?_isSome henabled
  rcases nextSlot?_eq_some hi with ⟨hempty, -⟩ | ⟨-, v, hvictim, hget⟩
  · exact absurd (List.mem_of_getElem? hempty) hfull
  · refine ⟨i, v, hi, hget, fun j f hj hf => ?_⟩
    have hbest := (victimIn_eq_some hvictim).2 f (List.mem_of_getElem? hf)
    rw [hpolicy] at hbest
    have hle : f.stamp ≤ v.stamp := by simpa [EvictionPolicy.prefers] using hbest
    refine Nat.lt_of_le_of_ne hle fun heq => hj ?_
    obtain rfl : f = v := h.eq_of_stamp_eq (mem_entries.2 (List.mem_of_getElem? hf))
      (mem_entries.2 (List.mem_of_getElem? hget)) heq
    exact h.slot_inj hf hget

theorem Latest.unique (h : c.Latest i v) (h' : c.Latest j f) : i = j := by
  by_contra hne
  exact Nat.lt_asymm (h.later j f (Ne.symm hne) h'.slot) (h'.later i v hne h.slot)

theorem WellFormed.nextSlot?_of_latest (h : c.WellFormed) (hlatest : c.Latest i v) (hfull : none ∉ c.slots)
    (hpolicy : c.policy = .mostRecent) : c.nextSlot? = some i := by
  have henabled : c.isEnabled := isEnabled_of_resident ⟨v, List.mem_of_getElem? hlatest.slot, rfl⟩
  obtain ⟨j, f, hj, hlatest'⟩ := h.exists_latest henabled hfull hpolicy
  rw [hj, hlatest.unique hlatest']

/-! ### One access -/

/-- The cache once a block that it does not hold was looked up and put in. -/
def taken (c : Cache) (i : Nat) (id : BlockId) (block : Block) : Cache := c.asked.fill i id block

theorem callEach_access (hnot : ¬ c.Resident id) (henabled : c.isEnabled) (hi : c.nextSlot? = some i) (block : Block)
    (rest : List Call) :
    c.callEach (.block (.lookup id) :: .block (.insert id block) :: rest) =
      (.found (.ok none) :: .done (.ok ()) :: ((c.taken i id block).callEach rest).1,
        ((c.taken i id block).callEach rest).2) := by
  have hfind : c.find? id = none := find?_eq_none_iff.2 hnot
  have hlookup : c.call (.block (.lookup id)) = (.found (.ok none), c.asked) := by
    simp only [Cache.call, Cache.callBlock, lookup_of_find?_eq_none henabled hfind]
  have hinsert : c.asked.call (.block (.insert id block)) = (.done (.ok ()), c.taken i id block) := by
    have hfind : c.asked.find? id = none := hfind
    have hi : c.asked.nextSlot? = some i := hi
    have henabled : c.asked.isEnabled := henabled
    simp [Cache.call, Cache.callBlock, insert, hfind, hi, henabled, taken]
  simp only [callEach, hlookup, hinsert]

theorem WellFormed.taken (h : c.WellFormed) (hnot : ¬ c.Resident id) (henabled : c.isEnabled)
    (hi : c.nextSlot? = some i) : (c.taken i id block).WellFormed := by
  have hfind : c.asked.find? id = none := find?_eq_none_iff.2 hnot
  have hkeep : c.asked.keep id block = c.taken i id block := keep_of_nextSlot? hfind hi
  exact hkeep ▸ (h.asked henabled).keep

theorem WellFormed.latest_taken (h : c.WellFormed) (hi : i < c.capacity) :
    (c.taken i id block).Latest i ⟨id, block, c.clock + 1⟩ := by
  have htouches : c.Touches i ⟨id, block, c.clock + 1⟩ (c.taken i id block) := h.touches_of_slots hi rfl rfl
  exact ⟨htouches.slot, htouches.latest⟩

theorem none_notMem_taken (hfull : none ∉ c.slots) : none ∉ (c.taken i id block).slots := by
  intro hnone
  rcases List.mem_or_eq_of_mem_set hnone with hmem | heq
  · exact hfull hmem
  · cases heq

/-! ### Scans -/

/-- The cache after a scan whose blocks all went through slot `i`. -/
def scanned (c : Cache) (i : Nat) (last : BlockId × Block) (n : Nat) : Cache :=
  { c with
    slots := c.slots.set i (some ⟨last.1, last.2, c.clock + n⟩)
    clock := c.clock + n
    queries := c.queries + n }

theorem scanned_taken (c : Cache) (i : Nat) (a last : BlockId × Block) (n : Nat) :
    (c.taken i a.1 a.2).scanned i last n = c.scanned i last (n + 1) := by
  have hcount (k : Nat) : k + 1 + n = k + (n + 1) := by omega
  simp only [scanned, taken, fill, asked, List.set_set, hcount]

theorem WellFormed.callEach_scan (h : c.WellFormed) (hpolicy : c.policy = .mostRecent) (hfull : none ∉ c.slots)
    (hlatest : c.Latest i v) {accesses : List (BlockId × Block)} (hne : accesses ≠ [])
    (hdistinct : (accesses.map Prod.fst).Nodup) (hnew : ∀ a ∈ accesses, ¬ c.Resident a.1) :
    c.callEach (scan accesses) = (missing accesses, c.scanned i (accesses.getLast hne) accesses.length) := by
  -- the next block finds the cache as the first one found it, with the first one in the place of the victim
  induction accesses generalizing c v with
  | nil => exact absurd rfl hne
  | cons a rest ih =>
    have hnot : ¬ c.Resident a.1 := hnew a List.mem_cons_self
    have henabled : c.isEnabled := isEnabled_of_resident ⟨v, List.mem_of_getElem? hlatest.slot, rfl⟩
    have hi := h.nextSlot?_of_latest hlatest hfull hpolicy
    have haccess := callEach_access hnot henabled hi a.2 (scan rest)
    obtain ⟨hfirst, hdistinct⟩ := List.nodup_cons.1 hdistinct
    cases rest with
    | nil => exact haccess
    | cons b rest =>
      have hlater : ∀ x ∈ b :: rest, ¬ (c.taken i a.1 a.2).Resident x.1 := by
        intro x hx hheld
        rcases (h.resident_set hlatest.slot rfl).1 hheld with ⟨hold, -⟩ | hid
        · exact hnew x (List.mem_cons_of_mem _ hx) hold
        · exact hfirst (List.mem_map.2 ⟨x, hx, hid⟩)
      have hrest := ih (h.taken hnot henabled hi) hpolicy (none_notMem_taken hfull)
        (h.latest_taken (lt_capacity_of_nextSlot? hi)) (List.cons_ne_nil b rest) hdistinct hlater
      refine haccess.trans ?_
      rw [hrest, List.getLast_cons (List.cons_ne_nil b rest)]
      exact Prod.ext rfl (scanned_taken c i a _ _)

/-- Whatever was called before, a full cache that lets go of the block used last takes a scan of blocks that it does not
hold, each once, through one slot: nothing is found, no other slot changes, and of the blocks held only the one
used last has made room, for the last one of the scan. -/
theorem scan_reuses_slot (calls : List Call) (accesses : List (BlockId × Block)) (hne : accesses ≠ [])
    (hdistinct : (accesses.map Prod.fst).Nodup) (henabled : (run .mostRecent calls).isEnabled)
    (hfull : none ∉ (run .mostRecent calls).slots) (hnew : ∀ a ∈ accesses, ¬ (run .mostRecent calls).Resident a.1) :
    let c := run .mostRecent calls
    let last := accesses.getLast hne
    let after := c.callEach (scan accesses)
    after.1 = missing accesses ∧
      ∃ i v, c.slots[i]? = some (some v) ∧
        (∀ j f, j ≠ i → c.slots[j]? = some (some f) → f.stamp < v.stamp) ∧
        after.2.slots = c.slots.set i (some ⟨last.1, last.2, c.clock + accesses.length⟩) ∧
        ∀ id, after.2.Resident id ↔ c.Resident id ∧ id ≠ v.id ∨ id = last.1 := by
  intro c last after
  have h : c.WellFormed := .run .mostRecent calls
  have hpolicy : c.policy = .mostRecent := policy_run .mostRecent calls
  obtain ⟨i, v, -, hlatest⟩ := h.exists_latest henabled hfull hpolicy
  have hscan : after = (missing accesses, c.scanned i last accesses.length) :=
    h.callEach_scan hpolicy hfull hlatest hne hdistinct hnew
  have hslots : after.2.slots = c.slots.set i (some ⟨last.1, last.2, c.clock + accesses.length⟩) := by
    rw [hscan]
    rfl
  exact ⟨congrArg Prod.fst hscan, i, v, hlatest.slot, hlatest.later, hslots,
    fun id => h.resident_set hlatest.slot hslots⟩

/-- Three blocks go through the first of two slots, which was looked up last; the other block stays. -/
theorem scan_reuses_slot_of_lookup :
    let calls : List Call := [.capacity (.create 2), .block (.insert ⟨0, 0⟩ .zero), .block (.insert ⟨0, 1⟩ .zero),
      .block (.lookup ⟨0, 0⟩)]
    let accesses : List (BlockId × Block) := [(⟨0, 2⟩, .zero), (⟨0, 3⟩, .zero), (⟨0, 4⟩, .zero)]
    let after := (run .mostRecent calls).callEach (scan accesses)
    after.1 = missing accesses ∧ after.2.slots = [some ⟨⟨0, 4⟩, .zero, 6⟩, some ⟨⟨0, 1⟩, .zero, 2⟩] ∧
      ∀ id, after.2.Resident id ↔ (run .mostRecent calls).Resident id ∧ id ≠ ⟨0, 0⟩ ∨ id = ⟨0, 4⟩ := by
  intro calls accesses after
  have hslots : (run .mostRecent calls).slots = [some ⟨⟨0, 0⟩, .zero, 3⟩, some ⟨⟨0, 1⟩, .zero, 2⟩] := rfl
  have hnew : ∀ a ∈ accesses, ¬ (run .mostRecent calls).Resident a.1 := by
    rintro a ha ⟨e, he, hid⟩
    rcases (by simpa [hslots] using he) with rfl | rfl
    · rcases (by simpa [accesses] using ha) with rfl | rfl | rfl <;> exact absurd hid (by decide)
    · rcases (by simpa [accesses] using ha) with rfl | rfl | rfl <;> exact absurd hid (by decide)
  obtain ⟨hmissing, i, v, hi, hlater, hafter, hresident⟩ := scan_reuses_slot calls accesses (by decide) (by decide) rfl
    (by simp [hslots]) hnew
  rw [hslots] at hi hlater hafter
  obtain rfl : i = 0 := by
    by_contra hne
    -- no other slot has a stamp later than the first
    have hlt : 3 < v.stamp := hlater 0 ⟨⟨0, 0⟩, .zero, 3⟩ (Ne.symm hne) rfl
    rcases (by simpa using List.mem_of_getElem? hi) with rfl | rfl <;> exact absurd hlt (by decide)
  obtain rfl : ⟨⟨0, 0⟩, .zero, 3⟩ = v := by simpa using hi
  exact ⟨hmissing, hafter, hresident⟩

end DiskArray.Cache
