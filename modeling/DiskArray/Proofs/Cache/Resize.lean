import DiskArray.Proofs.Cache.Freshness
import DiskArray.Proofs.Cache.Scan

/-!
# Another capacity

What is left of a cache that was given another capacity (`Resized`): the first slots stay as they are. Because the
blocks held always stand in front, their number tells how many blocks are left, and with that how many can be put in
before one has to leave (`resize_keeps_front`): every block that is taken in fills a slot until none is empty
(`size_callEach`).
-/

namespace DiskArray.Cache

/-- The cache with `n` slots: the first ones as they are, and empty ones behind them. -/
def resized (c : Cache) (n : Nat) : Cache :=
  { c with slots := c.slots.take n ++ List.replicate (n - c.slots.length) none }

/-- What is left of a cache that was given `n` slots. -/
structure Resized (c : Cache) (n : Nat) (c' : Cache) : Prop where
  slot : ∀ i e, c'.slots[i]? = some (some e) ↔ i < n ∧ c.slots[i]? = some (some e)
  resident : ∀ id, c'.Resident id ↔ ∃ i e, i < n ∧ c.slots[i]? = some (some e) ∧ e.id = id
  size : c'.size = min c.size n
  capacity : c'.capacity = n
  clock : c'.clock = c.clock
  queries : c'.queries = c.queries
  hits : c'.hits = c.hits
  policy : c'.policy = c.policy

/-- A block was put in, and none left. -/
def Adds (c : Cache) (e : Entry) (c' : Cache) : Prop := ∀ f, some f ∈ c'.slots ↔ f = e ∨ some f ∈ c.slots

/-- A block was put in, and one block left, no more. -/
def Swaps (c : Cache) (v e : Entry) (c' : Cache) : Prop :=
  some v ∈ c.slots ∧ v.id ≠ e.id ∧ ∀ f, some f ∈ c'.slots ↔ f = e ∨ some f ∈ c.slots ∧ f ≠ v

/-- An answer that tells that a block was put in; calls for a block succeed with no other result in this form. -/
def Answer.tookIn : Answer → Bool
  | .done (.ok _) => true
  | _ => false

variable {c c' : Cache} {id : BlockId} {block : Block} {a : Answer} {b : BlockCall} {e : Entry} {i n m : Nat}

/-! ### The slots that are left -/

theorem resize_eq (henabled : c.isEnabled) (hn : CapacityOk n) : c.resize n = .ok (c.resized n) := by
  rw [resize, if_pos hn, if_pos henabled]
  rfl

theorem getElem?_resized : (c.resized n).slots[i]? = some (some e) ↔ i < n ∧ c.slots[i]? = some (some e) := by
  have hvacant (j k : Nat) : (List.replicate k (none : Slot))[j]? ≠ some (some e) := fun h =>
    notMem_replicate (List.mem_of_getElem? h)
  show (c.slots.take n ++ _)[i]? = _ ↔ _
  rw [List.getElem?_append, List.length_take, List.getElem?_take]
  split_ifs with hlt hi
  · exact (and_iff_right hi).symm
  · omega
  · refine iff_of_false (hvacant _ _) fun ⟨hi, hget⟩ => hlt ?_
    have hlength := (List.getElem?_eq_some_iff.1 hget).1
    omega

theorem capacity_resized : (c.resized n).capacity = n := by
  show (c.slots.take n ++ List.replicate (n - c.slots.length) none).length = n
  rw [List.length_append, List.length_take, List.length_replicate]
  omega

theorem isEnabled_resized (hn : CapacityOk n) : (c.resized n).isEnabled := by
  have hle : 2 ≤ n := hn.1
  rw [isEnabled_iff, capacity_resized]
  omega

theorem resized_resized (c : Cache) (n m : Nat) :
    (c.resized n).resized m =
      { c with
        slots := c.slots.take (min n (min m c.capacity)) ++
          List.replicate (m - min n (min m c.capacity)) none } := by
  have hfront : c.slots.take (min m n) = c.slots.take (min n (min m c.slots.length)) := by
    rw [List.take_eq_take_iff]
    omega
  have hvacant : min (m - min n c.slots.length) (n - c.slots.length) + (m - n) =
      m - min n (min m c.slots.length) := by
    omega
  have hlength : (c.slots.take n ++ List.replicate (n - c.slots.length) (none : Slot)).length = n := capacity_resized
  simp only [resized, capacity, hlength, List.take_append, List.take_take, List.take_replicate, List.length_take,
    List.append_assoc, List.replicate_append_replicate, hfront, hvacant]

namespace WellFormed

theorem resized (h : c.WellFormed) (henabled : c.isEnabled) (hn : CapacityOk n) :
    (c.resized n).WellFormed ∧ c.Resized n (c.resized n) := by
  obtain ⟨hwell, hentries⟩ := h.resize henabled (resize_eq henabled hn)
  refine ⟨hwell, fun i e => getElem?_resized, fun id => ?_, ?_, capacity_resized, rfl, rfl, rfl, rfl⟩
  · constructor
    · rintro ⟨e, he, rfl⟩
      obtain ⟨i, hi⟩ := List.mem_iff_getElem?.1 he
      obtain ⟨hlt, hget⟩ := getElem?_resized.1 hi
      exact ⟨i, e, hlt, hget, rfl⟩
    · rintro ⟨i, e, hlt, hget, rfl⟩
      exact ⟨e, List.mem_of_getElem? (getElem?_resized.2 ⟨hlt, hget⟩), rfl⟩
  · rw [← length_entries, hentries, List.length_take, length_entries, Nat.min_comm]

/-! ### Room for more blocks -/

theorem insert_adds (h : c.WellFormed) (henabled : c.isEnabled) (hid : ¬ c.Resident id) (hroom : c.size < c.capacity) :
    c.Adds ⟨id, block, c.clock + 1⟩ (c.keep id block) := by
  intro f
  rw [← mem_entries, ← mem_entries, h.mem_entries_keep henabled, h.evicted?_eq_none (Or.inr (Nat.ne_of_lt hroom))]
  refine or_congr_right ⟨fun hf => hf.1, fun hf => ⟨hf, fun hsame => ?_, nofun⟩⟩
  exact hid ⟨f, mem_entries.1 hf, hsame⟩

theorem insert_swaps (h : c.WellFormed) (henabled : c.isEnabled) (hid : ¬ c.Resident id) (hfull : c.size = c.capacity) :
    ∃ v, c.Swaps v ⟨id, block, c.clock + 1⟩ (c.keep id block) := by
  obtain ⟨v, hv⟩ := h.evicted?_isSome henabled (find?_eq_none_iff.2 hid) hfull
  have hmem : some v ∈ c.slots := mem_entries.1 (h.evicted?_eq_some_iff.1 hv).2.2.1
  have hne {f : Entry} (hf : some f ∈ c.slots) : f.id ≠ id := fun hsame => hid ⟨f, hf, hsame⟩
  refine ⟨v, hmem, hne hmem, fun f => ?_⟩
  rw [← mem_entries, ← mem_entries, h.mem_entries_keep henabled, hv]
  refine or_congr_right ⟨fun ⟨hf, _, hstays⟩ => ⟨hf, fun hfv => hstays (hfv ▸ rfl)⟩, fun ⟨hf, hstays⟩ => ?_⟩
  exact ⟨hf, hne (mem_entries.1 hf), fun hvf => hstays (Option.some.inj hvf).symm⟩

end WellFormed

theorem Effect.size_block (h : c.Effect (.block b) a c') :
    c'.capacity = c.capacity ∧ c'.size = min c.capacity (c.size + if a.tookIn then 1 else 0) := by
  have hle : c.size ≤ c.capacity := List.countP_le_length
  have hsame : c.size = min c.capacity (c.size + 0) := (Nat.min_eq_right hle).symm
  generalize hq : Call.block b = q at h
  cases h with
  | refused _ =>
    refine ⟨rfl, ?_⟩
    subst hq
    cases b <;> exact hsame
  | absent _ => exact ⟨rfl, hsame⟩
  | missed _ _ => exact ⟨rfl, hsame⟩
  | overwritten hi => exact ⟨WellFormed.capacity_fill, (size_fill_of_filled hi).trans hsame⟩
  | found hi => exact ⟨WellFormed.capacity_fill, (size_fill_of_filled hi).trans hsame⟩
  | inserted _ _ hi =>
    refine ⟨WellFormed.capacity_fill, (size_fill_of_nextSlot? hi).trans ?_⟩
    show _ = min c.capacity (c.size + 1)
    split <;> omega
  | _ => cases hq

/-- The same of all blocks that are taken in by some calls. -/
theorem WellFormed.size_callEach (h : c.WellFormed) (bs : List BlockCall) :
    let later := c.callEach (bs.map .block)
    later.2.WellFormed ∧ later.2.capacity = c.capacity ∧
      later.2.size = min c.capacity (c.size + later.1.countP Answer.tookIn) := by
  induction bs generalizing c with
  | nil => exact ⟨h, rfl, (Nat.min_eq_right List.countP_le_length).symm⟩
  | cons b bs ih =>
    obtain ⟨hcapacity, hsize⟩ := (h.call_effect (.block b)).size_block
    obtain ⟨hwell, hcapacity', hsize'⟩ := ih (h.call (.block b))
    refine ⟨hwell, hcapacity'.trans hcapacity, ?_⟩
    show ((c.call (.block b)).2.callEach (bs.map .block)).2.size = _
    rw [hsize', hcapacity, hsize, List.map_cons, callEach, List.countP_cons]
    omega

/-- Whatever was called before, a cache in use that is given `n` slots keeps what stands in the first `n`, each block in
its slot, with its stamp, and loses the rest; what it counts stays. As many blocks as there are empty slots then can be
put in before one has to leave, whatever else is asked for in between, and from then on one leaves for each that is put
in. If it is given `m` slots next, it is as if it had been cut once, to the least of the capacities. -/
theorem resize_keeps_front (policy : EvictionPolicy) (calls : List Call) (n : Nat)
    (hinUse : 0 < (run policy calls).capacity) (hn : 2 ≤ n ∧ n ≤ 4096) :
    let c := run policy calls
    ∃ c', c.resize n = .ok c' ∧ c.Resized n c' ∧
      (∀ (bs : List BlockCall) (id : BlockId) (block : Block),
        let later := c'.callEach (bs.map .block)
        let next := later.2.call (.block (.insert id block))
        let new : Entry := ⟨id, block, later.2.clock + 1⟩
        let taken := later.1.countP Answer.tookIn
        ¬ later.2.Resident id →
          next.1 = .done (.ok ()) ∧
            (taken < n - min c.size n → later.2.Adds new next.2) ∧
            (n - min c.size n ≤ taken → ∃ v, later.2.Swaps v new next.2)) ∧
      ∀ m, 2 ≤ m ∧ m ≤ 4096 →
        c'.resize m = .ok { c with
          slots := c.slots.take (min n (min m c.capacity)) ++
            List.replicate (m - min n (min m c.capacity)) none } := by
  intro c
  have h : c.WellFormed := .run policy calls
  have henabled : c.isEnabled := isEnabled_iff.2 hinUse
  obtain ⟨hwell, hresized⟩ := h.resized henabled hn
  have hafter : (c.resized n).isEnabled := isEnabled_resized hn
  refine ⟨c.resized n, resize_eq henabled hn, hresized, ?_, fun m hm => ?_⟩
  · intro bs id block later next new taken hid
    obtain ⟨hlater, hsame, hfilled⟩ := hwell.size_callEach bs
    have hcapacity : later.2.capacity = n := hsame.trans hresized.capacity
    have hsize : later.2.size = min n (min c.size n + taken) := by
      refine hfilled.trans ?_
      rw [hresized.capacity, hresized.size]
    have henabled' : later.2.isEnabled := by
      rwa [isEnabled_iff, hcapacity, ← hresized.capacity, ← isEnabled_iff]
    have hnext : next = (.done (.ok ()), later.2.keep id block) :=
      hlater.call_insert henabled' (find?_eq_none_iff.2 hid) block
    rw [hnext]
    refine ⟨rfl, fun hroom => ?_, fun hspent => ?_⟩
    · refine hlater.insert_adds henabled' hid ?_
      rw [hsize, hcapacity]
      omega
    · refine hlater.insert_swaps henabled' hid ?_
      rw [hsize, hcapacity]
      omega
  · rw [resize_eq hafter hm, resized_resized]

/-- Two blocks in a cache that is given a third slot: one block more finds room, the next one does not, and with two
slots again the cache is what it was. -/
theorem resize_keeps_front_of_grown :
    let calls : List Call := [.capacity (.create 2), .block (.insert ⟨0, 0⟩ .zero), .block (.insert ⟨0, 1⟩ .zero)]
    let c := run .leastRecent calls
    ∃ c', c.resize 3 = .ok c' ∧ c'.size = 2 ∧
      c'.Adds ⟨⟨0, 2⟩, .zero, 3⟩ (c'.call (.block (.insert ⟨0, 2⟩ .zero))).2 ∧
      (let later := c'.callEach [.block (.insert ⟨0, 2⟩ .zero)]
        ∃ v, later.2.Swaps v ⟨⟨0, 3⟩, .zero, 4⟩ (later.2.call (.block (.insert ⟨0, 3⟩ .zero))).2) ∧
      c'.resize 2 = .ok c := by
  intro calls c
  obtain ⟨c', hresize, hresized, hnext, hagain⟩ :=
    resize_keeps_front .leastRecent calls 3 (by decide) (by decide)
  obtain rfl : c.resized 3 = c' := Except.ok.inj hresize
  have hfree : ¬ (c.resized 3).Resident ⟨0, 2⟩ := by
    rw [← find?_eq_none_iff]
    rfl
  have hfree' : ¬ ((c.resized 3).callEach [.block (.insert ⟨0, 2⟩ .zero)]).2.Resident ⟨0, 3⟩ := by
    rw [← find?_eq_none_iff]
    rfl
  exact ⟨_, hresize, hresized.size, (hnext [] ⟨0, 2⟩ .zero hfree).2.1 (by decide),
    (hnext [.insert ⟨0, 2⟩ .zero] ⟨0, 3⟩ .zero hfree').2.2 (by decide), hagain 2 (by decide)⟩

end DiskArray.Cache
