import DiskArray.Proofs.Cache.Slots
import Mathlib.Data.List.Nodup

/-!
# Well-formed caches

What holds of every cache that was made by the operations on caches (`WellFormed`): the blocks stand in the
first slots, each under a name of its own and with a stamp of its own that the clock has passed, and the
counts fit together. All changes to the slots are `fill`, so that the invariant is proved once, for `fill`
(`WellFormed.fill`), and the operations follow.
-/

namespace DiskArray.Cache

/-- The blocks held, in the order of their slots. -/
def entries (c : Cache) : List Entry := c.slots.reduceOption

theorem mem_entries {c : Cache} {e : Entry} : e ∈ c.entries ↔ some e ∈ c.slots :=
  List.reduceOption_mem_iff

theorem length_entries (c : Cache) : c.entries.length = c.size := by
  rw [entries, List.reduceOption_length_eq, size, List.countP_eq_length_filter]

theorem none_notMem_slots_iff {c : Cache} : none ∉ c.slots ↔ c.size = c.capacity := by
  rw [size, capacity, List.countP_eq_length]
  constructor
  · intro hnone slot hslot
    cases slot with
    | none => exact absurd hslot hnone
    | some e => rfl
  · intro hsome hnone
    exact absurd (hsome none hnone) (by decide)

/-- The invariant of the operations on caches. -/
structure WellFormed (c : Cache) : Prop where
  packed : c.slots = packed c.entries (c.capacity - c.size)
  ids : (c.entries.map Entry.id).Nodup
  stamps : (c.entries.map Entry.stamp).Nodup
  stamped : ∀ e ∈ c.entries, 0 < e.stamp ∧ e.stamp ≤ c.clock
  capacityOk : c.slots = [] ∨ CapacityOk c.capacity
  hits_le_queries : c.hits ≤ c.queries
  hits_le_clock : c.hits ≤ c.clock
  /-- A cache that is not in use has counted nothing. -/
  idle : c.slots = [] → c.clock = 0 ∧ c.queries = 0 ∧ c.hits = 0

variable {c c' : Cache} {id : BlockId} {block : Block} {e f : Entry} {i n : Nat}

theorem packed_of_slots {es : List Entry} {vacant : Nat} (h : c.slots = Cache.packed es vacant) :
    c.entries = es ∧ c.slots = Cache.packed c.entries (c.capacity - c.size) := by
  have hes : c.entries = es := by rw [entries, h, reduceOption_packed]
  have hsize : c.size = es.length := by rw [← length_entries, hes]
  refine ⟨hes, ?_⟩
  rw [hes, hsize, capacity, h, length_packed, Nat.add_sub_cancel_left]

namespace WellFormed

theorem size_le_capacity (h : c.WellFormed) : c.size ≤ c.capacity := by
  have hlen := congrArg List.length h.packed
  rw [length_packed, length_entries] at hlen
  change c.capacity = _ at hlen
  omega

theorem eq_of_id_eq (h : c.WellFormed) (he : e ∈ c.entries) (hf : f ∈ c.entries) (hid : e.id = f.id) :
    e = f :=
  List.inj_on_of_nodup_map h.ids he hf hid

theorem eq_of_stamp_eq (h : c.WellFormed) (he : e ∈ c.entries) (hf : f ∈ c.entries)
    (hs : e.stamp = f.stamp) : e = f :=
  List.inj_on_of_nodup_map h.stamps he hf hs

theorem nodup_entries (h : c.WellFormed) : c.entries.Nodup := List.Nodup.of_map _ h.ids

theorem getElem?_entries (h : c.WellFormed) (he : c.slots[i]? = some (some e)) :
    c.entries[i]? = some e := by
  rw [h.packed, Cache.packed, List.getElem?_append] at he
  split_ifs at he with hi
  · simpa using he
  · rw [List.getElem?_replicate] at he
    split_ifs at he
    simp at he

theorem slot_inj {j : Nat} (h : c.WellFormed) (hi : c.slots[i]? = some (some e)) (hj : c.slots[j]? = some (some e)) :
    i = j := by
  have hi := h.getElem?_entries hi
  have hlt := (List.getElem?_eq_some_iff.1 hi).1
  exact (List.getElem?_inj hlt h.nodup_entries).1 (hi.trans (h.getElem?_entries hj).symm)

/-! ### Filling a slot -/

theorem entries_fill (h : c.WellFormed) (id : BlockId) (block : Block) (hi : i ≤ c.size) (hc : i < c.capacity) :
    (c.fill i id block).entries.Perm (⟨id, block, c.clock + 1⟩ :: c.entries.eraseIdx i) ∧
      (c.fill i id block).slots =
        Cache.packed (c.fill i id block).entries ((c.fill i id block).capacity - (c.fill i id block).size) := by
  have hsize := h.size_le_capacity
  have hlen := length_entries c
  have hle : i ≤ c.entries.length := by omega
  obtain ⟨es, vacant, hset, hperm⟩ := set_packed c.entries (c.capacity - c.size)
    ⟨id, block, c.clock + 1⟩ hle (by omega)
  rw [← h.packed] at hset
  obtain ⟨hes, hpacked⟩ := packed_of_slots (c := c.fill i id block) hset
  exact ⟨hes ▸ hperm, hpacked⟩

@[simp] theorem capacity_fill : (c.fill i id block).capacity = c.capacity := by
  simp [fill, capacity]

/-- Filling a slot keeps the invariant, if no other slot holds the block. -/
theorem fill (h : c.WellFormed) (hi : i ≤ c.size) (hc : i < c.capacity)
    (hid : ∀ e ∈ c.entries.eraseIdx i, e.id ≠ id) : (c.fill i id block).WellFormed := by
  obtain ⟨hperm, hpacked⟩ := h.entries_fill id block hi hc
  have herase {e} (he : e ∈ c.entries.eraseIdx i) : e ∈ c.entries := List.eraseIdx_subset he
  refine ⟨hpacked, ?_, ?_, ?_, ?_, h.hits_le_queries, ?_, ?_⟩
  · rw [(hperm.map _).nodup_iff, List.map_cons, List.nodup_cons]
    refine ⟨?_, h.ids.sublist ((List.eraseIdx_sublist _ _).map _)⟩
    rw [List.mem_map]
    rintro ⟨e, he, heq⟩
    exact hid e he heq
  · rw [(hperm.map _).nodup_iff, List.map_cons, List.nodup_cons]
    refine ⟨?_, h.stamps.sublist ((List.eraseIdx_sublist _ _).map _)⟩
    rw [List.mem_map]
    rintro ⟨e, he, heq⟩
    have hle := (h.stamped e (herase he)).2
    have heq : e.stamp = c.clock + 1 := heq
    omega
  · intro e he
    show _ ∧ _ ≤ c.clock + 1
    rcases List.mem_cons.1 (hperm.mem_iff.1 he) with rfl | he
    · exact ⟨Nat.succ_pos _, Nat.le_refl _⟩
    · have hstamp := h.stamped e (herase he)
      omega
  · refine Or.inr ?_
    rw [capacity_fill]
    refine h.capacityOk.resolve_left fun hnil => ?_
    rw [capacity, hnil] at hc
    exact absurd hc (Nat.not_lt_zero _)
  · exact Nat.le_succ_of_le h.hits_le_clock
  · intro hnil
    have hlen : (c.fill i id block).capacity = 0 := by rw [capacity, hnil, List.length_nil]
    rw [capacity_fill] at hlen
    omega

end WellFormed

/-! ### Where a block is -/

theorem isEnabled_iff : c.isEnabled ↔ 0 < c.capacity := by
  rw [isEnabled, capacity, List.length_pos_iff]
  simp

theorem find?_eq_none : c.find? id = none ↔ ∀ e ∈ c.entries, e.id ≠ id := by
  simp only [find?, findIn_eq_none, mem_entries]

namespace WellFormed

theorem find?_eq_some (h : c.WellFormed) (hf : c.find? id = some (i, e)) :
    c.entries[i]? = some e ∧ e.id = id := by
  obtain ⟨hget, hid⟩ := findIn_eq_some hf
  exact ⟨h.getElem?_entries hget, hid⟩

theorem vacancy?_eq (h : c.WellFormed) :
    c.vacancy? = if c.size = c.capacity then none else some c.size := by
  have hsize := h.size_le_capacity
  rw [vacancy?, h.packed, findIdx?_isNone_packed, length_entries]
  by_cases hfull : c.size = c.capacity
  · rw [if_pos (by omega), if_pos hfull]
  · rw [if_neg (by omega), if_neg hfull]

theorem victim?_eq_some (h : c.WellFormed) (hv : c.victim? = some (i, e)) :
    c.entries[i]? = some e ∧ ∀ f ∈ c.entries, c.policy.prefers f.stamp e.stamp = false := by
  obtain ⟨hget, hbest⟩ := victimIn_eq_some hv
  exact ⟨h.getElem?_entries hget, fun f hf => hbest f (mem_entries.1 hf)⟩

end WellFormed

theorem victim?_isSome (he : e ∈ c.entries) : ∃ v, c.victim? = some v := by
  rw [← Option.isSome_iff_exists, ← Option.ne_none_iff_isSome, victim?, Ne, victimIn_eq_none]
  exact fun h => h e (mem_entries.1 he)

end DiskArray.Cache
