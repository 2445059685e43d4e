import DiskArray.Proofs.Cache.Calls

/-!
# Slots as records

A slot of the cache is empty or holds a block. Laid out in memory it is a record that always has all its fields, with a
mark that tells whether they count (`Cell`), and the operations search and overwrite such records one field at a time
(`Table`). Both caches answer every call alike and stay alike (`table_call`), so what is invariant of the one can be read
off the other (`Table.Valid`).
-/

namespace DiskArray.Cache

structure Cell where
  valid : Bool
  disk : Nat
  block : Nat
  data : Block
  stamp : Nat

namespace Cell

/-- The record of an empty slot: all of it is zero. -/
def empty : Cell := ⟨false, 0, 0, .zero, 0⟩

def holds (cell : Cell) (id : BlockId) : Bool := cell.valid && cell.disk == id.disk && cell.block == id.block

def ofSlot : Slot → Cell
  | none => empty
  | some e => ⟨true, e.id.disk, e.id.block, e.block, e.stamp⟩

end Cell

/-- A cache whose slots are records. -/
structure Table where
  policy : EvictionPolicy
  cells : List Cell := []
  clock : Nat := 0
  queries : Nat := 0
  hits : Nat := 0

namespace Table

def isEnabled (t : Table) : Bool := !t.cells.isEmpty

def find? (t : Table) (id : BlockId) : Option Nat := t.cells.findIdx? (·.holds id)

def vacancy? (t : Table) : Option Nat := t.cells.findIdx? (!·.valid)

/-- Whether a stamp is a better choice than the best one so far, given by its slot and its stamp. -/
def beats (policy : EvictionPolicy) (stamp : Nat) : Option (Nat × Nat) → Bool
  | none => true
  | some (_, best) => policy.prefers stamp best

/-- Goes through the records from one slot on. -/
def victimFrom (policy : EvictionPolicy) (slot : Nat) (best : Option (Nat × Nat)) : List Cell → Option (Nat × Nat)
  | [] => best
  | cell :: rest =>
    victimFrom policy (slot + 1) (if cell.valid && beats policy cell.stamp best then some (slot, cell.stamp) else best) rest

def victim? (t : Table) : Option Nat := (victimFrom t.policy 0 none t.cells).map (·.1)

def create (t : Table) (n : Nat) : Except CacheError Table :=
  if t.isEnabled then .error .alreadyCreated
  else if CapacityOk n then .ok { t with cells := List.replicate n .empty, clock := 0 }
  else .error (.capacityOutOfBounds n)

def destroy (t : Table) : Except CacheError Table :=
  if t.isEnabled then .ok { t with cells := [], clock := 0, queries := 0, hits := 0 } else .error .uninitialized

def resize (t : Table) (n : Nat) : Except CacheError Table :=
  if CapacityOk n then
    if t.isEnabled then
      let kept := min n t.cells.length
      .ok { t with cells := t.cells.take kept ++ (List.replicate n .empty).drop kept }
    else t.create n
  else .error (.capacityOutOfBounds n)

def apply (t : Table) : Request → Except CacheError Table
  | .create n => t.create n
  | .resize n => t.resize n
  | .destroy => t.destroy

def lookup (t : Table) (id : BlockId) : Except CacheError (Option Block × Table) :=
  if t.isEnabled then
    match t.find? id with
    | none => .ok (none, { t with queries := t.queries + 1 })
    | some i =>
      .ok (t.cells[i]?.map Cell.data,
        { t with
          queries := t.queries + 1
          hits := t.hits + 1
          clock := t.clock + 1
          cells := t.cells.modify i fun cell => { cell with stamp := t.clock + 1 } })
  else .error .disabled

def update? (t : Table) (id : BlockId) (block : Block) : Option Table :=
  if t.isEnabled then
    (t.find? id).map fun i =>
      { t with
        clock := t.clock + 1
        cells := t.cells.modify i fun cell => { cell with data := block, stamp := t.clock + 1 } }
  else none

def insert (t : Table) (id : BlockId) (block : Block) : Except CacheError Table :=
  if t.isEnabled then
    if (t.find? id).isSome then .error (.duplicateKey id)
    else
      match t.vacancy?.or t.victim? with
      | some i =>
        .ok { t with clock := t.clock + 1, cells := t.cells.set i ⟨true, id.disk, id.block, block, t.clock + 1⟩ }
      | none => .error .disabled
  else .error .disabled

/-- Makes a call. One that fails leaves the cache as it was. -/
def call (t : Table) : Call → Answer × Table
  | .capacity r =>
    match t.apply r with
    | .ok t' => (.done (.ok ()), t')
    | .error e => (.done (.error e), t)
  | .block (.insert id block) =>
    match t.insert id block with
    | .ok t' => (.done (.ok ()), t')
    | .error e => (.done (.error e), t)
  | .block (.update id block) =>
    match t.update? id block with
    | some t' => (.updated true, t')
    | none => (.updated false, t)
  | .block (.lookup id) =>
    match t.lookup id with
    | .ok (b, t') => (.found (.ok b), t')
    | .error e => (.found (.error e), t)

/-- A cache that was never in use, and then these calls. -/
def run (policy : EvictionPolicy) (calls : List Call) : Table := calls.foldl (fun t q => (t.call q).2) { policy }

/-- The records that count. -/
def validCells (t : Table) : List Cell := t.cells.filter Cell.valid

/-- The invariant of the records. -/
structure Valid (t : Table) : Prop where
  capacity : t.cells.length = 0 ∨ CapacityOk t.cells.length
  front : ∃ k, ∀ (i : Nat) (cell : Cell), t.cells[i]? = some cell → (cell.valid ↔ i < k)
  blank : ∀ cell ∈ t.cells, ¬ cell.valid → cell = .empty
  ids : (t.validCells.map fun cell => (cell.disk, cell.block)).Nodup
  stamps : (t.validCells.map Cell.stamp).Nodup
  stamped : ∀ cell ∈ t.validCells, 1 ≤ cell.stamp ∧ cell.stamp ≤ t.clock
  hits_le_queries : t.hits ≤ t.queries
  hits_le_clock : t.hits ≤ t.clock
  idle : t.cells.length = 0 → t.clock = 0 ∧ t.queries = 0 ∧ t.hits = 0

end Table

/-- The cache with its slots laid out as records. -/
def table (c : Cache) : Table :=
  { policy := c.policy, cells := c.slots.map Cell.ofSlot, clock := c.clock, queries := c.queries, hits := c.hits }

theorem cells_table (c : Cache) : c.table.cells = c.slots.map Cell.ofSlot := rfl

variable {c : Cache} {i : Nat} {slots : List Slot}

/-! ### Searches -/

theorem isEnabled_table (c : Cache) : c.table.isEnabled = c.isEnabled := by
  simp [Table.isEnabled, isEnabled, table]

theorem holds_ofSlot (slot : Slot) (id : BlockId) : (Cell.ofSlot slot).holds id ↔ ∃ e, slot = some e ∧ e.id = id := by
  cases slot with
  | none => simp [Cell.ofSlot, Cell.empty, Cell.holds]
  | some e =>
    obtain ⟨⟨disk, block⟩, _, _⟩ := e
    obtain ⟨disk', block'⟩ := id
    simp [Cell.ofSlot, Cell.holds]

theorem find?_table (c : Cache) (id : BlockId) : c.table.find? id = (c.find? id).map (·.1) := by
  unfold Table.find? table find?
  induction c.slots with
  | nil => rfl
  | cons slot rest ih =>
    rw [List.map_cons, List.findIdx?_cons, ih]
    cases slot with
    | none => simp [holds_ofSlot, findIn, Function.comp_def]
    | some e =>
      by_cases he : e.id = id
      · simp [holds_ofSlot, findIn, he]
      · simp [holds_ofSlot, findIn, he, Function.comp_def]

theorem vacancy?_table (c : Cache) : c.table.vacancy? = c.vacancy? := by
  unfold Table.vacancy? table vacancy?
  rw [List.findIdx?_map]
  congr 1
  funext slot
  cases slot <;> rfl

@[simp] theorem beats_some (policy : EvictionPolicy) (stamp slot best : Nat) :
    Table.beats policy stamp (some (slot, best)) = policy.prefers stamp best := rfl

theorem beats_trans {policy : EvictionPolicy} {a b : Nat} {best : Option (Nat × Nat)}
    (hab : policy.prefers a b = true) (hb : Table.beats policy b best = true) : Table.beats policy a best = true := by
  cases best with
  | none => rfl
  | some _ =>
    cases policy <;> simp only [Table.beats, EvictionPolicy.prefers, decide_eq_true_eq] at * <;> omega

theorem beats_false_trans {policy : EvictionPolicy} {a b : Nat} {best : Option (Nat × Nat)}
    (hab : policy.prefers a b = false) (hb : Table.beats policy b best = false) :
    Table.beats policy a best = false := by
  cases best with
  | none => cases hb
  | some _ => exact prefers_false_trans hab hb

theorem victimFrom_map (policy : EvictionPolicy) (slots : List Slot) (slot : Nat) (best : Option (Nat × Nat)) :
    Table.victimFrom policy slot best (slots.map Cell.ofSlot) =
      match victimIn policy slots with
      | none => best
      | some (i, e) => if Table.beats policy e.stamp best then some (slot + i, e.stamp) else best := by
  induction slots generalizing slot best with
  | nil => rfl
  | cons first rest ih =>
    have hshift (i : Nat) : slot + 1 + i = slot + (i + 1) := by omega
    rw [List.map_cons, Table.victimFrom, ih]
    cases first with
    | none => cases hv : victimIn policy rest <;> simp [victimIn, hv, Cell.ofSlot, Cell.empty, hshift]
    | some e =>
      cases hv : victimIn policy rest with
      | none => simp [victimIn, hv, Cell.ofSlot]
      | some v =>
        obtain ⟨i, later⟩ := v
        simp only [victimIn, hv, Cell.ofSlot, Bool.true_and]
        -- the block of this slot takes the place of the best so far, and the later one its place in turn
        cases he : Table.beats policy e.stamp best <;> cases hlater : policy.prefers later.stamp e.stamp
        · simp [he, beats_false_trans hlater he]
        · simp [hshift]
        · simp [he, hlater]
        · simp [hlater, beats_trans hlater he, hshift]

theorem victim?_table (c : Cache) : c.table.victim? = c.victim?.map (·.1) := by
  unfold Table.victim? table victim?
  rw [victimFrom_map]
  cases victimIn c.policy c.slots <;> simp [Table.beats]

theorem nextSlot?_eq (c : Cache) : c.nextSlot? = c.table.vacancy?.or c.table.victim? := by
  rw [vacancy?_table, victim?_table, nextSlot?]
  cases c.vacancy? <;> rfl

/-! ### Calls -/

theorem map_set_eq_modify {f : Cell → Cell} {e e' : Entry} (hi : slots[i]? = some (some e))
    (hf : f (Cell.ofSlot (some e)) = Cell.ofSlot (some e')) :
    (slots.set i (some e')).map Cell.ofSlot = (slots.map Cell.ofSlot).modify i f := by
  refine List.ext_getElem? fun j => ?_
  rw [List.getElem?_map, List.getElem?_set, List.getElem?_modify, List.getElem?_map]
  by_cases hj : i = j
  · subst hj
    have hlt : i < slots.length := (List.getElem?_eq_some_iff.1 hi).1
    simp only [hi, hlt, if_true, Option.map_some, Option.map_eq_map, hf]
  · simp [hj]

theorem table_create (c : Cache) (n : Nat) : c.table.create n = (c.create n).map Cache.table := by
  unfold Table.create create
  rw [isEnabled_table]
  split_ifs
  · rfl
  · simp [Except.map, table, Cell.ofSlot]
  · rfl

theorem table_apply (c : Cache) (r : Request) : c.table.apply r = (c.apply r).map Cache.table := by
  cases r with
  | create n => exact table_create c n
  | resize n =>
    show c.table.resize n = (c.resize n).map Cache.table
    unfold Table.resize resize
    rw [isEnabled_table]
    split_ifs
    · have hkept : n - min n c.slots.length = n - c.slots.length := by omega
      have htake : c.slots.take (min n c.slots.length) = c.slots.take n := by
        rw [← List.take_take, List.take_length]
      simp only [Except.map, table, List.length_map, ← List.map_take, List.drop_replicate, hkept, htake,
        List.map_append, List.map_replicate]
      rfl
    · exact table_create c n
    · rfl
  | destroy =>
    show c.table.destroy = c.destroy.map Cache.table
    unfold Table.destroy destroy
    rw [isEnabled_table]
    split_ifs <;> rfl

theorem table_lookup (c : Cache) (id : BlockId) :
    c.table.lookup id = (c.lookup id).map fun (b, c') => (b, c'.table) := by
  unfold Table.lookup lookup
  rw [isEnabled_table, find?_table]
  split_ifs with henabled
  · have hq : Cache.find? { c with queries := c.queries + 1 } id = c.find? id := rfl
    cases hf : c.find? id with
    | none => simp [hq, hf, Except.map, table]
    | some v =>
      obtain ⟨i, e⟩ := v
      obtain ⟨hget, hid⟩ := findIn_eq_some hf
      simp only [hq, hf, Except.map, table, fill, Option.map_some]
      rw [map_set_eq_modify (f := fun cell => { cell with stamp := c.clock + 1 }) hget (by simp [Cell.ofSlot, hid])]
      simp [hget, Cell.ofSlot]
  · rfl

theorem table_update? (c : Cache) (id : BlockId) (block : Block) :
    c.table.update? id block = (c.update? id block).map Cache.table := by
  unfold Table.update? update?
  rw [isEnabled_table, find?_table]
  split_ifs with henabled
  · cases hf : c.find? id with
    | none => rfl
    | some v =>
      obtain ⟨i, e⟩ := v
      obtain ⟨hget, hid⟩ := findIn_eq_some hf
      simp only [Option.map_some, table, fill]
      rw [map_set_eq_modify (f := fun cell => { cell with data := block, stamp := c.clock + 1 }) hget
        (by simp [Cell.ofSlot, hid])]
  · have hf : c.find? id = none := by
      rw [find?, slots_eq_nil_of_not_enabled henabled]
      rfl
    rw [hf]
    rfl

theorem table_insert (c : Cache) (id : BlockId) (block : Block) :
    c.table.insert id block = (c.insert id block).map Cache.table := by
  unfold Table.insert insert
  rw [isEnabled_table, find?_table, ← nextSlot?_eq]
  split_ifs with henabled hheld
  · obtain ⟨v, hf⟩ := Option.isSome_iff_exists.1 (by simpa using hheld)
    simp [hf, Except.map]
  · have hf : c.find? id = none := by simpa using hheld
    cases hs : c.nextSlot? with
    | none => simp [hf, Except.map]
    | some i => simp [hf, Except.map, table, fill, List.map_set, Cell.ofSlot]
  · rfl

/-- A call gets the same answer from both caches, and they stay alike. -/
theorem table_call (c : Cache) (q : Call) : c.table.call q = ((c.call q).1, (c.call q).2.table) := by
  cases q with
  | capacity r =>
    simp only [Table.call, call, serve, Outcome.ofExcept, table_apply]
    cases c.apply r <;> rfl
  | block b =>
    cases b with
    | insert id block =>
      simp only [Table.call, call, callBlock, table_insert]
      cases c.insert id block <;> rfl
    | update id block =>
      simp only [Table.call, call, callBlock, table_update?]
      cases c.update? id block <;> rfl
    | lookup id =>
      simp only [Table.call, call, callBlock, table_lookup]
      cases c.lookup id <;> rfl

theorem table_foldl (c : Cache) (calls : List Call) :
    calls.foldl (fun t q => (t.call q).2) c.table = (calls.foldl (fun c q => (c.call q).2) c).table := by
  induction calls generalizing c with
  | nil => rfl
  | cons q rest ih => rw [List.foldl_cons, List.foldl_cons, table_call, ih]

/-! ### The invariant -/

theorem validCells_table (c : Cache) : c.table.validCells = c.entries.map fun e => Cell.ofSlot (some e) := by
  unfold Table.validCells table entries
  induction c.slots with
  | nil => rfl
  | cons slot rest ih =>
    cases slot with
    | none => simpa [Cell.ofSlot, Cell.empty] using ih
    | some e => simpa [Cell.ofSlot] using ih

theorem WellFormed.table (h : c.WellFormed) : c.table.Valid where
  capacity := by
    rw [cells_table, List.length_map]
    refine h.capacityOk.imp_left fun hnil => ?_
    rw [hnil, List.length_nil]
  front := by
    refine ⟨c.size, fun i cell hcell => ?_⟩
    rw [cells_table, List.getElem?_map, h.packed, Cache.packed,
      List.getElem?_append, List.length_map, length_entries] at hcell
    split_ifs at hcell with hi
    · rw [List.getElem?_map, Option.map_map] at hcell
      obtain ⟨e, -, rfl⟩ := Option.map_eq_some_iff.1 hcell
      exact iff_of_true rfl hi
    · obtain ⟨slot, hslot, rfl⟩ := Option.map_eq_some_iff.1 hcell
      obtain rfl := List.eq_of_mem_replicate (List.mem_of_getElem? hslot)
      exact iff_of_false (by decide) hi
  blank := by
    intro cell hcell hinvalid
    obtain ⟨slot, -, rfl⟩ := List.mem_map.1 hcell
    cases slot with
    | none => rfl
    | some e => exact absurd rfl hinvalid
  ids := by
    have hinj : Function.Injective fun id : BlockId => (id.disk, id.block) := by
      rintro ⟨_, _⟩ ⟨_, _⟩ heq
      simpa using heq
    have hids := h.ids.map hinj
    rw [List.map_map] at hids
    rw [validCells_table, List.map_map]
    exact hids
  stamps := by
    rw [validCells_table, List.map_map]
    exact h.stamps
  stamped := by
    rw [validCells_table]
    intro cell hcell
    obtain ⟨e, he, rfl⟩ := List.mem_map.1 hcell
    exact h.stamped e he
  hits_le_queries := h.hits_le_queries
  hits_le_clock := h.hits_le_clock
  idle := by
    intro hlen
    rw [cells_table, List.length_map] at hlen
    exact h.idle (List.eq_nil_of_length_eq_zero hlen)

/-- Whatever calls are made of a cache that was never in use, its slots laid out as records keep the invariant. -/
theorem valid_run (policy : EvictionPolicy) (calls : List Call) :
    Table.run policy calls = (run policy calls).table ∧ (Table.run policy calls).Valid := by
  have hrun : Table.run policy calls = (run policy calls).table := table_foldl (unused policy) calls
  refine ⟨hrun, ?_⟩
  rw [hrun]
  exact (WellFormed.run policy calls).table

end DiskArray.Cache
