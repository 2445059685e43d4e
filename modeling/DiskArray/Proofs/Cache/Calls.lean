import DiskArray.Proofs.Cache.Operations

/-!
# Calls of the cache

Every call of the cache with its answer (`Cache.call`). A call that succeeds on a block uses it
(`Call.used?`): a block was put in, overwritten or found. For a well-formed cache all of them come to two cases,
told apart by the answer alone: a use keeps the block (`Uses`), and any other call for a block leaves all blocks and
their stamps as they are (`Spares`).
-/

namespace DiskArray.Cache

/-- A call for one block. -/
inductive BlockCall where
  | insert (id : BlockId) (block : Block)
  | update (id : BlockId) (block : Block)
  | lookup (id : BlockId)

inductive Call where
  | capacity (r : Request)
  | block (b : BlockCall)

/-- What a call gives back. -/
inductive Answer where
  | done (result : Except CacheError Unit)
  | updated (found : Bool)
  | found (result : Except CacheError (Option Block))

/-- Makes a call for a block. A call that fails leaves the cache as it was. -/
def callBlock (c : Cache) : BlockCall → Answer × Cache
  | .insert id block =>
    match c.insert id block with
    | .ok c' => (.done (.ok ()), c')
    | .error e => (.done (.error e), c)
  | .update id block =>
    match c.update? id block with
    | some c' => (.updated true, c')
    | none => (.updated false, c)
  | .lookup id =>
    match c.lookup id with
    | .ok (b, c') => (.found (.ok b), c')
    | .error e => (.found (.error e), c)

def call (c : Cache) : Call → Answer × Cache
  | .capacity r => (.done (c.serve r).result, (c.serve r).state)
  | .block b => c.callBlock b

/-- A cache that was never in use, and then these calls. -/
def run (policy : EvictionPolicy) (calls : List Call) : Cache := calls.foldl (fun c q => (c.call q).2) (unused policy)

/-- The block that a call used, told by its answer. -/
def Call.used? : Call → Answer → Option BlockId
  | .block (.insert id _), .done (.ok _) => some id
  | .block (.update id _), .updated true => some id
  | .block (.lookup id), .found (.ok (some _)) => some id
  | _, _ => none

variable {c c' : Cache} {id : BlockId} {block : Block} {e : Entry} {n : Nat} {r : Request}

/-- The cache after a use: it holds what is left once the block was kept. -/
structure Uses (c : Cache) (id : BlockId) (c' : Cache) : Prop where
  enabled : c.isEnabled
  mem_entries : ∃ block, ∀ e, e ∈ c'.entries ↔ e ∈ (c.keep id block).entries
  clock : c'.clock = c.clock + 1
  policy : c'.policy = c.policy
  capacity : c'.capacity = c.capacity

/-- The cache after a call that used no block. -/
structure Spares (c c' : Cache) : Prop where
  entries : c'.entries = c.entries
  clock : c'.clock = c.clock
  policy : c'.policy = c.policy
  capacity : c'.capacity = c.capacity

/-- The cache after a change of its capacity, or any other call that adds no block. -/
structure Trims (c c' : Cache) : Prop where
  policy : c'.policy = c.policy
  entries : c'.entries ⊆ c.entries
  clock : c'.entries ≠ [] → c'.clock = c.clock

theorem Spares.refl (c : Cache) : c.Spares c := ⟨rfl, rfl, rfl, rfl⟩

theorem Spares.trims (h : c.Spares c') : c.Trims c' :=
  ⟨h.policy, fun _ he => h.entries ▸ he, fun _ => h.clock⟩

namespace WellFormed

theorem uses_keep (h : c.WellFormed) (henabled : c.isEnabled) (id : BlockId) (block : Block) :
    c.Uses id (c.keep id block) :=
  ⟨henabled, ⟨block, fun _ => Iff.rfl⟩, h.clock_keep henabled, policy_keep, capacity_keep⟩

theorem uses_access (h : c.WellFormed) (henabled : c.isEnabled) (id : BlockId) (block : Block) :
    c.Uses id (c.access id block) := by
  have hkeep := h.uses_keep henabled id block
  refine ⟨henabled, ⟨block, fun e => mem_entries_access⟩, ?_, ?_, ?_⟩
  all_goals rw [Cache.access, if_pos henabled]
  · exact hkeep.clock
  · exact hkeep.policy
  · exact hkeep.capacity

theorem insert_eq (h : c.WellFormed) (henabled : c.isEnabled) (hid : c.find? id = none) (block : Block) :
    c.insert id block = .ok (c.keep id block) := by
  obtain ⟨i, hs⟩ : ∃ i, c.slotFor? id = some i := h.slotFor?_isSome henabled
  have hnext : c.nextSlot? = some i := by simpa [slotFor?, hid] using hs
  simp [insert, Cache.keep, henabled, hid, hnext, hs]

theorem call_insert (h : c.WellFormed) (henabled : c.isEnabled) (hid : c.find? id = none) (block : Block) :
    c.call (.block (.insert id block)) = (.done (.ok ()), c.keep id block) := by
  simp only [Cache.call, Cache.callBlock, h.insert_eq henabled hid block]

theorem mem_entries_call_insert (h : c.WellFormed) (hnotFull : c.size ≠ c.capacity) (he : e ∈ c.entries) :
    e ∈ (c.call (.block (.insert id block))).2.entries := by
  have henabled : c.isEnabled := by
    by_contra hnot
    rw [entries, slots_eq_nil_of_not_enabled hnot] at he
    exact absurd he List.not_mem_nil
  cases hf : c.find? id with
  | some found =>
    have hsame : (c.call (.block (.insert id block))).2 = c := by
      simp [Cache.call, Cache.callBlock, insert, henabled, hf]
    rwa [hsame]
  | none =>
    rw [h.call_insert henabled hf block, h.mem_entries_keep henabled, h.evicted?_eq_none (Or.inr hnotFull)]
    exact Or.inr ⟨he, find?_eq_none.1 hf e he, fun hevicted => by cases hevicted⟩

theorem callBlock (h : c.WellFormed) (b : BlockCall) : (c.callBlock b).2.WellFormed := by
  cases b with
  | insert id block =>
    simp only [Cache.callBlock]
    split
    · rename_i c' hc
      exact insert_eq_ok hc ▸ h.keep
    · exact h
  | update id block =>
    simp only [Cache.callBlock]
    split
    · rename_i c' hc
      exact update?_eq_some hc ▸ h.keep
    · exact h
  | lookup id =>
    simp only [Cache.callBlock]
    split
    · rename_i b c' hc
      exact h.lookup hc
    · exact h

theorem call (h : c.WellFormed) (q : Call) : (c.call q).2.WellFormed := by
  cases q with
  | block b => exact h.callBlock b
  | capacity r =>
    show (c.serve r).state.WellFormed
    unfold serve Outcome.ofExcept
    cases hr : c.apply r with
    | ok c' => exact (h.apply hr).1
    | error e => exact h

theorem foldl (h : c.WellFormed) (calls : List Call) : (calls.foldl (fun c q => (c.call q).2) c).WellFormed := by
  induction calls generalizing c with
  | nil => exact h
  | cons q rest ih => exact ih (h.call q)

theorem run (policy : EvictionPolicy) (calls : List Call) : (run policy calls).WellFormed :=
  (WellFormed.unused policy).foldl calls

theorem block_cases (h : c.WellFormed) (b : BlockCall) :
    (∃ id, (Call.block b).used? (c.call (.block b)).1 = some id ∧ c.Uses id (c.call (.block b)).2) ∨
      (Call.block b).used? (c.call (.block b)).1 = none ∧ c.Spares (c.call (.block b)).2 := by
  cases b with
  | insert id block =>
    simp only [Cache.call, Cache.callBlock]
    cases hc : c.insert id block with
    | ok c' =>
      obtain rfl := insert_eq_ok hc
      have henabled : c.isEnabled := by
        by_contra hnot
        simp [insert, hnot] at hc
      exact Or.inl ⟨id, rfl, h.uses_keep henabled id block⟩
    | error e => exact Or.inr ⟨rfl, .refl c⟩
  | update id block =>
    simp only [Cache.call, Cache.callBlock]
    cases hc : c.update? id block with
    | some c' =>
      obtain rfl := update?_eq_some hc
      obtain ⟨v, hf, -⟩ := Option.map_eq_some_iff.1 hc
      exact Or.inl ⟨id, rfl, h.uses_keep (isEnabled_of_find? hf) id block⟩
    | none => exact Or.inr ⟨rfl, .refl c⟩
  | lookup id =>
    simp only [Cache.call, Cache.callBlock]
    by_cases henabled : c.isEnabled
    · cases hf : c.find? id with
      | some v =>
        rw [lookup_of_find? hf]
        exact Or.inl ⟨id, rfl, h.uses_access henabled id _⟩
      | none =>
        rw [lookup_of_find?_eq_none henabled hf]
        exact Or.inr ⟨rfl, rfl, rfl, rfl, rfl⟩
    · rw [lookup_of_not_enabled henabled]
      exact Or.inr ⟨rfl, .refl c⟩

theorem trims_create (h : c.WellFormed) (hc : c.create n = .ok c') : c.Trims c' := by
  have hnil : c'.entries = [] := (h.create hc).2
  unfold Cache.create at hc
  split_ifs at hc
  cases hc
  exact ⟨rfl, hnil ▸ List.nil_subset _, fun hne => absurd hnil hne⟩

theorem trims_apply (h : c.WellFormed) (hr : c.apply r = .ok c') : c.Trims c' := by
  have hsub : c'.entries ⊆ c.entries := (h.apply hr).2
  cases r with
  | create n => exact h.trims_create hr
  | resize n =>
    have hr : c.resize n = .ok c' := hr
    unfold Cache.resize at hr
    split_ifs at hr with hn henabled
    · cases hr
      exact ⟨rfl, hsub, fun _ => rfl⟩
    · exact h.trims_create hr
  | destroy =>
    have hr : c.destroy = .ok c' := hr
    unfold Cache.destroy at hr
    split_ifs at hr
    cases hr
    exact ⟨rfl, hsub, fun hne => absurd rfl hne⟩

theorem call_cases (h : c.WellFormed) (q : Call) :
    (∃ id, q.used? (c.call q).1 = some id ∧ c.Uses id (c.call q).2) ∨
      q.used? (c.call q).1 = none ∧ c.Trims (c.call q).2 := by
  cases q with
  | capacity r =>
    refine Or.inr ⟨rfl, ?_⟩
    show c.Trims (c.serve r).state
    unfold serve Outcome.ofExcept
    cases hr : c.apply r with
    | ok c' => exact h.trims_apply hr
    | error e => exact (Spares.refl c).trims
  | block b => exact (h.block_cases b).imp_right fun hspares => hspares.imp_right Spares.trims

theorem entries_call_of_not_enabled (h : c.WellFormed) (hfree : ¬ c.isEnabled) (q : Call) :
    (c.call q).2.entries = [] := by
  rcases h.call_cases q with ⟨_, -, huses⟩ | ⟨-, htrims⟩
  · exact absurd huses.enabled hfree
  · have hempty : c.entries = [] := by
      rw [entries, slots_eq_nil_of_not_enabled hfree]
      rfl
    exact List.subset_nil.1 (hempty ▸ htrims.entries)

theorem policy_call (h : c.WellFormed) (q : Call) : (c.call q).2.policy = c.policy := by
  rcases h.call_cases q with ⟨_, -, huses⟩ | ⟨-, htrims⟩
  · exact huses.policy
  · exact htrims.policy

theorem policy_foldl (h : c.WellFormed) (calls : List Call) :
    (calls.foldl (fun c q => (c.call q).2) c).policy = c.policy := by
  induction calls generalizing c with
  | nil => rfl
  | cons q rest ih => exact (ih (h.call q)).trans (h.policy_call q)

end WellFormed

theorem policy_run (policy : EvictionPolicy) (calls : List Call) : (run policy calls).policy = policy :=
  (WellFormed.unused policy).policy_foldl calls

theorem inserted_or_holds {b : BlockCall} (hused : (Call.block b).used? (c.call (.block b)).1 = some id) :
    (∃ block, b = .insert id block ∧ (c.call (.block b)).1 = .done (.ok ())) ∨ c.holds id := by
  cases b with
  | insert other block =>
    simp only [call, callBlock] at hused ⊢
    cases hc : c.insert other block with
    | ok c' =>
      rw [hc] at hused
      obtain rfl : other = id := Option.some.inj hused
      exact Or.inl ⟨block, rfl, rfl⟩
    | error e => simp [hc, Call.used?] at hused
  | update other block =>
    simp only [call, callBlock] at hused
    cases hc : c.update? other block with
    | some c' =>
      rw [hc] at hused
      obtain rfl : other = id := Option.some.inj hused
      obtain ⟨v, hf, -⟩ := Option.map_eq_some_iff.1 hc
      exact Or.inr (by simp [holds, hf])
    | none => simp [hc, Call.used?] at hused
  | lookup other =>
    simp only [call, callBlock] at hused
    cases hf : c.find? other with
    | some v =>
      rw [lookup_of_find? hf] at hused
      obtain rfl : other = id := Option.some.inj hused
      exact Or.inr (by simp [holds, hf])
    | none =>
      by_cases henabled : c.isEnabled
      · simp [lookup_of_find?_eq_none henabled hf, Call.used?] at hused
      · simp [lookup_of_not_enabled henabled, Call.used?] at hused

end DiskArray.Cache
