import DiskArray.Proofs.Cache.Calls

/-!
# The block that leaves

The policy of a cache speaks of uses: the block used last leaves, or the one not used for the longest time. The
cache itself knows only the stamps in its slots. A `Lifetime` keeps, beside the cache, what was called since the cache
was taken into use and what was answered, so that the age of a block, the number of uses since its last one, can be
told without the stamps. The stamp of every block held and its age always add up to the clock (`Dated`).
-/

namespace DiskArray.Cache

/-- A cache and the calls of it since it was taken into use, the latest first. -/
structure Lifetime where
  cache : Cache
  history : List (Call × Answer) := []

namespace Lifetime

/-- Makes a call. One that finds the cache not in use starts its history anew. -/
def step (s : Lifetime) (q : Call) : Lifetime where
  cache := (s.cache.call q).2
  history := if s.cache.isEnabled then (q, (s.cache.call q).1) :: s.history else []

/-- A cache that was never in use, and then these calls. -/
def run (policy : EvictionPolicy) (calls : List Call) : Lifetime :=
  calls.foldl step { cache := unused policy }

/-- The blocks used, the latest first. -/
def uses (s : Lifetime) : List BlockId := s.history.filterMap fun (q, a) => q.used? a

/-- Number of uses since the last use of a block. -/
def age (s : Lifetime) (id : BlockId) : Nat := s.uses.idxOf id

/-- Whether `a` leaves rather than `b`, by their last uses. -/
def LeavesFirst (s : Lifetime) (policy : EvictionPolicy) (a b : BlockId) : Prop :=
  match policy with
  | .mostRecent => s.age a < s.age b
  | .leastRecent => s.age b < s.age a

/-- Of all blocks held, the one that the policy names. -/
def IsChoice (s : Lifetime) (policy : EvictionPolicy) (v : Entry) : Prop :=
  some v ∈ s.cache.slots ∧ ∀ e, some e ∈ s.cache.slots → e ≠ v → s.LeavesFirst policy v.id e.id

/-- The stamps tell the ages. -/
structure Dated (s : Lifetime) : Prop where
  wellFormed : s.cache.WellFormed
  used : ∀ e ∈ s.cache.entries, e.id ∈ s.uses
  clock : ∀ e ∈ s.cache.entries, e.stamp + s.age e.id = s.cache.clock

variable {s : Lifetime} {policy : EvictionPolicy} {id other : BlockId} {block : Block} {e f v : Entry} {q : Call}

theorem uses_step (henabled : s.cache.isEnabled) :
    (s.step q).uses = (q.used? (s.cache.call q).1).toList ++ s.uses := by
  unfold uses step
  simp only [if_pos henabled, List.filterMap_cons]
  cases q.used? (s.cache.call q).1 <;> rfl

theorem age_step_self (h : (s.step q).uses = id :: s.uses) : (s.step q).age id = 0 := by
  rw [age, h, List.idxOf_cons_self]

theorem age_step_of_ne (h : (s.step q).uses = id :: s.uses) (hne : other ≠ id) :
    (s.step q).age other = s.age other + 1 := by
  rw [age, h, List.idxOf_cons_ne _ hne.symm]
  rfl

theorem IsChoice.unique (hv : s.IsChoice policy v) (he : s.IsChoice policy e) : e = v := by
  by_contra hne
  have hve := hv.2 e he.1 hne
  have hev := he.2 v hv.1 (Ne.symm hne)
  cases policy <;> exact Nat.lt_asymm hve hev

/-! ### Stamps and ages -/

namespace Dated

theorem of_nil (hwell : s.cache.WellFormed) (hnil : s.cache.entries = []) : s.Dated := by
  refine ⟨hwell, ?_, ?_⟩
  all_goals
    intro e he
    rw [hnil] at he
    exact absurd he List.not_mem_nil

theorem of_uses (h : s.Dated) (huse : s.cache.Uses id (s.step q).cache) (huses : (s.step q).uses = id :: s.uses) :
    (s.step q).Dated := by
  obtain ⟨block, hmem⟩ := huse.mem_entries
  have hclock : (s.step q).cache.clock = s.cache.clock + 1 := huse.clock
  have hcases : ∀ e ∈ (s.step q).cache.entries,
      e = ⟨id, block, s.cache.clock + 1⟩ ∨ e ∈ s.cache.entries ∧ e.id ≠ id := by
    intro e he
    exact mem_entries_of_mem_keep h.wellFormed ((hmem e).1 he)
  refine ⟨h.wellFormed.call q, ?_, ?_⟩
  · intro e he
    rw [huses]
    rcases hcases e he with rfl | ⟨hold, -⟩
    · exact List.mem_cons_self
    · exact List.mem_cons_of_mem _ (h.used e hold)
  · intro e he
    rcases hcases e he with rfl | ⟨hold, hne⟩
    · rw [age_step_self huses, hclock]
    · have hage := h.clock e hold
      rw [age_step_of_ne huses hne, hclock]
      omega

theorem of_trims (h : s.Dated) (htrims : s.cache.Trims (s.step q).cache) (huses : (s.step q).uses = s.uses) :
    (s.step q).Dated := by
  refine ⟨h.wellFormed.call q, ?_, ?_⟩
  · intro e he
    rw [huses]
    exact h.used e (htrims.entries he)
  · intro e he
    rw [age, huses, htrims.clock (List.ne_nil_of_mem he)]
    exact h.clock e (htrims.entries he)

theorem step (h : s.Dated) (q : Call) : (s.step q).Dated := by
  by_cases henabled : s.cache.isEnabled
  · have huses := uses_step (q := q) henabled
    rcases h.wellFormed.call_cases q with ⟨id, hused, huse⟩ | ⟨hused, htrims⟩
    · rw [hused] at huses
      exact h.of_uses huse huses
    · rw [hused] at huses
      exact h.of_trims htrims huses
  · exact of_nil (h.wellFormed.call q) (h.wellFormed.entries_call_of_not_enabled henabled q)

theorem foldl (h : s.Dated) (calls : List Call) :
    (calls.foldl Lifetime.step s).Dated ∧ (calls.foldl Lifetime.step s).cache.policy = s.cache.policy := by
  induction calls generalizing s with
  | nil => exact ⟨h, rfl⟩
  | cons q rest ih =>
    obtain ⟨hdated, hpolicy⟩ := ih (h.step q)
    exact ⟨hdated, hpolicy.trans (h.wellFormed.policy_call q)⟩

theorem run (policy : EvictionPolicy) (calls : List Call) :
    (run policy calls).Dated ∧ (run policy calls).cache.policy = policy :=
  foldl (of_nil (WellFormed.unused policy) rfl) calls

theorem prefers_iff (h : s.Dated) (he : e ∈ s.cache.entries) (hf : f ∈ s.cache.entries) :
    policy.prefers e.stamp f.stamp ↔ s.LeavesFirst policy e.id f.id := by
  have hage := h.clock e he
  have hage' := h.clock f hf
  cases policy <;> simp only [EvictionPolicy.prefers, decide_eq_true_eq, LeavesFirst] <;> omega

theorem evicted?_eq_some_iff (h : s.Dated) (hholds : ¬ s.cache.holds id) (hfull : s.cache.size = s.cache.capacity) :
    s.cache.evicted? id = some v ↔ s.IsChoice s.cache.policy v := by
  rw [h.wellFormed.evicted?_eq_some_iff, IsChoice]
  simp only [← mem_entries, hholds, hfull, not_false_eq_true, true_and, Bool.false_eq_true]
  refine and_congr_right fun hv => forall_congr' fun e => ?_
  constructor
  · intro hbest he hne
    exact (h.prefers_iff hv he).1 (hbest he hne)
  · intro hbest he hne
    exact (h.prefers_iff hv he).2 (hbest he hne)

end Dated

/-! ### Putting a block in -/

/-- After any calls, putting in a block that is not held makes one block leave if no slot is empty: the one used last,
or the one not used for the longest time, by what was called since the cache was taken into use. There is always
exactly one such block. Nothing leaves as long as a slot is empty. -/
theorem insert_evicts_choice (policy : EvictionPolicy) (calls : List Call) (id : BlockId) (block : Block) :
    let s := run policy calls
    let after := s.cache.call (.block (.insert id block))
    (∀ e, some e ∈ s.cache.slots → e.id ∈ s.uses) ∧
      (none ∈ s.cache.slots → ∀ e, some e ∈ s.cache.slots → some e ∈ after.2.slots) ∧
      (s.cache.isEnabled → none ∉ s.cache.slots → (∀ e, some e ∈ s.cache.slots → e.id ≠ id) →
        after.1 = .done (.ok ()) ∧ (∃! v, s.IsChoice policy v) ∧
          ∀ v, s.IsChoice policy v → ∀ e, some e ∈ after.2.slots ↔
            e = ⟨id, block, s.cache.clock + 1⟩ ∨ some e ∈ s.cache.slots ∧ e ≠ v) := by
  intro s after
  obtain ⟨hdated, hpolicy⟩ : s.Dated ∧ s.cache.policy = policy := Dated.run policy calls
  have hwell := hdated.wellFormed
  refine ⟨?_, ?_, ?_⟩
  · intro e he
    exact hdated.used e (mem_entries.2 he)
  · intro hnone e he
    have hnotFull : s.cache.size ≠ s.cache.capacity := fun hfull => none_notMem_slots_iff.2 hfull hnone
    exact mem_entries.1 (hwell.mem_entries_call_insert hnotFull (mem_entries.2 he))
  · intro henabled hnone hid
    have hfull := none_notMem_slots_iff.1 hnone
    have hfind : s.cache.find? id = none := find?_eq_none.2 fun e he => hid e (mem_entries.1 he)
    have hholds : ¬ s.cache.holds id := by simp [holds, hfind]
    have hafter : after = (.done (.ok ()), s.cache.keep id block) := hwell.call_insert henabled hfind block
    have hchoice : ∀ v, s.cache.evicted? id = some v ↔ s.IsChoice policy v := by
      intro v
      rw [hdated.evicted?_eq_some_iff hholds hfull, hpolicy]
    refine ⟨by rw [hafter], ?_, ?_⟩
    · obtain ⟨v, hv⟩ := hwell.evicted?_isSome henabled hfind hfull
      exact ⟨v, (hchoice v).1 hv, fun e he => ((hchoice v).1 hv).unique he⟩
    · intro v hv e
      rw [hafter, ← mem_entries, hwell.mem_entries_keep henabled, (hchoice v).2 hv, ← mem_entries]
      refine or_congr_right (and_congr_right fun he => ?_)
      have hne := hid e (mem_entries.1 he)
      simp [hne, eq_comm]

/-- A full cache of two blocks whose older one was looked up: the other one leaves. -/
theorem insert_evicts_choice_of_lookup :
    let s := run .leastRecent [.capacity (.create 2), .block (.insert ⟨0, 0⟩ .zero), .block (.insert ⟨0, 1⟩ .zero),
      .block (.lookup ⟨0, 0⟩)]
    let after := s.cache.call (.block (.insert ⟨0, 2⟩ .zero))
    s.uses = [⟨0, 0⟩, ⟨0, 1⟩, ⟨0, 0⟩] ∧ none ∉ s.cache.slots ∧ s.IsChoice .leastRecent ⟨⟨0, 1⟩, .zero, 2⟩ ∧
      some ⟨⟨0, 1⟩, .zero, 2⟩ ∉ after.2.slots := by
  intro s after
  have hslots : s.cache.slots = [some ⟨⟨0, 0⟩, .zero, 3⟩, some ⟨⟨0, 1⟩, .zero, 2⟩] := rfl
  have huses : s.uses = [⟨0, 0⟩, ⟨0, 1⟩, ⟨0, 0⟩] := rfl
  have hnone : none ∉ s.cache.slots := by simp [hslots]
  have hchoice : s.IsChoice .leastRecent ⟨⟨0, 1⟩, .zero, 2⟩ := by
    refine ⟨by simp [hslots], fun e he hne => ?_⟩
    obtain rfl : e = ⟨⟨0, 0⟩, .zero, 3⟩ := by simpa [hslots, hne] using he
    simp only [LeavesFirst, age, huses]
    decide
  have hid : ∀ e, some e ∈ s.cache.slots → e.id ≠ ⟨0, 2⟩ := by
    intro e he
    rcases (by simpa [hslots] using he) with rfl | rfl <;> decide
  obtain ⟨-, -, hfull⟩ := insert_evicts_choice .leastRecent _ ⟨0, 2⟩ .zero
  obtain ⟨-, -, hleaves⟩ := hfull rfl hnone hid
  refine ⟨huses, hnone, hchoice, fun hmem => ?_⟩
  rcases (hleaves _ hchoice _).1 hmem with heq | ⟨-, hne⟩
  · exact absurd (congrArg Entry.id heq) (by decide)
  · exact hne rfl

end Lifetime

end DiskArray.Cache
