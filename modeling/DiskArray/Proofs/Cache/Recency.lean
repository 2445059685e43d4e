import DiskArray.Proofs.Cache.LastUse

/-!
# Least recently used

A cache of `n` slots that lets go of the block not used for the longest time holds the `n` blocks used last. The blocks
used, each once and the one used last first, form a list (`Lifetime.recent`); a use moves its block to the front, and
the cache holds the first `n` of the list. The block that leaves is the last of these.
-/

namespace DiskArray.Cache

/-! ### First occurrences -/

section Lists

variable {α : Type} [DecidableEq α] {a b : α} {l : List α} {n : Nat}

theorem eraseDups_filter (p : α → Bool) (l : List α) : (l.filter p).eraseDups = l.eraseDups.filter p := by
  cases l with
  | nil => rfl
  | cons a l =>
    have ih := eraseDups_filter p (l.filter fun b => !b == a)
    rw [List.eraseDups_cons]
    by_cases ha : p a
    · rw [List.filter_cons_of_pos ha, List.filter_cons_of_pos ha, List.eraseDups_cons, ← ih, List.filter_comm]
    · rw [List.filter_cons_of_neg ha, List.filter_cons_of_neg ha, ← ih, List.filter_filter]
      congr 1
      refine List.filter_congr fun b _ => ?_
      by_cases hb : b = a
      · simp [hb, ha]
      · simp [hb]
termination_by l.length
decreasing_by exact Nat.lt_succ_of_le (List.length_filter_le _ _)

theorem nodup_eraseDups (l : List α) : l.eraseDups.Nodup := by
  induction l with
  | nil => exact List.nodup_nil
  | cons a l ih =>
    rw [List.eraseDups_cons, eraseDups_filter, List.nodup_cons]
    exact ⟨by simp, ih.filter _⟩

theorem eraseDups_cons_eq_erase (a : α) (l : List α) : (a :: l).eraseDups = a :: l.eraseDups.erase a := by
  rw [List.eraseDups_cons, eraseDups_filter, (nodup_eraseDups l).erase_eq_filter]
  rfl

theorem pairwise_eraseDups (l : List α) : l.eraseDups.Pairwise fun a b => l.idxOf a < l.idxOf b := by
  induction l with
  | nil => exact List.Pairwise.nil
  | cons a l ih =>
    rw [eraseDups_cons_eq_erase, List.pairwise_cons]
    have hne : ∀ b ∈ l.eraseDups.erase a, b ≠ a := by
      intro b hb
      exact ((nodup_eraseDups l).mem_erase_iff.1 hb).1
    refine ⟨?_, ?_⟩
    · intro b hb
      rw [List.idxOf_cons_self, List.idxOf_cons_ne _ (hne b hb).symm]
      exact Nat.succ_pos _
    · refine (ih.sublist List.erase_sublist).imp_of_mem fun {b c} hb hc hlt => ?_
      rw [List.idxOf_cons_ne _ (hne b hb).symm, List.idxOf_cons_ne _ (hne c hc).symm]
      omega

theorem mem_take_eraseDups (ha : a ∈ l) :
    a ∈ l.eraseDups.take n ↔ (l.takeWhile (· ≠ a)).eraseDups.length < n := by
  obtain ⟨before, after, rfl, hbefore⟩ := List.eq_append_cons_of_mem ha
  have htake : (before ++ a :: after).takeWhile (· ≠ a) = before := by
    rw [List.takeWhile_append_of_pos, List.takeWhile_cons_of_neg] <;> simp
    rintro b hb rfl
    exact hbefore hb
  have hidx : (before ++ a :: after).eraseDups.idxOf a = before.eraseDups.length := by
    rw [List.eraseDups_append, List.idxOf_append_of_notMem (by simpa using hbefore)]
    simp [List.removeAll, hbefore, List.eraseDups_cons]
  rw [List.mem_take_iff_idxOf_lt (by simp), hidx, htake]

theorem take_erase_of_mem (ha : a ∈ l.take (n + 1)) : (l.erase a).take n = (l.take (n + 1)).erase a := by
  have hlen := List.length_erase_of_mem ha
  rw [List.length_take] at hlen
  conv_lhs => rw [← List.take_append_drop (n + 1) l]
  rw [List.erase_append_left _ ha]
  rcases Nat.lt_or_ge n l.length with hlt | hge
  · exact List.take_left' (by omega)
  · rw [List.drop_eq_nil_of_le (by omega), List.append_nil]
    exact List.take_of_length_le (by omega)

theorem take_erase_of_notMem (ha : a ∉ l.take n) : (l.erase a).take n = l.take n := by
  rcases Nat.lt_or_ge l.length n with hlt | hge
  · rw [List.take_of_length_le (by omega)] at ha
    rw [List.erase_of_not_mem ha]
  · conv_lhs => rw [← List.take_append_drop n l]
    rw [List.erase_append_right _ ha]
    exact List.take_left' (List.length_take_of_le hge)

end Lists

/-! ### The blocks held -/

variable {c c' : Cache} {id other : BlockId} {n : Nat}

theorem found_iff (henabled : c.isEnabled) :
    (∃ b, (c.call (.block (.lookup id))).1 = .found (.ok (some b))) ↔ c.holds id := by
  cases hf : c.find? id with
  | some v => simp [call, callBlock, lookup_of_find? hf, holds, hf]
  | none => simp [call, callBlock, lookup_of_find?_eq_none henabled hf, holds, hf]

theorem WellFormed.holds_of_uses (h : c.WellFormed) (huse : c.Uses id c') :
    c'.holds other ↔ other = id ∨ other ≠ id ∧ ∃ e ∈ c.entries, e.id = other ∧ c.evicted? id ≠ some e := by
  obtain ⟨block, hmem⟩ := huse.mem_entries
  rw [holds_iff]
  simp only [hmem, h.mem_entries_keep huse.enabled]
  constructor
  · rintro ⟨e, rfl | ⟨he, hne, hev⟩, rfl⟩
    · exact Or.inl rfl
    · exact Or.inr ⟨hne, e, he, rfl, hev⟩
  · rintro (rfl | ⟨hne, e, he, rfl, hev⟩)
    · exact ⟨_, Or.inl rfl, rfl⟩
    · exact ⟨e, Or.inr ⟨he, hne, hev⟩, rfl⟩

namespace Lifetime

variable {s : Lifetime} {e v : Entry}

/-- The blocks used, each once, the one used last first. -/
def recent (s : Lifetime) : List BlockId := s.uses.eraseDups

theorem nodup_recent (s : Lifetime) : s.recent.Nodup := nodup_eraseDups _

/-- A cache of this capacity that holds the blocks used last. -/
structure HoldsRecent (n : Nat) (s : Lifetime) : Prop where
  dated : s.Dated
  policy : s.cache.policy = .leastRecent
  capacity : s.cache.capacity = n
  holds_iff : ∀ id, s.cache.holds id ↔ id ∈ s.recent.take n
  inserted : ∀ id ∈ s.uses, ∃ block, (.block (.insert id block), .done (.ok ())) ∈ s.history

namespace HoldsRecent

theorem size_eq (h : s.HoldsRecent n) : s.cache.size = min n s.recent.length := by
  have hperm : (s.cache.entries.map Entry.id).Perm (s.recent.take n) := by
    rw [List.perm_ext_iff_of_nodup h.dated.wellFormed.ids s.nodup_recent.take]
    intro id
    rw [← h.holds_iff, Cache.holds_iff, List.mem_map]
  rw [← length_entries, ← List.length_take, ← hperm.length_eq, List.length_map]

theorem isEnabled (h : s.HoldsRecent (n + 1)) : s.cache.isEnabled :=
  isEnabled_iff.2 (h.capacity ▸ Nat.succ_pos n)

theorem id_of_evicted? (h : s.HoldsRecent (n + 1)) (hlen : n < s.recent.length) (hv : s.cache.evicted? id = some v) :
    v.id = s.recent[n] := by
  obtain ⟨hholds, hfull, -⟩ := h.dated.wellFormed.evicted?_eq_some_iff.1 hv
  have hchoice := (h.dated.evicted?_eq_some_iff hholds hfull).1 hv
  rw [h.policy] at hchoice
  have htake : s.recent.take (n + 1) = s.recent.take n ++ [s.recent[n]] := List.take_succ_eq_append_getElem hlen
  obtain ⟨e, he, hid⟩ : ∃ e ∈ s.cache.entries, e.id = s.recent[n] := by
    rw [← Cache.holds_iff, h.holds_iff, htake]
    exact List.mem_append_right _ List.mem_cons_self
  by_cases heq : e = v
  · rw [← heq, hid]
  · have hlater : s.age e.id < s.age v.id := hchoice.2 e (mem_entries.1 he) heq
    have hmem : v.id ∈ s.recent.take (n + 1) := by
      rw [← h.holds_iff, Cache.holds_iff]
      exact ⟨v, mem_entries.2 hchoice.1, rfl⟩
    rw [htake] at hmem
    rcases List.mem_append.1 hmem with hmem | hmem
    · -- it would come before the last one, and so be the younger of the two
      have hsorted := (pairwise_eraseDups s.uses).sublist (List.take_sublist (n + 1) s.recent)
      rw [htake, List.pairwise_append] at hsorted
      have hlt := hsorted.2.2 v.id hmem s.recent[n] List.mem_cons_self
      rw [← hid] at hlt
      exact absurd hlater (Nat.lt_asymm hlt)
    · exact List.mem_singleton.1 hmem

theorem stays_iff_of_full (h : s.HoldsRecent (n + 1)) (hid : ¬ s.cache.holds id)
    (hfull : s.cache.size = s.cache.capacity) :
    (∃ e ∈ s.cache.entries, e.id = other ∧ s.cache.evicted? id ≠ some e) ↔ other ∈ s.recent.take n := by
  have hwell := h.dated.wellFormed
  have hlen : n < s.recent.length := by
    have hsize := h.size_eq
    have hcapacity := h.capacity
    omega
  have hfind : s.cache.find? id = none := by simpa [holds] using hid
  obtain ⟨v, hv⟩ := hwell.evicted?_isSome h.isEnabled hfind hfull
  have hlast : v.id = s.recent[n] := h.id_of_evicted? hlen hv
  have htake : s.recent.take (n + 1) = s.recent.take n ++ [s.recent[n]] := List.take_succ_eq_append_getElem hlen
  have hnotMem : s.recent[n] ∉ s.recent.take n := by
    have hnodup : (s.recent.take (n + 1)).Nodup := s.nodup_recent.take
    rw [htake, List.nodup_append] at hnodup
    intro hmem
    exact hnodup.2.2 _ hmem _ List.mem_cons_self rfl
  constructor
  · rintro ⟨e, he, rfl, hstays⟩
    have hmem : e.id ∈ s.recent.take (n + 1) := (h.holds_iff _).1 (Cache.holds_iff.2 ⟨e, he, rfl⟩)
    rw [htake] at hmem
    refine (List.mem_append.1 hmem).resolve_right fun hid => hstays ?_
    have hv' : v ∈ s.cache.entries := (hwell.evicted?_eq_some_iff.1 hv).2.2.1
    rw [hv, hwell.eq_of_id_eq hv' he (hlast.trans (List.mem_singleton.1 hid).symm)]
  · intro hmem
    have hholds : s.cache.holds other := (h.holds_iff _).2 (htake ▸ List.mem_append_left _ hmem)
    obtain ⟨e, he, rfl⟩ := Cache.holds_iff.1 hholds
    refine ⟨e, he, rfl, fun hev => hnotMem ?_⟩
    rwa [← hlast, Option.some.inj (hv.symm.trans hev)]

theorem stays_iff (h : s.HoldsRecent (n + 1)) :
    (other ≠ id ∧ ∃ e ∈ s.cache.entries, e.id = other ∧ s.cache.evicted? id ≠ some e) ↔
      other ∈ (s.recent.erase id).take n := by
  have hwell := h.dated.wellFormed
  have hall (hroom : s.cache.holds id ∨ s.cache.size ≠ s.cache.capacity) :
      (∃ e ∈ s.cache.entries, e.id = other ∧ s.cache.evicted? id ≠ some e) ↔ other ∈ s.recent.take (n + 1) := by
    rw [hwell.evicted?_eq_none hroom, ← h.holds_iff, Cache.holds_iff]
    simp
  by_cases hid : s.cache.holds id
  · rw [hall (Or.inl hid), take_erase_of_mem ((h.holds_iff id).1 hid), List.Nodup.mem_erase_iff s.nodup_recent.take]
  · have hne (hother : ∃ e ∈ s.cache.entries, e.id = other ∧ s.cache.evicted? id ≠ some e) : other ≠ id := by
      rintro rfl
      obtain ⟨e, he, hid', -⟩ := hother
      exact hid (Cache.holds_iff.2 ⟨e, he, hid'⟩)
    have hnot : id ∉ s.recent.take n := by
      intro hmem
      exact hid ((h.holds_iff id).2 (List.take_subset_take_left _ (Nat.le_succ n) hmem))
    rw [take_erase_of_notMem hnot, and_iff_right_of_imp hne]
    by_cases hfull : s.cache.size = s.cache.capacity
    · exact h.stays_iff_of_full hid hfull
    · -- the list is shorter than the row of slots
      have hsize := h.size_eq
      have hcapacity := h.capacity
      rw [hall (Or.inr hfull), List.take_of_length_le (by omega), List.take_of_length_le (by omega)]

theorem history_step (h : s.HoldsRecent (n + 1)) (b : BlockCall) :
    (s.step (.block b)).history = (.block b, (s.cache.call (.block b)).1) :: s.history :=
  if_pos h.isEnabled

theorem step (h : s.HoldsRecent (n + 1)) (b : BlockCall) : (s.step (.block b)).HoldsRecent (n + 1) := by
  have hwell := h.dated.wellFormed
  have huses := uses_step (q := .block b) h.isEnabled
  have hhistory := h.history_step b
  have hinserted : ∀ id ∈ s.uses, ∃ block, (.block (.insert id block), .done (.ok ())) ∈ (s.step (.block b)).history := by
    intro id hid
    obtain ⟨block, hmem⟩ := h.inserted id hid
    exact ⟨block, hhistory ▸ List.mem_cons_of_mem _ hmem⟩
  rcases hwell.block_cases b with ⟨id, hused, huse⟩ | ⟨hused, hspares⟩
  · -- the block used moves to the front of the list
    rw [hused] at huses
    have huses : (s.step (.block b)).uses = id :: s.uses := huses
    have hrecent : (s.step (.block b)).recent = id :: s.recent.erase id := by
      rw [recent, huses, eraseDups_cons_eq_erase]
      rfl
    refine ⟨h.dated.step _, huse.policy.trans h.policy, huse.capacity.trans h.capacity, ?_, ?_⟩
    · intro other
      rw [hrecent, List.take_succ_cons, List.mem_cons, ← h.stays_iff]
      exact hwell.holds_of_uses huse
    · intro other hother
      rw [huses, List.mem_cons] at hother
      rcases hother with rfl | hother
      · rcases inserted_or_holds hused with ⟨block, rfl, hanswer⟩ | hholds
        · exact ⟨block, by rw [hhistory, hanswer]; exact List.mem_cons_self⟩
        · refine hinserted other (List.mem_eraseDups.1 ?_)
          exact List.mem_of_mem_take ((h.holds_iff other).1 hholds)
      · exact hinserted other hother
  · rw [hused] at huses
    have huses : (s.step (.block b)).uses = s.uses := huses
    refine ⟨h.dated.step _, hspares.policy.trans h.policy, hspares.capacity.trans h.capacity, ?_, ?_⟩
    · intro other
      have hentries : (s.step (.block b)).cache.entries = s.cache.entries := hspares.entries
      rw [recent, huses, Cache.holds_iff, hentries, ← Cache.holds_iff]
      exact h.holds_iff other
    · intro other hother
      exact hinserted other (huses ▸ hother)

theorem foldl (h : s.HoldsRecent (n + 1)) (calls : List BlockCall) :
    ((calls.map Call.block).foldl Lifetime.step s).HoldsRecent (n + 1) ∧
      ((calls.map Call.block).foldl Lifetime.step s).history.map Prod.fst =
        (calls.map Call.block).reverse ++ s.history.map Prod.fst := by
  induction calls generalizing s with
  | nil => exact ⟨h, rfl⟩
  | cons b rest ih =>
    obtain ⟨hrest, hhistory⟩ := ih (h.step b)
    refine ⟨hrest, hhistory.trans ?_⟩
    rw [h.history_step]
    simp

end HoldsRecent

theorem holdsRecent_create (hn : CapacityOk n) (hdated : s.Dated) (hpolicy : s.cache.policy = .leastRecent)
    (hfree : ¬ s.cache.isEnabled) :
    (s.step (.capacity (.create n))).HoldsRecent n ∧ (s.step (.capacity (.create n))).history = [] := by
  have hhistory : (s.step (.capacity (.create n))).history = [] := if_neg hfree
  have huses : (s.step (.capacity (.create n))).uses = [] := by rw [uses, hhistory]; rfl
  have hcache : (s.step (.capacity (.create n))).cache = { s.cache with slots := List.replicate n none, clock := 0 } := by
    simp [Lifetime.step, call, serve, apply, create, hfree, hn, Outcome.ofExcept]
  refine ⟨⟨hdated.step _, ?_, ?_, ?_, ?_⟩, hhistory⟩
  · rw [hcache]
    exact hpolicy
  · rw [hcache, capacity, List.length_replicate]
  · intro id
    rw [recent, huses, hcache, Cache.holds_iff]
    simp [mem_entries]
  · intro id hid
    rw [huses] at hid
    exact absurd hid List.not_mem_nil

/-- Once a cache was taken into use with `n` slots, whatever is put in, overwritten or looked up, it holds the `n` blocks
used last if the one not used for the longest time makes room. So a block is found just if it was put in and fewer than
`n` others were used since. -/
theorem holds_most_recent (hn : CapacityOk n) (before : List Call)
    (hfree : ¬ (run .leastRecent before).cache.isEnabled) (calls : List BlockCall) :
    let s := run .leastRecent (before ++ .capacity (.create n) :: calls.map .block)
    s.history.map Prod.fst = (calls.map Call.block).reverse ∧
      ∀ id, ((∃ e, some e ∈ s.cache.slots ∧ e.id = id) ↔ id ∈ s.uses.eraseDups.take n) ∧
        ((∃ b, (s.cache.call (.block (.lookup id))).1 = .found (.ok (some b))) ↔
          (∃ block, (.block (.insert id block), .done (.ok ())) ∈ s.history) ∧
            (s.uses.takeWhile (· ≠ id)).eraseDups.length < n) := by
  intro s
  have hpos : 0 < n := Nat.lt_of_lt_of_le (by decide) hn.1
  obtain ⟨m, rfl⟩ := Nat.exists_eq_succ_of_ne_zero (Nat.ne_of_gt hpos)
  obtain ⟨hdated, hpolicy⟩ := Dated.run .leastRecent before
  obtain ⟨hcreated, hnil⟩ := holdsRecent_create hn hdated hpolicy hfree
  obtain ⟨hs, hhistory⟩ : s.HoldsRecent (m + 1) ∧ s.history.map Prod.fst = _ := by
    have hrun : s = (calls.map Call.block).foldl Lifetime.step
        ((run .leastRecent before).step (.capacity (.create (m + 1)))) := by
      simp only [s, run, List.foldl_append, List.foldl_cons]
    rw [hrun]
    exact hcreated.foldl calls
  rw [hnil, List.map_nil, List.append_nil] at hhistory
  refine ⟨hhistory, fun id => ?_⟩
  have hholds : s.cache.holds id ↔ id ∈ s.uses.eraseDups.take (m + 1) := hs.holds_iff id
  refine ⟨?_, ?_⟩
  · rw [← hholds, Cache.holds_iff]
    simp only [mem_entries]
  · rw [found_iff hs.isEnabled, hholds]
    constructor
    · intro hmem
      have huse : id ∈ s.uses := List.mem_eraseDups.1 (List.mem_of_mem_take hmem)
      exact ⟨hs.inserted id huse, (mem_take_eraseDups huse).1 hmem⟩
    · rintro ⟨⟨block, hmem⟩, hlt⟩
      have huse : id ∈ s.uses := List.mem_filterMap.2 ⟨_, hmem, rfl⟩
      exact (mem_take_eraseDups huse).2 hlt

/-- Of three blocks in two slots, the one that was not overwritten is gone. -/
theorem holds_most_recent_of_update :
    let before : List Call := [.capacity (.create 3), .block (.insert ⟨0, 1⟩ .zero), .capacity .destroy]
    let calls : List BlockCall := [.insert ⟨0, 0⟩ .zero, .insert ⟨0, 1⟩ .zero, .update ⟨0, 0⟩ .zero, .insert ⟨0, 2⟩ .zero]
    let s := run .leastRecent (before ++ .capacity (.create 2) :: calls.map .block)
    CapacityOk 2 ∧ ¬ (run .leastRecent before).cache.isEnabled ∧
      (∃ b, (s.cache.call (.block (.lookup ⟨0, 0⟩))).1 = .found (.ok (some b))) ∧
      ¬ ∃ b, (s.cache.call (.block (.lookup ⟨0, 1⟩))).1 = .found (.ok (some b)) := by
  intro before calls s
  have hn : CapacityOk 2 := by decide
  have hfree : ¬ (run .leastRecent before).cache.isEnabled := by decide
  have huses : s.uses = [⟨0, 2⟩, ⟨0, 0⟩, ⟨0, 1⟩, ⟨0, 0⟩] := rfl
  obtain ⟨-, hfound⟩ := holds_most_recent hn before hfree calls
  refine ⟨hn, hfree, ?_, ?_⟩
  · refine (hfound ⟨0, 0⟩).2.2 ⟨⟨.zero, ?_⟩, ?_⟩
    · exact List.mem_of_getElem? (i := 3) rfl
    · show (s.uses.takeWhile (· ≠ ⟨0, 0⟩)).eraseDups.length < 2
      rw [huses]
      decide
  · intro hlookup
    obtain ⟨-, hlt⟩ := (hfound ⟨0, 1⟩).2.1 hlookup
    have hlt : (s.uses.takeWhile (· ≠ ⟨0, 1⟩)).eraseDups.length < 2 := hlt
    rw [huses] at hlt
    revert hlt
    decide

end Lifetime

end DiskArray.Cache
