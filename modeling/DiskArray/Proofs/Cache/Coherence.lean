import DiskArray.Proofs.Cache.Operations
import Mathlib.Logic.Function.Basic

/-!
# Coherent caches

A cache is coherent with the blocks of an array when it is well-formed and holds what the array holds
(`Cache.Coherent`). Keeping a block that was read, keeping one that was just written, every look-up and every
change of the capacity keep it so.
-/

namespace DiskArray

/-- The array has such a block. -/
def BlockId.InArray (id : BlockId) : Prop := id.disk < diskCount ∧ id.block < blocksPerDisk

theorem BlockId.InArray.flat_lt {id : BlockId} (h : id.InArray) : id.flat < blockCount := by
  obtain ⟨hdisk, hblock⟩ : id.disk < 16 ∧ id.block < 256 := h
  show id.disk * 256 + id.block < 4096
  omega

theorem BlockId.InArray.flat_inj {a b : BlockId} (ha : a.InArray) (hb : b.InArray)
    (h : a.flat = b.flat) : a = b := by
  obtain ⟨_, hablock⟩ : a.disk < 16 ∧ a.block < 256 := ha
  obtain ⟨_, hbblock⟩ : b.disk < 16 ∧ b.block < 256 := hb
  have hflat : a.disk * 256 + a.block = b.disk * 256 + b.block := h
  cases a
  cases b
  simp only [BlockId.mk.injEq] at *
  omega

namespace Cache

/-- The cache holds what the array holds. -/
structure Coherent (c : Cache) (blocks : Nat → Block) : Prop where
  wellFormed : c.WellFormed
  inArray : ∀ e ∈ c.entries, e.id.InArray
  block_eq : ∀ e ∈ c.entries, e.block = blocks e.id.flat

variable {c c' : Cache} {blocks : Nat → Block} {id : BlockId} {block : Block} {i : Nat} {e : Entry}
  {r : Request}

namespace Coherent

theorem unused (policy : EvictionPolicy) (blocks : Nat → Block) : (Cache.unused policy).Coherent blocks where
  wellFormed := .unused policy
  inArray := fun _ he => absurd he List.not_mem_nil
  block_eq := fun _ he => absurd he List.not_mem_nil

theorem of_subset (h : c.Coherent blocks) (hc : c'.WellFormed) (hsub : c'.entries ⊆ c.entries) :
    c'.Coherent blocks where
  wellFormed := hc
  inArray := fun e he => h.inArray e (hsub he)
  block_eq := fun e he => h.block_eq e (hsub he)

theorem apply (h : c.Coherent blocks) (hr : c.apply r = .ok c') : c'.Coherent blocks :=
  have hc := h.wellFormed.apply hr
  h.of_subset hc.1 hc.2

theorem serve (h : c.Coherent blocks) (r : Request) : (c.serve r).state.Coherent blocks := by
  unfold Cache.serve Outcome.ofExcept
  cases hr : c.apply r with
  | ok c' => exact h.apply hr
  | error e => exact h

theorem asked (h : c.Coherent blocks) (henabled : c.isEnabled) : c.asked.Coherent blocks :=
  h.of_subset (h.wellFormed.asked henabled) (List.Subset.refl _)

theorem sought (h : c.Coherent blocks) : c.sought.Coherent blocks := by
  unfold Cache.sought
  split_ifs with henabled
  · exact h.asked henabled
  · exact h

/-- A block that was written is kept: all other blocks of the cache have other places in the array. -/
theorem keep_update (h : c.Coherent blocks) (hid : id.InArray) :
    (c.keep id block).Coherent (Function.update blocks id.flat block) where
  wellFormed := h.wellFormed.keep
  inArray := fun e he => by
    rcases mem_entries_of_mem_keep h.wellFormed he with rfl | ⟨hmem, _⟩
    · exact hid
    · exact h.inArray e hmem
  block_eq := fun e he => by
    rcases mem_entries_of_mem_keep h.wellFormed he with rfl | ⟨hmem, hne⟩
    · show block = Function.update blocks id.flat block id.flat
      rw [Function.update_self]
    · have hflat : e.id.flat ≠ id.flat := fun heq => hne ((h.inArray e hmem).flat_inj hid heq)
      rw [Function.update_of_ne hflat]
      exact h.block_eq e hmem

theorem keep (h : c.Coherent blocks) (hid : id.InArray) : (c.keep id (blocks id.flat)).Coherent blocks := by
  have hkeep : (c.keep id (blocks id.flat)).Coherent (Function.update blocks id.flat (blocks id.flat)) :=
    h.keep_update hid
  rwa [Function.update_eq_self] at hkeep

theorem access (h : c.Coherent blocks) (hid : id.InArray) :
    (c.access id (blocks id.flat)).Coherent blocks :=
  (h.keep hid).of_subset h.wellFormed.access fun _ he => mem_entries_access.1 he

theorem eq_of_find? (h : c.Coherent blocks) (hf : c.find? id = some (i, e)) :
    id.InArray ∧ e.block = blocks id.flat := by
  obtain ⟨hget, rfl⟩ := h.wellFormed.find?_eq_some hf
  have hmem := List.mem_of_getElem? hget
  exact ⟨h.inArray e hmem, h.block_eq e hmem⟩

theorem lookup (h : c.Coherent blocks) {b : Option Block} (hl : c.lookup id = .ok (b, c')) :
    c'.Coherent blocks := by
  by_cases henabled : c.isEnabled
  · cases hf : c.find? id with
    | some v =>
      rw [lookup_of_find? hf] at hl
      cases hl
      obtain ⟨hid, hblock⟩ := h.eq_of_find? hf
      rw [hblock]
      exact h.access hid
    | none =>
      rw [lookup_of_find?_eq_none henabled hf] at hl
      cases hl
      exact h.asked henabled
  · rw [lookup_of_not_enabled henabled] at hl
    cases hl

end Coherent

end Cache

end DiskArray
